import Inec.Primaries.Moves
import Mathlib.Tactic.IntervalCases

/-!
# One delegate, one vote

handleCastBallot and handleRemoteVote look at the row of the delegate, have the ballot encrypted or its proof
verified, insert the ballot and only then mark the row. The table has no constraint on the delegate and the
round of a ballot, so whether a delegate votes twice in a round is up to the look at the row. It is reliable as
long as no two requests of a delegate for one round are under way at a time, the mark is made, and the delegate
does not come back to a round after voting in one of another number: the row has room for the number of one
round only.
-/

namespace Inec

/-- Who has voted where: the delegates and the rounds of the ballots that are no decoys. -/
def Convention.voteKeys (db : Convention) : List (String × String) :=
  (db.ballots.filter fun b => !b.isDecoy).map fun b => (b.delegateId, b.roundId)

/-- The number the row of a delegate is marked with. -/
def Convention.markedFor (db : Convention) (delegateId : String) : Option Int :=
  (db.delegate? delegateId).bind fun d => if d.hasVoted then d.voteRound else none

namespace VotePhase

/-- The vote of a request between its look at the row and the insert. -/
def pending? : VotePhase → Option Vote
  | checked v _ => some v
  | sealed v _ _ _ => some v
  | _ => none

/-- The vote of a request between its look at the row and the mark. -/
def unmarked? : VotePhase → Option Vote
  | stored v _ => some v
  | p => p.pending?

theorem unmarked?_of_pending? {p : VotePhase} {v : Vote} (h : p.pending? = some v) : p.unmarked? = some v := by
  cases p <;> first | exact h | cases h

end VotePhase

def OneVote (s : Primaries) : Prop := s.db.voteKeys.Nodup

/-- A request looks at the row of a delegate when no other of this delegate and round is between its look and
its mark, and a delegate whose row is marked for another number has no ballot in the round. A mark that is due
is made. -/
def VotesInTurn (s : Primaries) : PrimariesAct → Prop
  | .vote request .check => ∀ v, s.votes request = .opened v →
      (∀ other w, (s.votes other).unmarked? = some w → w.voter ≠ v.voter) ∧
        ∀ number, s.db.markedFor v.delegateId = some number → number ≠ s.db.roundNumber v.roundId →
          v.voter ∉ s.db.voteKeys
  | .vote request (.mark ok) => ∀ v number, s.votes request = .stored v number → ok = true
  | _ => True

/-! ### What the statements leave -/

namespace Convention

variable {db : Convention}

theorem markedFor_of_mayVote {v : Vote} (h : db.mayVote v = true) :
    db.markedFor v.delegateId ≠ some (db.roundNumber v.roundId) := by
  intro hmarked
  rw [mayVote] at h
  obtain ⟨d, hd, hvoted⟩ := Option.bind_eq_some_iff.mp hmarked
  rw [hd] at h
  dsimp only at hvoted h
  split at hvoted
  case isTrue hhas => simp [hhas, hvoted] at h
  case isFalse => cases hvoted

theorem office_voteKeys (db : Convention) (act : OfficeAct) : (db.office act).voteKeys = db.voteKeys := by
  rcases db.office_ballots act with heq | ⟨_, _, _, _, _, _, b, _, _, hdecoy, _, heq⟩
  · rw [voteKeys, heq, voteKeys]
  · rw [voteKeys, heq, List.filter_append, List.filter_cons_of_neg (by simp [hdecoy]), List.filter_nil,
      List.append_nil, voteKeys]

theorem markTallied_voteKeys (db : Convention) (roundId : String) :
    (db.markTallied roundId).voteKeys = db.voteKeys := by
  apply filter_map_markTallied
  · intro b
    rfl
  · intro b
    rfl

theorem castBallot_voteKeys {v : Vote} {id ballotRef : String} {choice : Option String} {after : Convention}
    (h : db.castBallot v id ballotRef choice = some after) : after.voteKeys = db.voteKeys ++ [v.voter] := by
  obtain ⟨voteType, _, rfl, _⟩ := db.castBallot_eq_some h
  rw [voteKeys, List.filter_append, List.map_append]
  rfl

/-- A delegate that is marked stays marked. -/
theorem office_markedFor {id : String} {d : Delegate} (h : db.delegate? id = some d) (act : OfficeAct) :
    (db.office act).markedFor id = db.markedFor id := by
  obtain ⟨a, hafter, -⟩ := db.office_delegate? h act
  rw [markedFor, markedFor, hafter, h]
  rfl

theorem markVoted_delegate? (db : Convention) (delegateId : String) (number : Int) (id : String) :
    (db.markVoted delegateId number).delegate? id =
      (db.delegate? id).map fun d => if d.id = delegateId then
        { d with hasVoted := true, voteRound := some number } else d := by
  apply delegate?_updateDelegate
  intro d
  rfl

theorem markVoted_markedFor_self {delegateId : String} {d : Delegate}
    (h : db.delegate? delegateId = some d) (number : Int) :
    (db.markVoted delegateId number).markedFor delegateId = some number := by
  rw [markedFor, markVoted_delegate?, h, Option.map_some, if_pos (delegate?_id h)]
  rfl

theorem isSome_markVoted_markedFor {delegateId id : String} (h : (db.markedFor id).isSome = true) (number : Int) :
    ((db.markVoted delegateId number).markedFor id).isSome = true := by
  obtain ⟨n, hn⟩ := Option.isSome_iff_exists.mp h
  obtain ⟨d, hd, hvoted⟩ := Option.bind_eq_some_iff.mp hn
  rw [markedFor, markVoted_delegate?, hd, Option.map_some, Option.bind_some]
  split
  · rfl
  · rw [hvoted]
    rfl

end Convention

/-! ### What the steps keep -/

structure Primaries.VotesSound (s : Primaries) : Prop where
  nodup : s.db.voteKeys.Nodup
  /-- A request that is about to insert has no ballot of its voter in front of it. -/
  fresh : ∀ request v, (s.votes request).pending? = some v → v.voter ∉ s.db.voteKeys
  apart : ∀ request other v w, (s.votes request).pending? = some v → (s.votes other).pending? = some w →
    v.voter = w.voter → request = other
  known : ∀ request v number, s.votes request = .stored v number → (s.db.delegate? v.delegateId).isSome = true
  /-- A ballot has left its mark, or its request has yet to make it. -/
  traced : ∀ k ∈ s.db.voteKeys, (∃ request v number, s.votes request = .stored v number ∧ v.voter = k) ∨
    (s.db.markedFor k.1).isSome = true

section VotesSound

variable {custody : String → Option String} {s : Primaries} {request : Nat} {p : VotePhase} {db : Convention}

/-- One request moves on over new tables. -/
theorem Primaries.VotesSound.move (h : s.VotesSound) (hnodup : db.voteKeys.Nodup)
    (hfresh : ∀ v, p.pending? = some v → v.voter ∉ db.voteKeys ∧
      ∀ other w, other ≠ request → (s.votes other).pending? = some w → w.voter ≠ v.voter)
    (hothers : ∀ other w, other ≠ request → (s.votes other).pending? = some w → w.voter ∉ db.voteKeys)
    (hself : ∀ v n, p = .stored v n → (db.delegate? v.delegateId).isSome = true)
    (hknown : ∀ id, (s.db.delegate? id).isSome = true → (db.delegate? id).isSome = true)
    (htraced : ∀ k ∈ db.voteKeys, (∃ v n, p = .stored v n ∧ v.voter = k) ∨
      (∃ other v n, other ≠ request ∧ s.votes other = .stored v n ∧ v.voter = k) ∨
        (db.markedFor k.1).isSome = true) :
    ({ s with db := db }.setVote request p).VotesSound where
  nodup := hnodup
  fresh other w hw := by
    by_cases heq : other = request
    · rw [heq, Primaries.setVote_votes_self] at hw
      exact (hfresh w hw).1
    · rw [Primaries.setVote_votes_of_ne _ _ heq] at hw
      exact hothers other w heq hw
  apart first second v w hv hw hvoter := by
    by_cases hfirst : first = request
    · by_cases hsecond : second = request
      · rw [hfirst, hsecond]
      · rw [hfirst, Primaries.setVote_votes_self] at hv
        rw [Primaries.setVote_votes_of_ne _ _ hsecond] at hw
        exact absurd hvoter.symm ((hfresh v hv).2 second w hsecond hw)
    · rw [Primaries.setVote_votes_of_ne _ _ hfirst] at hv
      by_cases hsecond : second = request
      · rw [hsecond, Primaries.setVote_votes_self] at hw
        exact absurd hvoter ((hfresh w hw).2 first v hfirst hv)
      · rw [Primaries.setVote_votes_of_ne _ _ hsecond] at hw
        exact h.apart first second v w hv hw hvoter
  known other v n hv := by
    by_cases heq : other = request
    · rw [heq, Primaries.setVote_votes_self] at hv
      exact hself v n hv
    · rw [Primaries.setVote_votes_of_ne _ _ heq] at hv
      exact hknown _ (h.known other v n hv)
  traced k hk := by
    rcases htraced k hk with ⟨v, n, hp, hvoter⟩ | ⟨other, v, n, hne, hv, hvoter⟩ | hmarked
    · exact .inl ⟨request, v, n, by rw [Primaries.setVote_votes_self, hp], hvoter⟩
    · exact .inl ⟨other, v, n, by rw [Primaries.setVote_votes_of_ne _ _ hne, hv], hvoter⟩
    · exact .inr hmarked

/-- The tables change, and of the rows of the delegates only what says nothing about votes. -/
theorem Primaries.VotesSound.tables (h : s.VotesSound) (hkeys : db.voteKeys = s.db.voteKeys)
    (hknown : ∀ id, (s.db.delegate? id).isSome = true → (db.delegate? id).isSome = true)
    (hmarked : ∀ id, (s.db.markedFor id).isSome = true → (db.markedFor id).isSome = true) :
    Primaries.VotesSound { s with db := db } where
  nodup := hkeys ▸ h.nodup
  fresh other w hw := hkeys ▸ h.fresh other w hw
  apart := h.apart
  known other v n hv := hknown _ (h.known other v n hv)
  traced k hk := by
    rcases h.traced k (hkeys ▸ hk) with hstored | hmark
    · exact .inl hstored
    · exact .inr (hmarked _ hmark)

/-- A request moves on that neither stores a ballot nor has one to mark. -/
theorem Primaries.VotesSound.advance (h : s.VotesSound) (hkeys : db.voteKeys = s.db.voteKeys)
    (hdelegates : db.delegates = s.db.delegates) (hbefore : ∀ v n, s.votes request ≠ .stored v n)
    (hafter : ∀ v n, p ≠ .stored v n) (hfresh : ∀ v, p.pending? = some v → v.voter ∉ s.db.voteKeys ∧
      ∀ other w, other ≠ request → (s.votes other).pending? = some w → w.voter ≠ v.voter) :
    ({ s with db := db }.setVote request p).VotesSound := by
  have hdelegate : ∀ id, db.delegate? id = s.db.delegate? id := by
    intro id
    rw [Convention.delegate?, Convention.delegate?, hdelegates]
  apply h.move
  · exact hkeys ▸ h.nodup
  · intro v hv
    exact hkeys ▸ hfresh v hv
  · intro other w _ hw
    exact hkeys ▸ h.fresh other w hw
  · intro v n hp
    exact absurd hp (hafter v n)
  · intro id hid
    rw [hdelegate]
    exact hid
  · intro k hk
    rcases h.traced k (hkeys ▸ hk) with ⟨other, v, n, hv, hvoter⟩ | hmark
    · refine .inr (.inl ⟨other, v, n, ?_, hv, hvoter⟩)
      rintro rfl
      exact hbefore v n hv
    · refine .inr (.inr ?_)
      rw [Convention.markedFor, hdelegate]
      exact hmark

end VotesSound

theorem vote_votesSound (custody : String → Option String) (s : Primaries) (request : Nat) (act : VoteAct)
    (h : s.VotesSound) (hcond : VotesInTurn s (.vote request act)) : (s.vote custody request act).VotesSound := by
  rcases s.vote_cases custody request act with heq | ⟨p, db, hmove, heq⟩
  · rw [heq]
    exact h
  rw [heq]
  generalize hphase : s.votes request = before at hmove
  cases hmove with
  | refuse act p hp => exact h.advance rfl rfl (hphase ▸ hp) (by simp) (by simp [VotePhase.pending?])
  | openCast form v hform hopen =>
      exact h.advance rfl rfl (by simp [hphase]) (by simp) (by simp [VotePhase.pending?])
  | openRemote form session hsession hstatus =>
      exact h.advance rfl rfl (by simp [hphase]) (by simp) (by simp [VotePhase.pending?])
  | check v hmay =>
      obtain ⟨halone, hback⟩ := hcond v hphase
      refine h.advance rfl rfl (by simp [hphase]) (by simp) ?_
      intro w hw
      obtain rfl : v = w := Option.some.inj hw
      refine ⟨?_, fun other w _ hw => halone other w (VotePhase.unmarked?_of_pending? hw)⟩
      -- a ballot of the voter has been marked, and not with this number
      intro hmem
      rcases h.traced v.voter hmem with ⟨other, w, n, hw, hvoter⟩ | hmark
      · exact halone other w (by rw [hw]; rfl) hvoter
      · obtain ⟨n, hn⟩ := Option.isSome_iff_exists.mp hmark
        refine hback n hn ?_ hmem
        rintro rfl
        exact Convention.markedFor_of_mayVote hmay hn
  | encrypt answer v n ballotRef hperson hkeeps =>
      refine h.advance rfl rfl (by simp [hphase]) (by simp) ?_
      intro w hw
      obtain rfl : v = w := Option.some.inj hw
      have hpending : (s.votes request).pending? = some v := by rw [hphase]; rfl
      exact ⟨h.fresh request v hpending, fun other w hne hw hvoter => hne
        (h.apart other request w v hw hpending hvoter)⟩
  | verifyProof answer v n ballotRef choice hremote hkeeps =>
      refine h.advance rfl rfl (by simp [hphase]) (by simp) ?_
      intro w hw
      obtain rfl : v = w := Option.some.inj hw
      have hpending : (s.votes request).pending? = some v := by rw [hphase]; rfl
      exact ⟨h.fresh request v hpending, fun other w hne hw hvoter => hne
        (h.apart other request w v hw hpending hvoter)⟩
  | insert v n id ballotRef choice ok after hcast =>
      have hkeys := Convention.castBallot_voteKeys hcast
      obtain ⟨voteType, _, hafter, -, hdelegate⟩ := s.db.castBallot_eq_some hcast
      have hdelegates : ∀ id, db.delegate? id = s.db.delegate? id := by rw [hafter]; exact fun _ => rfl
      have hpending : (s.votes request).pending? = some v := by rw [hphase]; rfl
      apply h.move
      · rw [hkeys, List.nodup_append]
        refine ⟨h.nodup, List.nodup_singleton _, ?_⟩
        intro k hk k' hk' heq
        rw [List.mem_singleton.mp hk'] at heq
        exact h.fresh request v hpending (heq ▸ hk)
      · simp [VotePhase.pending?]
      · intro other w hne hw hmem
        rw [hkeys, List.mem_append, List.mem_singleton] at hmem
        rcases hmem with hmem | hvoter
        · exact h.fresh other w hw hmem
        · exact hne (h.apart other request w v hw hpending hvoter)
      · intro w n hw
        obtain ⟨rfl, -⟩ := VotePhase.stored.inj hw
        rw [hdelegates]
        exact hdelegate
      · intro id hid
        rw [hdelegates]
        exact hid
      · intro k hk
        rw [hkeys, List.mem_append, List.mem_singleton] at hk
        rcases hk with hk | rfl
        · rcases h.traced k hk with ⟨other, w, m, hw, hvoter⟩ | hmark
          · refine .inr (.inl ⟨other, w, m, ?_, hw, hvoter⟩)
            rintro rfl
            rw [hphase] at hw
            cases hw
          · refine .inr (.inr ?_)
            rw [Convention.markedFor, hdelegates]
            exact hmark
        · exact .inl ⟨v, n, rfl, rfl⟩
  | mark v n ok =>
      obtain rfl := hcond v n hphase
      obtain ⟨d, hd⟩ := Option.isSome_iff_exists.mp (h.known request v n hphase)
      apply h.move
      · exact h.nodup
      · simp [VotePhase.pending?]
      · intro other w _ hw
        exact h.fresh other w hw
      · simp
      · intro id hid
        rw [if_pos rfl, Convention.markVoted_delegate?, Option.isSome_map]
        exact hid
      · intro k hk
        rcases h.traced k hk with ⟨other, w, m, hw, rfl⟩ | hmark
        · by_cases heq : other = request
          · refine .inr (.inr ?_)
            rw [heq, hphase] at hw
            obtain ⟨rfl, -⟩ := VotePhase.stored.inj hw
            rw [if_pos rfl, Vote.voter, Convention.markVoted_markedFor_self hd]
            rfl
          · exact .inr (.inl ⟨other, w, m, heq, hw, rfl⟩)
        · exact .inr (.inr (Convention.isSome_markVoted_markedFor hmark n))
  | finish v ok =>
      refine h.advance ?_ ?_ (by simp [hphase]) (by simp) (by simp [VotePhase.pending?])
      · split
        · rw [Convention.voteKeys, Convention.finishVote_ballots, Convention.voteKeys]
        · rfl
      · split
        · exact s.db.finishVote_delegates v
        · rfl

theorem primariesStep_votesSound (custody : String → Option String) (s : Primaries) (act : PrimariesAct)
    (h : s.VotesSound) (hcond : VotesInTurn s act) : (s.step custody act).VotesSound := by
  cases act with
  | office act =>
      apply h.tables (s.db.office_voteKeys act)
      · intro id hid
        obtain ⟨d, hd⟩ := Option.isSome_iff_exists.mp hid
        obtain ⟨a, hafter, -⟩ := s.db.office_delegate? hd act
        rw [hafter]
        rfl
      · intro id hid
        obtain ⟨n, hn⟩ := Option.isSome_iff_exists.mp hid
        obtain ⟨d, hd, -⟩ := Option.bind_eq_some_iff.mp hn
        rw [Convention.office_markedFor hd]
        exact hid
  | vote request act => exact vote_votesSound custody s request act h hcond
  | auth request act =>
      rcases s.auth_cases request act with heq | ⟨p, db, hmove, heq⟩
      · rw [Primaries.step, heq]
        exact h
      · rw [Primaries.step, heq]
        have hframe := hmove.frame
        have htables := @Primaries.VotesSound.tables s db h (by rw [hframe]; rfl)
          (by rw [hframe]; exact fun _ hid => hid) (by rw [hframe]; exact fun _ hid => hid)
        exact ⟨htables.nodup, htables.fresh, htables.apart, htables.known, htables.traced⟩
  | tally request act =>
      rcases s.tally_cases custody request act with heq | ⟨p, db, hmove, heq⟩
      · rw [Primaries.step, heq]
        exact h
      · rw [Primaries.step, heq]
        have hkeys : db.voteKeys = s.db.voteKeys := by
          rcases hmove.ballots with hballots | ⟨roundId, hballots⟩
          · rw [Convention.voteKeys, hballots, Convention.voteKeys]
          · rw [Convention.voteKeys, hballots]
            exact s.db.markTallied_voteKeys roundId
        have hframe := hmove.frame
        have htables := @Primaries.VotesSound.tables s db h hkeys (by rw [hframe]; exact fun _ hid => hid)
          (by rw [hframe]; exact fun _ hid => hid)
        exact ⟨htables.nodup, htables.fresh, htables.apart, htables.known, htables.traced⟩

section Samples

/-- The delegate votes in person and then from the session. -/
def votesAgain : List PrimariesAct := samplePrimary ++ sampleCast 0 "bal-1" ++ (sampleRemote 1 "bal-2").take 2

/-- Both requests look at the row of the delegate before either has inserted its ballot. -/
def bothLook : List PrimariesAct :=
  samplePrimary ++ (sampleCast 0 "bal-1").take 2 ++ (sampleRemote 1 "bal-2").take 2 ++
    (sampleCast 0 "bal-1").drop 2 ++ (sampleRemote 1 "bal-2").drop 2

end Samples

end Inec
