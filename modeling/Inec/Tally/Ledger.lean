import Inec.Lib.Owned
import Inec.Tally.Service

/-!
# The books of the tally service

`State.Ledger` is what holds as long as no submission breaks off between its record and its answer: the
contributions of a submission are the counts that its phase says it has added, and every ciphertext in memory is
the product of what was contributed to it. `State.Follows` is what holds as long as the upserts of a party reach
the table in order. `Effect` says once what an input comes to, and a step that is `Regular` keeps both.
-/

namespace Inec.Tally

open Checks

/-! ### What is counted -/

/-- No handler is between its record and its answer. -/
def State.Idle (s : State) : Prop := ∀ x ∈ s.submissions, x.phase.underWay = false

instance (s : State) : Decidable s.Idle := inferInstanceAs (Decidable (∀ x ∈ s.submissions, _))

/-- The table holds what the memory does. -/
def State.Stored (s : State) : Prop :=
  ∀ electionId party, s.tally.lookup (electionId, party) = s.ciphertext? electionId party

def Contribution.isTo (c : Contribution) (electionId party : String) : Bool :=
  c.electionId == electionId && c.party == party

def State.contributionsTo (s : State) (electionId party : String) : List Contribution :=
  s.contributions.filter (·.isTo electionId party)

def State.contributionsOf (s : State) (index : Nat) : List Contribution :=
  s.contributions.filter (·.submission == index)

/-- The ciphertexts, added one to the other. -/
def product (contributions : List Contribution) : Option Nat :=
  contributions.foldl (fun total c => some (State.added c.key total c.ciphertext)) none

/-- These are the counts that a submission has added. -/
def Submission.Holds (x : Submission) (counts : List (String × Int)) : Prop :=
  match x.phase with
  | .adding rest | .persisting _ _ rest => counts ++ rest = x.vote.partyVotes
  | .accepted => counts = x.vote.partyVotes
  | .refused _ | .failed => counts = []

structure State.Ledger (s : State) : Prop where
  owned : ∀ c ∈ s.contributions, ∃ x, s.submissions[c.submission]? = some x ∧ c.electionId = x.vote.electionId
  held : ∀ (i : Nat) (x : Submission), s.submissions[i]? = some x →
    x.Holds ((s.contributionsOf i).map fun c => (c.party, c.count))
  tallied : ∀ electionId party, s.ciphertext? electionId party = product (s.contributionsTo electionId party)

/-! ### What an input comes to -/

inductive Effect (s : State) : Input → State → Prop
  | still {i : Input} : Effect s i s
  /-- A call that ends before its record. -/
  | ended {i : Input} (vote : EncryptedVote) (phase : Phase)
      (atOnce : phase = .failed ∨ ∃ status, phase = .refused status) :
      Effect s i (s.call vote phase)
  /-- The record may be inserted, and the call fails. -/
  | unanswered (vote : EncryptedVote) (key : PaillierPrivateKey) (up : s.privateKey = some key) :
      Effect s (.submit vote (some .unanswered)) ((s.insertRecord vote).call vote .failed)
  | recorded (vote : EncryptedVote) (key : PaillierPrivateKey) (up : s.privateKey = some key)
      (fresh : vote.record ∉ s.tallySubmissions) :
      Effect s (.submit vote none) ((s.insertRecord vote).call vote (.adding vote.partyVotes))
  | finished {index : Nat} {draws : List Nat} (vote : EncryptedVote)
      (found : s.submissions[index]? = some ⟨vote, .adding []⟩) :
      Effect s (.resume index draws)
        { s.setPhase index vote .accepted with encryptedTallies := s.encryptedTallies.opened vote.electionId }
  | outOfRange {index : Nat} {draws : List Nat} (vote : EncryptedVote) (party : String) (count : Int)
      (rest : List (String × Int)) (key : PaillierPrivateKey) (up : s.privateKey = some key)
      (found : s.submissions[index]? = some ⟨vote, .adding ((party, count) :: rest)⟩)
      (range : ¬(0 ≤ count ∧ count < key.publicKey.n)) :
      Effect s (.resume index draws)
        { s.setPhase index vote .failed with encryptedTallies := s.encryptedTallies.opened vote.electionId }
  | added {index : Nat} {draws : List Nat} (vote : EncryptedVote) (party : String) (count : Int)
      (rest : List (String × Int)) (ciphertext : Nat) (key : PaillierPrivateKey) (up : s.privateKey = some key)
      (found : s.submissions[index]? = some ⟨vote, .adding ((party, count) :: rest)⟩)
      (encrypted : key.publicKey.encrypt count draws = some (.ok ciphertext)) :
      Effect s (.resume index draws) (s.add index vote key.publicKey party count ciphertext rest)
  | persisted {index : Nat} {fault : Option Fault} (vote : EncryptedVote) (party : String) (ciphertext : Nat)
      (rest : List (String × Int)) (found : s.submissions[index]? =
        some ⟨vote, .persisting party ciphertext rest⟩) :
      Effect s (.persist index fault) (s.persist index vote party ciphertext rest fault)
  | restarted (draw : KeyDraw) : Effect s (.restart draw) (s.restart draw)

theorem effect_step (s : State) (i : Input) : Effect s i (step s i) := by
  cases i with
  | submit vote fault =>
      show Effect s _ (s.submit vote fault)
      unfold State.submit
      split
      · exact .ended vote _ (.inr ⟨503, rfl⟩)
      · exact .ended vote _ (.inl rfl)
      · rename_i key hkey
        exact .unanswered vote key hkey
      · rename_i key hkey
        split
        · exact .ended vote _ (.inr ⟨409, rfl⟩)
        · rename_i hfresh
          exact .recorded vote key hkey hfresh
  | resume index draws =>
      unfold step
      dsimp only
      split
      · rename_i vote rest key hfound hkey
        obtain _ | ⟨⟨party, count⟩, rest⟩ := rest
        · exact .finished vote hfound
        · rw [State.resume]
          split
          · exact .still
          · rename_i err henc
            refine .outOfRange vote party count rest key hkey hfound ?_
            intro hrange
            rw [PaillierPublicKey.encrypt, if_pos hrange] at henc
            obtain ⟨r, _, hok⟩ := Option.map_eq_some_iff.mp henc
            cases hok
          · rename_i ciphertext henc
            exact .added vote party count rest ciphertext key hkey hfound henc
      · exact .still
  | persist index fault =>
      unfold step
      dsimp only
      split
      · rename_i vote party ciphertext rest hfound
        exact .persisted vote party ciphertext rest hfound
      · exact .still
  | restart draw => exact .restarted draw

/-! ### Regular steps -/

/-- The ciphertext of a party that a handler is about to upsert. -/
def State.pending (s : State) (index : Nat) (electionId party : String) : Option Nat :=
  match s.submissions[index]? with
  | some ⟨vote, .persisting party' ciphertext _⟩ =>
      if vote.electionId = electionId ∧ party' = party then some ciphertext else none
  | _ => none

/-- The handler's ciphertext is the one in memory, or another handler is still about to upsert that one. -/
def State.InOrder (s : State) (index : Nat) (electionId party : String) (ciphertext : Nat) : Prop :=
  s.ciphertext? electionId party = some ciphertext ∨
    ∃ j, j < s.submissions.length ∧ j ≠ index ∧
      (s.pending j electionId party).isSome = true ∧ s.pending j electionId party = s.ciphertext? electionId party

instance (s : State) (index : Nat) (electionId party : String) (ciphertext : Nat) :
    Decidable (s.InOrder index electionId party ciphertext) := inferInstanceAs (Decidable (_ ∨ ∃ j, j < _ ∧ _))

/-- The count that a handler goes on with. -/
def State.nextCount (s : State) (index : Nat) : Option (EncryptedVote × String × Int) :=
  match s.submissions[index]? with
  | some ⟨vote, .adding ((party, count) :: _)⟩ => some (vote, party, count)
  | _ => none

/-- The ciphertext that a handler upserts. -/
def State.upserting (s : State) (index : Nat) : Option (EncryptedVote × String × Nat) :=
  match s.submissions[index]? with
  | some ⟨vote, .persisting party ciphertext _⟩ => some (vote, party, ciphertext)
  | _ => none

/-- Nothing breaks off: the count that a handler goes on with is in range, an upsert does not fail and comes in
order, and a restart meets no submission under way. -/
def State.Regular (s : State) : Input → Prop
  | .submit _ _ => True
  | .resume index _ => ∀ next ∈ s.nextCount index, ∀ key ∈ s.privateKey, 0 ≤ next.2.2 ∧ next.2.2 < key.publicKey.n
  | .persist index fault => ∀ next ∈ s.upserting index,
      fault = none ∧ s.InOrder index next.1.electionId next.2.1 next.2.2
  | .restart _ => s.Idle

instance (s : State) : (i : Input) → Decidable (s.Regular i)
  | .submit _ _ => .isTrue trivial
  | .resume index _ => inferInstanceAs (Decidable (∀ next ∈ s.nextCount index, ∀ key ∈ s.privateKey, _))
  | .persist index _ => inferInstanceAs (Decidable (∀ next ∈ s.upserting index, _))
  | .restart _ => inferInstanceAs (Decidable s.Idle)

/-- The draws of a start are primes. -/
def Input.Prime : Input → Prop
  | .restart draw => draw.Prime
  | _ => True

/-- Every ciphertext is in the table, or a handler is about to upsert it. -/
def State.Follows (s : State) : Prop :=
  ∀ electionId party, s.tally.lookup (electionId, party) = s.ciphertext? electionId party ∨
    ∃ j, (s.pending j electionId party).isSome = true ∧ s.pending j electionId party =
      s.ciphertext? electionId party

variable {s t : State}

theorem Submission.Holds.of_phase {vote : EncryptedVote} {phase : Phase}
    (hphase : phase = .failed ∨ ∃ status, phase = .refused status) : Submission.Holds ⟨vote, phase⟩ [] := by
  rcases hphase with rfl | ⟨status, rfl⟩
  · rfl
  · rfl

/-- A step that contributes nothing. -/
theorem State.Ledger.moved (h : s.Ledger) (hsame : t.contributions = s.contributions)
    (hcipher : ∀ electionId party, t.ciphertext? electionId party = s.ciphertext? electionId party)
    (hold : ∀ (i : Nat) (x : Submission), s.submissions[i]? = some x →
      ∃ x' : Submission, t.submissions[i]? = some x' ∧ x'.vote = x.vote ∧ ∀ counts,
        x.Holds counts → x'.Holds counts)
    (hnew : ∀ (i : Nat) (x' : Submission), s.submissions[i]? = none → t.submissions[i]? = some x' → x'.Holds []) :
    t.Ledger := by
  refine ⟨?_, ?_, ?_⟩
  · intro c hc
    rw [hsame] at hc
    obtain ⟨x, hx, helection⟩ := h.owned c hc
    obtain ⟨x', hx', hvote, _⟩ := hold _ x hx
    exact ⟨x', hx', by rw [hvote]; exact helection⟩
  · intro i x' hx'
    rw [State.contributionsOf, hsame]
    cases hx : s.submissions[i]? with
    | some x =>
        obtain ⟨x'', hx'', _, hholds⟩ := hold i x hx
        rw [hx'] at hx''
        cases hx''
        exact hholds _ (h.held i x hx)
    | none =>
        have hnone : s.contributions.filter (·.submission == i) = [] := by
          rw [List.filter_eq_nil_iff]
          intro c hc hi
          obtain ⟨y, hy, _⟩ := h.owned c hc
          rw [beq_iff_eq.mp hi, hx] at hy
          cases hy
        rw [hnone]
        exact hnew i x' hx hx'
  · intro electionId party
    rw [hcipher, State.contributionsTo, hsame]
    exact h.tallied electionId party

/-- A call that begins. -/
theorem State.Ledger.called (h : s.Ledger) {vote : EncryptedVote} {phase : Phase}
    (hsub : t.submissions = s.submissions ++ [⟨vote, phase⟩]) (hsame : t.contributions = s.contributions)
    (hcipher : ∀ electionId party, t.ciphertext? electionId party = s.ciphertext? electionId party)
    (hholds : Submission.Holds ⟨vote, phase⟩ []) : t.Ledger := by
  refine h.moved hsame hcipher ?_ ?_
  · intro i x hx
    refine ⟨x, ?_, rfl, fun _ hcounts => hcounts⟩
    rw [hsub, List.getElem?_append_left (List.getElem?_eq_some_iff.mp hx).1]
    exact hx
  · intro i x' hnone hx'
    have hle : s.submissions.length ≤ i := List.getElem?_eq_none_iff.mp hnone
    rw [hsub, List.getElem?_append_right hle] at hx'
    have hzero : i - s.submissions.length = 0 := by
      have hlt := (List.getElem?_eq_some_iff.mp hx').1
      rw [List.length_singleton] at hlt
      omega
    rw [hzero] at hx'
    cases hx'
    exact hholds

/-- A call that goes on. -/
theorem State.Ledger.phased (h : s.Ledger) {index : Nat} {vote : EncryptedVote} {old phase : Phase}
    (found : s.submissions[index]? = some ⟨vote, old⟩)
    (hsub : t.submissions = s.submissions.set index ⟨vote, phase⟩) (hsame : t.contributions = s.contributions)
    (hcipher : ∀ electionId party, t.ciphertext? electionId party = s.ciphertext? electionId party)
    (hholds : ∀ counts, Submission.Holds ⟨vote, old⟩ counts →
      Submission.Holds ⟨vote, phase⟩ counts) : t.Ledger := by
  have hlt : index < s.submissions.length := (List.getElem?_eq_some_iff.mp found).1
  refine h.moved hsame hcipher ?_ ?_
  · intro i x hx
    by_cases hi : i = index
    · subst hi
      rw [found] at hx
      cases hx
      exact ⟨⟨vote, phase⟩, by rw [hsub, List.getElem?_set_self hlt], rfl, hholds⟩
    · refine ⟨x, ?_, rfl, fun _ hcounts => hcounts⟩
      rw [hsub, List.getElem?_set_ne (Ne.symm hi)]
      exact hx
  · intro i x' hnone hx'
    have hle : s.submissions.length ≤ i := List.getElem?_eq_none_iff.mp hnone
    have hlt' := (List.getElem?_eq_some_iff.mp hx').1
    rw [hsub, List.length_set] at hlt'
    omega

theorem product_append (contributions : List Contribution) (c : Contribution) :
    product (contributions ++ [c]) = some (State.added c.key (product contributions) c.ciphertext) := by
  rw [product, List.foldl_append]
  rfl

theorem State.ciphertext?_add (index : Nat) (vote : EncryptedVote) (key : PaillierPublicKey)
    (party : String) (count : Int) (ciphertext : Nat) (rest : List (String × Int)) (electionId party' : String) :
    (s.add index vote key party count ciphertext rest).ciphertext? electionId party' =
      if (electionId, party') = (vote.electionId, party) then
        some (State.added key (s.ciphertext? vote.electionId party) ciphertext)
      else s.ciphertext? electionId party' := by
  show ((s.encryptedTallies.opened vote.electionId).set vote.electionId party _).ciphertext? electionId party' = _
  rw [EncryptedTallies.ciphertext?_set, EncryptedTallies.ciphertext?_opened]
  rfl

theorem State.getElem?_add {index : Nat} {vote : EncryptedVote} {key : PaillierPublicKey} {party : String} {count : Int}
    {ciphertext : Nat} {rest : List (String × Int)} (hlt : index < s.submissions.length) :
    (s.add index vote key party count ciphertext rest).submissions[index]? = some
      ⟨vote, .persisting party (State.added key (s.ciphertext? vote.electionId party) ciphertext) rest⟩ :=
  List.getElem?_set_self hlt

theorem Contribution.isTo_iff {c : Contribution} {electionId party : String} :
    c.isTo electionId party = true ↔ (electionId, party) = (c.electionId, c.party) := by
  rw [Contribution.isTo, Bool.and_eq_true, beq_iff_eq, beq_iff_eq, Prod.mk.injEq]
  exact and_congr eq_comm eq_comm

/-- A handler that adds a count. -/
theorem State.Ledger.add (h : s.Ledger) {index : Nat} {vote : EncryptedVote}
    {key : PaillierPublicKey} {party : String} {count : Int} {ciphertext : Nat} {rest : List (String × Int)}
    (found : s.submissions[index]? = some ⟨vote, .adding ((party, count) :: rest)⟩) :
    (s.add index vote key party count ciphertext rest).Ledger := by
  have hlt : index < s.submissions.length := (List.getElem?_eq_some_iff.mp found).1
  refine ⟨?_, ?_, ?_⟩
  · intro c hc
    show ∃ x, (s.submissions.set index _)[c.submission]? = some x ∧ c.electionId = x.vote.electionId
    rcases List.mem_append.mp hc with hold | hnew
    · obtain ⟨x, hx, helection⟩ := h.owned c hold
      by_cases hi : c.submission = index
      · rw [hi, found] at hx
        cases hx
        rw [hi, List.getElem?_set_self hlt]
        exact ⟨_, rfl, helection⟩
      · rw [List.getElem?_set_ne (Ne.symm hi)]
        exact ⟨x, hx, helection⟩
    · rw [List.mem_singleton.mp hnew]
      exact ⟨_, List.getElem?_set_self hlt, rfl⟩
  · intro i x hx
    replace hx : (s.submissions.set index _)[i]? = some x := hx
    show x.Holds (((s.contributions ++ [_]).filter fun c : Contribution => c.submission == i).map _)
    rw [List.filter_append, List.map_append]
    by_cases hi : i = index
    · subst hi
      rw [List.getElem?_set_self hlt] at hx
      cases hx
      have hheld : _ ++ (party, count) :: rest = vote.partyVotes := h.held _ _ found
      rw [List.filter_singleton, beq_self_eq_true]
      show (_ ++ [(party, count)]) ++ rest = vote.partyVotes
      rw [List.append_assoc]
      exact hheld
    · rw [List.getElem?_set_ne (Ne.symm hi)] at hx
      rw [List.filter_singleton, beq_eq_false_iff_ne.mpr (Ne.symm hi)]
      show x.Holds (_ ++ [])
      rw [List.append_nil]
      exact h.held i x hx
  · intro electionId party'
    rw [State.ciphertext?_add]
    show _ = product ((s.contributions ++ [_]).filter (·.isTo electionId party'))
    rw [List.filter_append, List.filter_singleton]
    split
    · rename_i hkey
      rw [Contribution.isTo_iff.mpr hkey]
      show _ = product (_ ++ [_])
      rw [product_append]
      cases hkey
      rw [h.tallied]
      rfl
    · rename_i hkey
      rw [Bool.eq_false_iff.mpr fun hto => hkey (Contribution.isTo_iff.mp hto)]
      show _ = product (_ ++ [])
      rw [List.append_nil]
      exact h.tallied electionId party'

theorem State.Idle.map_cutOff (h : s.Idle) : s.submissions.map State.cutOff = s.submissions := by
  rw [List.map_congr_left, List.map_id]
  intro x hx
  rw [State.cutOff, h x hx]
  rfl

/-- What a start with two primes comes to. -/
theorem State.restart_eq {draw : KeyDraw} (h : draw.Prime) :
    ∃ key : PaillierPrivateKey, key.publicKey.n = draw.n ∧ key.Sound ∧ s.restart draw =
      { s with
        privateKey := some key
        encryptedTallies := EncryptedTallies.load ∅ s.tally.entries
        submissions := s.submissions.map State.cutOff } := by
  obtain ⟨key, hkey, hn, hsound⟩ := KeyDraw.exists_generate h
  refine ⟨key, hn, hsound, ?_⟩
  rw [State.restart, hkey]

theorem ciphertext?_load_entries (tally : TallyTable) (electionId party : String) :
    (EncryptedTallies.load ∅ tally.entries).ciphertext? electionId party = tally.lookup (electionId, party) := by
  rw [EncryptedTallies.ciphertext?_load _ _ tally.nodupKeys, EncryptedTallies.ciphertext?_empty, Option.or_none]
  rfl

theorem State.Regular.range {index : Nat} {draws : List Nat} {vote : EncryptedVote} {party : String} {count : Int}
    {rest : List (String × Int)} {key : PaillierPrivateKey} (h : s.Regular (.resume index draws))
    (found : s.submissions[index]? = some ⟨vote, .adding ((party, count) :: rest)⟩) (up : s.privateKey = some key) :
    0 ≤ count ∧ count < key.publicKey.n :=
  h (vote, party, count) (by rw [State.nextCount, found]; rfl) key up

theorem State.Regular.upsert {index : Nat} {fault : Option Fault} {vote : EncryptedVote} {party : String}
    {ciphertext : Nat} {rest : List (String × Int)} (h : s.Regular (.persist index fault))
    (found : s.submissions[index]? = some ⟨vote, .persisting party ciphertext rest⟩) :
    fault = none ∧ s.InOrder index vote.electionId party ciphertext :=
  h (vote, party, ciphertext) (by rw [State.upserting, found]; rfl)

theorem State.Ledger.of_effect {i : Input} (he : Effect s i t) (h : s.Ledger) (hstored : s.Idle → s.Stored)
    (hprime : i.Prime) (hw : s.Regular i) : t.Ledger := by
  cases he with
  | still => exact h
  | ended vote phase atOnce => exact h.called rfl rfl (fun _ _ => rfl) (.of_phase atOnce)
  | unanswered vote key up =>
      have hholds : Submission.Holds ⟨vote, .failed⟩ [] := rfl
      refine h.called ?_ ?_ ?_ hholds
      · unfold State.insertRecord
        split <;> rfl
      · unfold State.insertRecord
        split <;> rfl
      · intro electionId party
        unfold State.insertRecord
        split <;> rfl
  | recorded vote key up fresh =>
      have hholds : Submission.Holds ⟨vote, .adding vote.partyVotes⟩ [] := rfl
      rw [State.insertRecord, if_neg fresh]
      exact h.called rfl rfl (fun _ _ => rfl) hholds
  | finished vote found =>
      refine h.phased found rfl rfl (fun _ _ => EncryptedTallies.ciphertext?_opened _ _ _ _) ?_
      intro counts hcounts
      exact (List.append_nil counts).symm.trans hcounts
  | outOfRange vote party count rest key up found range =>
      exact absurd (hw.range found up) range
  | added vote party count rest ciphertext key up found encrypted => exact h.add found
  | persisted vote party ciphertext rest found =>
      rw [(hw.upsert found).1]
      exact h.phased found rfl rfl (fun _ _ => rfl) fun _ hcounts => hcounts
  | restarted draw =>
      have hidle : s.Idle := hw
      obtain ⟨key, _, _, heq⟩ := State.restart_eq (s := s) hprime
      rw [heq, hidle.map_cutOff]
      refine h.moved rfl ?_ ?_ ?_
      · intro electionId party
        exact (ciphertext?_load_entries s.tally electionId party).trans (hstored hidle electionId party)
      · exact fun i x hx => ⟨x, hx, rfl, fun _ hcounts => hcounts⟩
      · intro i x' hnone hx'
        rw [hnone] at hx'
        cases hx'

theorem ledger_start : start.Ledger := by
  refine ⟨nofun, ?_, fun _ _ => rfl⟩
  intro i x hx
  cases hx

/-! ### The table follows the memory -/

theorem State.pending_of_some {index : Nat} {vote : EncryptedVote} {party : String} {ciphertext : Nat}
    {rest : List (String × Int)} (found : s.submissions[index]? = some ⟨vote, .persisting party ciphertext rest⟩) :
    s.pending index vote.electionId party = some ciphertext := by
  simp only [State.pending, found, and_self, if_true]

theorem State.pending_of_idle (h : s.Idle) (index : Nat) (electionId party : String) :
    s.pending index electionId party = none := by
  unfold State.pending
  split
  · rename_i vote party' ciphertext rest found
    have hidle := h _ (List.mem_of_getElem? found)
    cases hidle
  · rfl

theorem State.Follows.stored (h : s.Follows) (hidle : s.Idle) : s.Stored := by
  intro electionId party
  rcases h electionId party with hstored | ⟨j, hsome, _⟩
  · exact hstored
  · rw [State.pending_of_idle hidle] at hsome
    cases hsome

/-- The handlers that are about to upsert stay where they are. -/
theorem State.pending_congr {index : Nat} (hsub : t.submissions[index]? = s.submissions[index]?)
    (electionId party : String) : t.pending index electionId party = s.pending index electionId party := by
  rw [State.pending, hsub, State.pending]

theorem State.lt_of_pending {index : Nat} {electionId party : String}
    (h : (s.pending index electionId party).isSome = true) : index < s.submissions.length := by
  apply Nat.lt_of_not_le
  intro hle
  rw [State.pending, List.getElem?_eq_none hle] at h
  cases h

/-- A step of a party that leaves the table, the memory and the pending upserts of the party alone. -/
theorem State.Follows.kept (h : s.Follows) {electionId party : String}
    (htally : t.tally.lookup (electionId, party) = s.tally.lookup (electionId, party))
    (hcipher : t.ciphertext? electionId party = s.ciphertext? electionId party)
    (hpending : ∀ j, (s.pending j electionId party).isSome = true →
      t.pending j electionId party = s.pending j electionId party) :
    t.tally.lookup (electionId, party) = t.ciphertext? electionId party ∨
      ∃ j, (t.pending j electionId party).isSome = true ∧ t.pending j electionId party =
        t.ciphertext? electionId party := by
  rw [htally, hcipher]
  rcases h electionId party with hstored | ⟨j, hsome, hcurrent⟩
  · exact .inl hstored
  · exact .inr ⟨j, by rw [hpending j hsome]; exact hsome, by rw [hpending j hsome]; exact hcurrent⟩

theorem State.pending_call (vote : EncryptedVote) (phase : Phase) {j : Nat} {electionId party : String}
    (hsome : (s.pending j electionId party).isSome = true) :
    (s.call vote phase).pending j electionId party = s.pending j electionId party :=
  State.pending_congr (List.getElem?_append_left (State.lt_of_pending hsome)) electionId party

/-- A handler that is not about to upsert the party may go on. -/
theorem State.pending_set {index : Nat} {x : Submission} (hsub : t.submissions = s.submissions.set index x)
    {electionId party : String} (hnot : s.pending index electionId party = none) {j : Nat}
    (hsome : (s.pending j electionId party).isSome = true) :
    t.pending j electionId party = s.pending j electionId party := by
  have hne : index ≠ j := by
    rintro rfl
    rw [hnot] at hsome
    cases hsome
  exact State.pending_congr (by rw [hsub, List.getElem?_set_ne hne]) electionId party

theorem State.pending_adding {index : Nat} {vote : EncryptedVote} {rest : List (String × Int)}
    (found : s.submissions[index]? = some ⟨vote, .adding rest⟩) (electionId party : String) :
    s.pending index electionId party = none := by
  simp only [State.pending, found]

theorem State.pending_other {index : Nat} {vote : EncryptedVote} {party : String} {ciphertext : Nat}
    {rest : List (String × Int)} (found : s.submissions[index]? = some ⟨vote, .persisting party ciphertext rest⟩)
    {electionId' party' : String} (hne : (electionId', party') ≠ (vote.electionId, party)) :
    s.pending index electionId' party' = none := by
  simp only [State.pending, found]
  rw [if_neg]
  rintro ⟨rfl, rfl⟩
  exact hne rfl

theorem State.Follows.of_effect {i : Input} (he : Effect s i t) (h : s.Follows) (hprime : i.Prime)
    (hw : s.Regular i) :
    t.Follows := by
  intro electionId party'
  cases he with
  | still => exact h electionId party'
  | ended vote phase atOnce => exact h.kept rfl rfl fun j hsome => State.pending_call vote phase hsome
  | unanswered vote key up =>
      rw [State.insertRecord]
      split
      · exact h.kept rfl rfl fun j hsome => State.pending_call vote _ hsome
      · exact h.kept rfl rfl fun j hsome => State.pending_call vote _ hsome
  | recorded vote key up fresh =>
      rw [State.insertRecord, if_neg fresh]
      exact h.kept rfl rfl fun j hsome => State.pending_call vote _ hsome
  | finished vote found =>
      exact h.kept rfl (EncryptedTallies.ciphertext?_opened _ _ _ _) fun j hsome =>
        State.pending_set rfl (State.pending_adding found _ _) hsome
  | outOfRange vote party count rest key up found range =>
      exact absurd (hw.range found up) range
  | @added index draws vote party count rest ciphertext key up found encrypted =>
      by_cases hkey : (electionId, party') = (vote.electionId, party)
      · obtain ⟨rfl, rfl⟩ := Prod.mk.inj hkey
        right
        have hlt : index < s.submissions.length := (List.getElem?_eq_some_iff.mp found).1
        have hpending : (s.add index vote key.publicKey party' count ciphertext rest).pending index vote.electionId
            party' = some (State.added key.publicKey (s.ciphertext? vote.electionId party') ciphertext) :=
          State.pending_of_some (State.getElem?_add hlt)
        refine ⟨index, by rw [hpending]; rfl, ?_⟩
        rw [hpending, State.ciphertext?_add, if_pos rfl]
      · refine h.kept rfl ?_ fun j hsome => State.pending_set rfl (State.pending_adding found _ _) hsome
        rw [State.ciphertext?_add, if_neg hkey]
  | @persisted index fault vote party ciphertext rest found =>
      obtain ⟨rfl, horder⟩ := hw.upsert found
      by_cases hkey : (electionId, party') = (vote.electionId, party)
      · obtain ⟨rfl, rfl⟩ := Prod.mk.inj hkey
        rcases horder with hcurrent | ⟨j, _, hne, hsome, hcurrent⟩
        · left
          show (s.tally.insert (vote.electionId, party') ciphertext).lookup (vote.electionId, party') = _
          rw [AList.lookup_insert]
          exact hcurrent.symm
        · right
          have hsame : ((s.upsert vote.electionId party' ciphertext).setPhase index vote (.adding rest)).pending j
              vote.electionId party' = s.pending j vote.electionId party' :=
            State.pending_congr (List.getElem?_set_ne (Ne.symm hne)) _ _
          exact ⟨j, hsame.symm ▸ hsome, hsame.trans hcurrent⟩
      · refine h.kept ?_ rfl fun j hsome => State.pending_set rfl (State.pending_other found hkey) hsome
        exact AList.lookup_insert_ne hkey
  | restarted draw =>
      obtain ⟨key, _, _, heq⟩ := State.restart_eq (s := s) hprime
      rw [heq]
      left
      exact (ciphertext?_load_entries s.tally electionId party').symm

theorem follows_start : start.Follows := fun _ _ => .inl rfl

/-! ### Both -/

structure State.Books (s : State) : Prop where
  ledger : s.Ledger
  follows : s.Follows

theorem books_start : start.Books := ⟨ledger_start, follows_start⟩

theorem State.Books.step (h : s.Books) {i : Input} (hprime : i.Prime) (hw : s.Regular i) : (Tally.step s i).Books :=
  ⟨h.ledger.of_effect (effect_step s i) h.follows.stored hprime hw, h.follows.of_effect (effect_step s i) hprime hw⟩

end Inec.Tally
