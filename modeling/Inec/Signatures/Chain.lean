import Inec.Signatures.Sign

/-!
# The chain of signatures

Whatever the tail was when a request read it, its row is only stored where no other has come in between, and
then it is the next one (`chained_of_requests`). A refusal says that the result is signed exactly if the
position was free, or the result is signed all the same.
-/

namespace Inec

open Statements

namespace ResultSignatures

/-- The positions are those from 0 on, and each row names the hash of the one before it. -/
structure Chained (s : ResultSignatures) : Prop where
  positions : s.rows.map (·.chainPosition) = (List.range s.rows.length).map Int.ofNat
  prior : ∀ row ∈ s.rows, ∀ before ∈ s.rows, row.chainPosition = before.chainPosition + 1 →
    row.prevHash = before.resultHash

variable {s after : ResultSignatures} {row : ResultSignature}

theorem insert_eq_some (h : s.insert row = some after) :
    after.rows = s.rows ++ [row] ∧ row.resultId ∉ s.rows.map (·.resultId) ∧ row.chainPosition ∉ s.rows.map
      (·.chainPosition) := by
  rw [insert] at h
  split at h
  case isTrue hfree =>
    obtain rfl := Option.some.inj h
    exact ⟨rfl, hfree⟩
  case isFalse => cases h

theorem insert_eq_none (h : s.insert row = none) :
    row.resultId ∈ s.rows.map (·.resultId) ∨ row.chainPosition ∈ s.rows.map (·.chainPosition) := by
  rw [insert] at h
  split at h
  case isTrue => cases h
  case isFalse htaken =>
    by_contra hfree
    exact htaken (not_or.mp hfree)

theorem Chained.mem_positions (hs : s.Chained) {p : Int} :
    p ∈ s.rows.map (·.chainPosition) ↔ 0 ≤ p ∧ p < s.rows.length := by
  rw [hs.positions, List.mem_map]
  constructor
  · rintro ⟨i, hi, rfl⟩
    have := List.mem_range.mp hi
    exact ⟨Int.natCast_nonneg i, Int.ofNat_lt.mpr this⟩
  · rintro ⟨hpos, hlt⟩
    exact ⟨p.toNat, List.mem_range.mpr (by omega), Int.toNat_of_nonneg hpos⟩

/-- What a request has of the tail: that there is none, or a row that is stored. -/
def Behind (s : ResultSignatures) (prevHash : String) (chainPosition : Int) : Prop :=
  (prevHash = "" ∧ chainPosition = 0) ∨ ∃ row ∈ s.rows, row.resultHash = prevHash ∧
    row.chainPosition + 1 = chainPosition

/-- A row behind one that is stored has the next position if its own is free. -/
theorem Chained.next (hs : s.Chained) {prevHash : String} {chainPosition : Int}
    (hbehind : s.Behind prevHash chainPosition) (hfree : chainPosition ∉ s.rows.map (·.chainPosition)) :
    chainPosition = s.rows.length := by
  rw [hs.mem_positions] at hfree
  obtain ⟨-, rfl⟩ | ⟨row, hrow, -, rfl⟩ := hbehind
  · omega
  · have := hs.mem_positions.mp (List.mem_map_of_mem hrow)
    omega

theorem Chained.insert (hs : s.Chained) (hbehind : s.Behind row.prevHash row.chainPosition)
    (h : s.insert row = some after) :
    after.Chained := by
  obtain ⟨hrows, -, hfree⟩ := insert_eq_some h
  have hnext := hs.next hbehind hfree
  have hbound : ∀ r ∈ s.rows, r.chainPosition < s.rows.length :=
    fun r hr => (hs.mem_positions.mp (List.mem_map_of_mem hr)).2
  constructor
  · rw [hrows, List.map_append, List.length_append, hs.positions, List.map_singleton, hnext,
      List.length_singleton, List.range_succ, List.map_append, List.map_singleton]
    rfl
  · intro r hr before hbefore hprior
    rw [hrows, List.mem_append, List.mem_singleton] at hr hbefore
    rcases hr with hr | rfl
    · rcases hbefore with hbefore | rfl
      · exact hs.prior r hr before hbefore hprior
      · have := hbound r hr
        omega
    · rcases hbefore with hbefore | rfl
      · -- the row before is the one that was read
        obtain ⟨-, hzero⟩ | ⟨tail, htail, htailHash, htailPosition⟩ := hbehind
        · have := (hs.mem_positions.mp (List.mem_map_of_mem hbefore)).1
          omega
        · have hsame : tail = before := Rows.eq_of_key_eq s.positions htail hbefore (by omega)
          rw [← hsame, htailHash]
      · omega

theorem Behind.insert {prevHash : String} {chainPosition : Int} (hbehind : s.Behind prevHash chainPosition)
    (h : s.insert row = some after) : after.Behind prevHash chainPosition := by
  obtain hnone | ⟨tail, htail, hread⟩ := hbehind
  · exact .inl hnone
  · refine .inr ⟨tail, ?_, hread⟩
    rw [(insert_eq_some h).1]
    exact List.mem_append_left _ htail

theorem behind_tail (s : ResultSignatures) (works : Bool) :
    s.Behind (behind (if works then s.tail? else none)).1 (behind (if works then s.tail? else none)).2 := by
  cases works with
  | false => exact .inl ⟨rfl, rfl⟩
  | true =>
      rw [if_pos rfl]
      cases htail : s.tail? with
      | none => exact .inl ⟨rfl, rfl⟩
      | some tail => exact .inr ⟨tail, Rows.mem_of_maxBy htail, rfl, rfl⟩

end ResultSignatures

namespace SigningService

open ResultSignatures

variable {sha256Hex : String → String} {signer : ResultSigner} {s : SigningService}

/-- A request that is told so has a result that is signed. -/
def Truthful (s : SigningService) : Prop :=
  ∀ n resultId, s.requests n = .answered (some resultId) alreadySigned →
    resultId ∈ s.signatures.rows.map (·.resultId)

/-- An INSERT that the database answers comes to a free position, or its result is signed. -/
def PositionFree (s : SigningService) : SignAct → Bool
  | .insert n .done =>
      match s.requests n with
      | .tailed result _ _ _ chainPosition =>
          !(s.signatures.rows.map (·.chainPosition)).contains chainPosition ||
            (s.signatures.rows.map (·.resultId)).contains result.id
      | _ => true
  | _ => true

/-! ### Steps -/

theorem insertStep_signatures (s : SigningService) (row : ResultSignature) (reply : CommitReply) :
    (s.insertStep row reply).1 = s.signatures ∨ s.signatures.insert row = some (s.insertStep row reply).1 := by
  unfold insertStep
  cases s.signatures.insert row with
  | none => cases reply <;> exact .inl rfl
  | some after =>
      cases reply with
      | done => exact .inr rfl
      | lost => exact .inr rfl
      | refused => exact .inl rfl

/-- A request is told that its result is signed where the database refuses its row. -/
theorem insertStep_answer (s : SigningService) (row : ResultSignature) (reply : CommitReply) :
    (s.insertStep row reply).2 = alreadySigned ↔ reply = .done ∧ s.signatures.insert row = none := by
  unfold insertStep
  cases s.signatures.insert row <;> cases reply <;> simp [alreadySigned]

/-- A step of a request leaves the signatures alone, or it inserts the row of a request that has read the tail. -/
theorem signatures_step (sha256Hex : String → String) (signer : ResultSigner) (s : SigningService) (act : SignAct) :
    (s.step sha256Hex signer act).signatures = s.signatures ∨
      ∃ n reply result signerId signerRole prevHash chainPosition, act = .insert n reply ∧
        s.requests n = .tailed result signerId signerRole prevHash chainPosition ∧
        s.signatures.insert (signatureRow sha256Hex signer result signerId signerRole prevHash chainPosition) =
          some (s.step sha256Hex signer act).signatures := by
  cases act with
  | request n officer body results =>
      rw [step]
      split <;> exact .inl rfl
  | tail n works =>
      rw [step]
      split <;> exact .inl rfl
  | insert n reply =>
      rw [step]
      split
      case h_1 result signerId signerRole prevHash chainPosition hphase =>
        obtain hsame | hinsert :=
          s.insertStep_signatures (signatureRow sha256Hex signer result signerId signerRole prevHash chainPosition) reply
        · exact .inl hsame
        · exact .inr ⟨n, reply, result, signerId, signerRole, prevHash, chainPosition, rfl, hphase, hinsert⟩
      case h_2 => exact .inl rfl

/-- Before its INSERT a request has not read the tail, and it is not told that its result is signed. -/
theorem acceptSigning_cases (officer : Option (Int × String)) (body : Option Int) (results : List StoredResult) :
    (∃ result signerId signerRole, acceptSigning officer body results = .found result signerId signerRole) ∨
      ∃ resultId status message, acceptSigning officer body results =
        .answered resultId (.refused status message) ∧ status ≠ 409 := by
  unfold acceptSigning
  split
  · exact .inr ⟨_, _, _, rfl, by decide⟩
  · split
    · exact .inr ⟨_, _, _, rfl, by decide⟩
    · split
      · exact .inr ⟨_, _, _, rfl, by decide⟩
      · exact .inl ⟨_, _, _, rfl⟩

/-- What a request has of the tail is stored. -/
def InHand (s : SigningService) : Prop :=
  ∀ n result signerId signerRole prevHash chainPosition, s.requests n =
    .tailed result signerId signerRole prevHash chainPosition → s.signatures.Behind prevHash chainPosition

theorem requests_setRequest (s : SigningService) (n m : Nat) (request : SignRequest) :
    (s.setRequest n request).requests m = if m = n then request else s.requests m := Function.update_apply ..

theorem InHand.stays (hs : s.InHand) {act : SignAct} {n : Nat} {result : StoredResult} {signerId : Int}
    {signerRole prevHash : String} {chainPosition : Int}
    (h : s.requests n = .tailed result signerId signerRole prevHash chainPosition) :
    (s.step sha256Hex signer act).signatures.Behind prevHash chainPosition := by
  have hbehind := hs n result signerId signerRole prevHash chainPosition h
  obtain hsame | ⟨_, _, _, _, _, _, _, -, -, hinsert⟩ := signatures_step sha256Hex signer s act
  · rw [hsame]
    exact hbehind
  · exact hbehind.insert hinsert

theorem inHand_step (hs : s.InHand) (act : SignAct) : (s.step sha256Hex signer act).InHand := by
  intro n result signerId signerRole prevHash chainPosition h
  by_cases hold : s.requests n = .tailed result signerId signerRole prevHash chainPosition
  · exact hs.stays hold
  · -- the request has just read the tail
    cases act with
    | request m officer body results =>
        rw [step] at h
        split at h
        · rw [requests_setRequest] at h
          split at h
          · obtain ⟨_, _, _, hfound⟩ | ⟨_, _, _, hrefused, -⟩ := acceptSigning_cases officer body results
            · rw [hfound] at h
              cases h
            · rw [hrefused] at h
              cases h
          · exact absurd h hold
        · exact absurd h hold
    | tail m works =>
        have hread := s.signatures.behind_tail works
        rw [step] at h ⊢
        split at h
        · rw [requests_setRequest] at h
          split at h
          · injection h with _ _ _ hprev hposition
            rw [hprev, hposition] at hread
            exact hread
          · exact absurd h hold
        · exact absurd h hold
    | insert m reply =>
        rw [step] at h
        split at h
        · rw [requests_setRequest] at h
          split at h
          · cases h
          · exact absurd h hold
        · exact absurd h hold

theorem chained_step (hs : s.signatures.Chained) (hinHand : s.InHand) (act : SignAct) :
    (s.step sha256Hex signer act).signatures.Chained := by
  obtain hsame | ⟨n, _, result, signerId, signerRole, prevHash, chainPosition, -, hphase, hinsert⟩ :=
    signatures_step sha256Hex signer s act
  · rw [hsame]
    exact hs
  · exact hs.insert (hinHand n result signerId signerRole prevHash chainPosition hphase) hinsert

/-- The chain is linear in every state, however the requests interleave. -/
theorem chained_of_requests (sha256Hex : String → String) (signer : ResultSigner) (acts : List SignAct) :
    ∀ s ∈ Runs.visited (step sha256Hex signer) start acts, s.signatures.Chained := by
  intro s hs
  have hstart : start.signatures.Chained ∧ start.InHand :=
    ⟨⟨rfl, fun _ hrow => (nomatch hrow)⟩, fun _ _ _ _ _ _ h => (nomatch h)⟩
  have hkeep : ∀ (s : SigningService) act, s.signatures.Chained ∧ s.InHand →
      (s.step sha256Hex signer act).signatures.Chained ∧ (s.step sha256Hex signer act).InHand :=
    fun s act hs => ⟨chained_step hs.1 hs.2 act, inHand_step hs.2 act⟩
  exact (Runs.forall_visited_of_step hkeep hstart acts s hs).1

/-! ### Refusals -/

/-- Signatures stay. -/
theorem signed_step (act : SignAct) {resultId : Int} (h : resultId ∈ s.signatures.rows.map (·.resultId)) :
    resultId ∈ (s.step sha256Hex signer act).signatures.rows.map (·.resultId) := by
  obtain hsame | ⟨_, _, _, _, _, _, _, -, -, hinsert⟩ := signatures_step sha256Hex signer s act
  · rw [hsame]
    exact h
  · rw [(insert_eq_some hinsert).1, List.map_append]
    exact List.mem_append_left _ h

/-- Truth is kept by a step that tells nobody. -/
theorem Truthful.quiet (hs : s.Truthful) {act : SignAct}
    (h : ∀ n resultId, (s.step sha256Hex signer act).requests n = .answered (some resultId) alreadySigned →
      s.requests n = .answered (some resultId) alreadySigned) : (s.step sha256Hex signer act).Truthful := by
  intro n resultId hn
  exact signed_step act (hs n resultId (h n resultId hn))

/-- The INSERT of a request that has read the tail. -/
theorem truthful_insert_iff (hs : s.Truthful) {m : Nat} {result : StoredResult} {signerId : Int}
    {signerRole prevHash : String} {chainPosition : Int} (reply : CommitReply)
    (hphase : s.requests m = .tailed result signerId signerRole prevHash chainPosition) :
    (s.step sha256Hex signer (.insert m reply)).Truthful ↔ s.PositionFree (.insert m reply) = true := by
  let row := signatureRow sha256Hex signer result signerId signerRole prevHash chainPosition
  have hstep : s.step sha256Hex signer (.insert m reply) =
      SigningService.setRequest { s with signatures := (s.insertStep row reply).1 } m
        (.answered (some result.id) (s.insertStep row reply).2) := by
    rw [step, hphase]
  have hanswer := s.insertStep_answer row reply
  by_cases htold : (s.insertStep row reply).2 = alreadySigned
  · obtain ⟨rfl, hrefused⟩ := hanswer.mp htold
    have hsame : (s.step sha256Hex signer (.insert m .done)).signatures = s.signatures := by
      rw [hstep]
      show (s.insertStep row .done).1 = s.signatures
      unfold insertStep
      rw [hrefused]
    have htruthful : (s.step sha256Hex signer (.insert m .done)).Truthful ↔
        result.id ∈ s.signatures.rows.map (·.resultId) := by
      constructor
      · intro h
        have := h m result.id (by rw [hstep, requests_setRequest, if_pos rfl, htold])
        rw [hsame] at this
        exact this
      · intro hsigned n resultId hn
        rw [hsame]
        rw [hstep, requests_setRequest] at hn
        split at hn
        · injection hn with hid
          rw [← Option.some.inj hid]
          exact hsigned
        · exact hs n resultId hn
    rw [htruthful, PositionFree, hphase]
    simp only [Bool.or_eq_true, Bool.not_eq_true', List.contains_eq_mem, decide_eq_true_eq, decide_eq_false_iff_not]
    refine ⟨.inr, fun h => ?_⟩
    cases h with
    | inl hfree => exact (insert_eq_none hrefused).resolve_right hfree
    | inr hsigned => exact hsigned
  · refine iff_of_true (hs.quiet fun n resultId hn => ?_) ?_
    · rw [hstep, requests_setRequest] at hn
      split at hn
      · injection hn with _ hanswer
        exact absurd hanswer htold
      · exact hn
    · cases reply with
      | refused => rfl
      | lost => rfl
      | done =>
          rw [PositionFree, hphase]
          cases hinsert : s.signatures.insert row with
          | none => exact absurd (hanswer.mpr ⟨rfl, hinsert⟩) htold
          | some after =>
              have hfree : chainPosition ∉ s.signatures.rows.map (·.chainPosition) := (insert_eq_some hinsert).2.2
              simp [hfree]

theorem truthful_step_iff (s : SigningService) (act : SignAct) (hs : s.Truthful) :
    (s.step sha256Hex signer act).Truthful ↔ s.PositionFree act = true := by
  cases act with
  | request m officer body results =>
      refine iff_of_true (hs.quiet fun n resultId hn => ?_) rfl
      rw [step] at hn
      split at hn
      · rw [requests_setRequest] at hn
        split at hn
        · obtain ⟨_, _, _, hfound⟩ | ⟨_, _, _, hrefused, hstatus⟩ := acceptSigning_cases officer body results
          · rw [hfound] at hn
            cases hn
          · rw [hrefused] at hn
            injection hn with _ hanswer
            injection hanswer with hcode
            exact absurd hcode hstatus
        · exact hn
      · exact hn
  | tail m works =>
      refine iff_of_true (hs.quiet fun n resultId hn => ?_) rfl
      rw [step] at hn
      split at hn
      · rw [requests_setRequest] at hn
        split at hn
        · cases hn
        · exact hn
      · exact hn
  | insert m reply =>
      -- a request that has not read the tail does nothing
      have hidle (hstep : s.step sha256Hex signer (.insert m reply) = s)
        (hfree : s.PositionFree (.insert m reply) = true) :
          (s.step sha256Hex signer (.insert m reply)).Truthful ↔ s.PositionFree (.insert m reply) = true := by
        rw [hstep]
        exact iff_of_true hs hfree
      cases hphase : s.requests m with
      | tailed result signerId signerRole prevHash chainPosition => exact truthful_insert_iff hs reply hphase
      | idle => exact hidle (by rw [step, hphase]) (by cases reply <;> simp only [PositionFree, hphase])
      | found result signerId signerRole =>
          exact hidle (by rw [step, hphase]) (by cases reply <;> simp only [PositionFree, hphase])
      | answered resultId answer =>
          exact hidle (by rw [step, hphase]) (by cases reply <;> simp only [PositionFree, hphase])

/-- The chain is linear in every run. No request is told of a signature that is not there exactly where every
INSERT that the database answers has a free position or a signed result. -/
theorem chained_and_truthful_iff (sha256Hex : String → String) (signer : ResultSigner) (acts : List SignAct) :
    (∀ s ∈ Runs.visited (step sha256Hex signer) start acts, s.signatures.Chained ∧ s.Truthful) ↔
      Runs.AllSteps (step sha256Hex signer) (fun s act => s.PositionFree act = true) start acts := by
  have hstart : start.Truthful := fun _ _ h => (nomatch h)
  have hstep : ∀ (s : SigningService) (act : SignAct), s.Truthful →
      ((s.step sha256Hex signer act).Truthful ↔ s.PositionFree act = true) :=
        fun s act hs => truthful_step_iff s act hs
  rw [← Runs.forall_visited_iff_of_step hstep hstart]
  constructor
  · intro h s hs
    exact (h s hs).2
  · intro h s hs
    exact ⟨chained_of_requests sha256Hex signer acts s hs, h s hs⟩

/-! ### Two replicas -/

/-- The result of a unit, as two results of this election are signed. -/
def unsignedResult (id : Int) (unit : String) : StoredResult :=
  { id, electionId := 1, pollingUnitCode := unit, totalVotes := none, submittedAt := "2027-02-20T16:00:00Z", totalValidVotes := 90
    rejectedVotes := 10, accreditedVoters := 120, partyScores := [("APC", 50), ("PDP", 40)] }

/-- A signer whose signature of a text is its length. -/
def lengthSigner : ResultSigner :=
  { publicKey := List.replicate 32 7
    sign := fun text => [text.length]
    digest := hexEncode
    verify := fun key text sig => key = List.replicate 32 7 && sig = [text.length] }

/-- Both replicas read the empty table, and the first to insert takes position 0. -/
def bothAtZero : List SignAct :=
  let results := [unsignedResult 1 "PU-001", unsignedResult 2 "PU-002"]
  [.request 0 (some (9, "presiding_officer")) (some 1) results, .request 1 (some (9, "presiding_officer"))
    (some 2) results, .tail 0 true, .tail 1 true, .insert 0 .done, .insert 1 .done]

theorem told_of_no_signature :
    ¬∀ s ∈ Runs.visited (step id lengthSigner) start bothAtZero, s.signatures.Chained ∧ s.Truthful := by
  have hrun : (Runs.final (step id lengthSigner) start bothAtZero).requests 1 = .answered (some 2) alreadySigned ∧
      (2 : Int) ∉ (Runs.final (step id lengthSigner) start bothAtZero).signatures.rows.map (·.resultId) := by
    decide +kernel
  intro h
  exact hrun.2 ((h _ (Runs.final_mem_visited ..)).2 1 2 hrun.1)

end SigningService

end Inec
