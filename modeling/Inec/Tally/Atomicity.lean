import Inec.Lib.Runs
import Inec.Tally.Ledger

/-!
# Submissions that are undone or counted

What is asked of a submission: it fails without a trace, or its counts are taken in once each; and the table
ends with the ciphertexts of the memory. The record is inserted before anything else, the memory is changed
before the table, and nothing is taken back, so that this holds in the runs whose steps are `Orderly`.
-/

namespace Inec.Tally

variable {s t : State}

/-- The record of the submission is in the table on its behalf. -/
def Phase.recorded : Phase → Bool
  | .adding _ | .persisting .. | .accepted => true
  | .refused _ | .failed => false

def recordsOf (submissions : List Submission) : List (String × String) :=
  (submissions.filter (·.phase.recorded)).map (·.vote.record)

structure State.Atomic (s : State) : Prop where
  /-- What was refused or has failed is in no tally. -/
  undone : ∀ (i : Nat) (x : Submission), s.submissions[i]? = some x →
    (x.phase = .failed ∨ ∃ status, x.phase = .refused status) → s.contributionsOf i = []
  /-- Only what is accepted or under way has a record, so that any other unit may be submitted again. -/
  records : s.tallySubmissions = recordsOf s.submissions
  once : s.tallySubmissions.Nodup
  /-- What is accepted has been added count by count. -/
  counted : ∀ (i : Nat) (x : Submission), s.submissions[i]? = some x → x.phase = .accepted →
    (s.contributionsOf i).map (fun c => (c.party, c.count)) = x.vote.partyVotes
  /-- The memory is the product of the ciphertexts that were added. -/
  memory : ∀ electionId party, s.ciphertext? electionId party = product (s.contributionsTo electionId party)
  /-- These are the ones of the accepted submissions, when no other is under way, and the table holds them. -/
  complete : s.Idle → ∀ c ∈ s.contributions, ∃ x, s.submissions[c.submission]? = some x ∧ x.phase = .accepted
  persisted : s.Idle → s.Stored

/-- A regular step that leaves no record behind: the answer to an INSERT is lost only where the record was there. -/
def State.Orderly (s : State) : Input → Prop
  | .submit vote fault =>
      fault = some .unanswered → s.privateKey.isSome = true → vote.record ∈ s.tallySubmissions
  | i => s.Regular i

theorem State.Orderly.regular {i : Input} (h : s.Orderly i) : s.Regular i := by
  cases i with
  | submit vote fault => trivial
  | resume index draws => exact h
  | persist index fault => exact h
  | restart draw => exact h

/-! ### Records -/

structure State.Recorded (s : State) : Prop where
  records : s.tallySubmissions = recordsOf s.submissions
  once : s.tallySubmissions.Nodup

theorem recordsOf_append (submissions : List Submission) (x : Submission) :
    recordsOf (submissions ++ [x]) = recordsOf submissions ++ if x.phase.recorded then [x.vote.record] else [] := by
  rw [recordsOf, List.filter_append, List.map_append, List.filter_singleton]
  cases x.phase.recorded with
  | true => rfl
  | false => rfl

/-- A submission that goes on keeps its record. -/
theorem recordsOf_set {submissions : List Submission} {index : Nat} {vote : EncryptedVote} {old phase : Phase}
    (found : submissions[index]? = some ⟨vote, old⟩) (hsame : phase.recorded = old.recorded) :
    recordsOf (submissions.set index ⟨vote, phase⟩) = recordsOf submissions := by
  induction submissions generalizing index with
  | nil => rfl
  | cons x rest ih =>
      cases index with
      | zero =>
          cases found
          rw [List.set_cons_zero, recordsOf, recordsOf, List.filter_cons, List.filter_cons, hsame]
          split <;> rfl
      | succ index =>
          have hfound : rest[index]? = some ⟨vote, old⟩ := found
          have hrest := ih hfound
          rw [recordsOf, recordsOf] at hrest
          rw [List.set_cons_succ, recordsOf, recordsOf, List.filter_cons, List.filter_cons]
          split
          · rw [List.map_cons, List.map_cons, hrest]
          · exact hrest

theorem State.Recorded.called (h : s.Recorded) {vote : EncryptedVote} {phase : Phase}
    (hnot : phase.recorded = false) :
    (s.call vote phase).Recorded := by
  refine ⟨?_, h.once⟩
  show s.tallySubmissions = recordsOf (s.submissions ++ [⟨vote, phase⟩])
  rw [recordsOf_append, hnot]
  exact h.records.trans (List.append_nil _).symm

theorem State.Recorded.phased (h : s.Recorded) {index : Nat} {vote : EncryptedVote} {old phase : Phase}
    (found : s.submissions[index]? = some ⟨vote, old⟩)
    (hsub : t.submissions = s.submissions.set index ⟨vote, phase⟩)
    (hrecords : t.tallySubmissions = s.tallySubmissions) (hsame : phase.recorded = old.recorded) : t.Recorded := by
  refine ⟨?_, hrecords ▸ h.once⟩
  rw [hrecords, hsub, recordsOf_set found hsame]
  exact h.records

theorem State.Recorded.of_effect {i : Input} (he : Effect s i t) (h : s.Recorded) (hprime : i.Prime)
    (hw : s.Orderly i) :
    t.Recorded := by
  cases he with
  | still => exact h
  | ended vote phase atOnce =>
      apply h.called
      rcases atOnce with rfl | ⟨status, rfl⟩
      · rfl
      · rfl
  | unanswered vote key up =>
      have hold : vote.record ∈ s.tallySubmissions := hw rfl (by rw [up]; rfl)
      rw [State.insertRecord, if_pos hold]
      exact h.called rfl
  | recorded vote key up fresh =>
      rw [State.insertRecord, if_neg fresh]
      refine ⟨?_, ?_⟩
      · show s.tallySubmissions ++ [vote.record] = recordsOf (s.submissions ++ [_])
        rw [recordsOf_append, h.records]
        rfl
      · show (s.tallySubmissions ++ [vote.record]).Nodup
        rw [List.nodup_append]
        refine ⟨h.once, List.nodup_singleton _, ?_⟩
        intro record hrecord record' hrecord' heq
        rw [List.mem_singleton.mp hrecord'] at heq
        exact fresh (heq ▸ hrecord)
  | finished vote found => exact h.phased found rfl rfl rfl
  | outOfRange vote party count rest key up found range =>
      exact absurd (hw.regular.range found up) range
  | added vote party count rest ciphertext key up found encrypted => exact h.phased found rfl rfl rfl
  | persisted vote party ciphertext rest found =>
      rw [(hw.regular.upsert found).1]
      exact h.phased found rfl rfl rfl
  | restarted draw =>
      have hidle : s.Idle := hw
      obtain ⟨key, _, _, heq⟩ := State.restart_eq (s := s) hprime
      rw [heq, hidle.map_cutOff]
      exact ⟨h.records, h.once⟩

theorem recorded_start : start.Recorded := ⟨rfl, List.nodup_nil⟩

/-! ### Runs -/

structure State.Accounted (s : State) : Prop where
  books : s.Books
  recorded : s.Recorded

theorem State.Books.atomic (h : s.Books) (hrecorded : s.Recorded) : s.Atomic := by
  refine ⟨?_, hrecorded.records, hrecorded.once, ?_, h.ledger.tallied, ?_, h.follows.stored⟩
  · intro i x hx hphase
    have hheld := h.ledger.held i x hx
    rw [Submission.Holds] at hheld
    rcases hphase with hphase | ⟨status, hphase⟩
    · rw [hphase] at hheld
      exact List.map_eq_nil_iff.mp hheld
    · rw [hphase] at hheld
      exact List.map_eq_nil_iff.mp hheld
  · intro i x hx hphase
    have hheld := h.ledger.held i x hx
    rw [Submission.Holds, hphase] at hheld
    exact hheld
  · intro hidle c hc
    obtain ⟨x, hx, _⟩ := h.ledger.owned c hc
    refine ⟨x, hx, ?_⟩
    have hheld := h.ledger.held _ x hx
    have hmem : c ∈ s.contributionsOf c.submission := List.mem_filter.mpr ⟨hc, beq_self_eq_true _⟩
    have hnot := hidle x (List.mem_of_getElem? hx)
    rw [Submission.Holds] at hheld
    cases hphase : x.phase with
    | accepted => rfl
    | adding rest =>
        rw [hphase] at hnot
        cases hnot
    | persisting party ciphertext rest =>
        rw [hphase] at hnot
        cases hnot
    | refused status =>
        rw [hphase] at hheld
        rw [List.map_eq_nil_iff.mp hheld] at hmem
        cases hmem
    | failed =>
        rw [hphase] at hheld
        rw [List.map_eq_nil_iff.mp hheld] at hmem
        cases hmem

/-- In a run of orderly steps every submission is undone or counted once, whatever the order of the steps. -/
theorem atomic_of_orderly {inputs : List Input} (hprime : ∀ i ∈ inputs, i.Prime)
    (hcond : Runs.AllSteps step State.Orderly start inputs) : ∀ s ∈ Runs.visited step start inputs, s.Atomic := by
  have hstart : start.Accounted := ⟨books_start, recorded_start⟩
  have hvisited : ∀ s ∈ Runs.visited step start inputs, s.Accounted := by
    refine Runs.forall_visited ?_ hstart (hcond.and_of_mem hprime)
    intro s i h hi
    exact ⟨h.books.step hi.1 hi.2.regular, h.recorded.of_effect (effect_step s i) hi.1 hi.2⟩
  exact fun s hs => (hvisited s hs).books.atomic (hvisited s hs).recorded

/-! ### Two runs -/

instance (s : State) : (i : Input) → Decidable (s.Orderly i)
  | .submit vote _ => inferInstanceAs (Decidable (_ → _ → vote.record ∈ s.tallySubmissions))
  | .resume index draws => inferInstanceAs (Decidable (s.Regular (.resume index draws)))
  | .persist index fault => inferInstanceAs (Decidable (s.Regular (.persist index fault)))
  | .restart draw => inferInstanceAs (Decidable (s.Regular (.restart draw)))

/-- Two units of one election go on at the same time, and their upserts come in the order in which they have
added. -/
def sideBySide : List Input :=
  [.restart KeyDraw.first, .submit ⟨"2027", "PU-1", [("A", 5)]⟩ none, .submit ⟨"2027", "PU-2", [("A", 7)]⟩ none,
    .resume 0 [1], .resume 1 [2], .persist 0 none, .persist 1 none, .resume 0 [], .resume 1 []]

theorem atomic_of_sideBySide :
    Runs.AllSteps step State.Orderly start sideBySide ∧ ∀ s ∈ Runs.visited step start sideBySide, s.Atomic := by
  have horderly : Runs.AllSteps step State.Orderly start sideBySide := by decide +kernel
  have hprime : ∀ i ∈ sideBySide, i.Prime := by
    intro i hi
    simp only [sideBySide, List.mem_cons, List.not_mem_nil, or_false] at hi
    rcases hi with rfl | rfl | rfl | rfl | rfl | rfl | rfl | rfl | rfl
    · exact KeyDraw.prime_first
    all_goals exact trivial
  exact ⟨horderly, atomic_of_orderly hprime horderly⟩

/-- The count of the second party is out of range. -/
def brokenOff : List Input :=
  [.restart KeyDraw.first, .submit ⟨"2027", "PU-1", [("A", 5), ("B", -1)]⟩ none, .resume 0 [1], .persist 0 none,
    .resume 0 []]

/-- The submission fails, and its record and the first party stay. -/
theorem not_atomic_of_brokenOff :
    ¬∀ inputs, (∀ i ∈ inputs, Input.Prime i) → ∀ s ∈ Runs.visited step start inputs, s.Atomic := by
  intro h
  have hprime : ∀ i ∈ brokenOff, Input.Prime i := by
    intro i hi
    simp only [brokenOff, List.mem_cons, List.not_mem_nil, or_false] at hi
    rcases hi with rfl | rfl | rfl | rfl | rfl
    · exact KeyDraw.prime_first
    all_goals exact trivial
  have hrecords := (h brokenOff hprime _ (Runs.final_mem_visited _ _)).records
  have hleft : (Runs.final step start brokenOff).tallySubmissions ≠
      recordsOf (Runs.final step start brokenOff).submissions := by
    decide +kernel
  exact hleft hrecords

end Inec.Tally
