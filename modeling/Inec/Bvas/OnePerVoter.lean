import Inec.Bvas.Accreditation
import Inec.Lib.Sha256

/-!
# One accreditation a voter

The indexes keep the rows apart in every run. Whether an attempt that comes after the voter's accreditation is
reported as a duplicate depends on the path: the insert of the staff request has no conflict clause, and the
clause of the other two does not cover the index on the hash and the election. `State.Careful` says what has to
hold of the step that ends such an attempt, and the runs in which all is reported are those whose steps all meet
it.
-/

namespace Inec.Bvas

variable {sha256Hex : String → String} {s : State}

/-! ### What is asked -/

/-- The attempt is told that it came too late, or why else it is refused. -/
def Ending.Reported : Ending → Prop
  | .duplicate | .refused _ | .replayed true => True
  | _ => False

instance : (ending : Ending) → Decidable ending.Reported
  | .duplicate | .refused _ | .replayed true => .isTrue trivial
  | .accepted | .replayed false | .failed _ | .deadLetter _ => .isFalse id

def State.Reported (s : State) : Prop := ∀ x ∈ s.ended, x.late = true → x.ending.Reported

/-- One row a voter and election from the first accreditation on, and all later attempts reported. -/
structure State.OnePerVoter (s : State) : Prop where
  unique : ∀ voter, (s.rowsOf voter).length ≤ 1
  recorded : ∀ x ∈ s.ended, x.ending = .accepted → (s.rowsOf x.voter).length = 1
  reported : s.Reported

/-- The voter has been accredited at the unit of the row. -/
def State.atUnit (s : State) (row : AccreditationRow) : Bool :=
  s.rows.any fun old => old.voter == row.voter && old.pollingUnitCode == row.pollingUnitCode

/-- For a voter who has been accredited: a request gets no further than to its verification, which is used up;
the last try of a job, and an envelope that is not in the inbox, are at the unit of the row; and no statement of
them fails. -/
def State.Careful (sha256Hex : String → String) (s : State) : Input → Prop
  | .transact index fault =>
      ∀ req ∈ s.counted[index]?, s.accredited (req.row sha256Hex s.nextId).voter = true →
        s.consumed.contains req.verificationId = true ∧ fault ≠ some .beginTx ∧ fault ≠ some .consume
  | .tryJob index fault =>
      ∀ job ∈ s.jobs[index]?, ∀ row, parseAccreditation job.payload s.nextId = .ok row →
        s.accredited row.voter = true → job.tries < job.maxRetries ∨ (fault = none ∧ s.atUnit row = true)
  | .envelope e fault =>
      ∀ row, checkEnvelope e s.nextId = .ok row → s.accredited row.voter = true →
        match fault with
        | some err => isReplayError err = true ∧ s.recorded e.inbox = true
        | none => s.recorded e.inbox = true ∨ s.atUnit row = true
  | _ => True

/-! ### The indexes -/

theorem accreditationIndexes_eq :
    accreditationIndexes = [accreditationsPkey, voterElectionPuUnique, voterElectionUnique,
      vinElectionUnique] := rfl

theorem arbiter?_eq : UniqueIndex.arbiter? accreditationIndexes conflictTarget = some voterElectionPuUnique := rfl

theorem hit_voterElectionUnique (row : AccreditationRow) :
    voterElectionUnique.hit s.rows row = s.accredited row.voter := rfl

theorem insertOnConflict_none (row : AccreditationRow) : s.insertOnConflict row none = Checks.relabel
    (if s.atUnit row = true then .ok (s.rows, 0)
      else (UniqueIndex.insert accreditationIndexes s.rows row).map fun rows => (rows, 1)) driverError := by
  rw [State.insertOnConflict, UniqueIndex.insertOnConflict, arbiter?_eq]
  rfl

/-- A statement with the conflict clause that does nothing has met a row of the unit. -/
theorem atUnit_of_nothing {row : AccreditationRow} {fault : Option String} {rows : List AccreditationRow}
    (h : s.insertOnConflict row fault = .ok (rows, 0)) : fault = none ∧ s.atUnit row = true := by
  cases fault with
  | some err => cases h
  | none =>
      rw [insertOnConflict_none, Checks.relabel_eq_ok] at h
      split at h
      · rename_i hunit
        exact ⟨rfl, hunit⟩
      · obtain ⟨rows', _, heq⟩ := Checks.map_eq_ok.mp h
        cases heq

/-- At the unit of the row it is never refused. -/
theorem ne_error_of_atUnit {row : AccreditationRow} {err : String} (hunit : s.atUnit row = true) :
    s.insertOnConflict row none ≠ .error err := by
  rw [insertOnConflict_none, if_pos hunit]
  exact nofun

/-- What is inserted is the row, and it keeps the indexes. -/
theorem insertOnConflict_ok {row : AccreditationRow} {fault : Option String}
    {rows : List AccreditationRow} {n : Nat} (h : s.insertOnConflict row fault = .ok (rows, n + 1)) :
    UniqueIndex.insert accreditationIndexes s.rows row = .ok rows := by
  cases fault with
  | some err => cases h
  | none =>
      rw [insertOnConflict_none, Checks.relabel_eq_ok] at h
      split at h
      · cases h
      · obtain ⟨rows', hinsert, heq⟩ := Checks.map_eq_ok.mp h
        cases heq
        exact hinsert

/-! ### Rows -/

structure State.Sound (s : State) : Prop where
  kept : UniqueIndex.Kept accreditationIndexes s.rows
  recorded : ∀ x ∈ s.ended, x.ending = .accepted → s.accredited x.voter = true

theorem State.Sound.length_rowsOf_le (h : s.Sound) (voter : Voter) : (s.rowsOf voter).length ≤ 1 := by
  have hpairs := (h.kept voterElectionUnique (by rw [accreditationIndexes_eq]; simp)).filter fun row =>
    row.voter == voter
  match hrows : s.rows.filter fun row => row.voter == voter with
  | [] => rw [State.rowsOf, hrows]; exact Nat.zero_le 1
  | [row] => rw [State.rowsOf, hrows]; exact Nat.le_refl 1
  | row :: row' :: rest =>
      rw [hrows] at hpairs
      have hmem : ∀ x ∈ row :: row' :: rest, x.voter = voter := by
        intro x hx
        rw [← hrows] at hx
        exact beq_iff_eq.mp (List.mem_filter.mp hx).2
      have hne : (row.voter == row'.voter) = false := (List.pairwise_cons.mp hpairs).1 row' List.mem_cons_self
      rw [hmem row (by simp), hmem row' (by simp), beq_self_eq_true] at hne
      cases hne

theorem State.Sound.length_rowsOf (h : s.Sound) {voter : Voter} (haccredited : s.accredited voter = true) :
    (s.rowsOf voter).length = 1 := by
  obtain ⟨row, hrow, hvoter⟩ := List.any_eq_true.mp haccredited
  have hpos : 0 < (s.rowsOf voter).length := List.length_pos_of_mem (List.mem_filter.mpr ⟨hrow, hvoter⟩)
  have hle := h.length_rowsOf_le voter
  omega

theorem State.Sound.iff_reported (h : s.Sound) : s.OnePerVoter ↔ s.Reported := by
  refine ⟨State.OnePerVoter.reported, fun hreported => ⟨h.length_rowsOf_le, ?_, hreported⟩⟩
  exact fun x hx haccepted => h.length_rowsOf (h.recorded x hx haccepted)

/-! ### Steps -/

/-- What a step comes to. `fine` is what has to hold for the attempt that ends with it, if it is a late one, to be
reported. -/
inductive Comes (s t : State) (fine : Prop) : Prop
  | quiet (rows : t.rows = s.rows) (ended : t.ended = s.ended) (always : fine)
  | refused {voter : Voter} {ending : Ending} (rows : t.rows = s.rows)
      (ended : t.ended = s.ended ++ [⟨voter, s.accredited voter, ending⟩]) (other : ending ≠ .accepted)
      (late : s.accredited voter = true → (ending.Reported ↔ fine)) (first : s.accredited voter = false → fine)
  | accepted {row : AccreditationRow} {rows : List AccreditationRow}
      (insert : UniqueIndex.insert accreditationIndexes s.rows row = .ok rows) (written : t.rows = rows)
      (ended : t.ended = s.ended ++ [⟨row.voter, s.accredited row.voter, .accepted⟩]) (always : fine)

theorem not_accredited_of_insert {row : AccreditationRow} {rows : List AccreditationRow}
    (h : UniqueIndex.insert accreditationIndexes s.rows row = .ok rows) : s.accredited row.voter = false := by
  rw [← hit_voterElectionUnique]
  exact (UniqueIndex.insert_eq_ok.mp h).1 voterElectionUnique (by rw [accreditationIndexes_eq]; simp)

theorem Comes.reported_iff {t : State} {fine : Prop} (h : Comes s t fine) (hs : s.Reported) :
    t.Reported ↔ fine := by
  cases h with
  | quiet rows ended always =>
      rw [State.Reported, ended]
      exact iff_of_true hs always
  | @refused voter ending rows ended other late first =>
      rw [State.Reported, ended]
      cases hlate : s.accredited voter with
      | true =>
          rw [← late hlate]
          constructor
          · exact fun h => h _ (List.mem_append_right _ (List.mem_singleton_self _)) rfl
          · intro hending x hx
            rcases List.mem_append.mp hx with hold | hnew
            · exact hs x hold
            · rw [List.mem_singleton.mp hnew]
              exact fun _ => hending
      | false =>
          refine iff_of_true ?_ (first hlate)
          intro x hx
          rcases List.mem_append.mp hx with hold | hnew
          · exact hs x hold
          · rw [List.mem_singleton.mp hnew]
            exact nofun
  | @accepted row rows insert written ended always =>
      rw [State.Reported, ended]
      refine iff_of_true ?_ always
      intro x hx
      rcases List.mem_append.mp hx with hold | hnew
      · exact hs x hold
      · rw [List.mem_singleton.mp hnew, not_accredited_of_insert insert]
        exact nofun

theorem Comes.sound {t : State} {fine : Prop} (h : Comes s t fine) (hs : s.Sound) : t.Sound := by
  cases h with
  | quiet rows ended always =>
      refine ⟨rows ▸ hs.kept, ?_⟩
      intro x hx haccepted
      rw [State.accredited, rows]
      exact hs.recorded x (ended ▸ hx) haccepted
  | refused rows ended other late first =>
      refine ⟨rows ▸ hs.kept, ?_⟩
      intro x hx haccepted
      rw [State.accredited, rows]
      rw [ended, List.mem_append, List.mem_singleton] at hx
      rcases hx with hold | rfl
      · exact hs.recorded x hold haccepted
      · exact absurd haccepted other
  | @accepted row rows insert written ended always =>
      refine ⟨written ▸ hs.kept.insert insert, ?_⟩
      intro x hx haccepted
      have hrows : t.rows = s.rows ++ [row] := written.trans (UniqueIndex.insert_eq_ok.mp insert).2
      rw [State.accredited, hrows, List.any_append, Bool.or_eq_true]
      rw [ended, List.mem_append, List.mem_singleton] at hx
      rcases hx with hold | rfl
      · exact .inl (hs.recorded x hold haccepted)
      · exact .inr (by simp)

/-! ### What each input comes to -/

/-- Nothing is asked of a first attempt. -/
theorem imp_of_not_accredited {voter : Voter} {p : Prop} (h : s.accredited voter = false) :
    s.accredited voter = true → p := by
  intro haccredited
  rw [h] at haccredited
  cases haccredited

/-- A request that is refused or counts another row has been told why. -/
theorem comes_request (req : AccreditationRequest) (around : Surroundings) (answered : Bool) :
    Comes s (s.request sha256Hex req around answered) True := by
  unfold State.request
  dsimp only
  cases checkAccreditation req around (s.consumed.contains req.verificationId) with
  | error err => exact .refused rfl rfl nofun (fun _ => Iff.rfl) (fun _ => trivial)
  | ok _ =>
      dsimp only
      split
      · exact .refused rfl rfl nofun (fun _ => Iff.rfl) (fun _ => trivial)
      · exact .quiet rfl rfl trivial

/-- A transaction of the staff request that fails says nothing of the duplicate. -/
theorem Comes.failed {t : State} {fine : Prop} {voter : Voter} {err : HttpError} (rows : t.rows = s.rows)
    (ended : t.ended = s.ended ++ [⟨voter, s.accredited voter, .failed err⟩])
    (not_fine : s.accredited voter = true → ¬fine) (first : s.accredited voter = false → fine) : Comes s t fine :=
  .refused rows ended nofun (fun hlate => iff_of_false id (not_fine hlate)) first

theorem comes_transact (req : AccreditationRequest) (fault : Option Fault) (index : Nat) :
    Comes s { s.transact sha256Hex req fault with counted := s.counted.eraseIdx index }
      (s.accredited (req.row sha256Hex s.nextId).voter = true →
        s.consumed.contains req.verificationId = true ∧ fault ≠ some .beginTx ∧ fault ≠ some .consume) := by
  unfold State.transact
  dsimp only
  split
  · exact .failed rfl rfl (fun hlate hfine => (hfine hlate).2.1 rfl) imp_of_not_accredited
  · exact .failed rfl rfl (fun hlate hfine => (hfine hlate).2.2 rfl) imp_of_not_accredited
  · rename_i hbegin hconsume
    split
    · rename_i hconsumed
      refine .refused rfl rfl nofun ?_ imp_of_not_accredited
      intro _
      exact iff_of_true trivial fun _ => ⟨hconsumed, hbegin, hconsume⟩
    · rename_i hfresh
      have hunused (hlate : s.accredited (req.row sha256Hex s.nextId).voter = true)
          (hfine : s.accredited (req.row sha256Hex s.nextId).voter = true →
            s.consumed.contains req.verificationId = true ∧ fault ≠ some .beginTx ∧
              fault ≠ some .consume) : False :=
        hfresh (hfine hlate).1
      split
      · exact .failed rfl rfl hunused imp_of_not_accredited
      · exact .failed rfl rfl hunused imp_of_not_accredited
      · exact .failed rfl rfl hunused imp_of_not_accredited
      · rename_i rows hinsert
        exact .accepted hinsert rfl rfl (imp_of_not_accredited (not_accredited_of_insert hinsert))

/-- A failing try is fine while another follows. After the last, the job is put away as a failed one. -/
theorem comes_failJob {index : Nat} {job : Job} {voter : Voter} {err : String} {fine : Prop}
    (retried : job.tries < job.maxRetries → fine)
    (put_away : ¬job.tries < job.maxRetries → s.accredited voter = true → ¬fine)
    (first : s.accredited voter = false → fine) : Comes s (s.failJob index job (some voter) err) fine := by
  unfold State.failJob
  split
  · rename_i hretry
    exact .quiet rfl rfl (retried hretry)
  · rename_i hlast
    exact .refused rfl rfl nofun (fun hlate => iff_of_false id (put_away hlast hlate)) first

theorem comes_tryJob (index : Nat) (job : Job) (fault : Option String) :
    Comes s (s.tryJob index job fault)
      (∀ row, parseAccreditation job.payload s.nextId = .ok row → s.accredited row.voter = true →
        job.tries < job.maxRetries ∨ (fault = none ∧ s.atUnit row = true)) := by
  unfold State.tryJob
  cases parseAccreditation job.payload s.nextId with
  | error err =>
      dsimp only
      unfold State.failJob
      split
      · exact .quiet rfl rfl nofun
      · exact .quiet rfl rfl nofun
  | ok row =>
      simp only [Except.ok.injEq, forall_eq']
      cases hinsert : s.insertOnConflict row fault with
      | error err =>
          refine comes_failJob (fun hretry _ => .inl hretry) ?_ imp_of_not_accredited
          intro hlast hlate hfine
          obtain ⟨rfl, hunit⟩ := (hfine hlate).resolve_left hlast
          exact ne_error_of_atUnit hunit hinsert
      | ok result =>
          obtain ⟨rows, affected⟩ := result
          cases affected with
          | zero =>
              refine .refused rfl rfl nofun ?_ imp_of_not_accredited
              intro hlate
              refine iff_of_true trivial fun _ => .inr ?_
              exact atUnit_of_nothing hinsert
          | succ n => exact .accepted (insertOnConflict_ok hinsert) rfl rfl (imp_of_not_accredited
              (not_accredited_of_insert (insertOnConflict_ok hinsert)))

theorem answerError_ne_accepted (inbox : InboxRow) (err : String) : s.answerError inbox err ≠ .accepted := by
  unfold State.answerError
  split
  · exact nofun
  · exact nofun

theorem answerError_reported_iff (inbox : InboxRow) (err : String) :
    (s.answerError inbox err).Reported ↔ isReplayError err = true ∧ s.recorded inbox = true := by
  unfold State.answerError
  split
  · rename_i hreplay
    cases s.recorded inbox with
    | true => exact iff_of_true trivial ⟨hreplay, rfl⟩
    | false => exact iff_of_false id nofun
  · rename_i hother
    exact iff_of_false id fun h => hother h.1

theorem comes_envelope (e : AccreditationEnvelope) (fault : Option String) :
    Comes s (s.envelope e fault)
      (∀ row, checkEnvelope e s.nextId = .ok row → s.accredited row.voter = true →
        match fault with
        | some err => isReplayError err = true ∧ s.recorded e.inbox = true
        | none => s.recorded e.inbox = true ∨ s.atUnit row = true) := by
  unfold State.envelope
  cases checkEnvelope e s.nextId with
  | error err =>
      refine .quiet rfl rfl ?_
      intro row hrow
      cases hrow
  | ok row =>
      simp only [Except.ok.injEq, forall_eq']
      have hanswer {t : State} {err : String} {fine : Prop} (rows : t.rows = s.rows)
          (ended : t.ended = s.ended ++ [⟨row.voter, s.accredited row.voter, s.answerError e.inbox err⟩])
          (h : s.accredited row.voter = true → (isReplayError err = true ∧ s.recorded e.inbox = true ↔ fine)) :
          Comes s t (s.accredited row.voter = true → fine) := by
        refine .refused rows ended (answerError_ne_accepted _ _) ?_ imp_of_not_accredited
        intro hlate
        rw [answerError_reported_iff, h hlate]
        exact ⟨fun hf _ => hf, fun hf => hf hlate⟩
      cases fault with
      | some err => exact hanswer rfl rfl fun _ => Iff.rfl
      | none =>
          dsimp only
          split
          · rename_i hrecorded
            exact hanswer rfl rfl fun _ => iff_of_true ⟨isReplayError_uniqueViolation, hrecorded⟩ (.inl hrecorded)
          · rename_i hnew
            cases hinsert : s.insertOnConflict row none with
            | error err =>
                refine hanswer rfl rfl fun _ => iff_of_false (fun h => hnew h.2) ?_
                intro hfine
                exact ne_error_of_atUnit (hfine.resolve_left hnew) hinsert
            | ok result =>
                obtain ⟨rows, affected⟩ := result
                cases affected with
                | zero =>
                    refine .refused rfl rfl (by intro heq; cases heq) ?_ imp_of_not_accredited
                    intro hlate
                    exact iff_of_true trivial fun _ => .inr (atUnit_of_nothing hinsert).2
                | succ n =>
                    have hrow := insertOnConflict_ok hinsert
                    exact .accepted hrow rfl rfl (imp_of_not_accredited (not_accredited_of_insert hrow))

theorem comes_step (i : Input) : Comes s (step sha256Hex s i) (s.Careful sha256Hex i) := by
  cases i with
  | request req around answered => exact comes_request req around answered
  | transact index fault =>
      simp only [step, State.Careful]
      cases s.counted[index]? with
      | none => exact .quiet rfl rfl nofun
      | some req =>
          simp only [Option.mem_def, Option.some.injEq, forall_eq']
          exact comes_transact req fault index
  | takeJob payload maxRetries => exact .quiet rfl rfl trivial
  | tryJob index fault =>
      simp only [step, State.Careful]
      cases s.jobs[index]? with
      | none => exact .quiet rfl rfl nofun
      | some job =>
          simp only [Option.mem_def, Option.some.injEq, forall_eq']
          exact comes_tryJob index job fault
  | envelope e fault => exact comes_envelope e fault

/-! ### Runs -/

theorem sound_start : start.Sound := ⟨fun _ _ => List.Pairwise.nil, nofun⟩

theorem step_sound (i : Input) (h : s.Sound) : (step sha256Hex s i).Sound := (comes_step i).sound h

theorem step_onePerVoter_iff (i : Input) (hsound : s.Sound) (h : s.OnePerVoter) :
    (step sha256Hex s i).OnePerVoter ↔ s.Careful sha256Hex i := by
  rw [(step_sound i hsound).iff_reported]
  exact (comes_step i).reported_iff h.reported

/-- In every order of the three paths, all late attempts are reported exactly if the steps that end them are
careful. -/
theorem onePerVoter_iff (inputs : List Input) :
    (∀ s ∈ Runs.visited (step sha256Hex) start inputs, s.OnePerVoter) ↔
      Runs.AllSteps (step sha256Hex) (State.Careful sha256Hex) start inputs :=
  Runs.forall_visited_iff (fun _ i => step_sound i) (fun _ i => step_onePerVoter_iff i) sound_start
    (sound_start.iff_reported.mpr nofun) inputs

/-- The payload of an accreditation of one voter in election 7. -/
def accreditationPayload (code : String) : Payload :=
  [("election_id", .number (.ofInt 7)), ("polling_unit_code", .str code),
    ("voter_pvc_hash", .str (String.ofList (List.replicate 64 'a'))), ("biometric_match", .bool true),
    ("pvc_verified", .bool true)]

/-- The device reports the voter at one unit, and again at another, and the worker tries the second job four
times. -/
def atTwoUnits : List Input :=
  [.takeJob (accreditationPayload "PU-1") 3, .tryJob 0 none,
    .takeJob (accreditationPayload "PU-2") 3, .tryJob 0 none, .tryJob 0 none, .tryJob 0 none, .tryJob 0 none]

/-- It ends as a dead letter. -/
theorem not_onePerVoter_atTwoUnits :
    ¬∀ inputs, ∀ s ∈ Runs.visited (step Sha256.hex) start inputs, s.OnePerVoter := by
  intro h
  have hreported := (h atTwoUnits _ (Runs.final_mem_visited _ _)).reported
  have hlost : ∃ x ∈ (Runs.final (step Sha256.hex) start atTwoUnits).ended, x.late = true ∧ ¬x.ending.Reported := by
    decide +kernel
  obtain ⟨x, hx, hlate, hlost⟩ := hlost
  exact hlost (hreported x hx hlate)

end Inec.Bvas
