import Inec.Lib.Runs
import Inec.Results.Effects

/-!
# What a dismissal restores

Two things are called a dispute: a filed one, a row of its own that may be linked to a result, and the status of a
result that was marked. Dismissing a filed dispute takes the linked result out of the status, whatever else is open
on it, and the status it goes back to is read off `validated_at`.

A watch keeps beside the database the status each result had when it was last at rest: not marked, and without an
open dispute. That is its status before the first of the disputes it is in.
-/

namespace Inec

open Checks

variable {sha256Hex : String → String}

/-- The dispute is linked to the result, and not closed. -/
def Dispute.openOn (k : Dispute) (resultId : Int) : Bool := k.resultId == some resultId && k.status.unresolved

/-- The status of a result that is at rest. -/
def restStatus (db : Tables) (id : Int) : Option ResultStatus :=
  (db.result? id).bind fun r =>
    if r.status ≠ .disputed ∧ (db.disputes.any fun k => k.openOn id) = false then some r.status else none

structure Watch where
  d : Database
  /-- The status of each result when it was last at rest. -/
  before : Int → Option ResultStatus

variable (sha256Hex) in
def watchStep (w : Watch) (q : Request) : Watch where
  d := step sha256Hex w.d q
  before id := (restStatus (step sha256Hex w.d q).tables id).or (w.before id)

def Watch.start (d : Database) : Watch := ⟨d, restStatus d.tables⟩

variable (sha256Hex) in
/-- A dismissal takes a result out of dispute only if no other dispute on it is open, and then the result is back in
the status it had before. -/
def RestoresExactly (w : Watch) (q : Request) : Prop :=
  ∀ id req k, q.op = .resolveDispute id req → checkResolve q.env w.d.tables id req = .ok (k, some .dismissed) →
    ∀ r ∈ w.d.tables.results, ∀ r' ∈ (step sha256Hex w.d q).tables.results, r'.id = r.id →
      r.status = .disputed → r'.status ≠ .disputed →
      (∀ other ∈ w.d.tables.disputes, other.openOn r.id = true → other.id = id) ∧ w.before r.id = some r'.status

/-- The dismissed dispute is the only open one on its result, the result was at rest before, and a pending one has
not been validated since. -/
def DismissesLast (w : Watch) (q : Request) : Prop :=
  ∀ id req k, q.op = .resolveDispute id req → checkResolve q.env w.d.tables id req = .ok (k, some .dismissed) →
    ∀ r ∈ w.d.tables.results, k.resultId = some r.id → r.status = .disputed →
      (∀ other ∈ w.d.tables.disputes, other.openOn r.id = true → other.id = id) ∧
        w.before r.id ≠ none ∧ (w.before r.id = some .pending → r.validatedAt = none)

/-! ### How a row goes on -/

/-- The statuses that no review leads out of. -/
def ResultStatus.closed : ResultStatus → Bool
  | .finalized => true
  | .superseded => true
  | .voided => true
  | _ => false

/-- What a row can have become after one request. -/
structure GoesOn (r r' : ResultRow) : Prop where
  id : r'.id = r.id
  validatedAt : r.validatedAt.isSome = true → r'.validatedAt.isSome = true
  validated : (r.status = .validated → r.validatedAt.isSome = true) → r'.status = .validated →
    r'.validatedAt.isSome = true
  closed : r.status.closed = true → r'.status.closed = true

theorem GoesOn.refl (r : ResultRow) : GoesOn r r := ⟨rfl, fun h => h, fun h => h, fun h => h⟩

/-- A write of the status only. -/
theorem GoesOn.setStatus {r : ResultRow} {status : ResultStatus}
    (hvalidated : status = .validated → r.validatedAt.isSome = true)
    (hclosed : r.status.closed = true → status.closed = true) : GoesOn r (setStatus status r) :=
  ⟨rfl, fun h => h, fun _ => hvalidated, hclosed⟩

theorem not_closed_of_canTransition {current new : ResultStatus} (h : canTransition current new = true) :
    current.closed = false := by
  revert h
  cases current <;> cases new <;> decide

section Step

variable {env : Env} {db db' : Tables} {op : Op}

theorem Marks.goesOn {r : ResultRow} {f : ResultRow → ResultRow} (h : Marks env db op r f) : GoesOn r (f r) := by
  cases h with
  | validated checked =>
      have hopen := not_closed_of_canTransition (checkValidate_ok checked).2
      refine ⟨rfl, fun _ => rfl, fun _ _ => rfl, ?_⟩
      rw [hopen]
      intro hclosed
      cases hclosed
  | finalized => exact ⟨rfl, id, (by intro _ hne; cases hne), fun _ => rfl⟩
  | disputed checked =>
      have hopen := not_closed_of_canTransition (checkDispute_ok checked).2
      refine GoesOn.setStatus (by intro hne; cases hne) ?_
      rw [hopen]
      intro hclosed
      cases hclosed
  | remedied _ remedy =>
      obtain ⟨-, -, ⟨rfl, -⟩ | ⟨-, hdisputed, rfl⟩⟩ := remedied?_cases remedy
      · exact GoesOn.setStatus (by intro hne; cases hne) fun _ => rfl
      · refine GoesOn.setStatus ?_ ?_
        · intro hvalidated
          by_contra hnone
          rw [restoredStatus, if_neg hnone] at hvalidated
          cases hvalidated
        · rw [hdisputed]
          intro hclosed
          cases hclosed

theorem Marks.mem {r : ResultRow} {f : ResultRow → ResultRow} (h : Marks env db op r f) : r ∈ db.results := by
  cases h with
  | validated checked => exact (Tables.mem_of_result? (checkValidate_ok checked).1).1
  | finalized checked => exact (Tables.mem_of_result? (checkFinalize_ok checked).1).1
  | disputed checked => exact (Tables.mem_of_result? (checkDispute_ok checked).1).1
  | remedied _ remedy => exact (Tables.mem_of_result? (remedied?_cases remedy).1).1

/-- A row after a request is one of before that went on, or it has just come in. -/
theorem ResultEffect.goesOn (h : ResultEffect sha256Hex env db db' op) (hconstraints : db.Constraints) :
    ∀ r' ∈ db'.results, (∃ r ∈ db.results, GoesOn r r') ∨
      (r'.id ∉ db.results.map (·.id) ∧ r'.status ≠ .validated) := by
  intro r' hr'
  cases h with
  | kept results => exact Or.inl ⟨r', results ▸ hr', .refl r'⟩
  | @inserted base row scores insertion core =>
      rw [core.results, Tables.addResult] at hr'
      rcases List.mem_append.mp hr' with hr' | hr'
      · left
        obtain ⟨old, hold, rfl | rfl⟩ := insertion.base_old r' hr'
        · exact ⟨r', hold, .refl r'⟩
        · exact ⟨old, hold, .setStatus (by intro hne; cases hne) fun _ => rfl⟩
      · right
        obtain rfl := List.mem_singleton.mp hr'
        refine ⟨insertion.id_notMem, ?_⟩
        rcases insertion.unreviewed.1 with hpending | hdisputed
        · rw [hpending]
          decide
        · rw [hdisputed]
          decide
  | @marked r f mark core =>
      left
      rw [core.results] at hr'
      rcases Rows.mem_update.mp hr' with ⟨old, hold, hid, rfl⟩ | ⟨hold, -⟩
      · obtain rfl : old = r := Rows.eq_of_key_eq hconstraints.resultIds hold mark.mem hid
        exact ⟨old, hold, mark.goesOn⟩
      · exact ⟨r', hold, .refl r'⟩

theorem ResultEffect.ids_subset (h : ResultEffect sha256Hex env db db' op) :
    db.results.map (·.id) ⊆ db'.results.map (·.id) := by
  cases h with
  | kept results => rw [results]; exact List.Subset.refl _
  | inserted insertion core =>
      rw [core.results, Tables.addResult, List.map_append, insertion.base_rows.2.1]
      exact List.subset_append_left _ _
  | marked mark core =>
      rw [core.results, Tables.updateResult, Rows.map_update fun row _ _ => (mark.sameSheet row).id_eq]
      exact List.Subset.refl _

end Step

/-! ### The status before -/

/-- What the status a row had at rest says about the row. -/
structure Steady (before : Option ResultStatus) (r : ResultRow) : Prop where
  timed : r.status = .validated → r.validatedAt.isSome = true
  validated : before = some .validated → r.validatedAt.isSome = true
  closed : ∀ status, before = some status → status = .pending ∨ status = .validated ∨ r.status.closed = true

structure Watch.Sound (w : Watch) : Prop where
  rows : ∀ r ∈ w.d.tables.results, Steady (w.before r.id) r
  known : ∀ id status, w.before id = some status → id ∈ w.d.tables.results.map (·.id)

theorem restStatus_eq_some {db : Tables} {id : Int} {status : ResultStatus} (h : restStatus db id = some status) :
    ∃ r, db.result? id = some r ∧ r.status = status ∧ status ≠ .disputed := by
  obtain ⟨r, hr, hstatus⟩ := Option.bind_eq_some_iff.mp h
  split at hstatus
  · rename_i hrest
    obtain rfl := Option.some.inj hstatus
    exact ⟨r, hr, rfl, hrest.1⟩
  · cases hstatus

/-- A row at rest, seen now. -/
theorem Steady.of_rest {db : Tables} (hconstraints : db.Constraints) {r : ResultRow} (hr : r ∈ db.results)
    (htimed : r.status = .validated → r.validatedAt.isSome = true) {status : ResultStatus}
    (h : restStatus db r.id = some status) : Steady (some status) r := by
  obtain ⟨found, hfound, hstatus, hcalm⟩ := restStatus_eq_some h
  obtain ⟨hmem, hid⟩ := Tables.mem_of_result? hfound
  obtain rfl : found = r := Rows.eq_of_key_eq hconstraints.resultIds hmem hr hid
  refine ⟨htimed, ?_, ?_⟩
  · intro hvalidated
    exact htimed (hstatus.trans (Option.some.inj hvalidated))
  · intro status' heq
    obtain rfl := Option.some.inj heq
    rw [← hstatus] at hcalm ⊢
    revert hcalm
    cases found.status <;> decide

theorem Steady.goesOn {before : Option ResultStatus} {r r' : ResultRow} (h : Steady before r) (hon : GoesOn r r') :
    Steady before r' where
  timed := hon.validated h.timed
  validated hbefore := hon.validatedAt (h.validated hbefore)
  closed status hbefore := (h.closed status hbefore).imp_right (Or.imp_right hon.closed)

theorem watchStep_before (w : Watch) (q : Request) (id : Int) :
    (watchStep sha256Hex w q).before id = (restStatus (step sha256Hex w.d q).tables id).or (w.before id) := rfl

theorem watchStep_sound (w : Watch) (q : Request) (h : w.Sound) : (watchStep sha256Hex w q).Sound := by
  have hkept : ∀ id, restStatus (step sha256Hex w.d q).tables id = none →
      (watchStep sha256Hex w q).before id = w.before id := by
    intro id hnone
    rw [watchStep_before, hnone, Option.none_or]
  have hseen : ∀ id status, restStatus (step sha256Hex w.d q).tables id = some status →
      (watchStep sha256Hex w q).before id = some status := by
    intro id status hsome
    rw [watchStep_before, hsome, Option.some_or]
  have hrows : ∀ r' ∈ (step sha256Hex w.d q).tables.results, (∃ r ∈ w.d.tables.results, GoesOn r r') ∨
      (r'.id ∉ w.d.tables.results.map (·.id) ∧ r'.status ≠ .validated) := by
    rcases step_cases w.d q with hsame | hrun
    · intro r' hr'
      exact Or.inl ⟨r', hsame ▸ hr', .refl r'⟩
    · exact (run_resultEffect hrun).goesOn w.d.constraints
  have hids : w.d.tables.results.map (·.id) ⊆ (step sha256Hex w.d q).tables.results.map (·.id) := by
    rcases step_cases w.d q with hsame | hrun
    · rw [hsame]
      exact List.Subset.refl _
    · exact (run_resultEffect hrun).ids_subset
  refine ⟨?_, ?_⟩
  · intro r' hr'
    cases hrest : restStatus (step sha256Hex w.d q).tables r'.id with
    | some status =>
        rw [hseen _ _ hrest]
        refine Steady.of_rest (step sha256Hex w.d q).constraints hr' ?_ hrest
        rcases hrows r' hr' with ⟨r, hr, hon⟩ | ⟨-, hstatus⟩
        · exact hon.validated (h.rows r hr).timed
        · exact fun hvalidated => absurd hvalidated hstatus
    | none =>
        rw [hkept _ hrest]
        rcases hrows r' hr' with ⟨r, hr, hon⟩ | ⟨hnew, hstatus⟩
        · rw [hon.id]
          exact (h.rows r hr).goesOn hon
        · cases hbefore : w.before r'.id with
          | some status => exact absurd (h.known _ _ hbefore) hnew
          | none =>
              exact ⟨fun hvalidated => absurd hvalidated hstatus, fun hne => (nomatch hne),
                fun _ hne => (nomatch hne)⟩
  · intro id status hbefore
    cases hrest : restStatus (step sha256Hex w.d q).tables id with
    | some status' =>
        obtain ⟨r, hr, -⟩ := restStatus_eq_some hrest
        obtain ⟨hmem, hid⟩ := Tables.mem_of_result? hr
        exact List.mem_map.mpr ⟨r, hmem, hid⟩
    | none =>
        rw [hkept _ hrest] at hbefore
        exact hids (h.known id status hbefore)

/-! ### Dismissals -/

/-- The status a dismissal restores is the one before, unless the result was validated in between. -/
theorem Steady.before_eq_restored {before : Option ResultStatus} {r : ResultRow} (h : Steady before r)
    (hdisputed : r.status = .disputed) :
    before = some (restoredStatus r) ↔ before ≠ none ∧ (before = some .pending → r.validatedAt = none) := by
  have hopen : r.status.closed = false := by
    rw [hdisputed]
    rfl
  constructor
  · intro heq
    rw [heq]
    refine ⟨Option.some_ne_none _, ?_⟩
    intro hpending
    unfold restoredStatus at hpending
    split at hpending
    · cases hpending
    · rename_i hnone
      exact Option.not_isSome_iff_eq_none.mp hnone
  · rintro ⟨hsome, hpending⟩
    obtain ⟨status, rfl⟩ := Option.ne_none_iff_exists'.mp hsome
    rcases h.closed status rfl with rfl | rfl | hclosed
    · rw [restoredStatus, hpending rfl]
      rfl
    · rw [restoredStatus, if_pos (h.validated rfl)]
    · rw [hopen] at hclosed
      cases hclosed

section Dismissal

variable {d : Database} {q : Request} {id : Int} {req : ResolveRequest} {k : Dispute}

/-- A dismissal that passes its checks is carried out. -/
theorem dismissal_core (hop : q.op = .resolveDispute id req)
    (hchecked : checkResolve q.env d.tables id req = .ok (k, some .dismissed)) :
    (step sha256Hex d q).tables.results = (remediedTables d.tables (k, some .dismissed)).results := by
  have hrun : ∃ db' response, handleResolveDispute q.env d.tables id req = .ok (db', response) := by
    simp only [handleResolveDispute, hchecked]
    exact ⟨_, _, rfl⟩
  obtain ⟨db', response, hrun⟩ := hrun
  have haccepted : q.op.run sha256Hex q.env d.tables = some db' := by
    rw [hop]
    exact toOption_eq_some.mpr (map_eq_ok.mpr ⟨(db', response), hrun, rfl⟩)
  obtain ⟨checked, hchecked', hcore⟩ := handleResolveDispute_ok hrun
  obtain rfl := Except.ok.inj (hchecked'.symm.trans hchecked)
  rw [step_accepted haccepted]
  exact hcore.results

/-- It restores the linked result if that is disputed. -/
theorem dismissal_linked (hop : q.op = .resolveDispute id req)
    (hchecked : checkResolve q.env d.tables id req = .ok (k, some .dismissed)) {r r' : ResultRow}
    (hr : r ∈ d.tables.results) (hr' : r' ∈ (step sha256Hex d q).tables.results) (hid : r'.id = r.id)
    (hdisputed : r.status = .disputed) (hlinked : k.resultId = some r.id) :
    r' = setStatus (restoredStatus r) r := by
  have hfound : d.tables.result? r.id = some r := (Rows.find?_key_eq_some_iff d.constraints.resultIds).mpr ⟨hr, rfl⟩
  have hremedy : remedied? d.tables (k, some .dismissed) = some (r, restoredStatus r) := by
    simp [remedied?, linkedResult?, hlinked, hfound, DisputeOutcome.remedy, hdisputed]
  rw [dismissal_core hop hchecked, remediedTables, hremedy] at hr'
  rcases Rows.mem_update.mp hr' with ⟨old, hold, hsame, rfl⟩ | ⟨-, hne⟩
  · obtain rfl : old = r := Rows.eq_of_key_eq d.constraints.resultIds hold hr hsame
    rfl
  · exact absurd hid hne

/-- And it leaves every other result alone. -/
theorem dismissal_unlinked (hop : q.op = .resolveDispute id req)
    (hchecked : checkResolve q.env d.tables id req = .ok (k, some .dismissed)) {r r' : ResultRow}
    (hr : r ∈ d.tables.results) (hr' : r' ∈ (step sha256Hex d q).tables.results) (hid : r'.id = r.id)
    (hunlinked : k.resultId ≠ some r.id) : r' = r := by
  rw [dismissal_core hop hchecked, remediedTables] at hr'
  split at hr'
  · exact Rows.eq_of_key_eq d.constraints.resultIds hr' hr hid
  · rename_i other status hremedy
    obtain ⟨-, hother, -⟩ := remedied?_cases hremedy
    rcases Rows.mem_update.mp hr' with ⟨old, hold, hsame, rfl⟩ | ⟨hold, -⟩
    · have heq : other.id = r.id := hsame.symm.trans hid
      rw [heq] at hother
      exact absurd hother hunlinked
    · exact Rows.eq_of_key_eq d.constraints.resultIds hold hr hid

end Dismissal

theorem restoredStatus_ne_disputed (r : ResultRow) : restoredStatus r ≠ .disputed := by
  unfold restoredStatus
  split <;> decide

theorem restoresExactly_iff (w : Watch) (q : Request) (h : w.Sound) :
    RestoresExactly sha256Hex w q ↔ DismissesLast w q := by
  constructor
  · intro hexact id req k hop hchecked r hr hlinked hdisputed
    -- the row is still there, restored
    have hids : r.id ∈ (step sha256Hex w.d q).tables.results.map (·.id) := by
      rcases step_cases w.d q with hsame | hrun
      · rw [hsame]
        exact List.mem_map_of_mem hr
      · exact (run_resultEffect hrun).ids_subset (List.mem_map_of_mem hr)
    obtain ⟨r', hr', hid⟩ := List.mem_map.mp hids
    have hrestored := dismissal_linked hop hchecked hr hr' hid hdisputed hlinked
    have hleft : r'.status ≠ .disputed := by
      rw [hrestored]
      exact restoredStatus_ne_disputed r
    obtain ⟨honly, hbefore⟩ := hexact id req k hop hchecked r hr r' hr' hid hdisputed hleft
    rw [hrestored] at hbefore
    exact ⟨honly, ((h.rows r hr).before_eq_restored hdisputed).mp hbefore⟩
  · intro hlast id req k hop hchecked r hr r' hr' hid hdisputed hleft
    by_cases hlinked : k.resultId = some r.id
    · obtain ⟨honly, hbefore⟩ := hlast id req k hop hchecked r hr hlinked hdisputed
      rw [dismissal_linked hop hchecked hr hr' hid hdisputed hlinked]
      exact ⟨honly, ((h.rows r hr).before_eq_restored hdisputed).mpr hbefore⟩
    · rw [dismissal_unlinked hop hchecked hr hr' hid hlinked] at hleft
      exact absurd hdisputed hleft

theorem NoResults.watchSound {d : Database} (h : NoResults d.tables) : (Watch.start d).Sound := by
  refine ⟨?_, ?_⟩
  · intro r hr
    rw [Watch.start, h.1] at hr
    cases hr
  · intro id status hbefore
    obtain ⟨r, hr, -⟩ := restStatus_eq_some hbefore
    obtain ⟨hmem, hid⟩ := Tables.mem_of_result? hr
    exact List.mem_map.mpr ⟨r, hmem, hid⟩

/-- Along every run, dismissals restore exactly if and only if each of them closes the last open dispute of a result
that was at rest before and, if it was pending then, has not been validated since. -/
theorem restoresExactly_iff_dismissesLast {start : Database} (hnone : NoResults start.tables)
    (requests : List Request) :
    Runs.AllSteps (watchStep sha256Hex) (RestoresExactly sha256Hex) (.start start) requests ↔
      Runs.AllSteps (watchStep sha256Hex) DismissesLast (.start start) requests :=
  Runs.allSteps_congr watchStep_sound restoresExactly_iff hnone.watchSound requests

/-! ### Three dismissals -/

section Three

/-- The dismissal is found to leave something open, or to restore another status. -/
theorem not_restoresExactly {w : Watch} {q : Request} {id : Int} {req : ResolveRequest}
    (hop : q.op = .resolveDispute id req) (hdismissed :
    (checkResolve q.env w.d.tables id req).toOption.map (·.2) = some (some .dismissed))
    (h : (w.d.tables.results.any fun r => (step sha256Hex w.d q).tables.results.any fun r' =>
      r'.id == r.id && r.status == .disputed && r'.status != .disputed &&
        ((w.d.tables.disputes.any fun other => other.openOn r.id && other.id != id) ||
          w.before r.id != some r'.status)) = true) : ¬RestoresExactly sha256Hex w q := by
  intro hexact
  obtain ⟨⟨k, outcome⟩, hchecked, rfl⟩ := Option.map_eq_some_iff.mp hdismissed
  obtain ⟨r, hr, h⟩ := List.any_eq_true.mp h
  obtain ⟨r', hr', h⟩ := List.any_eq_true.mp h
  simp only [Bool.and_eq_true, Bool.or_eq_true, beq_iff_eq, bne_iff_ne] at h
  obtain ⟨⟨⟨hid, hdisputed⟩, hleft⟩, hwrong⟩ := h
  obtain ⟨honly, hbefore⟩ := hexact id req k hop (toOption_eq_some.mp hchecked) r hr r' hr' hid hdisputed hleft
  rcases hwrong with hopen | hother
  · obtain ⟨other, hmem, hother⟩ := List.any_eq_true.mp hopen
    rw [Bool.and_eq_true, bne_iff_ne] at hother
    exact hother.2 (honly other hmem hother.1)
  · exact hother hbefore

def capturesUnit (overrideReason : String) : Op :=
  .submit ⟨1, "PU-1", [⟨"APC", 60⟩, ⟨"LP", 40⟩], 150, 0, true, "", overrideReason⟩

def filesDispute : Op := .fileDispute ⟨1, "PU-1", some 1, "overvoting", "more votes than voters"⟩

def dismissal : ResolveRequest := ⟨.dismiss, "no ground", "", ""⟩

def oneDispute : List Op := [capturesUnit "", filesDispute, .dispute 1 "recount"]

theorem restoresExactly_of_one_dispute :
    NoResults votingPoll.tables ∧
      (Runs.final (step id) votingPoll (inTurn (oneDispute ++
        [.resolveDispute 1 dismissal]))).tables.results.map (·.status) =
        [.pending] ∧
      Runs.AllSteps (watchStep id) (RestoresExactly id) (.start votingPoll)
        (inTurn (oneDispute ++ [.resolveDispute 1 dismissal])) := by
  refine ⟨by decide, by decide +kernel, ?_⟩
  apply (restoresExactly_iff_dismissesLast (by decide) _).mpr
  refine ⟨fun _ _ _ hop => (nomatch hop), fun _ _ _ hop => (nomatch hop),
    fun _ _ _ hop => (nomatch hop), ?_, trivial⟩
  intro disputeId req k hop _ r hr _ _
  obtain ⟨rfl, rfl⟩ := Op.resolveDispute.inj hop
  have hrows : ∀ r ∈ (Runs.final (watchStep id) (.start votingPoll) (inTurn oneDispute)).d.tables.results,
      r.id = 1 ∧ r.validatedAt = none := by decide +kernel
  have hdisputes : ∀ other ∈ (Runs.final (watchStep id) (.start votingPoll) (inTurn oneDispute)).d.tables.disputes,
      other.id = 1 := by decide +kernel
  have hbefore : (Runs.final (watchStep id) (.start votingPoll) (inTurn oneDispute)).before 1 = some .pending := by
    decide +kernel
  obtain ⟨hid, hunvalidated⟩ := hrows r hr
  refine ⟨fun other hother _ => hdisputes other hother, ?_, fun _ => hunvalidated⟩
  rw [hid]
  exact hbefore ▸ Option.some_ne_none _

/-- The second dispute is still open; the result was pending and goes to validated; and it was never at rest. -/
theorem restored_too_early_or_wrongly :
    NoResults votingPoll.tables ∧
      ¬Runs.AllSteps (watchStep id) (RestoresExactly id) (.start votingPoll)
        (inTurn [capturesUnit "", filesDispute, filesDispute, .dispute 1 "recount"] ++
          inTurn [.resolveDispute 1 dismissal]) ∧
      ¬Runs.AllSteps (watchStep id) (RestoresExactly id) (.start votingPoll)
        (inTurn [capturesUnit "", filesDispute, .dispute 1 "recount", .validate 1, .dispute 1 "recount"] ++
          inTurn [.resolveDispute 1 dismissal]) ∧
      ¬Runs.AllSteps (watchStep id) (RestoresExactly id) (.start votingPoll)
        (inTurn [capturesUnit "two registers merged", filesDispute] ++ inTurn [.resolveDispute 1 dismissal]) := by
  refine ⟨by decide, ?_, ?_, ?_⟩
  · intro h
    exact not_restoresExactly rfl (by decide +kernel) (by decide +kernel) h.last
  · intro h
    exact not_restoresExactly rfl (by decide +kernel) (by decide +kernel) h.last
  · intro h
    exact not_restoresExactly rfl (by decide +kernel) (by decide +kernel) h.last

end Three

end Inec
