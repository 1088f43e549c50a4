import Inec.Lib.Runs
import Inec.Request
import Mathlib.Tactic.MkIffOfInductiveProp

/-!
# Rides to the polls

Four writers move one row of `gotv_ride_requests`: handleCreateRide, handleMatchRide, handleUpdateRideStatus and
the matcher that two of them start in the background. The matcher and the release of an assignment guard their
update with the status the row has at that moment. handleMatchRide and the plain update of
handleUpdateRideStatus do not: they update by the request id, whatever has become of the row since it was read.

A handler that has read and not written is listed in `matches` or `updates`, a call of the matcher is counted in
`matchers`; each may go on at any time. `fails` is a statement the database refuses.
-/

namespace Inec.Rides

open Checks

/-- The CHECK of the column `status`. -/
inductive RideStatus
  | pending | matched | enRoute | pickedUp | droppedOff | cancelled | noShow
  deriving DecidableEq, Repr

/-- `validStatuses`. -/
inductive RideUpdate
  | enRoute | pickedUp | droppedOff | cancelled | noShow
  deriving DecidableEq, Repr

def validStatuses : List (String × RideUpdate) :=
  [("en_route", .enRoute), ("picked_up", .pickedUp), ("dropped_off", .droppedOff), ("cancelled", .cancelled),
    ("no_show", .noShow)]

def RideUpdate.status : RideUpdate → RideStatus
  | .enRoute => .enRoute
  | .pickedUp => .pickedUp
  | .droppedOff => .droppedOff
  | .cancelled => .cancelled
  | .noShow => .noShow

structure RideRequest where
  partyId : Int
  contactId : String
  pollingUnitCode : String
  volunteerId : Option String
  status : RideStatus
  deriving DecidableEq, Repr

/-! ### The statements -/

/-- The row of the INSERT, with the defaults of its other columns. -/
def createRide (row : Option RideRequest) (partyId : Int) (contactId pollingUnitCode : String) (fails : Bool) :
    Except HttpError RideRequest := do
  require (contactId != "" && pollingUnitCode != "") ⟨400, "contact_id and polling_unit_code required"⟩
  require (!fails && row.isNone) ⟨500, "create failed"⟩
  return ⟨partyId, contactId, pollingUnitCode, none, .pending⟩

/-- What handleMatchRide has read before its update: the driver. `driver` is the answer to the query for the
nearest volunteer with a vehicle. -/
def readMatch (row : Option RideRequest) (partyId : Int) (driver : Option String) (fails : Bool) :
    Except HttpError String := do
  require (!fails && row.any fun r => r.partyId == partyId && r.status == .pending)
    ⟨404, "ride not found or already matched"⟩
  fetch driver ⟨404, "no available drivers"⟩

/-- `UPDATE … SET volunteer_id, status='matched' WHERE request_id`. -/
def RideRequest.matchTo (r : RideRequest) (volunteerId : String) : RideRequest :=
  { r with volunteerId := some volunteerId, status := .matched }

/-- The update of the matcher, `AND status='pending'`. An answer without a volunteer leads to none. -/
def RideRequest.swap (r : RideRequest) (volunteerId : String) : RideRequest :=
  if volunteerId ≠ "" ∧ r.status = .pending then r.matchTo volunteerId else r

/-- The condition of the release: `volunteer_id IS NOT NULL AND status IN ('matched','en_route')`. -/
def RideRequest.live (r : RideRequest) (partyId : Int) : Bool :=
  r.partyId == partyId && r.volunteerId.isSome && (r.status == .matched || r.status == .enRoute)

def RideRequest.release (r : RideRequest) : RideRequest := { r with volunteerId := none, status := .pending }

/-- A request to release an assignment, which only these two statuses are. -/
def RideUpdate.releases : RideUpdate → Bool
  | .cancelled | .noShow => true
  | _ => false

def RideRequest.setStatus (r : RideRequest) (partyId : Int) (update : RideUpdate) : RideRequest :=
  if r.partyId = partyId then { r with status := update.status } else r

/-! ### The steps -/

structure State where
  ride : Option RideRequest
  /-- Calls of the matcher that have not come back. -/
  matchers : Nat
  /-- Drivers that handleMatchRide has found and not written. -/
  matching : List String
  /-- Updates that handleUpdateRideStatus has checked and not written, with the party of each. -/
  updates : List (Int × RideUpdate)
  deriving DecidableEq, Repr

inductive Input
  | create (partyId : Int) (contactId pollingUnitCode : String) (fails : Bool)
  | matchRide (partyId : Int) (driver : Option String) (fails : Bool)
  | commitMatch (index : Nat) (fails : Bool)
  | updateStatus (partyId : Int) (status : String) (fails : Bool)
  | commitStatus (index : Nat) (fails : Bool)
  /-- `volunteerId` is empty or missing where the matcher has found nobody. -/
  | matcherAnswers (volunteerId : Option String) (fails : Bool)
  deriving DecidableEq, Repr

def start : State := ⟨none, 0, [], []⟩

/-- What handleUpdateRideStatus does up to its plain update: a live assignment is released and the matcher
started again, all else goes on to the plain update. A release that fails goes on as well. -/
def State.updateRide (s : State) (partyId : Int) (update : RideUpdate) (fails : Bool) : State :=
  match s.ride with
  | some r =>
      if update.releases = true ∧ fails = false ∧ r.live partyId = true then
        { s with ride := some r.release, matchers := s.matchers + 1 }
      else { s with updates := s.updates ++ [(partyId, update)] }
  | none => { s with updates := s.updates ++ [(partyId, update)] }

def State.step (s : State) : Input → State
  | .create partyId contactId pollingUnitCode fails =>
      match createRide s.ride partyId contactId pollingUnitCode fails with
      | .ok r => { s with ride := some r, matchers := s.matchers + 1 }
      | .error _ => s
  | .matchRide partyId driver fails =>
      match readMatch s.ride partyId driver fails with
      | .ok driver => { s with matching := s.matching ++ [driver] }
      | .error _ => s
  | .commitMatch index fails =>
      match s.matching[index]? with
      | some driver =>
          { s with ride := if fails then s.ride else s.ride.map (·.matchTo driver),
                   matching := s.matching.eraseIdx index }
      | none => s
  | .updateStatus partyId status fails =>
      match validStatuses.lookup status with
      | some update => s.updateRide partyId update fails
      | none => s
  | .commitStatus index fails =>
      match s.updates[index]? with
      | some (partyId, update) =>
          { s with ride := if fails then s.ride else s.ride.map (·.setStatus partyId update),
                   updates := s.updates.eraseIdx index }
      | none => s
  | .matcherAnswers volunteerId fails =>
      if s.matchers = 0 then s
      else { s with ride := if fails then s.ride else s.ride.map (·.swap (volunteerId.getD "")),
                    matchers := s.matchers - 1 }

/-! ### What is asked -/

/-- The statuses in which a ride has a volunteer on the way. -/
def RideStatus.underway : RideStatus → Bool
  | .matched | .enRoute | .pickedUp => true
  | _ => false

def RideStatus.terminal : RideStatus → Bool
  | .droppedOff | .cancelled => true
  | _ => false

/-- A ride under way has a volunteer, a pending one has none. -/
@[mk_iff] structure RideRequest.Assigned (r : RideRequest) : Prop where
  underway : r.status.underway = true → r.volunteerId.isSome = true
  pending : r.status = .pending → r.volunteerId = none

def State.Assigned (s : State) : Prop := ∀ r ∈ s.ride, r.Assigned

/-- What may become of a ride: a terminal status stays, a voter is picked up by a volunteer who was matched and
dropped off after having been picked up. -/
@[mk_iff] structure Follows (before after : RideRequest) : Prop where
  terminal : before.status.terminal = true → after.status = before.status
  pickedUp : after.status = .pickedUp → before.status ≠ .pickedUp →
    (before.status = .matched ∨ before.status = .enRoute) ∧ before.volunteerId.isSome = true
  droppedOff : after.status = .droppedOff → before.status ≠ .droppedOff → before.status = .pickedUp

/-- A match is written to the ride by this step. -/
def State.committedMatch (s : State) : Input → Bool
  | .commitMatch index fails => (s.matching[index]?).isSome && !fails
  | .matcherAnswers volunteerId fails =>
      s.matchers != 0 && !fails && volunteerId.getD "" != "" && s.ride.any fun r => r.status == .pending
  | _ => false

/-- The ride moves as it may, and a match finds no other there. -/
def State.Lawful (s : State) (i : Input) : Prop :=
  ∀ before ∈ s.ride, (∀ after ∈ (s.step i).ride, Follows before after) ∧
    (s.committedMatch i = true → before.volunteerId = none)

/-- The order in which a ride comes to the statuses that a request may name. -/
def RideRequest.mayBecome (r : RideRequest) : RideUpdate → Bool
  | .enRoute => r.volunteerId.isSome && !r.status.terminal
  | .pickedUp => r.status.underway
  | .droppedOff => r.status == .pickedUp || r.status == .droppedOff
  | .cancelled => r.status != .droppedOff
  | .noShow => !r.status.terminal

/-- The two updates by request id alone find a ride that they may be made to: a match of handleMatchRide one that
has no volunteer and is not over, a status one that comes before it. -/
def State.Careful (s : State) : Input → Prop
  | .commitMatch index false =>
      ∀ _driver ∈ s.matching[index]?, ∀ r ∈ s.ride, r.volunteerId = none ∧ r.status.terminal = false
  | .commitStatus index false =>
      ∀ u ∈ s.updates[index]?, ∀ r ∈ s.ride, r.partyId = u.1 → r.mayBecome u.2 = true
  | _ => True

instance (s : State) : (i : Input) → Decidable (s.Careful i)
  | .commitMatch index false =>
      inferInstanceAs (Decidable (∀ _driver ∈ s.matching[index]?, ∀ r ∈ s.ride,
        r.volunteerId = none ∧ r.status.terminal = false))
  | .commitStatus index false =>
      inferInstanceAs (Decidable (∀ u ∈ s.updates[index]?, ∀ r ∈ s.ride,
        r.partyId = u.1 → r.mayBecome u.2 = true))
  | .commitMatch _ true | .commitStatus _ true | .create .. | .matchRide .. | .updateStatus ..
  | .matcherAnswers .. => .isTrue trivial

/-! ### What a step does to the ride -/

variable {s : State} {r : RideRequest} {i : Input}

/-- What a step comes to for the ride, with what it has to find there. -/
inductive Effect (s : State) (r : RideRequest) (i : Input) : RideRequest → Prop
  | same (hmatch : s.committedMatch i = false) (hcareful : s.Careful i) : Effect s r i r
  | swapped (volunteerId : String) (hpending : r.status = .pending) (hcareful : s.Careful i) :
      Effect s r i (r.matchTo volunteerId)
  | released (partyId : Int) (hlive : r.live partyId = true) (hmatch : s.committedMatch i = false)
      (hcareful : s.Careful i) : Effect s r i r.release
  | matched (driver : String) (hmatch : s.committedMatch i = true)
      (hcareful : s.Careful i ↔ r.volunteerId = none ∧ r.status.terminal = false) :
      Effect s r i (r.matchTo driver)
  | moved (partyId : Int) (update : RideUpdate) (hmatch : s.committedMatch i = false)
      (hcareful : s.Careful i ↔ (r.partyId = partyId → r.mayBecome update = true)) :
      Effect s r i (r.setStatus partyId update)

theorem effect_updateRide (hr : s.ride = some r) (partyId : Int) (update : RideUpdate) (fails : Bool)
    (hmatch : s.committedMatch i = false) (hcareful : s.Careful i) :
    ∃ r', (s.updateRide partyId update fails).ride = some r' ∧ Effect s r i r' := by
  rw [State.updateRide, hr]
  dsimp only
  split
  case isTrue h => exact ⟨r.release, rfl, .released partyId h.2.2 hmatch hcareful⟩
  case isFalse => exact ⟨r, rfl, .same hmatch hcareful⟩

theorem effect_step (hr : s.ride = some r) (i : Input) :
    ∃ r', (s.step i).ride = some r' ∧ Effect s r i r' := by
  cases i with
  | create partyId contactId pollingUnitCode fails =>
      refine ⟨r, ?_, .same rfl trivial⟩
      rw [State.step]
      split
      · rename_i new hok
        simp only [createRide, hr, Option.isNone_some, Bool.and_false, bind_eq_ok, require_eq_ok] at hok
        obtain ⟨-, -, -, hfalse, -⟩ := hok
        cases hfalse
      · exact hr
  | matchRide partyId driver fails =>
      refine ⟨r, ?_, .same rfl trivial⟩
      rw [State.step]
      split <;> exact hr
  | commitMatch index fails =>
      rw [State.step]
      cases hdriver : s.matching[index]? with
      | none =>
          refine ⟨r, hr, .same (by simp [State.committedMatch, hdriver]) ?_⟩
          cases fails <;> simp [State.Careful, hdriver]
      | some driver =>
          cases fails with
          | true => exact ⟨r, hr, .same (by simp [State.committedMatch]) trivial⟩
          | false =>
              refine ⟨r.matchTo driver, by simp [hr], .matched driver ?_ ?_⟩
              · simp [State.committedMatch, hdriver]
              · simp [State.Careful, hdriver, hr]
  | updateStatus partyId status fails =>
      rw [State.step]
      cases validStatuses.lookup status with
      | none => exact ⟨r, hr, .same rfl trivial⟩
      | some update => exact effect_updateRide hr partyId update fails rfl trivial
  | commitStatus index fails =>
      rw [State.step]
      cases hupdate : s.updates[index]? with
      | none =>
          refine ⟨r, hr, .same rfl ?_⟩
          cases fails <;> simp [State.Careful, hupdate]
      | some u =>
          obtain ⟨partyId, update⟩ := u
          cases fails with
          | true => exact ⟨r, hr, .same rfl trivial⟩
          | false =>
              refine ⟨r.setStatus partyId update, by simp [hr], .moved partyId update rfl ?_⟩
              simp [State.Careful, hupdate, hr]
  | matcherAnswers volunteerId fails =>
      rw [State.step]
      by_cases hnone : s.matchers = 0
      · refine ⟨r, ?_, .same (by simp [State.committedMatch, hnone]) trivial⟩
        rw [if_pos hnone]
        exact hr
      · rw [if_neg hnone]
        cases fails with
        | true => exact ⟨r, hr, .same (by simp [State.committedMatch]) trivial⟩
        | false =>
            refine ⟨r.swap (volunteerId.getD ""), by simp [hr], ?_⟩
            rw [RideRequest.swap]
            split
            case isTrue h => exact .swapped _ h.2 trivial
            case isFalse h =>
              refine .same ?_ trivial
              rw [State.committedMatch, hr, Option.any_some, Bool.and_assoc]
              simp only [Bool.and_eq_false_iff, bne_eq_false_iff_eq, beq_eq_false_iff_ne]
              exact .inr (not_and_or.mp h |>.imp not_not.mp id)

/-! ### The moves of a ride -/

theorem Follows.refl (r : RideRequest) : Follows r r :=
  ⟨fun _ => rfl, fun h hne => absurd h hne, fun h hne => absurd h hne⟩

theorem RideRequest.Assigned.matchTo (r : RideRequest) (volunteerId : String) : (r.matchTo volunteerId).Assigned :=
  ⟨fun _ => rfl, nofun⟩

theorem follows_matchTo (volunteerId : String) :
    Follows r (r.matchTo volunteerId) ↔ r.status.terminal = false := by
  constructor
  · intro h
    cases hterminal : r.status.terminal with
    | false => rfl
    | true =>
        have heq : RideStatus.matched = r.status := h.terminal hterminal
        rw [← heq] at hterminal
        cases hterminal
  · intro h
    exact ⟨fun hterminal => absurd (h.symm.trans hterminal) nofun, nofun, nofun⟩

theorem RideRequest.Assigned.release (r : RideRequest) : r.release.Assigned := ⟨nofun, fun _ => rfl⟩

theorem follows_release {partyId : Int} (hlive : r.live partyId = true) : Follows r r.release := by
  refine ⟨fun hterminal => ?_, nofun, nofun⟩
  rw [RideRequest.live, Bool.and_eq_true, Bool.or_eq_true, beq_iff_eq, beq_iff_eq] at hlive
  rcases hlive.2 with heq | heq <;> rw [heq] at hterminal <;> cases hterminal

/-- A status that is set is one the ride may come to, exactly if the ride moves as it may and is assigned as it
has to be. -/
theorem follows_setStatus (h : r.Assigned) (partyId : Int) (update : RideUpdate) :
    (Follows r (r.setStatus partyId update) ∧ (r.setStatus partyId update).Assigned) ↔
      (r.partyId = partyId → r.mayBecome update = true) := by
  by_cases hparty : r.partyId = partyId
  · rw [RideRequest.setStatus, if_pos hparty, forall_prop_of_true hparty]
    rw [follows_iff, RideRequest.assigned_iff]
    rw [RideRequest.assigned_iff] at h
    obtain ⟨party, contact, unit, volunteerId, status⟩ := r
    cases update <;> cases status <;>
      simp_all [RideRequest.mayBecome, RideUpdate.status, RideStatus.underway, RideStatus.terminal]
  · rw [RideRequest.setStatus, if_neg hparty]
    exact ⟨fun _ hp => absurd hp hparty, fun _ => ⟨.refl r, h⟩⟩

/-! ### Before there is a ride -/

theorem careful_of_none (hr : s.ride = none) (i : Input) : s.Careful i := by
  unfold State.Careful
  split <;> simp [hr]

/-- The first step that leaves a ride is its creation. -/
theorem assigned_of_none (hr : s.ride = none) (i : Input) : (s.step i).Assigned := by
  have hnone : ∀ t : State, t.ride = none → t.Assigned := by
    intro t ht r hmem
    rw [ht] at hmem
    cases hmem
  cases i with
  | create partyId contactId pollingUnitCode fails =>
      rw [State.step]
      split
      · rename_i new hok
        simp only [createRide, bind_eq_ok, require_eq_ok, pure_eq_ok] at hok
        obtain ⟨-, -, -, -, heq⟩ := hok
        intro r hmem
        cases hmem
        rw [← heq]
        refine ⟨?_, fun _ => rfl⟩
        intro hne
        cases hne
      · exact hnone s hr
  | matchRide partyId driver fails =>
      rw [State.step]
      split <;> exact hnone _ hr
  | commitMatch index fails =>
      rw [State.step]
      split
      · exact hnone _ (by cases fails <;> simp [hr])
      · exact hnone s hr
  | updateStatus partyId status fails =>
      rw [State.step]
      split
      · rw [State.updateRide, hr]
        exact hnone _ rfl
      · exact hnone s hr
  | commitStatus index fails =>
      rw [State.step]
      split
      · exact hnone _ (by cases fails <;> simp [hr])
      · exact hnone s hr
  | matcherAnswers volunteerId fails =>
      rw [State.step]
      split
      · exact hnone s hr
      · exact hnone _ (by cases fails <;> simp [hr])

/-! ### Runs -/

/-- For an assigned ride a step is lawful and leaves it assigned exactly if it is careful. -/
theorem lawful_iff (h : s.Assigned) (i : Input) : s.Lawful i ∧ (s.step i).Assigned ↔ s.Careful i := by
  cases hr : s.ride with
  | none =>
      have hlawful : s.Lawful i := by
        intro before hbefore
        rw [hr] at hbefore
        cases hbefore
      exact ⟨fun _ => careful_of_none hr i, fun _ => ⟨hlawful, assigned_of_none hr i⟩⟩
  | some r =>
      have hassigned : r.Assigned := h r hr
      obtain ⟨r', hr', heffect⟩ := effect_step hr i
      have hiff : s.Lawful i ∧ (s.step i).Assigned ↔
          (Follows r r' ∧ (s.committedMatch i = true → r.volunteerId = none)) ∧ r'.Assigned := by
        simp [State.Lawful, State.Assigned, hr, hr']
      rw [hiff]
      cases heffect with
      | same hmatch hcareful => simp [hmatch, hcareful, Follows.refl, hassigned]
      | swapped volunteerId hpending hcareful =>
          have hterminal : r.status.terminal = false := by rw [hpending]; rfl
          simp [hcareful, (follows_matchTo volunteerId).mpr hterminal, hassigned.pending hpending,
            RideRequest.Assigned.matchTo]
      | released partyId hlive hmatch hcareful =>
          simp [hmatch, hcareful, follows_release hlive, RideRequest.Assigned.release]
      | matched driver hmatch hcareful =>
          simp [hmatch, hcareful, follows_matchTo, RideRequest.Assigned.matchTo, and_comm]
      | moved partyId update hmatch hcareful =>
          rw [hcareful, ← follows_setStatus hassigned]
          simp [hmatch]

theorem start_assigned : start.Assigned := nofun

/-- In every order of the handlers and the matcher a ride moves as it may, no match is written over another, and
a ride has a volunteer where it needs one, exactly if the updates by request id alone are careful. -/
theorem assignment_kept_iff (inputs : List Input) :
    (Runs.AllSteps State.step State.Lawful start inputs ∧ ∀ t ∈ Runs.visited State.step start inputs, t.Assigned) ↔
      Runs.AllSteps State.step State.Careful start inputs := by
  refine Runs.allSteps_and_forall_visited_iff_of_step ?_ start_assigned inputs
  intro s i h
  exact lawful_iff h i

/-- Two coordinators match the ride at once: the second match is written over the first, whose volunteer is on the
way. -/
theorem not_assignment_kept_atTwoCoordinators :
    let inputs : List Input :=
      [.create 1 "gotv-contact-1" "LA-PU-0001" false, .matchRide 1 (some "gotv-vol-1") false,
        .matchRide 1 (some "gotv-vol-2") false, .commitMatch 0 false, .updateStatus 1 "en_route" false,
        .commitStatus 0 false, .commitMatch 0 false]
    ¬ (Runs.AllSteps State.step State.Lawful start inputs ∧
      ∀ t ∈ Runs.visited State.step start inputs, t.Assigned) := by
  intro inputs hkept
  have hlawful := hkept.1.getElem 6 (by decide)
  have hnone := (hlawful ⟨1, "gotv-contact-1", "LA-PU-0001", some "gotv-vol-1", .enRoute⟩ (by decide)).2 (by decide)
  cases hnone

end Inec.Rides
