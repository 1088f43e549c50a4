import Inec.Declaration.Assessment

/-!
# The guards of the election lifecycle

The guard functions of election_fsm.go. The dates of an election are text; `parseDate` follows
`time.Parse("2006-01-02", ...)`, which wants exactly ten characters and a day that exists.
-/

namespace Inec

open Checks

/-! ### Dates -/

def digit? (c : Char) : Option Nat := if c.isDigit then some (c.toNat - 48) else none

def isLeapYear (year : Nat) : Bool := year % 4 == 0 && (year % 100 != 0 || year % 400 == 0)

def daysInMonth (year month : Nat) : Nat :=
  if month = 2 then (if isLeapYear year then 29 else 28)
  else if month = 4 ∨ month = 6 ∨ month = 9 ∨ month = 11 then 30 else 31

/-- The days before the first of January of a year, counted from the year 0. -/
def daysBeforeYear (year : Nat) : Nat :=
  365 * year + (year + 3) / 4 - (year + 99) / 100 + (year + 399) / 400

def daysBeforeMonth (year : Nat) : Nat → Nat
  | 0 => 0
  | month + 1 => daysBeforeMonth year month + (if month = 0 then 0 else daysInMonth year month)

/-- Seconds from 1970-01-01 to the start of a day. -/
def dateSeconds (year month day : Nat) : Int :=
  ((daysBeforeYear year + daysBeforeMonth year month + (day - 1) : Nat) - daysBeforeYear 1970 : Int) * 86400

def parseDate (text : String) : Option Int :=
  match text.toList with
  | [y1, y2, y3, y4, '-', m1, m2, '-', d1, d2] => do
      let year := (← digit? y1) * 1000 + (← digit? y2) * 100 + (← digit? y3) * 10 + (← digit? y4)
      let month := (← digit? m1) * 10 + (← digit? m2)
      let day := (← digit? d1) * 10 + (← digit? d2)
      if 1 ≤ month ∧ month ≤ 12 ∧ 1 ≤ day ∧ day ≤ daysInMonth year month then
        some (dateSeconds year month day)
      else none
  | _ => none

/-- Year, month and day of a day counted from 1970-01-01, with years that start in March. -/
def civilOfDays (days : Int) : Int × Int × Int :=
  let z := days + 719468
  let era := z / 146097
  let dayOfEra := z - era * 146097
  let yearOfEra := (dayOfEra - dayOfEra / 1460 + dayOfEra / 36524 - dayOfEra / 146096) / 365
  let dayOfYear := dayOfEra - (365 * yearOfEra + yearOfEra / 4 - yearOfEra / 100)
  let marchMonth := (5 * dayOfYear + 2) / 153
  let month := if marchMonth < 10 then marchMonth + 3 else marchMonth - 9
  (yearOfEra + era * 400 + (if month ≤ 2 then 1 else 0), month,
    dayOfYear - (153 * marchMonth + 2) / 5 + 1)

def padLeft (width : Nat) (n : Int) : String :=
  let text := toString n
  String.ofList (List.replicate (width - text.length) '0') ++ text

/-- `Format("2006-01-02")`. -/
def formatDate (seconds : Int) : String :=
  let (year, month, day) := civilOfDays (seconds / 86400)
  padLeft 4 year ++ "-" ++ padLeft 2 month ++ "-" ++ padLeft 2 day

/-- The zero `time.Time`, which `time.Parse` returns with an error. -/
def zeroTime : Int := dateSeconds 1 1 1

example : parseDate "2027-02-20" = some 1803081600 := by decide

example : formatDate 1803081600 = "2027-02-20" := by decide

/-! ### Guards -/

section Guards

variable (env : Env) (db : Tables) (electionId : Int)

def guardSchedule : Except String Unit := do
  let e ← fetch (db.election? electionId) "election not found"
  let date ← fetch (parseDate e.electionDate) "invalid election_date format"
  require (!(date < env.now + 7 * 86400)) "election must be scheduled at least 7 days in advance"

/-- The count of polling units is queried with an argument that its statement has no placeholder for.
The error of a driver that refuses it is not looked at, and the count stays 0. -/
def guardActivate : Except String Unit := do
  require ((db.staffAssignments.filter fun s => s.electionId == electionId).length != 0)
    "cannot activate: no staff assigned"
  require ((if env.acceptsSurplusArgs then db.pollingUnits.length else 0) != 0)
    "cannot activate: no polling units configured"

/-- A date that does not parse is the zero time, which is never ahead. -/
def guardOpenVoting : Except String Unit :=
  let text := ((db.election? electionId).map (·.electionDate)).getD ""
  let date := (parseDate text).getD zeroTime
  require (!(env.now + (24 * 3600 - 1) < date))
    ("voting cannot open before election day (scheduled: " ++ formatDate date ++ ", today: " ++
      formatDate env.now ++ ")")

def guardCloseVoting : Except String Unit :=
  require (db.elections.any fun e => e.id == electionId && e.status == .voting)
    "election is not in voting state"

/-- The election and all its children, cancelled ones included. -/
def familyIDs : List Int :=
  (db.elections.filter fun e => e.id == electionId || e.parentElectionId == some electionId).map (·.id)

/-- `COUNT(DISTINCT polling_unit_code)` over the three accounting statuses. -/
def accountedPUs : Nat :=
  ((db.results.filter fun r => (familyIDs db electionId).contains r.electionId &&
    (r.status == .finalized || r.status == .voided || r.status == .disputed)).map
      (·.pollingUnitCode)).dedup.length

def guardFinalize : Except String Unit := do
  let open_ := openDisputes db (familyIDs db electionId)
  let total := db.pollingUnits.length
  let accounted := accountedPUs db electionId
  require (open_ == 0) ("cannot close: " ++ toString open_ ++ " unresolved disputes remain")
  require (!(0 < total && accounted < total))
    ("cannot close: " ++ toString (total - accounted) ++ "/" ++ toString total ++
      " polling units unaccounted for (need finalized, voided, or disputed results for all)")

def guardDeclare : Except String Unit := do
  let a ← assessDeclaration env.order db electionId
  require a.complete ("declaration blocked: " ++ toString a.missingPUs ++ " polling units unaccounted for")
  require (a.openDisputes == 0) ("declaration blocked: " ++ toString a.openDisputes ++ " unresolved disputes")
  require (!a.inconclusive) ("election inconclusive: " ++ a.inconclusiveWhy)

def guardDispute : Except String Unit :=
  require (db.elections.any fun e => e.id == electionId && e.status == .closed) "election is not closed"

end Guards

end Inec
