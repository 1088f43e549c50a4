import Inec.Results.Controls

/-!
# Form EC8A

The result sheet of a polling unit: its business rules, its field tags and its hash, from domain_inec.go
and handlers.go. The two percentages of rules 6 and 7 are computed in floating point by the source; the
comparisons are made here on the exact ratios, which agree with it for counts of this size.
-/

namespace Inec

open Checks

/-- `PartyVoteEntry`. -/
structure PartyVoteEntry where
  partyCode : String
  votes : Int
  deriving DecidableEq, Repr

structure FormEC8A where
  electionId : Int
  pollingUnitCode : String
  presidingOfficerId : String
  registeredVoters : Int
  accreditedVoters : Int
  totalVotesPolled : Int
  rejectedBallots : Int
  totalValidVotes : Int
  partyResults : List PartyVoteEntry
  bvasSerialNumber : String
  biometricMatchCount : Int
  submittedAt : String
  deriving DecidableEq, Repr

def partySumOf (entries : List PartyVoteEntry) : Int := (entries.map (·.votes)).sum

/-- A ratio as a percentage with one decimal, rounded half to even. -/
def percentText (num den : Int) : String :=
  let thousandths := 1000 * num
  let down := thousandths / den
  let twice := 2 * (thousandths - down * den)
  let tenths := if twice < den then down else if den < twice then down + 1 else down + down % 2
  toString (tenths / 10) ++ "." ++ toString (tenths % 10) ++ "%"

/-- `ValidateEC8A`: the texts of the violated rules. -/
def validateEC8A (form : FormEC8A) : List String :=
  let sumCheck := form.totalValidVotes + form.rejectedBallots
  let partySum := partySumOf form.partyResults
  (if form.accreditedVoters > form.registeredVoters then
    ["accredited_voters (" ++ toString form.accreditedVoters ++ ") exceeds registered_voters (" ++
      toString form.registeredVoters ++ ")"] else []) ++
  (if form.totalVotesPolled > form.accreditedVoters then
    ["total_votes_polled (" ++ toString form.totalVotesPolled ++ ") exceeds accredited_voters (" ++
      toString form.accreditedVoters ++ ")"] else []) ++
  (if sumCheck ≠ form.totalVotesPolled then
    ["valid_votes (" ++ toString form.totalValidVotes ++ ") + rejected_ballots (" ++
      toString form.rejectedBallots ++ ") = " ++ toString sumCheck ++ ", but total_votes_polled = " ++
      toString form.totalVotesPolled] else []) ++
  (if partySum ≠ form.totalValidVotes then
    ["sum of party votes (" ++ toString partySum ++ ") does not equal total_valid_votes (" ++
      toString form.totalValidVotes ++ ")"] else []) ++
  (form.partyResults.filter fun pr => form.accreditedVoters < pr.votes).map (fun pr =>
    "party " ++ pr.partyCode ++ " has " ++ toString pr.votes ++ " votes, exceeding accredited_voters (" ++
      toString form.accreditedVoters ++ ")") ++
  (if 0 < form.registeredVoters ∧ 95 * form.registeredVoters < 100 * form.accreditedVoters then
    ["unusually high turnout: " ++ percentText form.accreditedVoters form.registeredVoters ++
      " (accredited: " ++ toString form.accreditedVoters ++ ", registered: " ++
      toString form.registeredVoters ++ ")"] else []) ++
  (if 0 < form.biometricMatchCount ∧ 0 < form.accreditedVoters ∧
      100 * form.biometricMatchCount < 80 * form.accreditedVoters then
    ["low biometric match rate: " ++ percentText form.biometricMatchCount form.accreditedVoters ++ " (" ++
      toString form.biometricMatchCount ++ "/" ++ toString form.accreditedVoters ++ ")"] else [])

/-- `strings.HasPrefix`. -/
def startsWith (s start : String) : Bool := start.toList.isPrefixOf s.toList

/-- Rules 3 and 4, recognized by the start of their texts. -/
def hasHardViolation (violations : List String) : Bool :=
  violations.any fun v => startsWith v "valid_votes (" || startsWith v "sum of party votes ("

/-! ### Field tags -/

def fieldFailure (field tag : String) : String := "field '" ++ field ++ "' failed on '" ++ tag ++ "'"

/-- The tag `required`, and the tag behind it. -/
def requiredInt (field tag : String) (value : Int) (ok : Bool) : List String :=
  if value = 0 then [fieldFailure field "required"] else if ok then [] else [fieldFailure field tag]

def requiredString (field value : String) : List String :=
  if value = "" then [fieldFailure field "required"] else []

def notNegative (field : String) (value : Int) : List String :=
  if value < 0 then [fieldFailure field "gte"] else []

/-- The answer of `decodeAndValidate` to the failures it collected. -/
def validationError (failures : List String) : HttpError :=
  ⟨400, "validation failed: [" ++ String.intercalate " " failures ++ "]"⟩

/-- The tags of `FormEC8A`. A count of 0 fails `required`. -/
def formFailures (form : FormEC8A) : List String :=
  requiredInt "ElectionID" "gt" form.electionId (0 < form.electionId) ++
  requiredString "PollingUnitCode" form.pollingUnitCode ++
  requiredString "PresidingOfficerID" form.presidingOfficerId ++
  requiredInt "RegisteredVoters" "gt" form.registeredVoters (0 < form.registeredVoters) ++
  requiredInt "AccreditedVoters" "gte" form.accreditedVoters (0 ≤ form.accreditedVoters) ++
  requiredInt "TotalVotesPolled" "gte" form.totalVotesPolled (0 ≤ form.totalVotesPolled) ++
  notNegative "RejectedBallots" form.rejectedBallots ++
  requiredInt "TotalValidVotes" "gte" form.totalValidVotes (0 ≤ form.totalValidVotes) ++
  (if form.partyResults.isEmpty then [fieldFailure "PartyResults" "required"] else
    form.partyResults.flatMap fun pr => requiredString "PartyCode" pr.partyCode ++ notNegative "Votes" pr.votes) ++
  notNegative "BiometricMatchCount" form.biometricMatchCount

/-! ### Hashes -/

section Hash

variable (sha256Hex : String → String)

/-- `computeEC8AHash`. `sort.Slice` promises no order among entries of one party; they keep theirs. -/
def computeEC8AHash (electionId : Int) (code : String) (scores : List PartyVoteEntry)
    (accredited rejected : Int) : String :=
  let sorted := scores.insertionSort fun a b => a.partyCode ≤ b.partyCode
  let parts := sorted.map fun ps => ps.partyCode ++ ":" ++ toString ps.votes
  "sha256:" ++ sha256Hex (toString electionId ++ "|" ++ code ++ "|" ++ String.intercalate "," parts ++ "|" ++
    toString accredited ++ "|" ++ toString rejected)

def PartyVoteEntry.json (entry : PartyVoteEntry) : Json :=
  .obj [("party_code", .str entry.partyCode), ("votes", .int entry.votes)]

/-- A struct is marshalled in the order of its fields. -/
def FormEC8A.json (form : FormEC8A) : Json :=
  .obj [("election_id", .int form.electionId), ("polling_unit_code", .str form.pollingUnitCode),
    ("presiding_officer_id", .str form.presidingOfficerId), ("registered_voters", .int form.registeredVoters),
    ("accredited_voters", .int form.accreditedVoters), ("total_votes_polled", .int form.totalVotesPolled),
    ("rejected_ballots", .int form.rejectedBallots), ("total_valid_votes", .int form.totalValidVotes),
    ("party_results", .arr (form.partyResults.map PartyVoteEntry.json)),
    ("bvas_serial_number", .str form.bvasSerialNumber),
    ("biometric_match_count", .int form.biometricMatchCount), ("submitted_at", .str form.submittedAt)]

def formHash (form : FormEC8A) : String := "sha256:" ++ sha256Hex (canonicalJSON form.json)

end Hash

end Inec
