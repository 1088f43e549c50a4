import Inec.Results.Submit

/-!
# Payloads of ingestion jobs

A job carries a JSON object as `encoding/json` decodes it into a map, and the job's processor takes the
figures of a result out of it. The readers are lenient: a number may come as a number or as a text, and
a polling unit under either of two names.

The code looks at a `float64` in three ways only, so that is what a number is here.
-/

namespace Inec

open Checks

/-- A `float64` by `int(t)`, by `strconv.FormatFloat(t, 'f', -1, 64)` and by its JSON text. -/
structure NumberView where
  truncated : Int
  plain : String
  json : String
  deriving DecidableEq, Repr

/-- The number of a Go integer. -/
def NumberView.ofInt (n : Int) : NumberView := ⟨n, toString n, toString n⟩

inductive PayloadValue
  | null
  | bool (value : Bool)
  | number (value : NumberView)
  | str (value : String)
  | arr (items : List PayloadValue)
  | obj (fields : List (String × PayloadValue))

mutual

def PayloadValue.decEq : (a b : PayloadValue) → Decidable (a = b)
  | .null, b => match b with
      | .null => .isTrue rfl
      | .bool _ | .number _ | .str _ | .arr _ | .obj _ => .isFalse nofun
  | .bool x, b => match b with
      | .bool y => decidable_of_iff (x = y) (by simp)
      | .null | .number _ | .str _ | .arr _ | .obj _ => .isFalse nofun
  | .number x, b => match b with
      | .number y => decidable_of_iff (x = y) (by simp)
      | .null | .bool _ | .str _ | .arr _ | .obj _ => .isFalse nofun
  | .str x, b => match b with
      | .str y => decidable_of_iff (x = y) (by simp)
      | .null | .bool _ | .number _ | .arr _ | .obj _ => .isFalse nofun
  | .arr xs, b => match b with
      | .arr ys => @decidable_of_iff _ (xs = ys) (by simp) (decEqItems xs ys)
      | .null | .bool _ | .number _ | .str _ | .obj _ => .isFalse nofun
  | .obj xs, b => match b with
      | .obj ys => @decidable_of_iff _ (xs = ys) (by simp) (decEqFields xs ys)
      | .null | .bool _ | .number _ | .str _ | .arr _ => .isFalse nofun

def PayloadValue.decEqItems : (xs ys : List PayloadValue) → Decidable (xs = ys)
  | [], [] => .isTrue rfl
  | [], _ :: _ | _ :: _, [] => .isFalse nofun
  | x :: xs, y :: ys =>
      @decidable_of_iff _ (x = y ∧ xs = ys) (by simp) (@instDecidableAnd _ _ (decEq x y) (decEqItems xs ys))

def PayloadValue.decEqFields : (xs ys : List (String × PayloadValue)) → Decidable (xs = ys)
  | [], [] => .isTrue rfl
  | [], _ :: _ | _ :: _, [] => .isFalse nofun
  | (k, x) :: xs, (l, y) :: ys =>
      @decidable_of_iff _ (k = l ∧ x = y ∧ xs = ys) (by simp [and_assoc])
        (@instDecidableAnd _ _ (inferInstance) (@instDecidableAnd _ _ (decEq x y) (decEqFields xs ys)))

end

instance : DecidableEq PayloadValue := PayloadValue.decEq

abbrev Payload := List (String × PayloadValue)

namespace Payload

def get? (payload : Payload) (key : String) : Option PayloadValue :=
  (payload.find? fun field => field.1 == key).map (·.2)

def set (payload : Payload) (key : String) (value : PayloadValue) : Payload :=
  (key, value) :: payload.filter fun field => field.1 != key

end Payload

/-! ### Reading -/

/-- The value of a text of digits. -/
def digits? (text : List Char) : Option Nat :=
  if text.isEmpty || !text.all Char.isDigit then none
  else some (text.foldl (fun n c => 10 * n + (c.toNat - '0'.toNat)) 0)

/-- `strconv.Atoi` on a 64-bit platform. -/
def atoi (text : String) : Option Int :=
  match text.toList with
  | '-' :: rest => (digits? rest).bind fun n => if n ≤ 2 ^ 63 then some (-n) else none
  | '+' :: rest => (digits? rest).bind fun n => if n < 2 ^ 63 then some n else none
  | rest => (digits? rest).bind fun n => if n < 2 ^ 63 then some n else none

example : atoi "-12" = some (-12) ∧ atoi "1e3" = none ∧ atoi "9223372036854775808" = none := by decide

/-- The first of the keys with a text that is not blank or a number. -/
def payloadString (payload : Payload) : List String → String
  | [] => ""
  | key :: rest =>
      match payload.get? key with
      | some (.str text) => if trimSpace text ≠ "" then trimSpace text else payloadString payload rest
      | some (.number n) => n.plain
      | _ => payloadString payload rest

/-- The first of the keys with a number or a text that is one. -/
def payloadInt (payload : Payload) : List String → Option Int
  | [] => none
  | key :: rest =>
      match payload.get? key with
      | some (.number n) => some n.truncated
      | some (.str text) =>
          match atoi (trimSpace text) with
          | some n => some n
          | none => payloadInt payload rest
      | _ => payloadInt payload rest

/-- One entry of `party_scores`. -/
def parsePartyScore : PayloadValue → Except String PartyVoteEntry
  | .obj entry => do
      let code := payloadString entry ["party_code"]
      let votes := payloadInt entry ["votes"]
      require (code != "" && votes.isSome && 0 ≤ votes.getD 0)
        "party_scores entries require party_code and non-negative votes"
      return ⟨code, votes.getD 0⟩
  | _ => .error "party_scores entries must be objects"

/-- What is not an array decodes to no scores. -/
def rawPartyScores (payload : Payload) : List PayloadValue :=
  match payload.get? "party_scores" with
  | some (.arr items) => items
  | _ => []

def parseIngestedResult (payload : Payload) : Except String IngestedResult := do
  let electionId := payloadInt payload ["election_id"]
  require (electionId.isSome && 0 < electionId.getD 0) "election_id is required"
  let code := payloadString payload ["polling_unit_code", "pu_code"]
  require (code != "") "polling_unit_code is required"
  let accredited := (payloadInt payload ["accredited_voters"]).getD 0
  let rejected := (payloadInt payload ["rejected_votes"]).getD 0
  require (!(rawPartyScores payload).isEmpty) "party_scores is required"
  let scores ← (rawPartyScores payload).mapM parsePartyScore
  require (0 ≤ accredited && 0 ≤ rejected) "accredited_voters and rejected_votes must be non-negative"
  return {
    electionId := electionId.getD 0
    pollingUnitCode := code
    partyScores := scores
    accreditedVoters := accredited
    rejectedVotes := rejected
    submittedBy := (payloadInt payload ["submitted_by"]).getD 0
    source := payloadString payload ["source"]
    sourceRef := payloadString payload ["source_ref", "device_id", "batch_id"]
    idempotencyKey := ""
    overrideReason := "" }

/-! ### Keys -/

/-- An object from the texts of its fields. -/
def objectJson (fields : List (String × String)) : String :=
  let sorted := fields.insertionSort fun a b => a.1 ≤ b.1
  "\x7b" ++ String.intercalate "," (sorted.map fun field => Json.quote field.1 ++ ":" ++ field.2) ++ "\x7d"

mutual

/-- The text `encoding/json` writes for a value, map keys in increasing order. -/
def PayloadValue.json : PayloadValue → String
  | .null => "null"
  | .bool value => if value then "true" else "false"
  | .number value => value.json
  | .str value => Json.quote value
  | .arr items => "[" ++ String.intercalate "," (itemsJson items) ++ "]"
  | .obj fields => objectJson (fieldsJson fields)

def itemsJson : List PayloadValue → List String
  | [] => []
  | item :: rest => item.json :: itemsJson rest

def fieldsJson : List (String × PayloadValue) → List (String × String)
  | [] => []
  | field :: rest => (field.1, field.2.json) :: fieldsJson rest

end

def canonicalPayloadJSON (payload : Payload) : String := objectJson (fieldsJson payload)

section Keys

variable (sha256Hex : String → String)

/-- The first 16 bytes of the digest, in hex. -/
def shortHash (text : String) : String := String.ofList ((sha256Hex text).toList.take 32)

def generateIdempotencyKey (jobType : String) (payload : Payload) : String :=
  shortHash sha256Hex (jobType ++ ":" ++ canonicalPayloadJSON payload)

/-- The sync types the endpoint takes. -/
inductive SyncType
  | result | accreditation | incident
  deriving DecidableEq, Repr

def SyncType.text : SyncType → String
  | .result => "result"
  | .accreditation => "accreditation"
  | .incident => "incident"

/-- What makes two captures the same one to `deriveOfflineSyncKey`. The figures of a result are no part of
it. -/
def syncIdentity (syncType : SyncType) (payload : Payload) : String :=
  let election := toString ((payloadInt payload ["election_id"]).getD 0)
  let unit := payloadString payload ["polling_unit_code", "pu_code"]
  match syncType with
  | .result => "result:" ++ election ++ ":" ++ unit
  | .accreditation =>
      "accreditation:" ++ election ++ ":" ++ unit ++ ":" ++ payloadString payload ["voter_pvc_hash", "voter_vin"]
  | .incident => syncType.text ++ ":" ++ canonicalPayloadJSON payload

def deriveOfflineSyncKey (deviceId : String) (syncType : SyncType) (payload : Payload) : String :=
  shortHash sha256Hex ("offline-sync:" ++ deviceId ++ ":" ++ syncIdentity syncType payload)

end Keys

/-! ### Figures -/

/-- The figures of a result, and the polling unit they are for. -/
structure Figures where
  electionId : Int
  pollingUnitCode : String
  partyScores : List (String × Int)
  accreditedVoters : Int
  rejectedVotes : Int
  deriving DecidableEq, Repr

def IngestedResult.figures (res : IngestedResult) : Figures where
  electionId := res.electionId
  pollingUnitCode := res.pollingUnitCode
  partyScores := scorePairs res.partyScores
  accreditedVoters := res.accreditedVoters
  rejectedVotes := res.rejectedVotes

/-- The figures a payload carries, if it is a result at all. -/
def figures? (payload : Payload) : Option Figures :=
  (parseIngestedResult payload).toOption.map IngestedResult.figures

/-- The figures of a stored result. -/
def storedFigures (db : Tables) (r : ResultRow) : Figures where
  electionId := r.electionId
  pollingUnitCode := r.pollingUnitCode
  partyScores := (db.resultPartyScores.filter fun s => s.resultId == r.id).map fun s => (s.partyCode, s.votes)
  accreditedVoters := r.accreditedVoters
  rejectedVotes := r.rejectedVotes

/-- The same figures, the parties in any order. -/
def Figures.Same (f g : Figures) : Prop :=
  f.electionId = g.electionId ∧ f.pollingUnitCode = g.pollingUnitCode ∧ f.partyScores.Perm g.partyScores ∧
    f.accreditedVoters = g.accreditedVoters ∧ f.rejectedVotes = g.rejectedVotes

instance (f g : Figures) : Decidable (f.Same g) :=
  inferInstanceAs (Decidable (_ ∧ _ ∧ _ ∧ _ ∧ _))

end Inec
