import Inec.Lib.JsonText
import Inec.Lib.Rows
import Inec.Lib.Runs
import Inec.Lib.Statements

/-!
# Signed results

handleSignResult signs the hash of a result together with the hash of the signature before it. It reads the tail
of the chain and then inserts behind it; a mutex serialises this in one process, and the unique columns
result_id and chain_position are all that does so between replicas, so here the two steps of any requests may
interleave.

The chain stays linear (`Chained`): a position that was taken since the tail was read is refused by the
database. The handler takes every refusal for that of a result that is signed already.
-/

namespace Inec

open Statements

/-! ### Tables -/

/-- A row of `results`, as far as signing goes, with its rows of `result_party_scores`. What is printed of the
submission time is kept as text. -/
structure StoredResult where
  id : Int
  electionId : Int
  pollingUnitCode : String
  totalVotes : Option Int
  submittedAt : String
  totalValidVotes : Int
  rejectedVotes : Int
  accreditedVoters : Int
  partyScores : List (String × Int)
  deriving DecidableEq, Repr

/-- A row of `result_signatures`. -/
structure ResultSignature where
  resultId : Int
  officerPubkey : String
  signature : String
  prevHash : String
  resultHash : String
  chainPosition : Int
  algorithm : String
  signatureHash : String
  signerId : Int
  signerRole : String
  verificationStatus : String
  deriving DecidableEq, Repr

/-- The table, with its two unique columns. -/
structure ResultSignatures where
  rows : List ResultSignature
  results : (rows.map (·.resultId)).Nodup
  positions : (rows.map (·.chainPosition)).Nodup

/-! ### Hashes and signatures -/

/-- `%v` -/
def printedInt : Option Int → String
  | some n => toString n
  | none => "<nil>"

def resultText (result : StoredResult) : String :=
  toString result.electionId ++ ":" ++ result.pollingUnitCode ++ ":" ++ printedInt result.totalVotes ++ ":" ++
    result.submittedAt

def computeResultHash (sha256Hex : String → String) (result : StoredResult) : String :=
  sha256Hex (resultText result)

def resultSignaturePreimage (resultHash prevHash : String) (signerID : Int) : String :=
  "inec-result-signature:v1:" ++ resultHash ++ ":" ++ prevHash ++ ":" ++ toString signerID

/-- `hex.EncodeToString` -/
def hexEncode (bytes : List Nat) : String :=
  String.ofList (bytes.flatMap fun b => [JsonText.hexDigit (b / 16), JsonText.hexDigit (b % 16)])

/-- `hex.DecodeString` -/
def hexDecode? : List Char → Option (List Nat)
  | [] => some []
  | high :: low :: rest => do
      let h ← JsonText.hexValue? high
      let l ← JsonText.hexValue? low
      let bytes ← hexDecode? rest
      return (16 * h + l) :: bytes
  | [_] => none

theorem hexDecode_hexEncode {bytes : List Nat} (h : ∀ b ∈ bytes, b < 256) :
    hexDecode? (hexEncode bytes).toList = some bytes := by
  rw [hexEncode, String.toList_ofList]
  induction bytes with
  | nil => rfl
  | cons b rest ih =>
      have hb := h b List.mem_cons_self
      rw [List.flatMap_cons, List.cons_append, List.cons_append, List.nil_append, hexDecode?,
        JsonText.hexValue?_hexDigit (show b / 16 < 16 by omega), JsonText.hexValue?_hexDigit
          (show b % 16 < 16 by omega),
        ih fun c hc => h c (List.mem_cons_of_mem b hc)]
      show some ((16 * (b / 16) + b % 16) :: rest) = some (b :: rest)
      rw [Nat.div_add_mod]

/-- Ed25519 with the key of the server, and the hash of a signature. -/
structure ResultSigner where
  publicKey : List Nat
  sign : String → List Nat
  digest : List Nat → String
  verify : List Nat → String → List Nat → Bool

def ResultSigner.pubHex (signer : ResultSigner) : String := hexEncode signer.publicKey

/-! ### handleSignResult -/

inductive SignAnswer
  | refused (status : Nat) (message : String)
  | signed (signature resultHash : String) (chainPosition : Int) (signerId : Int) (signerPubkey : String)
  deriving DecidableEq, Repr

def alreadySigned : SignAnswer :=
  .refused 409 "result already signed — signature records are append-only and cannot be overwritten"

/-- How far a request is: with the result, and with what it read of the tail. -/
inductive SignRequest
  | idle
  | found (result : StoredResult) (signerId : Int) (signerRole : String)
  | tailed (result : StoredResult) (signerId : Int) (signerRole : String) (prevHash : String) (chainPosition : Int)
  | answered (resultId : Option Int) (answer : SignAnswer)
  deriving DecidableEq, Repr

structure SigningService where
  signatures : ResultSignatures
  requests : Nat → SignRequest

/-- The officer of a request is `none` if its role may not sign, and the body if it does not decode. The results
are those of the table at that moment. -/
inductive SignAct
  | request (n : Nat) (officer : Option (Int × String)) (body : Option Int) (results : List StoredResult)
  | tail (n : Nat) (works : Bool)
  | insert (n : Nat) (reply : CommitReply)

namespace ResultSignatures

variable (s : ResultSignatures)

/-- `ORDER BY chain_position DESC LIMIT 1` -/
def tail? : Option ResultSignature := Rows.maxBy (·.chainPosition) s.rows

def insert (row : ResultSignature) : Option ResultSignatures :=
  if h : row.resultId ∉ s.rows.map (·.resultId) ∧ row.chainPosition ∉ s.rows.map (·.chainPosition) then
    some
      { rows := s.rows ++ [row]
        results := Rows.nodup_map_append_singleton s.results h.1
        positions := Rows.nodup_map_append_singleton s.positions h.2 }
  else none

end ResultSignatures

def acceptSigning (officer : Option (Int × String)) (body : Option Int)
    (results : List StoredResult) : SignRequest :=
  match officer with
  | none => .answered none (.refused 403 "signing requires an authenticated election officer")
  | some (signerId, signerRole) =>
      match body with
      | none => .answered none (.refused 400 "invalid request")
      | some resultId =>
          match results.find? fun r => r.id == resultId with
          | none => .answered (some resultId) (.refused 404 "result not found")
          | some result => .found result signerId signerRole

/-- What is signed behind a tail; an error while it is read counts as no tail. -/
def behind (tail : Option ResultSignature) : String × Int :=
  match tail with
  | some row => (row.resultHash, row.chainPosition + 1)
  | none => ("", 0)

def signatureRow (sha256Hex : String → String) (signer : ResultSigner) (result : StoredResult) (signerId : Int)
    (signerRole prevHash : String) (chainPosition : Int) : ResultSignature :=
  let resultHash := computeResultHash sha256Hex result
  let sig := signer.sign (resultSignaturePreimage resultHash prevHash signerId)
  { resultId := result.id
    officerPubkey := signer.pubHex
    signature := hexEncode sig
    prevHash
    resultHash
    chainPosition
    algorithm := "ed25519"
    signatureHash := signer.digest sig
    signerId
    signerRole
    verificationStatus := "verified" }

namespace SigningService

def start : SigningService := ⟨⟨[], List.nodup_nil, List.nodup_nil⟩, fun _ => .idle⟩

variable (sha256Hex : String → String) (signer : ResultSigner) (s : SigningService)

def setRequest (n : Nat) (request : SignRequest) : SigningService :=
  { s with requests := Function.update s.requests n request }

/-- The INSERT and the answer. A violation of either unique column is answered alike. -/
def insertStep (row : ResultSignature) (reply : CommitReply) : ResultSignatures × SignAnswer :=
  match s.signatures.insert row, reply with
  | some after, .done =>
      (after, .signed row.signature row.resultHash row.chainPosition row.signerId row.officerPubkey)
  | some after, .lost => (after, .refused 500 "failed to persist result signature")
  | none, .done => (s.signatures, alreadySigned)
  | _, _ => (s.signatures, .refused 500 "failed to persist result signature")

def step : SignAct → SigningService
  | .request n officer body results =>
      match s.requests n with
      | .idle => s.setRequest n (acceptSigning officer body results)
      | _ => s
  | .tail n works =>
      match s.requests n with
      | .found result signerId signerRole =>
          let (prevHash, chainPosition) := behind (if works then s.signatures.tail? else none)
          s.setRequest n (.tailed result signerId signerRole prevHash chainPosition)
      | _ => s
  | .insert n reply =>
      match s.requests n with
      | .tailed result signerId signerRole prevHash chainPosition =>
          let row := signatureRow sha256Hex signer result signerId signerRole prevHash chainPosition
          let (after, answer) := s.insertStep row reply
          { s with signatures := after }.setRequest n (.answered (some result.id) answer)
      | _ => s

end SigningService

end Inec
