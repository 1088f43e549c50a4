import Inec.Evidence.BundleRoot
import Inec.Fabric.Codec
import Inec.Lib.Rfc3339
import Inec.Signatures.Sign

/-!
# Post-quantum signatures of results

SignElectionResult, VerifyPQSignature and PQSignResultHandler of quantum_resistant_crypto.go. What is signed are
the hash of the result, the election, the polling unit and the time, with a NUL between each two of them, so
that ids that may hold a NUL themselves can be read in more than one way.

ML-DSA-65 and SHAKE-256 are parameters. A message is text, which is signed as its bytes. Times are in UTC and
from the year 0 on. The texts of the errors of the library, and the times of a key, are left out.
-/

namespace Inec.PostQuantum

open BundleRoot (utf8 utf8_inj)
open Checks (require)
open JsonText (field? storeField unmarshal fieldsFit)
open Rfc3339 (CivilTime)

/-- The package mldsa65. A signature is of a message under a context, with the randomness it was made with. -/
structure MLDSA65 (PublicKey PrivateKey : Type) where
  publicBytes : PublicKey → List Nat
  privateBytes : PrivateKey → List Nat
  unmarshalPublic : List Nat → Option PublicKey
  unmarshalPrivate : List Nat → Option PrivateKey
  signTo : PrivateKey → String → String → List Nat → List Nat
  verify : PublicKey → String → String → List Nat → Bool
  publicBytes_lt : ∀ key, ∀ b ∈ publicBytes key, b < 256
  privateBytes_lt : ∀ key, ∀ b ∈ privateBytes key, b < 256
  unmarshal_public : ∀ key, unmarshalPublic (publicBytes key) = some key
  unmarshal_private : ∀ key, unmarshalPrivate (privateBytes key) = some key
  signTo_lt : ∀ key message context random, ∀ b ∈ signTo key message context random, b < 256
  /-- SignatureSize -/
  length_signTo : ∀ key message context random, (signTo key message context random).length = 3309

/-- `SHAKE256Hash` with the length of its output. -/
structure Shake256 where
  hash : List UInt8 → Nat → List Nat
  hash_lt : ∀ data length, ∀ b ∈ hash data length, b < 256

structure PQKeyPair where
  scheme : String
  publicKey : String
  privateKey : String
  deriving DecidableEq, Repr

structure PQSignedResult where
  electionId : String
  pollingUnit : String
  resultHash : String
  signature : String
  scheme : String
  signedAt : CivilTime
  publicKeyId : String

def schemeMLDSA65 : String := "ML-DSA-65"

def pqElectionContext : String := "inec-election-result-v1"

/-- `strings.ToLower` as far as a name of a scheme can come of it. -/
def lowerChar (c : Char) : Char := if c.toNat = 0x130 then 'i' else c.toLower

def normalizePQScheme (scheme : String) : Option String :=
  if String.ofList ((trimSpace scheme).toList.map lowerChar) ∈ ["", "ml-dsa-65", "mldsa65", "dilithium3"] then
    some schemeMLDSA65
  else none

def pqElectionMessage (resultHash : List Nat) (electionId pollingUnit : String) (signedAt : CivilTime) : String :=
  pqElectionContext ++ "\x00" ++ hexEncode resultHash ++ "\x00" ++ electionId ++ "\x00" ++
    (pollingUnit ++ "\x00" ++ signedAt.formatNano)

/-- `IsZero`: the first instant of the year 1. -/
def isZero (t : CivilTime) : Bool :=
  t.year = 1 && t.month = 1 && t.day = 1 && t.hour = 0 && t.minute = 0 && t.second = 0 && t.nanos = 0

section Code

variable {PublicKey PrivateKey : Type} (lib : MLDSA65 PublicKey PrivateKey) (shake : Shake256)

def pqKeyId (publicKey : String) : String := hexEncode (shake.hash (utf8 publicKey) 16)

def decodeMLDSAPrivateKey (encoded : String) : Option PrivateKey :=
  (hexDecode? encoded.toList).bind lib.unmarshalPrivate

def decodeMLDSAPublicKey (encoded : String) : Option PublicKey :=
  (hexDecode? encoded.toList).bind lib.unmarshalPublic

/-- Of the keys that GenerateKey has made. -/
def generatePQKeyPair (publicKey : PublicKey) (privateKey : PrivateKey) : PQKeyPair :=
  ⟨schemeMLDSA65, hexEncode (lib.publicBytes publicKey), hexEncode (lib.privateBytes privateKey)⟩

def signElectionResult (kp : PQKeyPair) (electionId pollingUnit : String)
    (resultData : List UInt8) (now : CivilTime) (random : List Nat) : Option PQSignedResult := do
  let _ ← normalizePQScheme kp.scheme
  let privateKey ← decodeMLDSAPrivateKey lib kp.privateKey
  let resultHash := shake.hash resultData 64
  let signature :=
    lib.signTo privateKey (pqElectionMessage resultHash electionId pollingUnit now) pqElectionContext random
  return ⟨electionId, pollingUnit, hexEncode resultHash, hexEncode signature, schemeMLDSA65, now,
    pqKeyId shake kp.publicKey⟩

def verifyPQSignature (signed : PQSignedResult) (publicKey : String) (resultData : List UInt8) : Bool :=
  let resultHash := shake.hash resultData 64
  if (normalizePQScheme signed.scheme).isNone then false
  else if isZero signed.signedAt then false
  else if hexEncode resultHash ≠ signed.resultHash then false
  else if signed.publicKeyId ≠ "" ∧ signed.publicKeyId ≠ pqKeyId shake publicKey then false
  else
    match decodeMLDSAPublicKey lib publicKey, hexDecode? signed.signature.toList with
    | some key, some signature =>
        signature.length = 3309 && lib.verify key
          (pqElectionMessage resultHash signed.electionId signed.pollingUnit signed.signedAt) pqElectionContext signature
    | _, _ => false

structure SignRequest where
  keyId : String
  electionId : String
  pollingUnit : String
  resultData : String
  deriving DecidableEq, Repr

def pqSignResultHandler (loadPQKey : String → Option PQKeyPair) (req : SignRequest) (now : CivilTime)
    (random : List Nat) : Except HttpError PQSignedResult := do
  require (req.keyId != "" && req.electionId != "" && req.pollingUnit != "" && req.resultData != "")
    ⟨400, "key_id, election_id, polling_unit, and result_data are required"⟩
  match loadPQKey req.keyId with
  | none => throw ⟨404, "key not found"⟩
  | some kp =>
      match signElectionResult lib shake kp req.electionId req.pollingUnit (utf8 req.resultData) now random with
      | none => throw ⟨500, "signing failed"⟩
      | some signed => return signed

end Code

/-! ### As JSON -/

def signedJson (s : PQSignedResult) : Json :=
  .obj [("election_id", .str s.electionId), ("polling_unit", .str s.pollingUnit),
    ("result_hash", .str s.resultHash), ("signature", .str s.signature), ("scheme", .str s.scheme),
      ("signed_at", .str s.signedAt.formatNano),
    ("public_key_id", .str s.publicKeyId)]

/-- `json.Marshal`; a time fails whose year has more than four digits. -/
def encodeSigned (s : PQSignedResult) : Option String :=
  if s.signedAt.year ≤ 9999 then some (canonicalJSON (signedJson s)) else none

def zeroTime : CivilTime := .ofFields 1 1 1 0 0 0 0 (by decide)

def zeroSigned : PQSignedResult := ⟨"", "", "", "", "", zeroTime, ""⟩

/-- A time in UTC; MarshalJSON writes no other for one. -/
def timeField {Rec : Type} (name : String) (set : CivilTime → Rec → Rec) : JsonText.Field Rec where
  name := name
  store := fun
    | .null, r => some r
    | .str s, r => (Rfc3339.parseUTC s).map fun t => set t r
    | _, _ => none

def signedTable : List (JsonText.Field PQSignedResult) :=
  [.text "election_id" fun s r => { r with electionId := s }, .text "polling_unit" fun s r =>
    { r with pollingUnit := s }, .text "result_hash" fun s r => { r with resultHash := s },
      .text "signature" fun s r => { r with signature := s },
    .text "scheme" fun s r => { r with scheme := s }, timeField "signed_at" fun t r => { r with signedAt := t },
    .text "public_key_id" fun s r => { r with publicKeyId := s }]

def decodeSigned (text : String) : Option PQSignedResult := unmarshal signedTable zeroSigned text

theorem run_time {Rec : Type} {table : List (JsonText.Field Rec)} {name : String} {set : CivilTime → Rec → Rec}
    (h : field? table name = some (timeField name set)) {t : CivilTime} (ht : t.year ≤ 9999)
    (rest : List (String × Json)) (r : Rec) :
    (parsedFields ((name, .str t.formatNano) :: rest)).foldlM (storeField table) r =
      (parsedFields rest).foldlM (storeField table) (set t r) := by
  have hstore : storeField table r (name, .str t.formatNano) = some (set t r) := by
    simp only [storeField, h, timeField, Rfc3339.parseUTC_formatNano ht, Option.map_some]
  simp only [parsedFields, Json.parsed, List.foldlM_cons, hstore]
  rfl

theorem decodeSigned_encodeSigned {s : PQSignedResult} (h : s.signedAt.year ≤ 9999) :
    ∃ text, encodeSigned s = some text ∧ decodeSigned text = some s := by
  refine ⟨canonicalJSON (signedJson s), if_pos h, ?_⟩
  rw [decodeSigned, signedJson, unmarshal_obj, @run_str _ signedTable "election_id" _ rfl,
    @run_str _ signedTable "polling_unit" _ rfl, @run_str _ signedTable "result_hash" _ rfl,
    @run_str _ signedTable "signature" _ rfl, @run_str _ signedTable "scheme" _ rfl,
    @run_time _ signedTable "signed_at" _ rfl _ h, @run_str _ signedTable "public_key_id" _ rfl]
  · rfl
  · simp only [parsedFields, fieldsFit, fits_str, Bool.and_self]

/-! ### The message -/

theorem nul_notMem_hexEncode {bytes : List Nat} (h : ∀ b ∈ bytes, b < 256) : '\x00' ∉ (hexEncode bytes).toList := by
  have hdigit : ∀ n < 16, '\x00' ≠ JsonText.hexDigit n := by
    intro n hn heq
    have hvalue := JsonText.hexValue?_hexDigit hn
    rw [← heq] at hvalue
    cases hvalue
  rw [hexEncode, String.toList_ofList, List.mem_flatMap]
  intro hmem
  obtain ⟨b, hb, hmem⟩ := hmem
  have hlt := h b hb
  cases List.mem_pair.mp hmem with
  | inl heq => exact hdigit (b / 16) (by omega) heq
  | inr heq => exact hdigit (b % 16) (by omega) heq

theorem nul_notMem_formatNano (t : CivilTime) : '\x00' ∉ t.formatNano.toList := by
  intro hmem
  have hne : ∀ c ∈ t.formatNano.toList, c ≠ '\x00' := by
    refine Rfc3339.forall_mem_formatNano ?_ (by simp) t
    intro c hc heq
    rw [heq] at hc
    cases hc
  exact hne '\x00' hmem rfl

/-- The two ids are joined before the rest is put around them. -/
theorem pqElectionMessage_eq (hash : List Nat) (electionId pollingUnit : String) (t : CivilTime) :
    pqElectionMessage hash electionId pollingUnit t = pqElectionContext ++ "\x00" ++ hexEncode hash ++ "\x00" ++
      (electionId ++ "\x00" ++ pollingUnit) ++ ("\x00" ++ t.formatNano) := by
  simp only [pqElectionMessage, String.append_assoc]

/-- The hash, the two ids as they were joined, and the time are read back from the message. -/
theorem pqElectionMessage_eq_iff {hash hash' : List Nat} {electionId pollingUnit electionId' pollingUnit' : String}
    {t t' : CivilTime} (hhash : ∀ b ∈ hash, b < 256) (hhash' : ∀ b ∈ hash', b < 256) :
    pqElectionMessage hash electionId pollingUnit t = pqElectionMessage hash' electionId' pollingUnit' t' ↔
      hash = hash' ∧ electionId ++ "\x00" ++ pollingUnit = electionId' ++ "\x00" ++ pollingUnit' ∧ t = t' := by
  constructor
  · intro h
    have hlist := congrArg String.toList h
    simp only [pqElectionMessage, String.toList_append, List.append_assoc] at hlist
    have hbehind := List.append_cancel_left (List.append_cancel_left hlist)
    obtain ⟨hhex, hrest⟩ := Delimited.append_sep_inj_of_notMem_left hbehind (nul_notMem_hexEncode hhash)
      (nul_notMem_hexEncode hhash')
    have hends : (electionId ++ "\x00" ++ pollingUnit).toList ++ '\x00' :: t.formatNano.toList =
        (electionId' ++ "\x00" ++ pollingUnit').toList ++ '\x00' :: t'.formatNano.toList := by
      simpa [String.toList_append] using hrest
    obtain ⟨hids, htime⟩ := Delimited.append_sep_inj_of_notMem hends (nul_notMem_formatNano t)
      (nul_notMem_formatNano t')
    refine ⟨?_, String.toList_inj.mp hids, Rfc3339.formatNano_inj (String.toList_inj.mp htime)⟩
    have hdecoded := hexDecode_hexEncode hhash
    rw [hhex, hexDecode_hexEncode hhash'] at hdecoded
    exact (Option.some.inj hdecoded).symm
  · intro h
    obtain ⟨hhex, hids, htime⟩ := h
    rw [pqElectionMessage_eq, pqElectionMessage_eq, hhex, hids, htime]

/-! ### Calls -/

/-- A call of SignElectionResult by the handler, at a time that the clock of a server can show. -/
structure Call where
  electionId : String
  pollingUnit : String
  resultData : String
  now : CivilTime
  random : List Nat
  electionId_ne : electionId ≠ ""
  pollingUnit_ne : pollingUnit ≠ ""
  resultData_ne : resultData ≠ ""
  now_year : 2 ≤ now.year ∧ now.year ≤ 9999

section Calls

variable {PublicKey PrivateKey : Type} (lib : MLDSA65 PublicKey PrivateKey) (shake : Shake256)
    (publicKey : PublicKey)
  (privateKey : PrivateKey) (calls : List Call)

def Call.message (call : Call) : String :=
  pqElectionMessage (shake.hash (utf8 call.resultData) 64) call.electionId call.pollingUnit call.now

/-- What SignElectionResult makes of a call. -/
def Call.signed (call : Call) : PQSignedResult :=
  ⟨call.electionId, call.pollingUnit, hexEncode (shake.hash (utf8 call.resultData) 64),
    hexEncode (lib.signTo privateKey (call.message shake) pqElectionContext call.random), schemeMLDSA65, call.now,
    pqKeyId shake (generatePQKeyPair lib publicKey privateKey).publicKey⟩

def Call.request (call : Call) (keyId : String) : SignRequest :=
  ⟨keyId, call.electionId, call.pollingUnit, call.resultData⟩

/-- The signatures that were made verify, and no other message has one. -/
structure Secure : Prop where
  correct : ∀ call ∈ calls, lib.verify publicKey (call.message shake) pqElectionContext
    (lib.signTo privateKey (call.message shake) pqElectionContext call.random) = true
  unforgeable : ∀ message signature, lib.verify publicKey message pqElectionContext signature = true →
    ∃ call ∈ calls, message = call.message shake

/-- Whatever is verified is of one of the calls. -/
def Binds : Prop :=
  ∀ (signed : PQSignedResult) (resultData : List UInt8),
    verifyPQSignature lib shake signed (generatePQKeyPair lib publicKey privateKey).publicKey resultData = true →
      ∃ call ∈ calls, signed.electionId = call.electionId ∧ signed.pollingUnit = call.pollingUnit ∧
        resultData = utf8 call.resultData ∧ signed.signedAt = call.now

/-- Whatever the handler answers a call with is verified, and so is what the answer is read as. -/
def Accepted : Prop :=
  ∀ call ∈ calls, ∀ (keyId : String) (loadPQKey : String → Option PQKeyPair), keyId ≠ "" →
    loadPQKey keyId = some (generatePQKeyPair lib publicKey privateKey) →
      ∃ signed text, pqSignResultHandler lib shake loadPQKey
        (call.request keyId) call.now call.random = .ok signed ∧ encodeSigned signed = some text ∧
          decodeSigned text = some signed ∧ verifyPQSignature lib shake signed
            (generatePQKeyPair lib publicKey privateKey).publicKey
            (utf8 call.resultData) = true

/-- Every other pair of ids that is joined to the same text was signed as well. -/
def EveryReadingSigned : Prop :=
  ∀ call ∈ calls, ∀ electionId pollingUnit : String,
    electionId ++ "\x00" ++ pollingUnit = call.electionId ++ "\x00" ++ call.pollingUnit →
      ∃ call' ∈ calls, call'.electionId = electionId ∧ call'.pollingUnit = pollingUnit ∧
        call'.resultData = call.resultData ∧ call'.now = call.now

end Calls

section Proofs

variable {PublicKey PrivateKey : Type} {lib : MLDSA65 PublicKey PrivateKey} {shake : Shake256}
    {publicKey : PublicKey}
  {privateKey : PrivateKey} {calls : List Call}

/-- Ids without a NUL are read in no other way. -/
theorem everyReadingSigned_of_nul_notMem
    (h : ∀ call ∈ calls, '\x00' ∉ call.electionId.toList ∧ '\x00' ∉ call.pollingUnit.toList) :
    EveryReadingSigned calls := by
  intro call hcall electionId pollingUnit hjoined
  obtain ⟨helection, hunit⟩ := h call hcall
  have hlist := congrArg String.toList hjoined
  simp only [String.toList_append, List.append_assoc] at hlist
  have hcount : pollingUnit.toList.count '\x00' = call.pollingUnit.toList.count '\x00' := by
    have htotal := congrArg (List.count '\x00') hlist
    have hnul : List.count '\x00' "\x00".toList = 1 := by decide
    simp only [List.count_append, List.count_eq_zero.mpr helection, List.count_eq_zero.mpr hunit, hnul] at htotal ⊢
    omega
  obtain ⟨heq, heq'⟩ := Delimited.append_sep_inj hlist hcount
  exact ⟨call, hcall, (String.toList_inj.mp heq).symm, (String.toList_inj.mp heq').symm, rfl, rfl⟩

theorem normalizePQScheme_schemeMLDSA65 : normalizePQScheme schemeMLDSA65 = some schemeMLDSA65 := by
  decide +kernel

theorem decodeMLDSAPrivateKey_generated :
    decodeMLDSAPrivateKey lib (generatePQKeyPair lib publicKey privateKey).privateKey = some privateKey := by
  rw [decodeMLDSAPrivateKey, generatePQKeyPair,
    hexDecode_hexEncode (lib.privateBytes_lt privateKey), Option.bind_some, lib.unmarshal_private]

theorem decodeMLDSAPublicKey_generated :
    decodeMLDSAPublicKey lib (generatePQKeyPair lib publicKey privateKey).publicKey = some publicKey := by
  rw [decodeMLDSAPublicKey, generatePQKeyPair, hexDecode_hexEncode (lib.publicBytes_lt publicKey), Option.bind_some,
    lib.unmarshal_public]

theorem Call.isZero_now (call : Call) : isZero call.now = false := by
  have hyear := call.now_year.1
  have hne : call.now.year ≠ 1 := by omega
  simp [isZero, hne]

theorem Call.signElectionResult_eq (call : Call) :
    signElectionResult lib shake (generatePQKeyPair lib publicKey privateKey) call.electionId call.pollingUnit
      (utf8 call.resultData) call.now call.random = some (call.signed lib shake publicKey privateKey) := by
  have hscheme : normalizePQScheme (generatePQKeyPair lib publicKey privateKey).scheme = some schemeMLDSA65 :=
    normalizePQScheme_schemeMLDSA65
  rw [signElectionResult, hscheme, decodeMLDSAPrivateKey_generated]
  rfl

/-- What a successful verification has checked. -/
theorem verify_of_verifyPQSignature {signed : PQSignedResult} {resultData : List UInt8}
    (h : verifyPQSignature lib shake signed
      (generatePQKeyPair lib publicKey privateKey).publicKey resultData = true) :
    ∃ signature, lib.verify publicKey
      (pqElectionMessage (shake.hash resultData 64) signed.electionId signed.pollingUnit signed.signedAt)
        pqElectionContext signature = true := by
  simp only [verifyPQSignature, decodeMLDSAPublicKey_generated] at h
  split at h
  · cases h
  split at h
  · cases h
  split at h
  · cases h
  split at h
  · cases h
  cases hdecode : hexDecode? signed.signature.toList with
  | none =>
      rw [hdecode] at h
      cases h
  | some signature =>
      rw [hdecode, Bool.and_eq_true] at h
      exact ⟨signature, h.2⟩

/-- A signature that was made verifies with every pair of ids that is joined to the same text. -/
theorem verifyPQSignature_reading (hsecure : Secure lib shake publicKey privateKey calls) {call : Call}
    (hcall : call ∈ calls) {electionId pollingUnit : String}
    (hjoined : electionId ++ "\x00" ++ pollingUnit = call.electionId ++ "\x00" ++ call.pollingUnit) :
    verifyPQSignature lib shake
      { call.signed lib shake publicKey privateKey with electionId := electionId, pollingUnit := pollingUnit }
      (generatePQKeyPair lib publicKey privateKey).publicKey (utf8 call.resultData) = true := by
  have hmessage : pqElectionMessage (shake.hash (utf8 call.resultData) 64) electionId pollingUnit call.now =
      call.message shake :=
    (pqElectionMessage_eq_iff (shake.hash_lt _ _) (shake.hash_lt _ _)).mpr ⟨rfl, hjoined, rfl⟩
  have hsignature := hexDecode_hexEncode
    (lib.signTo_lt privateKey (call.message shake) pqElectionContext call.random)
  have hlength := lib.length_signTo privateKey (call.message shake) pqElectionContext call.random
  simp only [verifyPQSignature, Call.signed, normalizePQScheme_schemeMLDSA65, call.isZero_now,
    decodeMLDSAPublicKey_generated, hsignature, hmessage, hsecure.correct call hcall, hlength]
  simp

theorem accepted_of_secure (hsecure : Secure lib shake publicKey privateKey calls) :
    Accepted lib shake publicKey privateKey calls := by
  intro call hcall keyId loadPQKey hkey hload
  obtain ⟨text, hencode, hdecode⟩ :=
    decodeSigned_encodeSigned (s := call.signed lib shake publicKey privateKey) call.now_year.2
  refine ⟨call.signed lib shake publicKey privateKey, text, ?_, hencode, hdecode, ?_⟩
  · have hfields : (keyId != "" && call.electionId != "" && call.pollingUnit != "" &&
      call.resultData != "") = true := by
      simp [hkey, call.electionId_ne, call.pollingUnit_ne, call.resultData_ne]
    rw [pqSignResultHandler]
    simp only [Call.request, hfields, hload, call.signElectionResult_eq]
    rfl
  · exact verifyPQSignature_reading hsecure hcall rfl

/-- Signatures bind what is signed if every reading of two ids that were signed together was signed. -/
theorem binds_accepted_iff (hsecure : Secure lib shake publicKey privateKey calls)
    (hshake : Function.Injective fun data => shake.hash data 64) :
    Binds lib shake publicKey privateKey calls ∧ Accepted lib shake publicKey privateKey calls ↔
      EveryReadingSigned calls := by
  constructor
  · intro h call hcall electionId pollingUnit hjoined
    obtain ⟨call', hcall', helection, hunit, hdata, htime⟩ :=
      h.1 _ _ (verifyPQSignature_reading hsecure hcall hjoined)
    exact ⟨call', hcall', helection.symm, hunit.symm, (utf8_inj hdata).symm, htime.symm⟩
  · intro hreadings
    refine ⟨?_, accepted_of_secure hsecure⟩
    intro signed resultData hverify
    obtain ⟨signature, hverify⟩ := verify_of_verifyPQSignature hverify
    obtain ⟨call, hcall, hmessage⟩ := hsecure.unforgeable _ _ hverify
    rw [Call.message, pqElectionMessage_eq_iff (shake.hash_lt _ _) (shake.hash_lt _ _)] at hmessage
    obtain ⟨hhash, hjoined, htime⟩ := hmessage
    have hdata : resultData = utf8 call.resultData := hshake hhash
    obtain ⟨call', hcall', helection, hunit, hdata', htime'⟩ :=
      hreadings call hcall signed.electionId signed.pollingUnit hjoined
    exact ⟨call', hcall', helection.symm, hunit.symm, hdata'.symm ▸ hdata, htime.trans htime'.symm⟩

end Proofs

/-! ### Two results at noon -/

/-- Signatures that are looked up among those that were made. -/
def lookupMLDSA65 (shake : Shake256) (calls : List Call) : MLDSA65 Unit Unit where
  publicBytes := fun _ => []
  privateBytes := fun _ => []
  unmarshalPublic := fun _ => some ()
  unmarshalPrivate := fun _ => some ()
  signTo := fun _ _ _ _ => List.replicate 3309 0
  verify := fun _ message _ _ => calls.any fun call => message == call.message shake
  publicBytes_lt := fun _ => List.forall_mem_nil _
  privateBytes_lt := fun _ => List.forall_mem_nil _
  unmarshal_public := fun _ => rfl
  unmarshal_private := fun _ => rfl
  signTo_lt := fun _ _ _ _ b hb => List.eq_of_mem_replicate hb ▸ (by decide : 0 < 256)
  length_signTo := fun _ _ _ _ => List.length_replicate

theorem secure_lookup (shake : Shake256) (calls : List Call) :
    Secure (lookupMLDSA65 shake calls) shake () () calls where
  correct := fun call hcall => List.any_eq_true.mpr ⟨call, hcall, beq_self_eq_true _⟩
  unforgeable := by
    intro message signature hverify
    obtain ⟨call, hcall, heq⟩ := List.any_eq_true.mp hverify
    exact ⟨call, hcall, eq_of_beq heq⟩

/-- The bytes themselves as their hash. -/
def plainShake : Shake256 where
  hash := fun data _ => data.map UInt8.toNat
  hash_lt := by
    intro data _ b hb
    obtain ⟨byte, -, rfl⟩ := List.mem_map.mp hb
    exact byte.toNat_lt

theorem plainShake_injective : Function.Injective fun data => plainShake.hash data 64 :=
  List.map_injective_iff.mpr fun _ _ h => UInt8.toNat_inj.mp h

def noon : CivilTime := .ofFields 2027 2 20 12 0 0 0 (by decide)

def plainCall : Call :=
  ⟨"presidential", "LA-01-001", "\x7b\x7d", noon, [], by decide, by decide, by decide, by decide⟩

def nulCall : Call := ⟨"a\x00b", "c", "\x7b\x7d", noon, [], by decide, by decide, by decide, by decide⟩

theorem plainCall_bound :
    Binds (lookupMLDSA65 plainShake [plainCall]) plainShake () () [plainCall] ∧
      Accepted (lookupMLDSA65 plainShake [plainCall]) plainShake () () [plainCall] :=
  (binds_accepted_iff (secure_lookup plainShake [plainCall]) plainShake_injective).mpr
    (everyReadingSigned_of_nul_notMem (by decide))

/-- The election `a\x00b` and the unit `c` are signed, and the election `a` and the unit `b\x00c` are verified. -/
theorem nulCall_not_bound :
    Secure (lookupMLDSA65 plainShake [nulCall]) plainShake () () [nulCall] ∧
      (Function.Injective fun data => plainShake.hash data 64) ∧
        ¬Binds (lookupMLDSA65 plainShake [nulCall]) plainShake () () [nulCall] := by
  have hsecure := secure_lookup plainShake [nulCall]
  refine ⟨hsecure, plainShake_injective, ?_⟩
  intro hbinds
  have hverify := verifyPQSignature_reading hsecure (List.mem_singleton_self nulCall)
    (show "a" ++ "\x00" ++ "b\x00c" = nulCall.electionId ++ "\x00" ++ nulCall.pollingUnit by decide)
  obtain ⟨call, hcall, helection, -⟩ := hbinds _ _ hverify
  obtain rfl := List.mem_singleton.mp hcall
  exact absurd helection (by decide)

end Inec.PostQuantum
