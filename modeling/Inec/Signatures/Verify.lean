import Inec.Signatures.Chain

/-!
# Checking a signed result

handleCitizenVerifySignature compares the stored hash of a result with the one its row has now, and it checks
the stored signature under the key of its own row. The tables may have been edited by anyone, so what it finds
is compared with what the server signed in a run.

What was signed and is left alone is reported as such. The other way round it depends on two things that are not
looked at: whose key the row holds, and the figures of the result, which the hash does not cover.
-/

namespace Inec

open Statements

/-! ### handleCitizenVerifySignature -/

structure SignatureReport where
  result : StoredResult
  signature : ResultSignature
  hashValid : Bool
  signatureValid : Bool
  algorithm : String
  signerId : Int
  signerRole : String
  signerPubkey : String
  serverPubkey : String
  tamperDetected : Bool
  deriving DecidableEq, Repr

inductive VerifyAnswer
  | refused (status : Nat) (message : String)
  | unsigned (result : StoredResult)
  | signed (report : SignatureReport)
  deriving DecidableEq, Repr

/-- The text a row stands for. -/
def ResultSignature.text (sig : ResultSignature) : String :=
  resultSignaturePreimage sig.resultHash sig.prevHash sig.signerId

def ResultSignature.signatureValid (signer : ResultSigner) (sig : ResultSignature) : Bool :=
  match hexDecode? sig.signature.toList, hexDecode? sig.officerPubkey.toList with
  | some sigBytes, some pubBytes => pubBytes.length == 32 && signer.verify pubBytes sig.text sigBytes
  | _, _ => false

def signatureReport (sha256Hex : String → String) (signer : ResultSigner) (result : StoredResult)
    (sig : ResultSignature) : SignatureReport :=
  let currentHash := computeResultHash sha256Hex result
  let signatureValid := sig.signatureValid signer
  { result
    signature := sig
    hashValid := currentHash == sig.resultHash
    signatureValid
    algorithm := "ed25519"
    signerId := sig.signerId
    signerRole := sig.signerRole
    signerPubkey := sig.officerPubkey
    serverPubkey := signer.pubHex
    tamperDetected := currentHash != sig.resultHash || !signatureValid }

/-- The tables as they are. A read that fails answers as one that finds no row, and so does an id that is no
number. -/
def handleCitizenVerifySignature (sha256Hex : String → String) (signer : ResultSigner) (results : List StoredResult)
    (signatures : List ResultSignature) (rid : Option Int) : VerifyAnswer :=
  match rid with
  | none => .refused 400 "result_id required"
  | some rid =>
      match results.find? fun r => r.id == rid with
      | none => .refused 404 "result not found"
      | some result =>
          match signatures.find? fun sig => sig.resultId == rid with
          | none => .unsigned result
          | some sig => .signed (signatureReport sha256Hex signer result sig)

/-! ### What the server signed -/

/-- A use of the key of the server. -/
structure ResultSigning where
  result : StoredResult
  prevHash : String
  signerId : Int
  deriving DecidableEq, Repr

def ResultSigning.text (sha256Hex : String → String) (g : ResultSigning) : String :=
  resultSignaturePreimage (computeResultHash sha256Hex g.result) g.prevHash g.signerId

namespace SigningService

/-- The key is used by an INSERT, also by one that is refused. -/
def signing? (s : SigningService) : SignAct → Option ResultSigning
  | .insert n _ =>
      match s.requests n with
      | .tailed result signerId _ prevHash _ => some ⟨result, prevHash, signerId⟩
      | _ => none
  | _ => none

def signings (sha256Hex : String → String) (signer : ResultSigner) (acts : List SignAct) : List ResultSigning :=
  Runs.history (step sha256Hex signer) signing? start acts

end SigningService

/-- Under the key of the server only what it signed is valid, and with its own signature. -/
def ResultSigner.Unforgeable (sha256Hex : String → String) (signer : ResultSigner)
    (signings : List ResultSigning) : Prop :=
  ∀ text sig, signer.verify signer.publicKey text sig = true ↔ text ∈ signings.map (·.text sha256Hex) ∧
    sig = signer.sign text

/-- Keys and signatures are bytes. -/
structure ResultSigner.Bytes (signer : ResultSigner) : Prop where
  keySize : signer.publicKey.length = 32
  key : ∀ b ∈ signer.publicKey, b < 256
  signature : ∀ text, ∀ b ∈ signer.sign text, b < 256

/-- The party scores and the counts of a result. -/
def StoredResult.figures (r : StoredResult) : List (String × Int) × Int × Int × Int :=
  (r.partyScores, r.totalValidVotes, r.rejectedVotes, r.accreditedVoters)

/-- The figures of a result are those the server signed with the text of a row. -/
def FiguresSigned (sha256Hex : String → String) (signings : List ResultSigning) (result : StoredResult)
    (sig : ResultSignature) : Prop :=
  ∃ g ∈ signings, g.text sha256Hex = sig.text ∧ g.result.figures = result.figures

/-- The row holds a signature that the server made, and the result has the figures it had then. -/
def ServerSigned (sha256Hex : String → String) (signer : ResultSigner) (signings : List ResultSigning)
    (result : StoredResult) (sig : ResultSignature) : Prop :=
  ∃ g ∈ signings, g.text sha256Hex = sig.text ∧ hexDecode? sig.signature.toList =
    some (signer.sign (g.text sha256Hex)) ∧ g.result.figures = result.figures

section Check

variable {sha256Hex : String → String} {signer : ResultSigner} {signings : List ResultSigning}
    {results : List StoredResult}
  {signatures : List ResultSignature} {rid : Option Int}

/-- No tampering is reported of signatures of the server only, and of the figures it signed. -/
def TamperEvident (sha256Hex : String → String) (signer : ResultSigner) (signings : List ResultSigning)
    (results : List StoredResult) (signatures : List ResultSignature) (rid : Option Int) : Prop :=
  ∀ report, handleCitizenVerifySignature sha256Hex signer results signatures rid = .signed report →
    report.tamperDetected = false → ServerSigned sha256Hex signer signings report.result report.signature

instance (result : StoredResult) (sig : ResultSignature) :
    Decidable (ServerSigned sha256Hex signer signings result sig) :=
  inferInstanceAs (Decidable (∃ g ∈ signings, _ ∧ _ ∧ _))

instance decidableTamperEvident : Decidable (TamperEvident sha256Hex signer signings results signatures rid) :=
  match h : handleCitizenVerifySignature sha256Hex signer results signatures rid with
  | .signed report =>
      decidable_of_iff (report.tamperDetected = false →
        ServerSigned sha256Hex signer signings report.result report.signature)
        ⟨fun hreport _ hother => VerifyAnswer.signed.inj (h.symm.trans hother) ▸ hreport, fun hall => hall report h⟩
  | .refused _ _ => isTrue fun _ hother => nomatch h.symm.trans hother
  | .unsigned _ => isTrue fun _ hother => nomatch h.symm.trans hother

/-- The signature of a row is one under the key of the server. -/
def ResultSignature.underServerKey (signer : ResultSigner) (sig : ResultSignature) : Prop :=
  ∃ sigBytes, hexDecode? sig.signature.toList = some sigBytes ∧
    signer.verify signer.publicKey sig.text sigBytes = true

/-- The hash of a row is not that of its result, or its signature is not valid under its own key, or both are
the server's. -/
def VisibleOrServers (sha256Hex : String → String) (signer : ResultSigner) (signings : List ResultSigning)
    (result : StoredResult) (sig : ResultSignature) : Prop :=
  computeResultHash sha256Hex result ≠ sig.resultHash ∨ sig.signatureValid signer = false ∨
    (sig.underServerKey signer ∧ FiguresSigned sha256Hex signings result sig)

/-- The rows of a request, where there are both. -/
def rowsOf (results : List StoredResult) (signatures : List ResultSignature) (rid : Option Int) :
    Option (StoredResult × ResultSignature) := do
  let rid ← rid
  let result ← results.find? fun r => r.id == rid
  let sig ← signatures.find? fun sig => sig.resultId == rid
  return (result, sig)

theorem handleCitizenVerifySignature_signed_iff {report : SignatureReport} :
    handleCitizenVerifySignature sha256Hex signer results signatures rid = .signed report ↔
      ∃ result sig, rowsOf results signatures rid = some (result, sig) ∧
        signatureReport sha256Hex signer result sig = report := by
  cases rid with
  | none => simp [handleCitizenVerifySignature, rowsOf]
  | some rid =>
      cases hresult : results.find? fun r => r.id == rid with
      | none => simp [handleCitizenVerifySignature, rowsOf, hresult]
      | some result =>
          cases hsig : signatures.find? fun sig => sig.resultId == rid with
          | none => simp [handleCitizenVerifySignature, rowsOf, hresult, hsig]
          | some sig => simp [handleCitizenVerifySignature, rowsOf, hresult, hsig]

theorem tamperDetected_eq_false {result : StoredResult} {sig : ResultSignature} :
    (signatureReport sha256Hex signer result sig).tamperDetected = false ↔
      computeResultHash sha256Hex result = sig.resultHash ∧ sig.signatureValid signer = true := by
  simp [signatureReport]

/-- The server's key and the server's texts. -/
theorem serverSigned_iff (hsigner : signer.Unforgeable sha256Hex signings) (result : StoredResult)
    (sig : ResultSignature) :
    ServerSigned sha256Hex signer signings result sig ↔ sig.underServerKey signer ∧
      FiguresSigned sha256Hex signings result sig := by
  constructor
  · intro ⟨g, hg, htext, hbytes, hfigures⟩
    refine ⟨⟨_, hbytes, (hsigner ..).mpr ⟨?_, ?_⟩⟩, g, hg, htext, hfigures⟩
    · rw [← htext]
      exact List.mem_map_of_mem hg
    · rw [htext]
  · intro ⟨⟨sigBytes, hbytes, hvalid⟩, g, hg, htext, hfigures⟩
    refine ⟨g, hg, htext, ?_, hfigures⟩
    rw [hbytes, ((hsigner ..).mp hvalid).2, htext]

/-- The check is sound exactly for rows that visibly do not fit, and for those of the server. -/
theorem tamperEvident_iff (hsigner : signer.Unforgeable sha256Hex signings) (results : List StoredResult)
    (signatures : List ResultSignature) (rid : Option Int) :
    TamperEvident sha256Hex signer signings results signatures rid ↔
      ∀ result sig, rowsOf results signatures rid = some (result, sig) →
        VisibleOrServers sha256Hex signer signings result sig := by
  constructor
  · intro h result sig hrows
    by_cases hhash : computeResultHash sha256Hex result = sig.resultHash
    · cases hvalid : sig.signatureValid signer with
      | false => exact .inr (.inl hvalid)
      | true =>
          have hserver := h (signatureReport sha256Hex signer result sig)
            (handleCitizenVerifySignature_signed_iff.mpr ⟨result, sig, hrows, rfl⟩)
              (tamperDetected_eq_false.mpr ⟨hhash, hvalid⟩)
          exact .inr (.inr ((serverSigned_iff hsigner ..).mp hserver))
    · exact .inl hhash
  · intro h report hreport hquiet
    obtain ⟨result, sig, hrows, rfl⟩ := handleCitizenVerifySignature_signed_iff.mp hreport
    obtain ⟨hhash, hvalid⟩ := tamperDetected_eq_false.mp hquiet
    obtain hdiffers | hinvalid | hserver := h result sig hrows
    · exact absurd hhash hdiffers
    · rw [hvalid] at hinvalid
      cases hinvalid
    · exact (serverSigned_iff hsigner ..).mpr hserver

end Check

/-! ### The rows of a run -/

namespace SigningService

open ResultSignatures

variable {sha256Hex : String → String} {signer : ResultSigner}

/-- A row that is stored is one of a use of the key. -/
theorem signing_of_row (acts : List SignAct) (s : SigningService) {row : ResultSignature}
    (h : row ∈ (Runs.final (step sha256Hex signer) s acts).signatures.rows) :
    row ∈ s.signatures.rows ∨ ∃ g ∈ Runs.history (step sha256Hex signer) signing? s acts,
      ∃ signerRole chainPosition, row =
        signatureRow sha256Hex signer g.result g.signerId signerRole g.prevHash chainPosition := by
  induction acts generalizing s with
  | nil => exact .inl h
  | cons act rest ih =>
      rw [Runs.history]
      obtain hrow | ⟨g, hg, hlater⟩ := ih (s.step sha256Hex signer act) h
      · obtain hsame | ⟨n, reply, result, signerId, signerRole, prevHash, chainPosition, rfl, hphase, hinsert⟩ :=
          signatures_step sha256Hex signer s act
        · rw [hsame] at hrow
          exact .inl hrow
        · rw [(insert_eq_some hinsert).1, List.mem_append, List.mem_singleton] at hrow
          refine hrow.imp_right fun hnew => ⟨⟨result, prevHash, signerId⟩, ?_, signerRole, chainPosition, hnew⟩
          apply List.mem_append_left
          rw [signing?, hphase]
          exact List.mem_singleton_self _
      · exact .inr ⟨g, List.mem_append_right _ hg, hlater⟩

/-- A row that is left alone is one of the server, and no tampering is reported while the text of its result is
what it was. -/
theorem no_tampering_of_signed (acts : List SignAct)
    (hsigner : signer.Unforgeable sha256Hex (signings sha256Hex signer acts)) (hbytes : signer.Bytes)
    {row : ResultSignature} (hrow : row ∈ (Runs.final (step sha256Hex signer) start acts).signatures.rows) :
    ∃ g ∈ signings sha256Hex signer acts, ∀ result, resultText result = resultText g.result →
      (signatureReport sha256Hex signer result row).tamperDetected = false ∧
        (result.figures = g.result.figures → ServerSigned sha256Hex signer
          (signings sha256Hex signer acts) result row) := by
  obtain hnone | ⟨g, hg, signerRole, chainPosition, rfl⟩ := signing_of_row acts start hrow
  · cases hnone
  · refine ⟨g, hg, fun result htext => ⟨?_, fun hfigures => ?_⟩⟩
    · rw [tamperDetected_eq_false]
      constructor
      · show sha256Hex (resultText result) = sha256Hex (resultText g.result)
        rw [htext]
      · have hkey : hexDecode? signer.pubHex.toList = some signer.publicKey := hexDecode_hexEncode hbytes.key
        have hsig := hexDecode_hexEncode (hbytes.signature (g.text sha256Hex))
        have hvalid : signer.verify signer.publicKey (g.text sha256Hex) (signer.sign (g.text sha256Hex)) = true :=
          (hsigner ..).mpr ⟨List.mem_map_of_mem hg, rfl⟩
        unfold ResultSignature.signatureValid
        show (match hexDecode? (hexEncode (signer.sign (g.text sha256Hex))).toList,
            hexDecode? signer.pubHex.toList with
          | some sigBytes, some pubBytes =>
              pubBytes.length == 32 && signer.verify pubBytes (g.text sha256Hex) sigBytes
          | _, _ => false) = true
        rw [hsig, hkey]
        show (signer.publicKey.length == 32 && _) = true
        rw [hbytes.keySize, hvalid]
        rfl
    · exact ⟨g, hg, rfl, hexDecode_hexEncode (hbytes.signature _), hfigures.symm⟩

/-- A signer with the key 7, 7, … that knows the texts it will sign. Under another key everyone signs for
themselves. -/
def keySigner (texts : List String) : ResultSigner :=
  let codes : String → List Nat := fun text => text.toList.map Char.toNat
  { publicKey := List.replicate 32 7
    sign := fun text => 7 :: codes text
    digest := hexEncode
    verify := fun key text sig =>
      if key = List.replicate 32 7 then texts.contains text && sig = 7 :: codes text else sig =
        key.headD 0 :: codes text }

/-- Result 1 is signed. -/
def signOne : List SignAct :=
  [.request 0 (some (9, "presiding_officer")) (some 1) [unsignedResult 1 "PU-001"], .tail 0 true, .insert 0 .done]

def signOneTexts : List String := ["inec-result-signature:v1:1:PU-001:<nil>:2027-02-20T16:00:00Z::9"]

def signedOne : SigningService := Runs.final (step id (keySigner signOneTexts)) start signOne

/-- The result with 30 votes moved from one party to the other. -/
def movedVotes : StoredResult := { unsignedResult 1 "PU-001" with partyScores := [("APC", 20), ("PDP", 70)] }

/-- A row for result 2 under the key 8, 8, … -/
def ownKeyRow : ResultSignature :=
  let ownKey : ResultSigner :=
    { keySigner [] with publicKey := List.replicate 32 8, sign := fun text => 8 :: text.toList.map Char.toNat }
  signatureRow id ownKey (unsignedResult 2 "PU-002") 9 "presiding_officer" "" 1

theorem keySigner_unforgeable : (keySigner signOneTexts).Unforgeable id
      (signings id (keySigner signOneTexts) signOne) := by
  have htexts : (signings id (keySigner signOneTexts) signOne).map (·.text id) = signOneTexts := by decide +kernel
  intro text sig
  rw [htexts]
  simp [keySigner]

end SigningService

end Inec
