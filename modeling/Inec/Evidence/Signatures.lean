import Inec.Lib.HexText
import Inec.Evidence.Verify

/-!
# Signatures along a chain

What the `signature_valid` flag of `verifyEvidenceChain` says. The loop passes over an event without a
signature, and the check behind it only asks whether there was any signature at all. The flag therefore
speaks for the signed events, not for all of them: `signatureComplete_iff` counts the lists on which the
difference does not show.
-/

namespace Inec

variable (sha256Hex : String → String)

/-- The event carries a signature that the signing service verifies for the hash of the event. -/
def Verified (env : Env) (event : PublicEvent) : Prop :=
  event.signature ≠ "" ∧
    verifyIntegritySignature env event.eventHash event.signature event.signerKeyId = .ok true

/-- The event after its signature was taken out of the table. -/
def stripSignature (event : PublicEvent) : PublicEvent := { event with signature := "" }

/-- The report is true exactly for the non-empty lists whose events are all verified, and taking out one
signature makes it false. -/
def SignatureComplete (env : Env) (resultId : Int) (events : List PublicEvent) : Prop :=
  ((verifyEvidenceChain sha256Hex env resultId events).signatureValid = true ↔
      events ≠ [] ∧ ∀ event ∈ events, Verified env event) ∧
    ∀ before event after, events = before ++ event :: after →
      (verifyEvidenceChain sha256Hex env resultId
        (before ++ stripSignature event :: after)).signatureValid = false

def signedCount (events : List PublicEvent) : Nat := events.countP fun event => event.signature != ""

/-- The signed events the signing service does not verify. -/
def failingCount (env : Env) (events : List PublicEvent) : Nat := events.countP (signatureFails env)

/-! ### What the flag says -/

variable {sha256Hex}

theorem signatureFails_eq_false {env : Env} {event : PublicEvent} :
    signatureFails env event = false ↔ event.signature = "" ∨ Verified env event := by
  unfold signatureFails Verified
  by_cases hsignature : event.signature = ""
  · simp [hsignature]
  · cases hverify : verifyIntegritySignature env event.eventHash event.signature event.signerKeyId with
    | error err => simp [hsignature]
    | ok valid => simp [hsignature]

theorem scanEvents_signatureValid {env : Env} {resultId : Int} {index : Nat} {scan : ChainScan}
    {events : List PublicEvent} :
    (scanEvents sha256Hex env resultId index scan events).signatureValid =
      (scan.signatureValid && failingCount env events == 0) := by
  induction events generalizing index scan with
  | nil => simp [scanEvents, failingCount]
  | cons event rest ih =>
      rw [scanEvents, ih, scanEvent, failingCount, failingCount, List.countP_cons]
      cases hfails : signatureFails env event with
      | false => simp
      | true => simp

theorem scanEvents_signatureChecked {env : Env} {resultId : Int} {index : Nat} {scan : ChainScan}
    {events : List PublicEvent} :
    (scanEvents sha256Hex env resultId index scan events).signatureChecked =
      (scan.signatureChecked || signedCount events != 0) := by
  induction events generalizing index scan with
  | nil => simp [scanEvents, signedCount]
  | cons event rest ih =>
      rw [scanEvents, ih, scanEvent, signedCount, signedCount, List.countP_cons]
      by_cases hsignature : event.signature = ""
      · simp [hsignature]
      · simp [hsignature]

/-- With signing required the flag is true exactly if some event is signed and no signed one fails. -/
theorem verifyEvidenceChain_signatureValid {env : Env} {resultId : Int} {events : List PublicEvent}
    (hrequired : env.integritySigningRequired = true) :
    (verifyEvidenceChain sha256Hex env resultId events).signatureValid = true ↔
      failingCount env events = 0 ∧ 0 < signedCount events := by
  simp only [verifyEvidenceChain, scanEvents_signatureValid, scanEvents_signatureChecked, hrequired,
    Bool.true_and, Bool.false_or, Bool.not_not, Bool.and_eq_true, beq_iff_eq, bne_iff_ne]
  rw [Nat.pos_iff_ne_zero]

/-! ### Counting -/

theorem signature_ne_of_fails {env : Env} {event : PublicEvent} (h : signatureFails env event = true) :
    event.signature ≠ "" := by
  unfold signatureFails at h
  exact bne_iff_ne.mp (Bool.and_eq_true_iff.mp h).1

theorem failingCount_le_signedCount (env : Env) (events : List PublicEvent) :
    failingCount env events ≤ signedCount events := by
  apply List.countP_mono_left
  intro event _ hfails
  exact bne_iff_ne.mpr (signature_ne_of_fails hfails)

theorem forall_verified_iff {env : Env} {events : List PublicEvent} :
    (∀ event ∈ events, Verified env event) ↔
      signedCount events = events.length ∧ failingCount env events = 0 := by
  rw [signedCount, failingCount, List.countP_eq_length, List.countP_eq_zero]
  constructor
  · intro h
    refine ⟨fun event hevent => by simpa using (h event hevent).1, fun event hevent => ?_⟩
    rw [Bool.not_eq_true, signatureFails_eq_false]
    exact Or.inr (h event hevent)
  · rintro ⟨hsigned, hfails⟩ event hevent
    have hok := hfails event hevent
    rw [Bool.not_eq_true, signatureFails_eq_false] at hok
    exact hok.resolve_left (by simpa using hsigned event hevent)

theorem signedCount_strip (before after : List PublicEvent) (event : PublicEvent) :
    signedCount (before ++ stripSignature event :: after) = signedCount before + signedCount after := by
  simp [signedCount, stripSignature, List.countP_append]

theorem failingCount_strip (env : Env) (before after : List PublicEvent) (event : PublicEvent) :
    failingCount env (before ++ stripSignature event :: after) =
      failingCount env before + failingCount env after := by
  simp [failingCount, stripSignature, signatureFails, List.countP_append]

theorem signedCount_split (before after : List PublicEvent) (event : PublicEvent) :
    signedCount (before ++ event :: after) =
      signedCount before + signedCount after + if event.signature = "" then 0 else 1 := by
  simp only [signedCount, List.countP_append, List.countP_cons]
  by_cases hsignature : event.signature = ""
  · simp [hsignature]
  · simp [hsignature]
    omega

theorem failingCount_split (env : Env) (before after : List PublicEvent) (event : PublicEvent) :
    failingCount env (before ++ event :: after) =
      failingCount env before + failingCount env after + if signatureFails env event then 1 else 0 := by
  simp only [failingCount, List.countP_append, List.countP_cons]
  omega

/-- An event that fails stands somewhere in the list. -/
theorem exists_failing {env : Env} {events : List PublicEvent} (h : 0 < failingCount env events) :
    ∃ before event after, events = before ++ event :: after ∧ signatureFails env event = true := by
  obtain ⟨event, hevent, hfails⟩ := List.countP_pos_iff.mp h
  obtain ⟨before, after, hsplit⟩ := List.append_of_mem hevent
  exact ⟨before, event, after, hsplit, hfails⟩

/-! ### When the flag is complete -/

/-- With signing required, the report speaks for every event exactly on these lists: at most one event,
at least two events that fail, or no signed event besides one that fails. -/
theorem signatureComplete_iff (env : Env) (hrequired : env.integritySigningRequired = true) (resultId : Int)
    (events : List PublicEvent) :
    SignatureComplete sha256Hex env resultId events ↔
      events.length ≤ 1 ∨ 2 ≤ failingCount env events ∨
        (signedCount events ≤ 1 ∧ failingCount env events = signedCount events) := by
  have hle := failingCount_le_signedCount env events
  have hlen : signedCount events ≤ events.length := List.countP_le_length
  constructor
  · rintro ⟨hflag, hstrip⟩
    rw [verifyEvidenceChain_signatureValid hrequired, forall_verified_iff, ne_eq, ← List.length_eq_zero_iff]
      at hflag
    -- a list outside the condition passes with a signature missing, now or after one more is taken out
    have hmissed : ∀ before event after, events = before ++ event :: after →
        ¬ (failingCount env before + failingCount env after = 0 ∧
          0 < signedCount before + signedCount after) := by
      intro before event after hsplit hpass
      have hfalse := hstrip before event after hsplit
      rw [Bool.eq_false_iff, ne_eq, verifyEvidenceChain_signatureValid hrequired, signedCount_strip,
        failingCount_strip] at hfalse
      exact hfalse hpass
    by_contra hcond
    simp only [not_or, not_and, not_le] at hcond
    obtain ⟨hlong, hfew, hsigned⟩ := hcond
    by_cases hfailing : failingCount env events = 0
    · have hall : signedCount events = events.length := (hflag.mp ⟨hfailing, by omega⟩).2.1
      obtain ⟨event, after, hsplit⟩ := List.exists_cons_of_length_pos (by omega : 0 < events.length)
      apply hmissed [] event after hsplit
      have hsignedSplit := signedCount_split [] after event
      have hfailingSplit := failingCount_split env [] after event
      rw [List.nil_append, ← hsplit] at hsignedSplit hfailingSplit
      split at hsignedSplit <;> omega
    · obtain ⟨before, event, after, hsplit, hfails⟩ := exists_failing (Nat.pos_of_ne_zero hfailing)
      apply hmissed before event after hsplit
      have hsignedSplit := signedCount_split before after event
      have hfailingSplit := failingCount_split env before after event
      rw [← hsplit] at hsignedSplit hfailingSplit
      rw [if_pos hfails] at hfailingSplit
      split at hsignedSplit <;> omega
  · intro hcond
    constructor
    · rw [verifyEvidenceChain_signatureValid hrequired, forall_verified_iff, ne_eq, ← List.length_eq_zero_iff]
      omega
    · intro before event after hsplit
      rw [Bool.eq_false_iff, ne_eq, verifyEvidenceChain_signatureValid hrequired, signedCount_strip,
        failingCount_strip]
      have hsignedSplit := signedCount_split before after event
      have hfailingSplit := failingCount_split env before after event
      have hbefore : signedCount before ≤ before.length := List.countP_le_length
      have hafter : signedCount after ≤ after.length := List.countP_le_length
      have hlength : events.length = before.length + after.length + 1 := by
        rw [hsplit, List.length_append, List.length_cons]
        omega
      rw [← hsplit] at hsignedSplit hfailingSplit
      by_cases hfails : signatureFails env event = true
      · rw [if_neg (signature_ne_of_fails hfails)] at hsignedSplit
        rw [if_pos hfails] at hfailingSplit
        omega
      · rw [if_neg hfails] at hfailingSplit
        split at hsignedSplit <;> omega

/-- One signed event of a list of any events that the service verifies. -/
def signedEvent (sequence : Int) (signature : String) : PublicEvent where
  sequenceNo := sequence
  eventType := "RESULT_SUBMITTED"
  priorEventHash := ""
  eventHash := "h"
  payloadSha256 := "p"
  signature := signature
  signerKeyId := "key-1"
  signerStatus := "signed"
  artifactId := 0
  policyVersionId := 0
  visibility := "observer"
  publicPayload := "\x7b\x7d"

/-- Signing is required, and the service verifies the signature `sig` and no other. -/
def signingEnv : Env :=
  { Env.plain 1 "auditor" .admin 0 with
    integritySigningRequired := true
    integrityServiceToken := "token"
    callVerify := fun _ signature _ => .ok ⟨signature == "sig", "key-1"⟩ }

/-- A single signed event is reported exactly. -/
theorem signatureComplete_iff_single :
    signingEnv.integritySigningRequired = true ∧
      SignatureComplete HexText.hexText signingEnv 1 [signedEvent 1 "sig"] :=
  ⟨rfl, (signatureComplete_iff signingEnv rfl 1 [signedEvent 1 "sig"]).mpr (Or.inl (by decide))⟩

/-- The first of two events is signed, the signature of the second was taken out, and the report is
true: the list is reported as signed, and taking out the signature did not make the report false. -/
theorem signature_stripped_unnoticed :
    signingEnv.integritySigningRequired = true ∧
      (verifyEvidenceChain HexText.hexText signingEnv 1 [signedEvent 1 "sig", signedEvent 2 "sig"]).signatureValid
        = true ∧
      (verifyEvidenceChain HexText.hexText signingEnv 1
        [signedEvent 1 "sig", stripSignature (signedEvent 2 "sig")]).signatureValid = true ∧
      ¬ SignatureComplete HexText.hexText signingEnv 1 [signedEvent 1 "sig", signedEvent 2 "sig"] ∧
      ¬ ∀ event ∈ [signedEvent 1 "sig", stripSignature (signedEvent 2 "sig")], Verified signingEnv event := by
  have hstripped : (verifyEvidenceChain HexText.hexText signingEnv 1
      [signedEvent 1 "sig", stripSignature (signedEvent 2 "sig")]).signatureValid = true := by
    rw [verifyEvidenceChain_signatureValid rfl]
    decide
  refine ⟨rfl, ?_, hstripped, ?_, ?_⟩
  · rw [verifyEvidenceChain_signatureValid rfl]
    decide
  · intro h
    have hfalse := h.2 [signedEvent 1 "sig"] (signedEvent 2 "sig") [] rfl
    rw [List.singleton_append, hstripped] at hfalse
    cases hfalse
  · intro h
    exact (h _ (List.mem_cons_of_mem _ (List.mem_singleton_self _))).1 rfl

end Inec
