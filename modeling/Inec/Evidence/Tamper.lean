import Mathlib
import Inec.Lib.Delimited
import Inec.Lib.HexText
import Inec.Evidence.Verify

/-!
# What the tail hash of an evidence chain commits to

The event hash is taken over its fields joined with `|`. Numbers and hex digests cannot contain the
separator, but the event type and the payload digest are text columns that the verifier reads back
without checking their form, so the joined text can be split in more than one way. How many
separators the payload digest holds settles the split: two accepted chains with one tail hash agree
on every hashed field exactly when they agree on those counts, position by position.
-/

namespace Inec

variable {sha256Hex : String → String}

/-- The separators inside the payload digest of an event. -/
def payloadBars (event : PublicEvent) : Nat := event.payloadSha256.toList.count '|'

/-- The two events agree on every hashed field. -/
def SameHashedFields (x y : PublicEvent) : Prop :=
  x.sequenceNo = y.sequenceNo ∧ x.eventType = y.eventType ∧ x.priorEventHash = y.priorEventHash ∧
    x.payloadSha256 = y.payloadSha256 ∧ x.policyVersionId = y.policyVersionId ∧
    x.artifactId = y.artifactId

instance (x y : PublicEvent) : Decidable (SameHashedFields x y) := by
  unfold SameHashedFields
  infer_instance

theorem bar_notMem_toString (n : Int) : '|' ∉ (toString n).toList :=
  Text.notMem_toString_int (by decide) (by decide) n

/-- The joined text determines every field once the payload digests hold equally many separators and
the prior hashes hold none. The numbers are read off the right end, then the digest, the prior hash
and the type. -/
theorem integrityEventPreimage_inj {resultId sequence : Int} {eventType eventType' prior prior' : String}
    {payload payload' : String} {policy policy' artifact artifact' : Int}
    (hprior : '|' ∉ prior.toList) (hprior' : '|' ∉ prior'.toList)
    (hbars : payload.toList.count '|' = payload'.toList.count '|')
    (h : integrityEventPreimage resultId sequence eventType prior payload policy artifact =
      integrityEventPreimage resultId sequence eventType' prior' payload' policy' artifact') :
    eventType = eventType' ∧ prior = prior' ∧ payload = payload' ∧ policy = policy' ∧
      artifact = artifact' := by
  have hchars := congrArg String.toList h
  have hbar : "|".toList = ['|'] := rfl
  simp only [integrityEventPreimage, String.toList_append, hbar, List.append_assoc,
    List.cons_append, List.nil_append] at hchars
  have hchars := List.append_cancel_left hchars
  have hchars := List.append_cancel_left (List.cons.inj hchars).2
  have hchars := (List.cons.inj hchars).2
  -- regroup so that each separator in turn is the last one
  simp only [← List.append_assoc, ← List.cons_append] at hchars
  obtain ⟨hchars, hartifact⟩ := Delimited.append_sep_inj_of_notMem hchars
    (bar_notMem_toString _) (bar_notMem_toString _)
  obtain ⟨hchars, hpolicy⟩ := Delimited.append_sep_inj_of_notMem hchars
    (bar_notMem_toString _) (bar_notMem_toString _)
  obtain ⟨hchars, hpayload⟩ := Delimited.append_sep_inj hchars hbars
  obtain ⟨htype, hpriors⟩ := Delimited.append_sep_inj_of_notMem hchars hprior hprior'
  exact ⟨String.toList_inj.mp htype, String.toList_inj.mp hpriors, String.toList_inj.mp hpayload,
    Text.toString_int_inj hpolicy, Text.toString_int_inj hartifact⟩

/-- A text that cannot be mistaken for two fields. -/
def FreeOfBars (s : String) : Prop := '|' ∉ s.toList

/-- Two bodies whose payload digests hold equally many separators. -/
def SameBars (b b' : EventBody) : Prop :=
  b.payloadSha256.toList.count '|' = b'.payloadSha256.toList.count '|'

/-- The same fact for the digest of a chain position. -/
theorem eventDigest_inj (hinj : Function.Injective sha256Hex) (resultId n : Int) (p p' : String)
    (b b' : EventBody) (hp : FreeOfBars p) (hp' : FreeOfBars p') (hbars : SameBars b b')
    (h : eventDigest sha256Hex resultId n p b = eventDigest sha256Hex resultId n p' b') :
    p = p' ∧ b = b' := by
  have hpreimage := hinj h
  obtain ⟨htype, hprior, hpayload, hpolicy, hartifact⟩ :=
    integrityEventPreimage_inj hp hp' hbars hpreimage
  cases b
  cases b'
  simp only at htype hpayload hpolicy hartifact
  subst htype hpayload hpolicy hartifact
  exact ⟨hprior, rfl⟩

theorem sameHashedFields_of_sameHashed {x y : PublicEvent}
    (h : HashChain.SameHashed eventView x y) : SameHashedFields x y := by
  obtain ⟨hpos, hprior, hbody, -⟩ := h
  obtain ⟨htype, hpayload, hpolicy, hartifact⟩ := EventBody.mk.inj hbody
  exact ⟨hpos, htype, hprior, hpayload, hpolicy, hartifact⟩

/-- Two accepted chains with one tail hash agree on every hashed field exactly when their payload
digests hold equally many separators, position by position. -/
theorem sameHashedFields_iff_payloadBars (hinj : Function.Injective sha256Hex)
    (hhex : ∀ s, '|' ∉ (sha256Hex s).toList) (env env' : Env) {resultId : Int}
    {xs ys : List PublicEvent}
    (hx : (verifyEvidenceChain sha256Hex env resultId xs).chainValid = true)
    (hy : (verifyEvidenceChain sha256Hex env' resultId ys).chainValid = true)
    (hlast : xs.getLast?.map (·.eventHash) = ys.getLast?.map (·.eventHash)) :
    List.Forall₂ SameHashedFields xs ys ↔
      List.Forall₂ (fun x y => payloadBars x = payloadBars y) xs ys := by
  constructor
  · intro h
    refine h.imp ?_
    rintro x y ⟨-, -, -, hpayload, -⟩
    rw [payloadBars, payloadBars, hpayload]
  · intro hbars
    have hempty : FreeOfBars "" := by simp [FreeOfBars]
    have hgood : ∀ n p b, FreeOfBars (eventDigest sha256Hex resultId n p b) :=
      fun n p b => hhex _
    have hcomp : List.Forall₂ (fun x y => SameBars (eventView.body x) (eventView.body y)) xs ys :=
      hbars
    have hhash : HashChain.lastHash eventView "" xs = HashChain.lastHash eventView "" ys :=
      congrArg (Option.getD · "") hlast
    obtain ⟨-, hsame⟩ := HashChain.forall₂_of_last_hash hgood (eventDigest_inj hinj resultId) hempty
      hempty (verifyEvidenceChain_chainValid.mp hx) (verifyEvidenceChain_chainValid.mp hy) hcomp hhash
    exact hsame.imp fun _ _ h => sameHashedFields_of_sameHashed h

/-- One event at position 1, unsigned, whose stored hash is the digest of its own fields. -/
def firstEvent (sha256Hex : String → String) (resultId : Int) (eventType payloadSha : String) : PublicEvent where
  sequenceNo := 1
  eventType := eventType
  priorEventHash := ""
  eventHash := integrityEventHash sha256Hex resultId 1 eventType "" payloadSha 0 0
  payloadSha256 := payloadSha
  signature := ""
  signerKeyId := ""
  signerStatus := "not_required"
  artifactId := 0
  policyVersionId := 0
  visibility := "restricted"
  publicPayload := "null"

theorem verifyEvidenceChain_firstEvent (env : Env) (resultId : Int) (eventType payloadSha : String) :
    (verifyEvidenceChain sha256Hex env resultId
      [firstEvent sha256Hex resultId eventType payloadSha]).chainValid = true := by
  rw [verifyEvidenceChain_chainValid]
  refine ⟨⟨rfl, rfl, trivial⟩, ?_⟩
  intro e he
  rw [List.mem_singleton.mp he]
  rfl

theorem sameHashedFields_iff_payloadBars_submitted :
    List.Forall₂ SameHashedFields
        [firstEvent HexText.hexText 7 "RESULT_SUBMITTED" "00ff"]
        [firstEvent HexText.hexText 7 "RESULT_SUBMITTED" "00ff"] ↔
      List.Forall₂ (fun x y => payloadBars x = payloadBars y)
        [firstEvent HexText.hexText 7 "RESULT_SUBMITTED" "00ff"]
        [firstEvent HexText.hexText 7 "RESULT_SUBMITTED" "00ff"] :=
  sameHashedFields_iff_payloadBars HexText.hexText_injective
    (HexText.notMem_hexText (by decide)) (.plain 1 "chair" .admin 0) (.plain 1 "chair" .admin 0)
    (verifyEvidenceChain_firstEvent _ 7 _ _) (verifyEvidenceChain_firstEvent _ 7 _ _) rfl

/-- Moving a separator from the payload digest into the event type keeps the hash, whatever the hash
function. -/
theorem firstEvent_moved_bar :
    (firstEvent sha256Hex 1 "RESULT_SUBMITTED" "x||y").eventHash =
      (firstEvent sha256Hex 1 "RESULT_SUBMITTED||x" "y").eventHash := by
  have hpreimage : integrityEventPreimage 1 1 "RESULT_SUBMITTED" "" "x||y" 0 0 =
      integrityEventPreimage 1 1 "RESULT_SUBMITTED||x" "" "y" 0 0 := by decide
  exact congrArg sha256Hex hpreimage

theorem verifyEvidenceChain_firstEvent_signatureValid (resultId : Int) (eventType payloadSha : String) :
    (verifyEvidenceChain sha256Hex (.plain 1 "chair" .admin 0) resultId
      [firstEvent sha256Hex resultId eventType payloadSha]).signatureValid = true := by
  simp [verifyEvidenceChain, scanEvents, scanEvent, signatureFails, firstEvent, Env.plain]

/-- Both lists are accepted, signatures included, and differ in two hashed fields. -/
theorem not_sameHashedFields_of_tail_hash :
    ¬ ∀ (sha256Hex : String → String) (env : Env) (resultId : Int) (xs ys : List PublicEvent),
      Function.Injective sha256Hex → (∀ s, '|' ∉ (sha256Hex s).toList) →
      (verifyEvidenceChain sha256Hex env resultId xs).chainValid = true →
      (verifyEvidenceChain sha256Hex env resultId ys).chainValid = true →
      (verifyEvidenceChain sha256Hex env resultId xs).signatureValid = true →
      (verifyEvidenceChain sha256Hex env resultId ys).signatureValid = true →
      xs.length = ys.length →
      xs.getLast?.map (·.eventHash) = ys.getLast?.map (·.eventHash) →
      List.Forall₂ SameHashedFields xs ys := by
  intro h
  have hsame := h HexText.hexText (.plain 1 "chair" .admin 0) 1
    [firstEvent HexText.hexText 1 "RESULT_SUBMITTED" "x||y"]
    [firstEvent HexText.hexText 1 "RESULT_SUBMITTED||x" "y"]
    HexText.hexText_injective (HexText.notMem_hexText (by decide))
    (verifyEvidenceChain_firstEvent _ 1 _ _) (verifyEvidenceChain_firstEvent _ 1 _ _)
    (verifyEvidenceChain_firstEvent_signatureValid 1 _ _)
    (verifyEvidenceChain_firstEvent_signatureValid 1 _ _)
    rfl (congrArg some firstEvent_moved_bar)
  cases hsame with
  | cons hfields _ => exact absurd hfields.2.1 (by decide)

end Inec
