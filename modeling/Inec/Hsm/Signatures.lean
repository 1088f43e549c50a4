import Inec.Lib.BigEndian
import Inec.Lib.Sha256
import Inec.Signatures.Sign

/-!
# The signatures of the software HSM

`SignECDSA` and `VerifyECDSA` of production_upgrades.go. A signature is written as the bytes of `r` and those of `s`,
one after the other, each without leading zeros. The verification takes nothing below 64 bytes and splits in the
middle, so it reads back the pairs of which both numbers have all their 32 bytes.

The curve is P-256. The signing itself, and the token of a configured PKCS#11 module, are parameters.
-/

namespace Inec.Hsm

/-- The order of P-256. -/
def p256Order : Nat := 0xffffffff00000000ffffffffffffffffbce6faada7179e84f3b9cac2fc632551

abbrev Bytes := List Nat

structure PKCS11Signer where
  sign : Bytes → Except String Bytes
  verify : Bytes → Bytes → Bool

/-- `ecdsa.Sign` and `ecdsa.Verify` with the key of the process, and the token if there is one. -/
structure ProductionHSM where
  ecdsaSign : Bytes → Except String (Nat × Nat)
  ecdsaVerify : Bytes → Nat → Nat → Bool
  pkcs11 : Option PKCS11Signer

/-- `append(r.Bytes(), s.Bytes()...)` -/
def joinSignature (r s : Nat) : Bytes := BigEndian.bytes r ++ BigEndian.bytes s

/-- The halves, as numbers. -/
def splitSignature (sigBytes : Bytes) : Nat × Nat :=
  (BigEndian.value (sigBytes.take (sigBytes.length / 2)), BigEndian.value (sigBytes.drop (sigBytes.length / 2)))

/-- `sha256.Sum256` -/
def sum256 (data : List UInt8) : Bytes := (Sha256.sum data).map UInt8.toNat

namespace ProductionHSM

variable (h : ProductionHSM)

def signECDSA (data : List UInt8) : Except String String :=
  match h.pkcs11 with
  | some token => (token.sign (sum256 data)).map hexEncode
  | none => (h.ecdsaSign (sum256 data)).map fun sig => hexEncode (joinSignature sig.1 sig.2)

def verifyECDSA (data : List UInt8) (sigHex : String) : Bool :=
  match hexDecode? sigHex.toList with
  | none => false
  | some sigBytes =>
      if sigBytes.length < 64 then false
      else
        match h.pkcs11 with
        | some token => token.verify (sum256 data) sigBytes
        | none => h.ecdsaVerify (sum256 data) (splitSignature sigBytes).1 (splitSignature sigBytes).2

/-- The signature of the data is this pair, is split into it again, and is accepted. -/
def ReadsBack (data : List UInt8) (r s : Nat) : Prop :=
  ∃ sigHex sigBytes, h.signECDSA data = .ok sigHex ∧ hexDecode? sigHex.toList = some sigBytes ∧
    splitSignature sigBytes = (r, s) ∧ h.verifyECDSA data sigHex = true

end ProductionHSM

/-! ### The bytes of a pair -/

variable {h : ProductionHSM} {data : List UInt8} {r s : Nat}

/-- Up to the order a number has 32 bytes at most, and just those from `2 ^ 248` on have all of them. -/
theorem length_bytes_p256 (hr : r < p256Order) :
    (BigEndian.bytes r).length ≤ 32 ∧ (32 ≤ (BigEndian.bytes r).length ↔ 2 ^ 248 ≤ r) := by
  have horder : p256Order < 256 ^ 32 := by decide
  have hfull : (256 : Nat) ^ 31 = 2 ^ 248 := by decide
  constructor
  · exact BigEndian.length_bytes_le_iff.mpr (hr.trans horder)
  · rw [← hfull, ← not_lt, ← not_lt, not_iff_not, ← BigEndian.length_bytes_le_iff]
    omega

theorem splitSignature_join (hlength : (BigEndian.bytes r).length = (BigEndian.bytes s).length) :
    splitSignature (joinSignature r s) = (r, s) := by
  have hhalf : (joinSignature r s).length / 2 = (BigEndian.bytes r).length := by
    rw [joinSignature, List.length_append]
    omega
  rw [splitSignature, hhalf, joinSignature, List.take_left, List.drop_left, BigEndian.value_bytes,
    BigEndian.value_bytes]

theorem hexDecode_joinSignature (r s : Nat) :
    hexDecode? (hexEncode (joinSignature r s)).toList = some (joinSignature r s) := by
  apply hexDecode_hexEncode
  intro b hb
  rcases List.mem_append.mp hb with hb | hb
  · exact BigEndian.lt_of_mem_bytes hb
  · exact BigEndian.lt_of_mem_bytes hb

theorem signECDSA_software (hsoftware : h.pkcs11 = none) (hsign : h.ecdsaSign (sum256 data) = .ok (r, s)) :
    h.signECDSA data = .ok (hexEncode (joinSignature r s)) := by
  rw [ProductionHSM.signECDSA, hsoftware, hsign]
  rfl

/-- A signature reads back exactly if the verification does not find it too short. -/
theorem readsBack_iff_long (hsoftware : h.pkcs11 = none) (hsign : h.ecdsaSign (sum256 data) = .ok (r, s))
    (hcorrect : h.ecdsaVerify (sum256 data) r s = true) (hr : r < p256Order) (hs : s < p256Order) :
    h.ReadsBack data r s ↔ 64 ≤ (joinSignature r s).length := by
  have hmade := signECDSA_software hsoftware hsign
  have hdecoded := hexDecode_joinSignature r s
  have hrle := (length_bytes_p256 hr).1
  have hsle := (length_bytes_p256 hs).1
  have hlength : (joinSignature r s).length = (BigEndian.bytes r).length + (BigEndian.bytes s).length :=
    List.length_append
  constructor
  · rintro ⟨sigHex, sigBytes, hsig, -, -, haccepted⟩
    rw [hmade] at hsig
    obtain rfl := Except.ok.inj hsig
    by_contra hshort
    have hless : (joinSignature r s).length < 64 := by omega
    simp only [ProductionHSM.verifyECDSA, hdecoded, hless, if_true] at haccepted
    cases haccepted
  · intro hlong
    have hsplit : splitSignature (joinSignature r s) = (r, s) := splitSignature_join (by omega)
    have hless : ¬(joinSignature r s).length < 64 := by omega
    refine ⟨_, _, hmade, hdecoded, hsplit, ?_⟩
    simp only [ProductionHSM.verifyECDSA, hdecoded, hless, if_false, hsoftware, hsplit]
    exact hcorrect

/-- A signature of the software HSM reads back exactly if both its numbers have all their bytes. -/
theorem readsBack_iff (hsoftware : h.pkcs11 = none) (hsign : h.ecdsaSign (sum256 data) = .ok (r, s))
    (hcorrect : h.ecdsaVerify (sum256 data) r s = true) (hr : 1 ≤ r ∧ r < p256Order) (hs : 1 ≤ s ∧ s < p256Order) :
    h.ReadsBack data r s ↔ 2 ^ 248 ≤ r ∧ 2 ^ 248 ≤ s := by
  obtain ⟨hrle, hrfull⟩ := length_bytes_p256 hr.2
  obtain ⟨hsle, hsfull⟩ := length_bytes_p256 hs.2
  rw [readsBack_iff_long hsoftware hsign hcorrect hr.2 hs.2, ← hrfull, ← hsfull, joinSignature, List.length_append]
  omega

/-- Signs everything with one pair and accepts just that pair. -/
def signingWith (r s : Nat) : ProductionHSM where
  ecdsaSign := fun _ => .ok (r, s)
  ecdsaVerify := fun _ r' s' => r' == r && s' == s
  pkcs11 := none

theorem readsBack_full : (signingWith (2 ^ 248) (p256Order - 1)).ReadsBack [] (2 ^ 248) (p256Order - 1) :=
  (readsBack_iff rfl rfl (by decide) (by decide) (by decide)).mpr (by decide)

/-- One leading zero byte in `r`. -/
theorem short_signature_refused : (1 ≤ 2 ^ 248 - 1 ∧ 2 ^ 248 - 1 < p256Order) ∧
    ¬(signingWith (2 ^ 248 - 1) (p256Order - 1)).ReadsBack [] (2 ^ 248 - 1) (p256Order - 1) := by
  have hr : 2 ^ 248 - 1 < p256Order := by decide
  have hs : p256Order - 1 < p256Order := by decide
  have hshort : ¬32 ≤ (BigEndian.bytes (2 ^ 248 - 1)).length := by
    rw [(length_bytes_p256 hr).2]
    decide
  refine ⟨⟨by decide, hr⟩, ?_⟩
  rw [readsBack_iff_long rfl rfl (by decide) hr hs, joinSignature, List.length_append]
  have hle := (length_bytes_p256 hs).1
  omega

end Inec.Hsm
