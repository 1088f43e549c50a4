import Mathlib.Init

/-!
# Base64

`base64.StdEncoding.DecodeString` of Go. Line ends are passed over, the padding has to be there, and the
bits that padding leaves unused are not looked at.
-/

namespace Base64

def value? (c : Char) : Option Nat :=
  if 'A' ≤ c ∧ c ≤ 'Z' then some (c.toNat - 65)
  else if 'a' ≤ c ∧ c ≤ 'z' then some (c.toNat - 71)
  else if '0' ≤ c ∧ c ≤ '9' then some (c.toNat + 4)
  else if c = '+' then some 62
  else if c = '/' then some 63
  else none

def byte (n : Nat) : UInt8 := UInt8.ofNat n

def decodeGroups : List Char → Option (List UInt8)
  | [] => some []
  | [a, b, '=', '='] => do
      let a ← value? a
      let b ← value? b
      return [byte (a * 4 + b / 16)]
  | [a, b, c, '='] => do
      let a ← value? a
      let b ← value? b
      let c ← value? c
      return [byte (a * 4 + b / 16), byte (b * 16 + c / 4)]
  | a :: b :: c :: d :: rest => do
      let a ← value? a
      let b ← value? b
      let c ← value? c
      let d ← value? d
      let later ← decodeGroups rest
      return byte (a * 4 + b / 16) :: byte (b * 16 + c / 4) :: byte (c * 64 + d) :: later
  | _ => none

def decode (text : String) : Option (List UInt8) :=
  decodeGroups (text.toList.filter fun c => c != '\n' && c != '\r')

example : decode "aGV5\nISE=" = some [104, 101, 121, 33, 33] ∧ decode "aGV" = none := by decide

/-- Where no character has a value, no byte is read. -/
theorem decode_eq_nil {text : String} {bytes : List UInt8} (h : ∀ c ∈ text.toList, value? c = none)
    (hdecode : decode text = some bytes) : bytes = [] := by
  have hfirst : ∀ chars : List Char, (∀ c ∈ chars, value? c = none) → decodeGroups chars =
      some bytes → bytes = [] := by
    intro chars hchars hgroups
    unfold decodeGroups at hgroups
    split at hgroups
    · exact (Option.some.inj hgroups).symm
    all_goals simp [hchars] at hgroups
  exact hfirst _ (fun c hc => h c ((List.mem_filter.mp hc).1)) hdecode

end Base64
