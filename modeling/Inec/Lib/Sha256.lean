import Mathlib.Algebra.Group.Nat.Defs
import Mathlib.Data.List.Basic

/-!
# SHA-256

The hash function itself, on 32-bit words as numbers. Theorems about the programs that use it take the
hash as a parameter; this is the function their parameter stands for, and the concrete cases compute with
it.
-/

namespace Sha256

/-- Words are numbers below this. -/
def word : Nat := 2 ^ 32

def rotr (x n : Nat) : Nat := (x >>> n ||| x <<< (32 - n)) % word

def roundConstants : List Nat :=
  [0x428a2f98, 0x71374491, 0xb5c0fbcf, 0xe9b5dba5, 0x3956c25b, 0x59f111f1, 0x923f82a4, 0xab1c5ed5,
    0xd807aa98, 0x12835b01, 0x243185be, 0x550c7dc3, 0x72be5d74, 0x80deb1fe, 0x9bdc06a7, 0xc19bf174,
    0xe49b69c1, 0xefbe4786, 0x0fc19dc6, 0x240ca1cc, 0x2de92c6f, 0x4a7484aa, 0x5cb0a9dc, 0x76f988da,
    0x983e5152, 0xa831c66d, 0xb00327c8, 0xbf597fc7, 0xc6e00bf3, 0xd5a79147, 0x06ca6351, 0x14292967,
    0x27b70a85, 0x2e1b2138, 0x4d2c6dfc, 0x53380d13, 0x650a7354, 0x766a0abb, 0x81c2c92e, 0x92722c85,
    0xa2bfe8a1, 0xa81a664b, 0xc24b8b70, 0xc76c51a3, 0xd192e819, 0xd6990624, 0xf40e3585, 0x106aa070,
    0x19a4c116, 0x1e376c08, 0x2748774c, 0x34b0bcb5, 0x391c0cb3, 0x4ed8aa4a, 0x5b9cca4f, 0x682e6ff3,
    0x748f82ee, 0x78a5636f, 0x84c87814, 0x8cc70208, 0x90befffa, 0xa4506ceb, 0xbef9a3f7, 0xc67178f2]

structure State where
  a : Nat
  b : Nat
  c : Nat
  d : Nat
  e : Nat
  f : Nat
  g : Nat
  h : Nat

def init : State := ⟨0x6a09e667, 0xbb67ae85, 0x3c6ef372, 0xa54ff53a, 0x510e527f, 0x9b05688c, 0x1f83d9ab, 0x5be0cd19⟩

/-- The next word of the schedule from the sixteen before it, the latest first. -/
def nextWord (window : List Nat) : Nat :=
  let w2 := window.getD 1 0
  let w7 := window.getD 6 0
  let w15 := window.getD 14 0
  let w16 := window.getD 15 0
  let s0 := rotr w15 7 ^^^ rotr w15 18 ^^^ (w15 >>> 3)
  let s1 := rotr w2 17 ^^^ rotr w2 19 ^^^ (w2 >>> 10)
  (w16 + s0 + w7 + s1) % word

def round (s : State) (kw : Nat) : State :=
  let s1 := rotr s.e 6 ^^^ rotr s.e 11 ^^^ rotr s.e 25
  let ch := (s.e &&& s.f) ^^^ ((word - 1 - s.e) &&& s.g)
  let t1 := s.h + s1 + ch + kw
  let s0 := rotr s.a 2 ^^^ rotr s.a 13 ^^^ rotr s.a 22
  let maj := (s.a &&& s.b) ^^^ (s.a &&& s.c) ^^^ (s.b &&& s.c)
  ⟨(t1 + s0 + maj) % word, s.a, s.b, s.c, (s.d + t1) % word, s.e, s.f, s.g⟩

/-- One round for each constant. The first sixteen words are those of the block, the others come from the
sixteen before, which `window` holds with the latest first. -/
def rounds : List Nat → List Nat → List Nat → State → State
  | [], _, _, s => s
  | k :: ks, w :: block, window, s => rounds ks block (w :: window) (round s (k + w))
  | k :: ks, [], window, s =>
      let w := nextWord window
      rounds ks [] (w :: window.take 15) (round s (k + w))

def compress (s : State) (block : List Nat) : State :=
  let t := rounds roundConstants block [] s
  ⟨(s.a + t.a) % word, (s.b + t.b) % word, (s.c + t.c) % word, (s.d + t.d) % word,
    (s.e + t.e) % word, (s.f + t.f) % word, (s.g + t.g) % word, (s.h + t.h) % word⟩

/-- Four bytes each, the highest first. -/
def words : List Nat → List Nat
  | a :: b :: c :: d :: rest => (((a * 256 + b) * 256 + c) * 256 + d) :: words rest
  | _ => []

def blocks : Nat → List Nat → List (List Nat)
  | 0, _ => []
  | n + 1, ws => ws.take 16 :: blocks n (ws.drop 16)

def bigEndian : Nat → Nat → List Nat
  | 0, _ => []
  | n + 1, v => bigEndian n (v / 256) ++ [v % 256]

/-- The message, a one bit, zeros, and the length in bits. -/
def pad (bytes : List Nat) : List Nat :=
  bytes ++ [0x80] ++ List.replicate ((119 - bytes.length % 64) % 64) 0 ++ bigEndian 8 (8 * bytes.length)

def digest (bytes : List Nat) : State :=
  let ws := words (pad bytes)
  (blocks (ws.length / 16) ws).foldl compress init

def hexDigit (n : Nat) : Char := if n < 10 then Char.ofNat (48 + n) else Char.ofNat (87 + n)

def hexWord (n : Nat) : List Char := [28, 24, 20, 16, 12, 8, 4, 0].map fun shift => hexDigit (n >>> shift % 16)

/-- The digest of the UTF-8 bytes of a text, in lower-case hex. -/
def hex (s : String) : String :=
  let t := digest (s.toList.flatMap fun c => (String.utf8EncodeChar c).map UInt8.toNat)
  String.ofList ([t.a, t.b, t.c, t.d, t.e, t.f, t.g, t.h].flatMap hexWord)

def wordBytes (n : Nat) : List UInt8 := [24, 16, 8, 0].map fun shift => UInt8.ofNat (n >>> shift)

/-- The digest of bytes, as bytes. -/
def sum (bytes : List UInt8) : List UInt8 :=
  let t := digest (bytes.map UInt8.toNat)
  [t.a, t.b, t.c, t.d, t.e, t.f, t.g, t.h].flatMap wordBytes

theorem length_sum (bytes : List UInt8) : (sum bytes).length = 32 := rfl

theorem length_hex (s : String) : (hex s).toList.length = 64 := by
  rw [hex, String.toList_ofList]
  rfl

theorem hex_digits (s : String) : ∀ c ∈ (hex s).toList, ∃ n < 16, c = hexDigit n := by
  intro c hc
  rw [hex, String.toList_ofList, List.mem_flatMap] at hc
  obtain ⟨n, -, hc⟩ := hc
  obtain ⟨shift, -, rfl⟩ := List.mem_map.mp hc
  exact ⟨n >>> shift % 16, Nat.mod_lt _ (by decide), rfl⟩

example : hex "abc" = "ba7816bf8f01cfea414140de5dae2223b00361a396177a9cb410ff61f20015ad" := by decide +kernel

end Sha256
