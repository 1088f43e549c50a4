import Mathlib.Data.List.Basic

/-!
# Logs of lines

A log is a file of lines, one record a line. Its writer appends a line and a newline; a write that is cut off
leaves a torn line behind, without its newline. The reader takes the file as UTF-8 and skips the lines it cannot
parse.

While the part before an append ends in a newline, or is empty, what is appended is read on its own
(`records_append`). Behind a torn line it is not.
-/

namespace LineLog

abbrev Bytes := List UInt8

def newline : UInt8 := 10

def carriageReturn : UInt8 := 13

/-- The bytes are UTF-8, so that `read_to_string` takes them. -/
def Utf8 (bytes : Bytes) : Prop := (ByteArray.mk bytes.toArray).IsValidUTF8

/-- The lines with a newline, and what stands behind the last newline. -/
def split : Bytes → List Bytes × Bytes
  | [] => ([], [])
  | b :: rest =>
      if b = newline then ([] :: (split rest).1, (split rest).2)
      else
        match split rest with
        | ([], torn) => ([], b :: torn)
        | (line :: lines, torn) => ((b :: line) :: lines, torn)

/-- A line without the carriage return before its newline. -/
def chomp (line : Bytes) : Bytes := if line.getLast? = some carriageReturn then line.dropLast else line

/-- `str::lines`. -/
def lines (bytes : Bytes) : List Bytes :=
  (split bytes).1.map chomp ++ if (split bytes).2 = [] then [] else [(split bytes).2]

/-- Nothing stands behind the last newline. -/
def Clean (bytes : Bytes) : Prop := (split bytes).2 = []

instance (bytes : Bytes) : Decidable (Clean bytes) := inferInstanceAs (Decidable (_ = _))

variable {a b line : Bytes}

theorem clean_nil : Clean [] := rfl

theorem utf8_nil : Utf8 [] := ByteArray.isValidUTF8_empty

theorem Utf8.append (ha : Utf8 a) (hb : Utf8 b) : Utf8 (a ++ b) := by
  have happend : ByteArray.mk (a ++ b).toArray = ByteArray.mk a.toArray ++ ByteArray.mk b.toArray := by
    apply ByteArray.ext
    rw [ByteArray.data_append, List.append_toArray]
  rw [Utf8, happend]
  exact ByteArray.IsValidUTF8.append ha hb

theorem utf8_ascii (n : Fin 128) : Utf8 [UInt8.ofNat n] := by
  have hall : ∀ n : Fin 128, (ByteArray.mk #[UInt8.ofNat n]).IsValidUTF8 := by decide +kernel
  exact hall n

theorem utf8_of_ascii {bytes : Bytes} (h : ∀ b ∈ bytes, b.toNat < 128) : Utf8 bytes := by
  induction bytes with
  | nil => exact utf8_nil
  | cons b rest ih =>
      rw [List.forall_mem_cons] at h
      have hfirst := utf8_ascii ⟨b.toNat, h.1⟩
      rw [UInt8.ofNat_toNat] at hfirst
      exact hfirst.append (ih h.2)

/-- A text in ASCII needs no decoding. -/
instance (bytes : Bytes) : Decidable (Utf8 bytes) :=
  if h : bytes.all (·.toNat < 128) then .isTrue (utf8_of_ascii (by simpa using h))
  else inferInstanceAs (Decidable (ByteArray.IsValidUTF8 _))

theorem utf8_newline : Utf8 [newline] := by
  refine utf8_of_ascii fun b hb => ?_
  obtain rfl := List.mem_singleton.mp hb
  decide

theorem split_newline (rest : Bytes) : split (newline :: rest) = ([] :: (split rest).1, (split rest).2) := by
  rw [split, if_pos rfl]

theorem split_cons_of_nil {x : UInt8} (hx : x ≠ newline) {rest torn : Bytes} (h : split rest = ([], torn)) :
    split (x :: rest) = ([], x :: torn) := by
  rw [split, if_neg hx, h]

theorem split_cons_of_cons {x : UInt8} (hx : x ≠ newline) {rest torn : Bytes} {others : List Bytes}
    (h : split rest = (line :: others, torn)) : split (x :: rest) = ((x :: line) :: others, torn) := by
  rw [split, if_neg hx, h]

theorem split_append (ha : Clean a) : split (a ++ b) = ((split a).1 ++ (split b).1, (split b).2) := by
  induction a with
  | nil => rfl
  | cons x rest ih =>
      rw [Clean] at ha
      rw [List.cons_append]
      by_cases hx : x = newline
      · subst hx
        rw [split_newline] at ha ⊢
        rw [split_newline, ih ha]
        rfl
      · cases hrest : split rest with
        | mk before torn =>
            cases before with
            | nil =>
                rw [split_cons_of_nil hx hrest] at ha
                cases ha
            | cons first others =>
                rw [split_cons_of_cons hx hrest] at ha ⊢
                have hclean : Clean rest := by
                  rw [Clean, hrest]
                  exact ha
                have ih := ih hclean
                rw [hrest] at ih
                exact split_cons_of_cons hx ih

theorem split_append_newline (h : newline ∉ line) : split (line ++ [newline]) = ([line], []) := by
  induction line with
  | nil => rfl
  | cons x rest ih =>
      rw [List.mem_cons, not_or] at h
      exact split_cons_of_cons (Ne.symm h.1) (ih h.2)

theorem Clean.append (ha : Clean a) (hb : Clean b) : Clean (a ++ b) := by
  rw [Clean, split_append ha]
  exact hb

theorem clean_line (h : newline ∉ line) : Clean (line ++ [newline]) := by
  rw [Clean, split_append_newline h]

theorem chomp_of_notMem (h : carriageReturn ∉ line) : chomp line = line := by
  rw [chomp, if_neg]
  intro hlast
  exact h (List.mem_of_getLast? hlast)

theorem lines_append (ha : Clean a) : lines (a ++ b) = lines a ++ lines b := by
  have htorn : (split a).2 = [] := ha
  rw [lines, lines, lines, split_append ha, htorn, if_pos rfl, List.append_nil, List.map_append, List.append_assoc]

theorem lines_line (h : newline ∉ line) (hcr : carriageReturn ∉ line) : lines (line ++ [newline]) = [line] := by
  rw [lines, split_append_newline h, List.map_singleton, chomp_of_notMem hcr]
  rfl

/-! ### Records -/

section Records

variable {Record : Type} (parse : Bytes → Option Record)

def records (bytes : Bytes) : List Record := (lines bytes).filterMap parse

/-- Read the file and skip what cannot be parsed. A file that is no text is not read at all. -/
def readAll (bytes : Bytes) : Option (List Record) := if Utf8 bytes then some (records parse bytes) else none

variable {parse}

theorem records_append (ha : Clean a) : records parse (a ++ b) = records parse a ++ records parse b := by
  rw [records, lines_append ha, List.filterMap_append]
  rfl

theorem records_line (h : newline ∉ line) (hcr : carriageReturn ∉ line) {r : Record}
    (hparse : parse line = some r) :
    records parse (line ++ [newline]) = [r] := by
  rw [records, lines_line h hcr, List.filterMap_cons_some hparse]
  rfl

theorem readAll_eq_some {bytes : Bytes} {rs : List Record} :
    readAll parse bytes = some rs ↔ Utf8 bytes ∧ records parse bytes = rs := by
  rw [readAll]
  split
  case isTrue h => simp [h]
  case isFalse h => simp [h]

end Records

/-! ### Whole logs -/

section Write

variable {Record : Type} {parse : Bytes → Option Record} (write : Record → Bytes)

/-- A file of the records, each a line of its own. -/
def render (rs : List Record) : Bytes := rs.flatMap fun r => write r ++ [newline]

variable {write} (hline : ∀ r, newline ∉ write r)

include hline

theorem clean_render (rs : List Record) : Clean (render write rs) := by
  induction rs with
  | nil => exact clean_nil
  | cons r rest ih =>
      rw [render, List.flatMap_cons]
      exact (clean_line (hline r)).append ih

omit hline in
theorem utf8_render (hutf8 : ∀ r, Utf8 (write r)) (rs : List Record) : Utf8 (render write rs) := by
  induction rs with
  | nil => exact utf8_nil
  | cons r rest ih =>
      rw [render, List.flatMap_cons]
      exact ((hutf8 r).append utf8_newline).append ih

/-- What is written so that it is read back is read back. -/
theorem records_render (hcr : ∀ r, carriageReturn ∉ write r) {rs : List Record}
    (hback : ∀ r ∈ rs, parse (write r) = some r) : records parse (render write rs) = rs := by
  induction rs with
  | nil => rfl
  | cons r rest ih =>
      rw [List.forall_mem_cons] at hback
      rw [render, List.flatMap_cons, records_append (clean_line (hline r)), records_line (hline r) (hcr r) hback.1]
      exact congrArg (r :: ·) (ih hback.2)

end Write

end LineLog
