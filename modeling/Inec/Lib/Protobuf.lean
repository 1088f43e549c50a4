import Mathlib.Algebra.Group.Nat.Defs
import Mathlib.Data.List.Basic
import Mathlib.Data.Nat.Log

/-!
# The wire format of protocol buffers

A message is a list of fields, each a number and a payload. Integers are written seven bits to a byte, and
texts, bytes, messages and packed integers with their length before them. What was written is read back field by
field, so a schema only has to say which fields it takes.
-/

namespace Protobuf

abbrev Bytes := List UInt8

/-! ### Integers -/

def varintLoop : Nat → Nat → Bytes
  | 0, v => [UInt8.ofNat v]
  | rounds + 1, v => if v < 128 then [UInt8.ofNat v] else UInt8.ofNat (v % 128 + 128) :: varintLoop rounds (v / 128)

/-- Seven bits to a byte, the lowest first; the high bit says that more follow. -/
def varint (v : Nat) : Bytes := varintLoop v.log2 v

def readVarint : Bytes → Option (Nat × Bytes)
  | [] => none
  | b :: rest =>
      if b.toNat < 128 then some (b.toNat, rest)
      else (readVarint rest).map fun read => (b.toNat - 128 + 128 * read.1, read.2)

theorem readVarint_varintLoop {rounds v : Nat} (h : v < 128 ^ (rounds + 1)) (rest : Bytes) :
    readVarint (varintLoop rounds v ++ rest) = some (v, rest) := by
  have hlast : ∀ w < 128, readVarint ([UInt8.ofNat w] ++ rest) = some (w, rest) := by
    intro w hw
    have hbyte : (UInt8.ofNat w).toNat = w := by
      rw [UInt8.toNat_ofNat']
      omega
    rw [List.singleton_append, readVarint, hbyte, if_pos hw]
  induction rounds generalizing v with
  | zero => exact hlast v h
  | succ rounds ih =>
      rw [varintLoop]
      split
      · next hlt => exact hlast v hlt
      · have hbyte : (UInt8.ofNat (v % 128 + 128)).toNat = v % 128 + 128 := by
          rw [UInt8.toNat_ofNat']
          omega
        have hnext : v / 128 < 128 ^ (rounds + 1) := by
          rw [Nat.pow_succ] at h
          exact Nat.div_lt_of_lt_mul (by omega)
        rw [List.cons_append, readVarint, hbyte, if_neg (by omega), ih hnext, Option.map_some]
        simp only [Option.some.injEq, Prod.mk.injEq, and_true]
        omega

/-- An integer is read back, whatever follows it. -/
theorem readVarint_varint (v : Nat) (rest : Bytes) : readVarint (varint v ++ rest) = some (v, rest) := by
  apply readVarint_varintLoop
  by_cases hv : v = 0
  · rw [hv]
    decide
  · have hlt := (Nat.log2_lt hv).mp (Nat.lt_succ_self _)
    exact Nat.lt_of_lt_of_le hlt (Nat.pow_le_pow_left (by decide) _)

theorem varint_ne_nil (v : Nat) : varint v ≠ [] := by
  intro h
  have hread := readVarint_varint v []
  rw [h] at hread
  cases hread

/-! ### Fields -/

inductive Payload
  | varint (v : Nat)
  | fixed64 (bytes : Bytes)
  | lengthDelimited (bytes : Bytes)
  | fixed32 (bytes : Bytes)
  deriving DecidableEq, Repr

abbrev Field := Nat × Payload

def Payload.wireType : Payload → Nat
  | .varint _ => 0
  | .fixed64 _ => 1
  | .lengthDelimited _ => 2
  | .fixed32 _ => 5

def Payload.encode : Payload → Bytes
  | .varint v => Protobuf.varint v
  | .fixed64 bytes => bytes
  | .lengthDelimited bytes => Protobuf.varint bytes.length ++ bytes
  | .fixed32 bytes => bytes

/-- The payloads of a fixed size have it. -/
def Payload.Sized : Payload → Prop
  | .fixed64 bytes => bytes.length = 8
  | .fixed32 bytes => bytes.length = 4
  | _ => True

def encodeField (field : Field) : Bytes := varint (8 * field.1 + field.2.wireType) ++ field.2.encode

/-- So many bytes and what follows them. -/
def readBytes (size : Nat) (bytes : Bytes) : Option (Bytes × Bytes) :=
  if size ≤ bytes.length then some (bytes.take size, bytes.drop size) else none

def readPayload (wireType : Nat) (bytes : Bytes) : Option (Payload × Bytes) :=
  match wireType with
  | 0 => (readVarint bytes).map fun read => (.varint read.1, read.2)
  | 1 => (readBytes 8 bytes).map fun read => (.fixed64 read.1, read.2)
  | 2 => ((readVarint bytes).bind fun read => readBytes read.1 read.2).map fun read =>
      (.lengthDelimited read.1, read.2)
  | 5 => (readBytes 4 bytes).map fun read => (.fixed32 read.1, read.2)
  | _ => none

def readField (bytes : Bytes) : Option (Field × Bytes) :=
  (readVarint bytes).bind fun tag =>
    (readPayload (tag.1 % 8) tag.2).map fun read => ((tag.1 / 8, read.1), read.2)

def readFields : Nat → Bytes → Option (List Field)
  | _, [] => some []
  | 0, _ :: _ => none
  | rounds + 1, b :: bytes =>
      (readField (b :: bytes)).bind fun read => (readFields rounds read.2).map fun fields => read.1 :: fields

/-- The fields of a message; each takes at least one byte. -/
def parse (bytes : Bytes) : Option (List Field) := readFields bytes.length bytes

theorem readBytes_append {bytes : Bytes} {size : Nat} (h : bytes.length = size) (rest : Bytes) :
    readBytes size (bytes ++ rest) = some (bytes, rest) := by
  rw [readBytes, if_pos (by rw [List.length_append]; omega), List.take_left' h, List.drop_left' h]

theorem readPayload_encode {payload : Payload} (h : payload.Sized) (rest : Bytes) :
    readPayload payload.wireType (payload.encode ++ rest) = some (payload, rest) := by
  cases payload with
  | varint v => simp [readPayload, Payload.wireType, Payload.encode, readVarint_varint]
  | fixed64 bytes => simp [readPayload, Payload.wireType, Payload.encode, readBytes_append h]
  | lengthDelimited bytes =>
      simp [readPayload, Payload.wireType, Payload.encode, List.append_assoc, readVarint_varint,
        readBytes_append rfl]
  | fixed32 bytes => simp [readPayload, Payload.wireType, Payload.encode, readBytes_append h]

theorem readField_encodeField {field : Field} (h : field.2.Sized) (rest : Bytes) :
    readField (encodeField field ++ rest) = some (field, rest) := by
  have hwire : field.2.wireType < 8 := by
    cases field.2 <;> simp [Payload.wireType]
  have hmod : (8 * field.1 + field.2.wireType) % 8 = field.2.wireType := by omega
  have hdiv : (8 * field.1 + field.2.wireType) / 8 = field.1 := by omega
  rw [readField, encodeField, List.append_assoc, readVarint_varint, Option.bind_some, hmod, hdiv,
    readPayload_encode h, Option.map_some]

theorem encodeField_ne_nil (field : Field) : encodeField field ≠ [] := by
  rw [encodeField]
  exact List.append_ne_nil_of_left_ne_nil (varint_ne_nil _) _

/-- What is written item by item is at least as long as there are items. -/
theorem length_le_flatMap {α : Type} {write : α → Bytes} (h : ∀ a, write a ≠ []) (items : List α) :
    items.length ≤ (items.flatMap write).length := by
  induction items with
  | nil => exact Nat.zero_le _
  | cons a items ih =>
      have hpos := List.length_pos_of_ne_nil (h a)
      rw [List.flatMap_cons, List.length_append, List.length_cons]
      omega

theorem readFields_flatMap {rounds : Nat} {fields : List Field} (h : ∀ field ∈ fields, field.2.Sized)
    (hrounds : fields.length ≤ rounds) : readFields rounds (fields.flatMap encodeField) = some fields := by
  induction fields generalizing rounds with
  | nil => cases rounds <;> rfl
  | cons field fields ih =>
      rw [List.forall_mem_cons] at h
      obtain ⟨rounds, rfl⟩ := Nat.exists_eq_add_of_le' (Nat.le_trans (Nat.succ_le_succ (Nat.zero_le _)) hrounds)
      rw [List.flatMap_cons]
      have hread := readField_encodeField h.1 (fields.flatMap encodeField)
      obtain ⟨b, bytes, hbytes⟩ := List.exists_cons_of_ne_nil
        (List.append_ne_nil_of_left_ne_nil (encodeField_ne_nil field) (fields.flatMap encodeField))
      rw [hbytes] at hread ⊢
      rw [readFields, hread, Option.bind_some, ih h.2 (Nat.le_of_succ_le_succ hrounds), Option.map_some]

/-- A message is read back as its fields. -/
theorem parse_flatMap {fields : List Field} (h : ∀ field ∈ fields, field.2.Sized) :
    parse (fields.flatMap encodeField) = some fields :=
  readFields_flatMap h (length_le_flatMap encodeField_ne_nil fields)

/-! ### Packed integers -/

def packed (values : List Nat) : Bytes := values.flatMap varint

def readPacked : Nat → Bytes → Option (List Nat)
  | _, [] => some []
  | 0, _ :: _ => none
  | rounds + 1, b :: bytes =>
      (readVarint (b :: bytes)).bind fun read => (readPacked rounds read.2).map fun values => read.1 :: values

def unpack (bytes : Bytes) : Option (List Nat) := readPacked bytes.length bytes

theorem readPacked_packed {rounds : Nat} {values : List Nat} (hrounds : values.length ≤ rounds) :
    readPacked rounds (packed values) = some values := by
  induction values generalizing rounds with
  | nil => cases rounds <;> rfl
  | cons v values ih =>
      obtain ⟨rounds, rfl⟩ := Nat.exists_eq_add_of_le' (Nat.le_trans (Nat.succ_le_succ (Nat.zero_le _)) hrounds)
      have hread := readVarint_varint v (packed values)
      have hcons : packed (v :: values) = varint v ++ packed values := List.flatMap_cons
      obtain ⟨b, bytes, hbytes⟩ := List.exists_cons_of_ne_nil
        (List.append_ne_nil_of_left_ne_nil (varint_ne_nil v) (packed values))
      rw [hcons, hbytes]
      rw [hbytes] at hread
      rw [readPacked, hread, Option.bind_some, ih (Nat.le_of_succ_le_succ hrounds), Option.map_some]

theorem unpack_packed (values : List Nat) : unpack (packed values) = some values :=
  readPacked_packed (length_le_flatMap varint_ne_nil values)

/-! ### Schemas -/

/-- The integers under a field number. -/
def varints (number : Nat) (fields : List Field) : List Nat :=
  fields.filterMap fun
    | (n, .varint v) => if n = number then some v else none
    | _ => none

/-- The texts, bytes and messages under a field number. -/
def messages (number : Nat) (fields : List Field) : List Bytes :=
  fields.filterMap fun
    | (n, .lengthDelimited bytes) => if n = number then some bytes else none
    | _ => none

/-- The integers of a repeated field, packed or one by one. -/
def repeated (number : Nat) : List Field → Option (List Nat)
  | [] => some []
  | (n, .varint v) :: fields =>
      (repeated number fields).map fun values => if n = number then v :: values else values
  | (n, .lengthDelimited bytes) :: fields =>
      if n = number then (unpack bytes).bind fun first => (repeated number fields).map fun values => first ++ values
      else repeated number fields
  | _ :: fields => repeated number fields

theorem varints_append (number : Nat) (fields more : List Field) :
    varints number (fields ++ more) = varints number fields ++ varints number more :=
  List.filterMap_append

theorem messages_append (number : Nat) (fields more : List Field) :
    messages number (fields ++ more) = messages number fields ++ messages number more :=
  List.filterMap_append

variable {α : Type}

/-- A repeated field: one field for each item. -/
def repeatedField (number : Nat) (write : α → Bytes) (items : List α) : List Field :=
  items.map fun a => (number, .lengthDelimited (write a))

theorem varints_repeatedField (number other : Nat) (write : α → Bytes) (items : List α) :
    varints number (repeatedField other write items) = [] := by
  induction items with
  | nil => rfl
  | cons a items ih => exact ih

theorem messages_repeatedField (number : Nat) (write : α → Bytes) (items : List α) :
    messages number (repeatedField number write items) = items.map write := by
  induction items with
  | nil => rfl
  | cons a items ih =>
      have hcons : messages number (repeatedField number write (a :: items))
          = write a :: messages number (repeatedField number write items) := by
        simp [messages, repeatedField]
      rw [hcons, ih, List.map_cons]

theorem messages_repeatedField_of_ne {number other : Nat} (h : other ≠ number) (write : α → Bytes)
    (items : List α) :
    messages number (repeatedField other write items) = [] := by
  induction items with
  | nil => rfl
  | cons a items ih =>
      have hcons : messages number (repeatedField other write (a :: items))
          = messages number (repeatedField other write items) := by
        simp [messages, repeatedField, h]
      rw [hcons, ih]

theorem sized_repeatedField {number : Nat} {write : α → Bytes} {items : List α} {field : Field}
    (h : field ∈ repeatedField number write items) : field.2.Sized := by
  obtain ⟨a, -, rfl⟩ := List.mem_map.mp h
  exact trivial

/-- All messages are read when each of them is. -/
theorem mapM_map_eq_some {β γ : Type} {read : β → Option γ} {write : α → β} {value : α → γ} {items : List α}
    (h : ∀ a ∈ items, read (write a) = some (value a)) : (items.map write).mapM read = some (items.map value) := by
  induction items with
  | nil => rfl
  | cons a items ih =>
      rw [List.forall_mem_cons] at h
      rw [List.map_cons, List.mapM_cons, h.1, ih h.2]
      rfl

/-- The same when the messages are only related to the items, and so are the values. -/
theorem exists_mapM {β γ : Type} {Written : α → β → Prop} {Read : α → γ → Prop}
    {read : β → Option γ} {items : List α} {bytes : List β} (h : List.Forall₂ Written items bytes)
    (hread : ∀ a ∈ items, ∀ b, Written a b → ∃ c, read b = some c ∧ Read a c) :
    ∃ values, bytes.mapM read = some values ∧ List.Forall₂ Read items values := by
  induction h with
  | nil => exact ⟨[], rfl, List.Forall₂.nil⟩
  | cons hwritten _ ih =>
      rw [List.forall_mem_cons] at hread
      obtain ⟨c, hc, hrel⟩ := hread.1 _ hwritten
      obtain ⟨values, hvalues, hrels⟩ := ih hread.2
      refine ⟨c :: values, ?_, List.Forall₂.cons hrel hrels⟩
      rw [List.mapM_cons, hc, hvalues]
      rfl

/-! ### Signed integers -/

/-- `sint64` and the parameters of a geometry. -/
def unzigzag (v : Nat) : Int := if v % 2 = 0 then (v / 2 : Nat) else -((v / 2 : Nat) : Int) - 1

end Protobuf
