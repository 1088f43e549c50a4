import Inec.Lib.JsonText
import Mathlib.Algebra.Group.Int.Defs
import Mathlib.Algebra.Group.Nat.Defs

/-!
# Decoding records

What `json.Unmarshal` does with a record: the fields of the object one after the other, each into the
field of the record with its name, or else with its name in other capitals. Fields of other names are
passed over, `null` changes nothing, and of two fields with one name the later counts. A value of the
wrong kind fails the whole.
-/

namespace JsonText

/-! ### Integers -/

def digits? (text : List Char) : Option Nat :=
  if text.isEmpty || !text.all Char.isDigit then none else some (Nat.ofDigitChars 10 text 0)

/-- `strconv.ParseInt` on a number, to 64 bits. -/
def int64? : List Char → Option Int
  | '-' :: text => (digits? text).bind fun n => if n ≤ 2 ^ 63 then some (-n) else none
  | text => (digits? text).bind fun n => if n < 2 ^ 63 then some n else none

/-- The values of a Go `int64`. -/
def IsInt64 (n : Int) : Prop := -2 ^ 63 ≤ n ∧ n < 2 ^ 63

instance (n : Int) : Decidable (IsInt64 n) := inferInstanceAs (Decidable (_ ∧ _))

theorem int64?_isInt64 {text : List Char} {n : Int} (h : int64? text = some n) : IsInt64 n := by
  unfold int64? at h
  split at h
  · obtain ⟨m, -, hm⟩ := Option.bind_eq_some_iff.mp h
    split at hm
    · obtain rfl := Option.some.inj hm
      exact ⟨by omega, by omega⟩
    · cases hm
  · obtain ⟨m, -, hm⟩ := Option.bind_eq_some_iff.mp h
    split at hm
    · obtain rfl := Option.some.inj hm
      exact ⟨by omega, by omega⟩
    · cases hm

theorem digits?_toDigits (n : Nat) : digits? (Nat.toDigits 10 n) = some n := by
  have hall : (Nat.toDigits 10 n).all Char.isDigit = true :=
    List.all_eq_true.mpr fun c hc => Nat.isDigit_of_mem_toDigits (by decide) (by decide) hc
  have hne : (Nat.toDigits 10 n).isEmpty = false := List.isEmpty_eq_false_iff.mpr Nat.toDigits_ne_nil
  simp [digits?, hall, hne, Nat.ofDigitChars_ten_toDigits]

theorem toList_toString_neg (n : Nat) :
    (toString (-(n + 1 : Nat) : Int)).toList = '-' :: Nat.toDigits 10 (n + 1) := by
  change ("-" ++ Nat.repr (n + 1)).toList = _
  rw [String.toList_append, Nat.toList_repr]
  rfl

theorem toList_toString_nat (n : Nat) : (toString (n : Int)).toList = Nat.toDigits 10 n := Nat.toList_repr

theorem int64?_toString {n : Int} (h : IsInt64 n) : int64? (toString n).toList = some n := by
  obtain ⟨hlow, hhigh⟩ := h
  cases n with
  | ofNat n =>
      have hfirst : ∀ rest, Nat.toDigits 10 n ≠ '-' :: rest := by
        intro rest heq
        have hdigit : '-'.isDigit = true :=
          Nat.isDigit_of_mem_toDigits (by decide) (by decide) (heq ▸ List.mem_cons_self : '-' ∈ Nat.toDigits 10 n)
        cases hdigit
      have hn : n < 2 ^ 63 := by rw [Int.ofNat_eq_natCast] at hhigh; omega
      rw [Int.ofNat_eq_natCast, toList_toString_nat]
      unfold int64?
      split
      · rename_i rest heq
        exact absurd heq (hfirst rest)
      · rw [digits?_toDigits, Option.bind_some, if_pos hn]
  | negSucc n =>
      have hn : n + 1 ≤ 2 ^ 63 := by rw [Int.negSucc_eq] at hlow; omega
      have heq : Int.negSucc n = (-(n + 1 : Nat) : Int) := Int.negSucc_eq n
      rw [heq, toList_toString_neg]
      simp only [int64?, digits?_toDigits, Option.bind_some, if_pos hn]

theorem run_toDigits {n : Nat} (hn : 0 < n) {state : NumberState} (hstate : state = .start ∨ state = .neg) :
    (Nat.toDigits 10 n).foldlM NumberState.next state = some .int := by
  induction n using Nat.strongRecOn with
  | ind n ih =>
      by_cases hsmall : n < 10
      · have hdigit : n.digitChar.isDigit = true := by
          rw [Nat.isDigit_digitChar]
          exact decide_eq_true hsmall
        have hminus : n.digitChar ≠ '-' := by
          intro h
          rw [h] at hdigit
          cases hdigit
        have hzero : n ≠ 0 := Nat.ne_of_gt hn
        rw [Nat.toDigits_of_lt_base hsmall]
        rcases hstate with rfl | rfl <;> simp [NumberState.next, hdigit, hminus, hzero]
      · have hlast : (n % 10).digitChar.isDigit = true := by
          rw [Nat.isDigit_digitChar]
          exact decide_eq_true (Nat.mod_lt n (by decide))
        rw [Nat.toDigits_of_base_le (by decide) (Nat.le_of_not_lt hsmall), List.foldlM_append,
          ih (n / 10) (by omega) (by omega)]
        simp [NumberState.next, hlast]

theorem isNumber_toString (n : Int) : isNumber (toString n).toList = true := by
  have hpos : ∀ {n : Nat}, 0 < n → ∀ {state}, state = NumberState.start ∨ state = .neg →
      ((Nat.toDigits 10 n).foldlM NumberState.next state).map NumberState.complete = some true := by
    intro n hn state hstate
    rw [run_toDigits hn hstate]
    rfl
  cases n with
  | ofNat n =>
      rw [Int.ofNat_eq_natCast, toList_toString_nat, isNumber]
      rcases Nat.eq_zero_or_pos n with rfl | hn
      · rfl
      · rw [hpos hn (Or.inl rfl)]
        rfl
  | negSucc n =>
      have heq : Int.negSucc n = (-(n + 1 : Nat) : Int) := Int.negSucc_eq n
      rw [heq, toList_toString_neg, isNumber, List.foldlM_cons]
      change Option.getD (Option.map _ ((Nat.toDigits 10 (n + 1)).foldlM NumberState.next .neg)) false = true
      rw [hpos (Nat.succ_pos n) (Or.inr rfl)]
      rfl

/-! ### Fields -/

section Record

variable {Rec : Type}

/-- A field of a record, and how it takes a value. -/
structure Field (Rec : Type) where
  name : String
  store : Value → Rec → Option Rec

def Field.int64 (name : String) (set : Int → Rec → Rec) : Field Rec where
  name := name
  store := fun
    | .null, r => some r
    | .number literal, r => (int64? literal).map fun n => set n r
    | _, _ => none

def Field.text (name : String) (set : String → Rec → Rec) : Field Rec where
  name := name
  store := fun
    | .null, r => some r
    | .str s, r => some (set s r)
    | _, _ => none

/-- The strings of an array. An element that is `null` is left empty. -/
def texts? : List Value → Option (List String)
  | [] => some []
  | .null :: rest => (texts? rest).map ("" :: ·)
  | .str s :: rest => (texts? rest).map (s :: ·)
  | _ :: _ => none

def Field.texts (name : String) (set : List String → Rec → Rec) : Field Rec where
  name := name
  store := fun
    | .null, r => some r
    | .arr items, r => (texts? items).map fun list => set list r
    | _, _ => none

/-- The field a key is for. -/
def field? (table : List (Field Rec)) (key : String) : Option (Field Rec) :=
  (table.find? fun field => field.name == key).or (table.find? fun field => Text.equalFold field.name key)

def storeField (table : List (Field Rec)) (r : Rec) (field : String × Value) : Option Rec :=
  match field? table field.1 with
  | some known => known.store field.2 r
  | none => some r

/-- `json.Unmarshal` into a record. -/
def unmarshal (table : List (Field Rec)) (zero : Rec) (text : String) : Option Rec :=
  match parse text.toList with
  | some .null => some zero
  | some (.obj fields) => fields.foldlM (storeField table) zero
  | _ => none

variable {table : List (Field Rec)} {name : String}

theorem storeField_int64 {set : Int → Rec → Rec} (h : field? table name = some (.int64 name set)) {n : Int}
    (hn : IsInt64 n) (r : Rec) : storeField table r (name, .number (toString n).toList) = some (set n r) := by
  simp only [storeField, h, Field.int64, int64?_toString hn, Option.map_some]

theorem storeField_text {set : String → Rec → Rec} (h : field? table name = some (.text name set)) (s : String)
    (r : Rec) : storeField table r (name, .str s) = some (set s r) := by
  simp [storeField, h, Field.text]

theorem storeField_texts {set : List String → Rec → Rec} (h : field? table name = some (.texts name set))
    {items : List Value} {list : List String} (hitems : texts? items = some list) (r : Rec) :
    storeField table r (name, .arr items) = some (set list r) := by
  simp [storeField, h, Field.texts, hitems]

/-- A field keeps a property of the record, whatever value it is given. -/
def Field.Keeps (P : Rec → Prop) (field : Field Rec) : Prop := ∀ v r r', P r → field.store v r = some r' → P r'

theorem keeps_int64 {P : Rec → Prop} {set : Int → Rec → Rec} (h : ∀ n r, IsInt64 n → P r → P (set n r)) :
    (Field.int64 name set).Keeps P := by
  intro v r r' hr hstore
  cases v with
  | null => exact Option.some.inj hstore ▸ hr
  | number literal =>
      obtain ⟨n, hn, rfl⟩ := Option.map_eq_some_iff.mp hstore
      exact h n r (int64?_isInt64 hn) hr
  | _ => cases hstore

theorem keeps_text {P : Rec → Prop} {set : String → Rec → Rec} (h : ∀ s r, P r → P (set s r)) :
    (Field.text name set).Keeps P := by
  intro v r r' hr hstore
  cases v with
  | null => exact Option.some.inj hstore ▸ hr
  | str s => exact Option.some.inj hstore ▸ h s r hr
  | _ => cases hstore

theorem mem_of_field? {key : String} {field : Field Rec} (h : field? table key = some field) : field ∈ table := by
  rcases Option.or_eq_some_iff.mp h with h | ⟨-, h⟩
  · exact List.mem_of_find?_eq_some h
  · exact List.mem_of_find?_eq_some h

/-- What the zero value has and every field keeps, a decoded record has. -/
theorem unmarshal_keeps {P : Rec → Prop} {zero r : Rec} {text : String} (hzero : P zero)
    (htable : ∀ field ∈ table, field.Keeps P) (h : unmarshal table zero text = some r) : P r := by
  have hrun : ∀ (fields : List (String × Value)) (r r' : Rec), P r → fields.foldlM (storeField table) r =
      some r' → P r' := by
    intro fields
    induction fields with
    | nil => exact fun r r' hr hrun => Option.some.inj hrun ▸ hr
    | cons first rest ih =>
        intro r r' hr hrun
        obtain ⟨mid, hmid, hrest⟩ := Option.bind_eq_some_iff.mp hrun
        refine ih mid r' ?_ hrest
        unfold storeField at hmid
        split at hmid
        · rename_i known hknown
          exact htable known (mem_of_field? hknown) first.2 r mid hr hmid
        · exact Option.some.inj hmid ▸ hr
  unfold unmarshal at h
  split at h
  · exact Option.some.inj h ▸ hzero
  · exact hrun _ _ _ hzero h
  · cases h

end Record

/-- `json.Unmarshal` into a list of strings. -/
def unmarshalTexts (text : String) : Option (List String) :=
  match parse text.toList with
  | some .null => some []
  | some (.arr items) => texts? items
  | _ => none

end JsonText
