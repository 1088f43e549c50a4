import Mathlib.Data.List.Basic
import Mathlib.Data.Nat.Digits.Defs

/-!
# Placeholders of SQL statements

`convertPlaceholders` of pgcompat.go and the connection that applies it. Every query mark outside quoted text
becomes `$1`, `$2` and so on, and what is converted has none left, so that a statement may be converted twice.

A statement is bytes. Quoted text goes from one quote to the next, where two quotes in a row stand for a quote
in the text. `strings.ToUpper` is a parameter, and so is the connection of the driver.
-/

namespace Inec.Sql

abbrev Bytes := List UInt8

def text (s : String) : Bytes := s.toList.map fun c => UInt8.ofNat c.toNat

def quote : UInt8 := 39

def queryMark : UInt8 := 63

/-- `$%d` -/
def parameter (n : Nat) : Bytes := 36 :: (Nat.toDigits 10 n).map fun c => UInt8.ofNat c.toNat

/-! ### convertPlaceholders -/

structure Conversion where
  n : Nat
  inSingleQuote : Bool
  b : Bytes
  deriving DecidableEq, Repr

/-- A round of the loop. -/
def Conversion.write (c : Conversion) (ch : UInt8) : Conversion :=
  let inSingleQuote := if ch = quote then !c.inSingleQuote else c.inSingleQuote
  if ch = queryMark ∧ inSingleQuote = false then ⟨c.n + 1, inSingleQuote, c.b ++ parameter (c.n + 1)⟩
  else ⟨c.n, inSingleQuote, c.b ++ [ch]⟩

def convertPlaceholders (query : Bytes) : Bytes := (query.foldl Conversion.write ⟨0, false, []⟩).b

/-! ### The connection -/

def contains (s part : Bytes) : Bool := s.tails.any part.isPrefixOf

/-- `strings.Index`, where there is one. -/
def index? (s part : Bytes) : Option Nat := s.tails.findIdx? part.isPrefixOf

/-- `strings.ReplaceAll` of a text that is not empty; so many bytes belong to an occurrence that is replaced. -/
def replaceFrom (old new : Bytes) : Nat → Bytes → Bytes
  | _, [] => []
  | skip + 1, _ :: rest => replaceFrom old new skip rest
  | 0, ch :: rest =>
      if old.isPrefixOf (ch :: rest) then new ++ replaceFrom old new (old.length - 1) rest
      else ch :: replaceFrom old new 0 rest

def replaceAll (s : Bytes) (old new : String) : Bytes := replaceFrom (text old) (text new) 0 s

section Driver

variable (toUpper : Bytes → Bytes)

/-- Before a RETURNING, or at the end. The place is one in the upper case text; past the end of the statement
the slice panics. -/
def onConflictDoNothing (query : Bytes) : Option Bytes :=
  match index? (toUpper query) (text "RETURNING") with
  | some idx =>
      if 0 < idx then
        if idx ≤ query.length then some (query.take idx ++ text "ON CONFLICT DO NOTHING " ++
          query.drop idx) else none
      else some (query ++ text " ON CONFLICT DO NOTHING")
  | none => some (query ++ text " ON CONFLICT DO NOTHING")

def convertRuntimeSQL (query : Bytes) : Option Bytes := do
  let query ←
    if contains query (text "INSERT OR IGNORE INTO") then
      onConflictDoNothing toUpper (replaceAll query "INSERT OR IGNORE INTO" "INSERT INTO")
    else some query
  let query ←
    if contains query (text "INSERT OR REPLACE INTO") then
      onConflictDoNothing toUpper (replaceAll query "INSERT OR REPLACE INTO" "INSERT INTO")
    else some query
  let query :=
    if contains query (text "REPLACE INTO") && !contains query (text "INSERT OR REPLACE INTO") then
      replaceAll query "REPLACE INTO" "INSERT INTO" ++ text " ON CONFLICT DO NOTHING"
    else query
  let query := replaceAll query "datetime('now')" "NOW()"
  let query := replaceAll query "AUTOINCREMENT" ""
  let query := replaceAll query "INTEGER PRIMARY KEY " "SERIAL PRIMARY KEY "
  let query := replaceAll query "BOOLEAN DEFAULT 1" "BOOLEAN DEFAULT TRUE"
  let query := replaceAll query "BOOLEAN DEFAULT 0" "BOOLEAN DEFAULT FALSE"
  return replaceAll query "BLOB" "BYTEA"

/-- The connection of the driver; it need not take statements with their arguments. -/
structure InnerConn (Stmt Args Result Rows : Type) where
  prepare : Bytes → Except String Stmt
  exec : Stmt → Args → Except String Result
  query : Stmt → Args → Except String Rows
  execContext : Option (Bytes → Args → Except String Result)
  queryContext : Option (Bytes → Args → Except String Rows)

variable {Stmt Args Result Rows : Type} (inner : InnerConn Stmt Args Result Rows)

def prepare (query : Bytes) : Option (Except String Stmt) := do
  let query ← convertRuntimeSQL toUpper (convertPlaceholders query)
  return inner.prepare query

def execContext (query : Bytes) (args : Args) : Option (Except String Result) := do
  let query ← convertRuntimeSQL toUpper (convertPlaceholders query)
  match inner.execContext with
  | some execer => return execer query args
  | none => return (inner.prepare query).bind fun stmt => inner.exec stmt args

def queryContext (query : Bytes) (args : Args) : Option (Except String Rows) := do
  let query ← convertRuntimeSQL toUpper (convertPlaceholders query)
  match inner.queryContext with
  | some queryer => return queryer query args
  | none => return (inner.prepare query).bind fun stmt => inner.query stmt args

end Driver

/-! ### What it should be -/

/-- Which bytes are quoted text or its quotes, outside such text and inside. -/
def quotedFrom : Bool → Bytes → List Bool
  | _, [] => []
  | false, ch :: rest => decide (ch = quote) :: quotedFrom (decide (ch = quote)) rest
  | true, ch :: next :: rest =>
      if ch = quote then
        if next = quote then true :: true :: quotedFrom true rest else true :: quotedFrom false (next :: rest)
      else true :: quotedFrom true (next :: rest)
  | true, [_] => [true]

def isPlaceholder (query : Bytes) (i : Nat) : Bool :=
  query[i]? = some queryMark && (quotedFrom false query)[i]? = some false

/-- How many placeholders there are before a place. -/
def placeholdersBefore (query : Bytes) (i : Nat) : Nat := (List.range i).countP (isPlaceholder query)

/-- What stands for a byte. -/
def converted (query : Bytes) (i : Nat) : Bytes :=
  if isPlaceholder query i then parameter (placeholdersBefore query i + 1) else query[i]?.toList

/-! ### The quotes -/

/-- What `inSingleQuote` is after some bytes. -/
def insideAfter (inside : Bool) (bytes : Bytes) : Bool :=
  bytes.foldl (fun inside ch => if ch = quote then !inside else inside) inside

@[simp] theorem insideAfter_nil (inside : Bool) : insideAfter inside [] = inside := rfl

@[simp] theorem insideAfter_cons (inside : Bool) (ch : UInt8) (rest : Bytes) :
    insideAfter inside (ch :: rest) = insideAfter (if ch = quote then !inside else inside) rest := rfl

/-- A byte that is not a quote is marked as the loop's flag says: the two quotes of an escaped one turn it twice. -/
theorem quotedFrom_getElem? (inside : Bool) (query : Bytes) : ∀ (i : Nat) (ch : UInt8),
    query[i]? = some ch → ch ≠ quote → (quotedFrom inside query)[i]? =
      some (insideAfter inside (query.take i)) := by
  fun_induction quotedFrom inside query with
  | case1 inside =>
      intro i ch hch
      simp at hch
  | case2 first rest ih =>
      intro i ch hch hne
      cases i with
      | zero =>
          have hfirst : first = ch := by simpa using hch
          simp [hfirst, hne]
      | succ i =>
          have hnext := ih i ch (by simpa using hch) hne
          by_cases hq : first = quote <;> simpa [hq] using hnext
  | case3 rest ih =>
      intro i ch hch hne
      match i with
      | 0 => exact absurd (by simpa using hch.symm) hne
      | 1 => exact absurd (by simpa using hch.symm) hne
      | i + 2 => simpa using ih i ch (by simpa using hch) hne
  | case4 next rest hnext ih =>
      intro i ch hch hne
      cases i with
      | zero => exact absurd (by simpa using hch.symm) hne
      | succ i => simpa using ih i ch (by simpa using hch) hne
  | case5 first next rest hfirst ih =>
      intro i ch hch hne
      cases i with
      | zero => simp
      | succ i => simpa [hfirst] using ih i ch (by simpa using hch) hne
  | case6 first =>
      intro i ch hch hne
      cases i with
      | zero => simp
      | succ i => simp at hch

theorem isPlaceholder_eq (query : Bytes) (i : Nat) {ch : UInt8} (hch : query[i]? = some ch) :
    isPlaceholder query i = decide (ch = queryMark ∧ insideAfter false (query.take i) = false) := by
  unfold isPlaceholder
  rw [hch]
  by_cases hmark : ch = queryMark
  · have hne : ch ≠ quote := by
      rw [hmark]
      decide
    rw [quotedFrom_getElem? false query i ch hch hne]
    simp [hmark]
  · simp [hmark]

/-! ### The loop -/

/-- What the loop has after `i` bytes. -/
def conversionAt (query : Bytes) (i : Nat) : Conversion :=
  ⟨placeholdersBefore query i, insideAfter false (query.take i), (List.range i).flatMap (converted query)⟩

theorem insideAfter_concat (inside : Bool) (bytes : Bytes) (ch : UInt8) : insideAfter inside (bytes ++ [ch]) =
    if ch = quote then !insideAfter inside bytes else insideAfter inside bytes := by
  simp [insideAfter]

theorem write_conversionAt (query : Bytes) (i : Nat) {ch : UInt8} (hch : query[i]? = some ch) :
    (conversionAt query i).write ch = conversionAt query (i + 1) := by
  have htake : query.take (i + 1) = query.take i ++ [ch] := by
    rw [List.take_add_one, hch]
    rfl
  have hcount : placeholdersBefore query (i + 1) =
      placeholdersBefore query i + if isPlaceholder query i then 1 else 0 := by
    simp [placeholdersBefore, List.range_succ, List.countP_append, List.countP_cons]
  have hbytes : (List.range (i + 1)).flatMap (converted query) =
      (List.range i).flatMap (converted query) ++ converted query i := by
    simp [List.range_succ, List.flatMap_append]
  have hplace := isPlaceholder_eq query i hch
  unfold conversionAt
  rw [hcount, hbytes, htake, insideAfter_concat]
  unfold Conversion.write converted
  rw [hplace, hch]
  by_cases hmark : ch = queryMark
  · have hne : ch ≠ quote := by
      rw [hmark]
      decide
    by_cases hinside : insideAfter false (query.take i) = false
    · simp [hmark, hinside, show queryMark ≠ quote by decide]
    · simp [hmark, hinside, show queryMark ≠ quote by decide]
  · simp [hmark]

theorem foldl_write_take (query : Bytes) (i : Nat) (hi : i ≤ query.length) :
    (query.take i).foldl Conversion.write ⟨0, false, []⟩ = conversionAt query i := by
  induction i with
  | zero => rfl
  | succ i ih =>
      obtain ⟨ch, hch⟩ : ∃ ch, query[i]? = some ch := ⟨_, List.getElem?_eq_getElem (by omega)⟩
      rw [List.take_add_one, hch, List.foldl_append, ih (by omega)]
      exact write_conversionAt query i hch

/-- Every byte is left as it is but the placeholders, which are numbered from one. -/
theorem convertPlaceholders_eq (query : Bytes) :
    convertPlaceholders query = (List.range query.length).flatMap (converted query) := by
  have hloop := foldl_write_take query query.length le_rfl
  rw [List.take_length] at hloop
  unfold convertPlaceholders
  rw [hloop]
  rfl

/-! ### Twice -/

theorem parameter_clean (n : Nat) : ∀ ch ∈ parameter n, ch ≠ quote ∧ ch ≠ queryMark := by
  intro ch hch
  rcases List.mem_cons.mp hch with rfl | hdigit
  · decide
  · obtain ⟨c, hc, rfl⟩ := List.mem_map.mp hdigit
    have hisDigit : c.isDigit := Nat.isDigit_of_mem_toDigits (by omega) (by omega) hc
    simp only [Char.isDigit, ge_iff_le, Bool.and_eq_true, decide_eq_true_eq] at hisDigit
    have hlow : 48 ≤ c.toNat := UInt32.le_iff_toNat_le.mp hisDigit.1
    have hhigh : c.toNat ≤ 57 := UInt32.le_iff_toNat_le.mp hisDigit.2
    have hbyte : (UInt8.ofNat c.toNat).toNat = c.toNat := by
      rw [UInt8.toNat_ofNat']
      omega
    refine ⟨fun h => ?_, fun h => ?_⟩ <;>
      · rw [h] at hbyte
        simp only [quote, queryMark, UInt8.toNat_ofNat] at hbyte
        omega

/-- Bytes that are neither are written as they are. -/
theorem foldl_write_clean (bytes : Bytes) (hclean : ∀ ch ∈ bytes, ch ≠ quote ∧ ch ≠ queryMark) (c : Conversion) :
    bytes.foldl Conversion.write c = ⟨c.n, c.inSingleQuote, c.b ++ bytes⟩ := by
  induction bytes generalizing c with
  | nil => simp
  | cons ch rest ih =>
      have hfirst := hclean ch (List.mem_cons_self ..)
      have hwrite : c.write ch = ⟨c.n, c.inSingleQuote, c.b ++ [ch]⟩ := by
        simp [Conversion.write, hfirst.1, hfirst.2]
      rw [List.foldl_cons, hwrite, ih fun ch hch => hclean ch (List.mem_cons_of_mem _ hch)]
      simp

/-- What is written would be written as it is, and leave the flag where it is. -/
def Conversion.Stable (c : Conversion) : Prop :=
  c.b.foldl Conversion.write ⟨0, false, []⟩ = ⟨0, c.inSingleQuote, c.b⟩

theorem Conversion.Stable.write {c : Conversion} (hc : c.Stable) (ch : UInt8) : (c.write ch).Stable := by
  unfold Conversion.Stable at hc ⊢
  by_cases hmark : ch = queryMark ∧ c.inSingleQuote = false
  · have hne : ch ≠ quote := by
      rw [hmark.1]
      decide
    have hwrite : c.write ch = ⟨c.n + 1, false, c.b ++ parameter (c.n + 1)⟩ := by
      simp [Conversion.write, hmark.1, hmark.2, show queryMark ≠ quote by decide]
    rw [hwrite, List.foldl_append, hc, foldl_write_clean _ (parameter_clean _), hmark.2]
  · have hwrite : c.write ch = ⟨c.n, if ch = quote then !c.inSingleQuote else c.inSingleQuote, c.b ++ [ch]⟩ := by
      by_cases hq : ch = quote
      · simp [Conversion.write, hq, show quote ≠ queryMark by decide]
      · simp only [Conversion.write, if_neg hq, if_neg hmark]
    have hagain : (⟨0, c.inSingleQuote, c.b⟩ : Conversion).write ch =
        ⟨0, if ch = quote then !c.inSingleQuote else c.inSingleQuote, c.b ++ [ch]⟩ := by
      by_cases hq : ch = quote
      · simp [Conversion.write, hq, show quote ≠ queryMark by decide]
      · simp only [Conversion.write, if_neg hq, if_neg hmark]
    rw [hwrite, List.foldl_append, hc, List.foldl_cons, List.foldl_nil, hagain]

theorem stable_foldl_write (query : Bytes) (c : Conversion) (hc : c.Stable) :
    (query.foldl Conversion.write c).Stable := by
  induction query generalizing c with
  | nil => exact hc
  | cons ch rest ih => exact ih (c.write ch) (hc.write ch)

theorem convertPlaceholders_idem (query : Bytes) :
    convertPlaceholders (convertPlaceholders query) = convertPlaceholders query := by
  have hstable := stable_foldl_write query ⟨0, false, []⟩ rfl
  unfold Conversion.Stable at hstable
  unfold convertPlaceholders
  rw [hstable]

/-- A statement is converted once, whether or not it was before it came to the connection. -/
theorem placeholders_converted_once {Stmt Args Result Rows : Type} (toUpper : Bytes → Bytes)
    (inner : InnerConn Stmt Args Result Rows) (query : Bytes) (args : Args) :
    convertPlaceholders query = (List.range query.length).flatMap (converted query) ∧
      convertPlaceholders (convertPlaceholders query) = convertPlaceholders query ∧
      prepare toUpper inner (convertPlaceholders query) = prepare toUpper inner query ∧
      execContext toUpper inner (convertPlaceholders query) args = execContext toUpper inner query args ∧
      queryContext toUpper inner (convertPlaceholders query) args = queryContext toUpper inner query args := by
  have hidem := convertPlaceholders_idem query
  refine ⟨convertPlaceholders_eq query, hidem, ?_, ?_, ?_⟩
  · unfold prepare
    rw [hidem]
  · unfold execContext
    rw [hidem]
  · unfold queryContext
    rw [hidem]

example : convertPlaceholders (text "a = ? AND b = 'it''s ?' AND c = ?") =
      text "a = $1 AND b = 'it''s ?' AND c = $2" := by
  decide +kernel

end Inec.Sql
