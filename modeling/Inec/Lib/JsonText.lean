import Mathlib.Data.List.Chain
import Inec.Lib.Text

/-!
# Reading JSON texts

The reading side of Go's `encoding/json`. A text is cut into tokens, and a machine with a stack of open
arrays and objects puts the tokens together, as the scanner of that package does. Both go over their
input once, so both are total. A number stays the text it is: only a field that takes it decides what
it is worth.

`parse_render` is what the writers of such texts rely on: a value written without white space is read
back.
-/

namespace JsonText

inductive Value
  | null
  | bool (value : Bool)
  | number (literal : List Char)
  | str (value : String)
  | arr (items : List Value)
  | obj (fields : List (String × Value))

inductive Token
  | beginObj | endObj | beginArr | endArr | colon | comma
  | str (value : String)
  /-- A number or one of the names `null`, `true` and `false`. -/
  | word (text : List Char)
  deriving DecidableEq

def Token.isWord : Token → Bool
  | .word _ => true
  | _ => false

/-! ### Strings -/

/-- One character of a string, or one `\uXXXX` of it. -/
inductive CodeUnit
  | char (c : Char)
  | code (n : Nat)

def isHighSurrogate (n : Nat) : Bool := 0xD800 ≤ n && n < 0xDC00
def isLowSurrogate (n : Nat) : Bool := 0xDC00 ≤ n && n < 0xE000

/-- A surrogate without its partner becomes the replacement character. -/
def codeChar (n : Nat) : Char :=
  if isHighSurrogate n || isLowSurrogate n then Char.ofNat 0xFFFD else Char.ofNat n

def joinUnits : List CodeUnit → List Char
  | [] => []
  | .char c :: rest => c :: joinUnits rest
  | .code high :: .code low :: rest =>
      if isHighSurrogate high && isLowSurrogate low then
        Char.ofNat (0x10000 + (high - 0xD800) * 0x400 + (low - 0xDC00)) :: joinUnits rest
      else codeChar high :: joinUnits (.code low :: rest)
  | .code n :: rest => codeChar n :: joinUnits rest

def simpleEscape? (c : Char) : Option Char :=
  if c = '"' ∨ c = '\\' ∨ c = '/' then some c
  else if c = 'b' then some (Char.ofNat 8)
  else if c = 'f' then some (Char.ofNat 12)
  else if c = 'n' then some '\n'
  else if c = 'r' then some '\r'
  else if c = 't' then some '\t'
  else none

def hexValue? (c : Char) : Option Nat :=
  if '0' ≤ c ∧ c ≤ '9' then some (c.toNat - 48)
  else if 'a' ≤ c ∧ c ≤ 'f' then some (c.toNat - 87)
  else if 'A' ≤ c ∧ c ≤ 'F' then some (c.toNat - 55)
  else none

/-! ### Tokens -/

def isSpace (c : Char) : Bool := c = ' ' || c = '\t' || c = '\r' || c = '\n'

def isWordChar (c : Char) : Bool := c.isAlphanum || c = '-' || c = '+' || c = '.'

def punctuation? (c : Char) : Option Token :=
  if c = '\x7b' then some .beginObj
  else if c = '\x7d' then some .endObj
  else if c = '[' then some .beginArr
  else if c = ']' then some .endArr
  else if c = ':' then some .colon
  else if c = ',' then some .comma
  else none

/-- Where the reader is. What it has read of a word or a string is kept in reverse. -/
inductive Mode
  | idle
  | word (text : List Char)
  | text (units : List CodeUnit)
  | escape (units : List CodeUnit)
  | unicode (units : List CodeUnit) (digits value : Nat)

def scanIdle (c : Char) : Option (Mode × List Token) :=
  if isSpace c then some (.idle, [])
  else if c = '"' then some (.text [], [])
  else if isWordChar c then some (.word [c], [])
  else (punctuation? c).map fun token => (.idle, [token])

/-- One character: where the reader is then, and the tokens that end with it. -/
def scan : Mode → Char → Option (Mode × List Token)
  | .idle, c => scanIdle c
  | .word text, c =>
      if isWordChar c then some (.word (c :: text), [])
      else (scanIdle c).map fun next => (next.1, .word text.reverse :: next.2)
  | .text units, c =>
      if c = '"' then some (.idle, [.str (String.ofList (joinUnits units.reverse))])
      else if c = '\\' then some (.escape units, [])
      else if c.toNat < 32 then none
      else some (.text (.char c :: units), [])
  | .escape units, c =>
      if c = 'u' then some (.unicode units 0 0, [])
      else (simpleEscape? c).map fun d => (.text (.char d :: units), [])
  | .unicode units digits value, c =>
      (hexValue? c).map fun d =>
        if digits = 3 then (.text (.code (16 * value + d) :: units), [])
        else (.unicode units (digits + 1) (16 * value + d), [])

def lex : Mode → List Char → Option (List Token)
  | mode, c :: rest => (scan mode c).bind fun next => (lex next.1 rest).map fun later => next.2 ++ later
  | .idle, [] => some []
  | .word text, [] => some [.word text.reverse]
  | _, [] => none

/-! ### Numbers -/

inductive NumberState
  | start | neg | zero | int | dot | frac | e | eSign | exp

/-- The digits of a number in the order of its grammar. -/
def NumberState.next : NumberState → Char → Option NumberState
  | .start, c =>
      if c = '-' then some .neg else if c = '0' then some .zero else if c.isDigit then some .int else none
  | .neg, c => if c = '0' then some .zero else if c.isDigit then some .int else none
  | .zero, c => if c = '.' then some .dot else if c = 'e' ∨ c = 'E' then some .e else none
  | .int, c =>
      if c.isDigit then some .int else if c = '.' then some .dot else if c = 'e' ∨ c = 'E' then some .e else none
  | .dot, c => if c.isDigit then some .frac else none
  | .frac, c => if c.isDigit then some .frac else if c = 'e' ∨ c = 'E' then some .e else none
  | .e, c => if c = '+' ∨ c = '-' then some .eSign else if c.isDigit then some .exp else none
  | .eSign, c => if c.isDigit then some .exp else none
  | .exp, c => if c.isDigit then some .exp else none

def NumberState.complete : NumberState → Bool
  | .zero | .int | .frac | .exp => true
  | _ => false

def isNumber (text : List Char) : Bool :=
  ((text.foldlM NumberState.next .start).map NumberState.complete).getD false

def scalar? (text : List Char) : Option Value :=
  if text = "null".toList then some .null
  else if text = "true".toList then some (.bool true)
  else if text = "false".toList then some (.bool false)
  else if isNumber text then some (.number text)
  else none

/-! ### Values -/

/-- An array or object that is open, with what it holds in reverse. An object is waiting for the value of
its last key. -/
inductive Frame
  | arr (items : List Value)
  | obj (fields : List (String × Value)) (key : String)

/-- What may come next, inside the open arrays and objects. -/
inductive State
  | value (stack : List Frame)
  | emptyArr (stack : List Frame)
  | emptyObj (stack : List Frame)
  | key (fields : List (String × Value)) (stack : List Frame)
  | colon (fields : List (String × Value)) (key : String) (stack : List Frame)
  | after (value : Value) (stack : List Frame)

def maxNestingDepth : Nat := 10000

/-- The beginning of a value. -/
def beginValue (stack : List Frame) : Token → Option State
  | .beginArr => if stack.length < maxNestingDepth then some (.emptyArr stack) else none
  | .beginObj => if stack.length < maxNestingDepth then some (.emptyObj stack) else none
  | .str text => some (.after (.str text) stack)
  | .word text => (scalar? text).map fun value => .after value stack
  | _ => none

def endValue (value : Value) : List Frame → Token → Option State
  | .arr items :: stack, .comma => some (.value (.arr (value :: items) :: stack))
  | .arr items :: stack, .endArr => some (.after (.arr (value :: items).reverse) stack)
  | .obj fields key :: stack, .comma => some (.key ((key, value) :: fields) stack)
  | .obj fields key :: stack, .endObj => some (.after (.obj ((key, value) :: fields).reverse) stack)
  | _, _ => none

def step : State → Token → Option State
  | .value stack, token => beginValue stack token
  | .emptyArr stack, .endArr => some (.after (.arr []) stack)
  | .emptyArr stack, token => beginValue (.arr [] :: stack) token
  | .emptyObj stack, .endObj => some (.after (.obj []) stack)
  | .emptyObj stack, .str key => some (.colon [] key stack)
  | .key fields stack, .str key => some (.colon fields key stack)
  | .colon fields key stack, .colon => some (.value (.obj fields key :: stack))
  | .after value stack, token => endValue value stack token
  | _, _ => none

/-- The value, once nothing is open. -/
def State.result? : State → Option Value
  | .after v [] => some v
  | _ => none

def parse (text : List Char) : Option Value :=
  (lex .idle text).bind fun tokens => (tokens.foldlM step (.value [])).bind State.result?

/-! ### Writing -/

def hexDigit (n : Nat) : Char :=
  if n < 10 then Char.ofNat (48 + n) else Char.ofNat (87 + n)

/-- The escape `\u00xx` of a control or HTML character. -/
def unicodeEscape (c : Char) : List Char :=
  let n := c.toNat
  ['\\', 'u', hexDigit (n / 4096 % 16), hexDigit (n / 256 % 16), hexDigit (n / 16 % 16), hexDigit (n % 16)]

def escapeChar (c : Char) : List Char :=
  if c = '"' then ['\\', '"']
  else if c = '\\' then ['\\', '\\']
  else if c = '\n' then ['\\', 'n']
  else if c = '\r' then ['\\', 'r']
  else if c = '\t' then ['\\', 't']
  else if c.toNat = 8 then ['\\', 'b']
  else if c.toNat = 12 then ['\\', 'f']
  else if c.toNat < 32 ∨ c = '<' ∨ c = '>' ∨ c = '&' ∨ c.toNat = 0x2028 ∨ c.toNat = 0x2029 then
    unicodeEscape c
  else [c]

def Token.text : Token → List Char
  | .beginObj => ['\x7b']
  | .endObj => ['\x7d']
  | .beginArr => ['[']
  | .endArr => [']']
  | .colon => [':']
  | .comma => [',']
  | .str s => '"' :: (s.toList.flatMap escapeChar ++ ['"'])
  | .word text => text

mutual

def Value.tokens : Value → List Token
  | .null => [.word "null".toList]
  | .bool true => [.word "true".toList]
  | .bool false => [.word "false".toList]
  | .number literal => [.word literal]
  | .str s => [.str s]
  | .arr items => .beginArr :: ([.comma].intercalate (itemTokens items) ++ [.endArr])
  | .obj fields => .beginObj :: ([.comma].intercalate (fieldTokens fields) ++ [.endObj])

def itemTokens : List Value → List (List Token)
  | [] => []
  | item :: rest => item.tokens :: itemTokens rest

def fieldTokens : List (String × Value) → List (List Token)
  | [] => []
  | field :: rest => (.str field.1 :: .colon :: field.2.tokens) :: fieldTokens rest

end

/-- The value without white space. -/
def Value.render (v : Value) : List Char := v.tokens.flatMap Token.text

mutual

/-- Its numbers are numbers, and it is not nested deeper than that. -/
def Value.fits : Nat → Value → Bool
  | _, .number literal => isNumber literal
  | 0, .arr _ => false
  | depth + 1, .arr items => itemsFit depth items
  | 0, .obj _ => false
  | depth + 1, .obj fields => fieldsFit depth fields
  | _, _ => true

def itemsFit (depth : Nat) : List Value → Bool
  | [] => true
  | item :: rest => item.fits depth && itemsFit depth rest

def fieldsFit (depth : Nat) : List (String × Value) → Bool
  | [] => true
  | field :: rest => field.2.fits depth && fieldsFit depth rest

end

/-! ### From tokens to values -/

section Parse

variable {stack : List Frame}

theorem scalar?_number {literal : List Char} (h : isNumber literal = true) :
    scalar? literal = some (.number literal) := by
  have hnames : literal ≠ "null".toList ∧ literal ≠ "true".toList ∧ literal ≠ "false".toList := by
    refine ⟨?_, ?_, ?_⟩ <;> rintro rfl <;> exact absurd h (by decide)
  rw [scalar?, if_neg hnames.1, if_neg hnames.2.1, if_neg hnames.2.2, if_pos h]

/-- The first item of an array is read like any other. -/
theorem run_emptyArr {tokens : List Token} {v : Value} {stack' : List Frame}
    (h : tokens.foldlM step (.value (.arr [] :: stack)) = some (.after v stack')) :
    tokens.foldlM step (.emptyArr stack) = some (.after v stack') := by
  cases tokens with
  | nil => cases h
  | cons token rest =>
      cases token with
      | endArr => cases h
      | _ => exact h

/-- And so is the first key of an object. -/
theorem run_emptyObj {tokens : List Token} {v : Value} {stack' : List Frame}
    (h : tokens.foldlM step (.key [] stack) = some (.after v stack')) :
    tokens.foldlM step (.emptyObj stack) = some (.after v stack') := by
  cases tokens with
  | nil => cases h
  | cons token rest =>
      cases token with
      | str key => exact h
      | _ => cases h

end Parse

mutual

theorem run_tokens (v : Value) (depth : Nat) (stack : List Frame) (hfits : v.fits depth = true)
    (hstack : stack.length + depth ≤ maxNestingDepth) :
    v.tokens.foldlM step (.value stack) = some (.after v stack) := by
  match v with
  | .null => rfl
  | .bool true => rfl
  | .bool false => rfl
  | .str s => rfl
  | .number literal =>
      simp only [Value.tokens, List.foldlM_cons, List.foldlM_nil, step, beginValue, scalar?_number hfits]
      rfl
  | .arr items =>
      obtain _ | depth := depth
      · cases hfits
      have hopen : step (.value stack) .beginArr = some (.emptyArr stack) := by
        rw [step, beginValue, if_pos (by omega)]
      rw [Value.tokens, List.foldlM_cons, hopen]
      match items with
      | [] => rfl
      | item :: rest =>
          exact run_emptyArr (run_items (item :: rest) [] depth stack hfits (by omega) (List.cons_ne_nil item rest))
  | .obj fields =>
      obtain _ | depth := depth
      · cases hfits
      have hopen : step (.value stack) .beginObj = some (.emptyObj stack) := by
        rw [step, beginValue, if_pos (by omega)]
      rw [Value.tokens, List.foldlM_cons, hopen]
      match fields with
      | [] => rfl
      | field :: rest =>
          exact run_emptyObj (run_fields (field :: rest) [] depth stack hfits (by omega)
            (List.cons_ne_nil field rest))

theorem run_items (items before : List Value) (depth : Nat) (stack : List Frame)
    (hfits : itemsFit depth items = true) (hstack : stack.length + 1 + depth ≤ maxNestingDepth) (hne : items ≠ []) :
    ([Token.comma].intercalate (itemTokens items) ++ [Token.endArr]).foldlM step (.value (.arr before :: stack)) =
      some (.after (.arr (before.reverse ++ items)) stack) := by
  match items with
  | [] => exact absurd rfl hne
  | item :: rest =>
      rw [itemsFit, Bool.and_eq_true] at hfits
      have hitem := run_tokens item depth (.arr before :: stack) hfits.1 hstack
      match rest with
      | [] =>
          rw [itemTokens, itemTokens, List.intercalate_singleton, List.foldlM_append, hitem]
          simp [step, endValue]
      | next :: rest =>
          have hrest := run_items (next :: rest) (item :: before) depth stack hfits.2 hstack
            (List.cons_ne_nil next rest)
          rw [itemTokens] at hrest
          rw [itemTokens, itemTokens, List.intercalate_cons_cons, List.append_assoc, List.append_assoc,
            List.foldlM_append, hitem]
          simpa [step, endValue] using hrest

theorem run_fields (fields before : List (String × Value)) (depth : Nat) (stack : List Frame)
    (hfits : fieldsFit depth fields = true) (hstack : stack.length + 1 + depth ≤ maxNestingDepth)
    (hne : fields ≠ []) :
    ([Token.comma].intercalate (fieldTokens fields) ++ [Token.endObj]).foldlM step (.key before stack) =
      some (.after (.obj (before.reverse ++ fields)) stack) := by
  match fields with
  | [] => exact absurd rfl hne
  | (key, v) :: rest =>
      rw [fieldsFit, Bool.and_eq_true] at hfits
      have hvalue := run_tokens v depth (.obj before key :: stack) hfits.1 hstack
      have hfield : (Token.str key :: .colon :: v.tokens).foldlM step (.key before stack) =
          some (.after v (.obj before key :: stack)) := hvalue
      match rest with
      | [] =>
          rw [fieldTokens, fieldTokens, List.intercalate_singleton, List.foldlM_append, hfield]
          simp [step, endValue]
      | next :: rest =>
          have hrest := run_fields (next :: rest) ((key, v) :: before) depth stack hfits.2 hstack
            (List.cons_ne_nil next rest)
          rw [fieldTokens] at hrest
          rw [fieldTokens, fieldTokens, List.intercalate_cons_cons, List.append_assoc, List.append_assoc,
            List.foldlM_append, hfield]
          simpa [step, endValue] using hrest

end

/-! ### From texts to tokens -/

theorem step_word {s s' : State} {text : List Char} (h : step s (.word text) = some s') :
    scalar? text ≠ none ∧ ∃ v stack, s' = .after v stack := by
  have hbegin : ∀ stack, beginValue stack (.word text) = some s' → scalar? text ≠ none ∧ ∃ v stack, s' =
      .after v stack := by
    intro stack hstep
    obtain ⟨v, hv, rfl⟩ := Option.map_eq_some_iff.mp hstep
    exact ⟨(fun hnone => nomatch hnone.symm.trans hv), v, stack, rfl⟩
  cases s with
  | value stack => exact hbegin stack h
  | emptyArr stack => exact hbegin _ h
  | after v stack =>
      cases stack with
      | nil => cases h
      | cons frame stack => cases frame <;> cases h
  | _ => cases h

/-- Two words in a row would be read as one. The values never have them, because after a word only a
separator is taken. -/
theorem isChain_of_run {tokens : List Token} {s : State} (h : (tokens.foldlM step s).isSome = true) :
    tokens.IsChain fun a b => a.isWord = true → b.isWord = false := by
  induction tokens generalizing s with
  | nil => exact List.isChain_nil
  | cons first rest ih =>
      rw [List.foldlM_cons] at h
      cases hstep : step s first with
      | none => simp [hstep] at h
      | some s' =>
          rw [hstep] at h
          have hrest : rest.IsChain _ := ih h
          cases rest with
          | nil => exact List.isChain_singleton first
          | cons second rest =>
              refine List.isChain_cons_cons.mpr ⟨?_, hrest⟩
              intro hword
              cases second with
              | word text =>
                  cases first with
                  | word before =>
                      obtain ⟨-, v, stack, rfl⟩ := step_word hstep
                      cases stack with
                      | nil => cases h
                      | cons frame stack => cases frame <;> cases h
                  | _ => cases hword
              | _ => rfl

/-! Words -/

theorem isWordChar_of_next {state state' : NumberState} {c : Char} (h : state.next c = some state') :
    isWordChar c = true := by
  by_contra hword
  have hdigit : c.isDigit = false := by
    cases hdigit : c.isDigit with
    | false => rfl
    | true => exact absurd (by simp [isWordChar, Char.isAlphanum, hdigit]) hword
  have hothers : ∀ d ∈ ['-', '0', '.', 'e', 'E', '+'], c ≠ d := by
    intro d hd hcd
    have hall : ['-', '0', '.', 'e', 'E', '+'].all isWordChar = true := by decide
    exact hword (hcd ▸ List.all_eq_true.mp hall d hd)
  simp only [List.forall_mem_cons] at hothers
  obtain ⟨hminus, hzero, hdot, hlower, hupper, hplus, -⟩ := hothers
  cases state <;> simp [NumberState.next, hdigit, hminus, hzero, hdot, hlower, hupper, hplus] at h

theorem isWordChar_of_run {text : List Char} {state : NumberState}
    (h : (text.foldlM NumberState.next state).isSome = true) :
    ∀ c ∈ text, isWordChar c = true := by
  induction text generalizing state with
  | nil => exact List.forall_mem_nil _
  | cons c rest ih =>
      rw [List.foldlM_cons] at h
      cases hnext : state.next c with
      | none => simp [hnext] at h
      | some state' =>
          rw [hnext] at h
          exact List.forall_mem_cons.mpr ⟨isWordChar_of_next hnext, ih h⟩

theorem word_of_scalar {text : List Char} (h : scalar? text ≠ none) :
    text ≠ [] ∧ ∀ c ∈ text, isWordChar c = true := by
  unfold scalar? at h
  split at h
  · rename_i heq
    rw [heq]
    exact ⟨by decide, List.all_eq_true.mp (by decide)⟩
  · split at h
    · rename_i heq
      rw [heq]
      exact ⟨by decide, List.all_eq_true.mp (by decide)⟩
    · split at h
      · rename_i heq
        rw [heq]
        exact ⟨by decide, List.all_eq_true.mp (by decide)⟩
      · split at h
        · rename_i hnumber
          refine ⟨?_, ?_⟩
          · rintro rfl
            cases hnumber
          · apply @isWordChar_of_run text .start
            cases hrun : text.foldlM NumberState.next .start with
            | none => simp [isNumber, hrun] at hnumber
            | some state => rfl
        · exact absurd rfl h

theorem lex_cons (mode : Mode) (c : Char) (rest : List Char) :
    lex mode (c :: rest) = (scan mode c).bind fun next => (lex next.1 rest).map fun later => next.2 ++ later := by
  rw [lex]

theorem lex_of_scan {mode mode' : Mode} {c : Char} (h : scan mode c = some (mode', [])) (rest : List Char) :
    lex mode (c :: rest) = lex mode' rest := by
  simp [lex_cons, h]

theorem lex_of_scan_token {mode mode' : Mode} {c : Char} {token : Token} (h : scan mode c = some (mode', [token]))
    (rest : List Char) : lex mode (c :: rest) = (lex mode' rest).map (token :: ·) := by
  simp [lex_cons, h]

theorem lex_word_append {text : List Char} (htext : ∀ c ∈ text, isWordChar c = true) (acc rest : List Char) :
    lex (.word acc) (text ++ rest) = lex (.word (text.reverse ++ acc)) rest := by
  induction text generalizing acc with
  | nil => rfl
  | cons c text ih =>
      rw [List.forall_mem_cons] at htext
      have hscan : scan (.word acc) c = some (.word (c :: acc), []) := by simp only [scan, htext.1, if_true]
      rw [List.cons_append, lex_of_scan hscan, ih htext.2, List.reverse_cons, List.append_assoc]
      rfl

theorem lex_word_end (acc : List Char) {rest : List Char} (hrest : ∀ c ∈ rest.head?, isWordChar c = false) :
    lex (.word acc) rest = (lex .idle rest).map (.word acc.reverse :: ·) := by
  cases rest with
  | nil => rfl
  | cons c rest =>
      have hc : isWordChar c = false := hrest c rfl
      rw [lex_cons, lex_cons]
      simp only [scan, hc]
      cases scanIdle c with
      | none => rfl
      | some next => simp [Option.map_map, Function.comp_def]

theorem lex_word {text rest : List Char} (hne : text ≠ []) (htext : ∀ c ∈ text, isWordChar c = true)
    (hrest : ∀ c ∈ rest.head?, isWordChar c = false) :
    lex .idle (text ++ rest) = (lex .idle rest).map (.word text :: ·) := by
  obtain ⟨c, text, rfl⟩ := List.exists_cons_of_ne_nil hne
  rw [List.forall_mem_cons] at htext
  have hother : isSpace c = false ∧ c ≠ '"' := by
    have hword := htext.1
    constructor
    · cases hspace : isSpace c with
      | false => rfl
      | true =>
          simp only [isSpace, Bool.or_eq_true, decide_eq_true_eq] at hspace
          rcases hspace with ((rfl | rfl) | rfl) | rfl <;> exact absurd hword (by decide)
    · rintro rfl
      exact absurd hword (by decide)
  have hscan : scan .idle c = some (.word [c], []) := by
    simp [scan, scanIdle, hother.1, hother.2, htext.1]
  rw [List.cons_append, lex_of_scan hscan, lex_word_append htext.2, lex_word_end _ hrest]
  simp

/-! Strings -/

/-- A character is written as itself or by its code. -/
def Writes (unit : CodeUnit) (c : Char) : Prop := unit = .char c ∨ unit = .code c.toNat

theorem not_surrogate (c : Char) : isHighSurrogate c.toNat = false ∧ isLowSurrogate c.toNat = false := by
  have hvalid : c.toNat < 0xD800 ∨ (0xDFFF < c.toNat ∧ c.toNat < 0x110000) := c.valid
  constructor
  · simp only [isHighSurrogate, Bool.and_eq_false_iff, decide_eq_false_iff_not]
    omega
  · simp only [isLowSurrogate, Bool.and_eq_false_iff, decide_eq_false_iff_not]
    omega

theorem codeChar_toNat (c : Char) : codeChar c.toNat = c := by
  rw [codeChar, (not_surrogate c).1, (not_surrogate c).2]
  exact Char.ofNat_toNat c

theorem joinUnits_cons {unit : CodeUnit} {c : Char} (h : Writes unit c) (rest : List CodeUnit) :
    joinUnits (unit :: rest) = c :: joinUnits rest := by
  rcases h with rfl | rfl
  · rw [joinUnits]
  · cases rest with
    | nil => simp [joinUnits, codeChar_toNat]
    | cons next rest =>
        cases next with
        | char d => simp [joinUnits, codeChar_toNat]
        | code n => simp [joinUnits, codeChar_toNat, (not_surrogate c).1]

theorem joinUnits_of_writes {units : List CodeUnit} {cs : List Char} (h : List.Forall₂ Writes units cs) :
    joinUnits units = cs := by
  induction h with
  | nil => rfl
  | cons hunit _ ih => rw [joinUnits_cons hunit, ih]

theorem hexValue?_hexDigit {n : Nat} (h : n < 16) : hexValue? (hexDigit n) = some n := by
  have hall : ∀ n < 16, hexValue? (hexDigit n) = some n := by decide
  exact hall n h

theorem lex_unicodeEscape {c : Char} (hc : c.toNat < 0x10000) (units : List CodeUnit) (rest : List Char) :
    lex (.text units) (unicodeEscape c ++ rest) = lex (.text (.code c.toNat :: units)) rest := by
  have hlt : ∀ k : Nat, k % 16 < 16 := fun k => Nat.mod_lt k (by decide)
  have hdigit : ∀ (digits value n : Nat) (rest : List Char), digits < 3 →
      lex (.unicode units digits value) (hexDigit (n % 16) :: rest) =
        lex (.unicode units (digits + 1) (16 * value + n % 16)) rest := by
    intro digits value n rest hdigits
    apply lex_of_scan
    simp [scan, hexValue?_hexDigit (hlt n), Nat.ne_of_lt hdigits]
  have hlast : ∀ (value n : Nat) (rest : List Char), lex (.unicode units 3 value) (hexDigit (n % 16) :: rest) =
      lex (.text (.code (16 * value + n % 16) :: units)) rest := by
    intro value n rest
    apply lex_of_scan
    simp [scan, hexValue?_hexDigit (hlt n)]
  have hvalue : 16 * (16 * (16 * (16 * 0 + c.toNat / 4096 % 16) + c.toNat / 256 % 16) +
    c.toNat / 16 % 16) + c.toNat % 16 =
      c.toNat := by omega
  simp only [unicodeEscape, List.cons_append, List.nil_append]
  rw [@lex_of_scan _ (.escape units) _ rfl, @lex_of_scan _ (.unicode units 0 0) _ rfl, hdigit 0 _ _ _ (by decide),
    hdigit 1 _ _ _ (by decide), hdigit 2 _ _ _ (by decide), hlast, hvalue]

theorem lex_escapeChar (c : Char) : ∃ unit, Writes unit c ∧ ∀ (units : List CodeUnit) (rest : List Char),
    lex (.text units) (escapeChar c ++ rest) = lex (.text (unit :: units)) rest := by
  -- a backslash and one letter
  have hsimple : ∀ d, d ≠ 'u' → simpleEscape? d = some c → ∀ (units : List CodeUnit) (rest : List Char),
      lex (.text units) (['\\', d] ++ rest) = lex (.text (.char c :: units)) rest := by
    intro d hd hescape units rest
    simp only [List.cons_append, List.nil_append]
    rw [@lex_of_scan _ (.escape units) _ rfl, lex_of_scan]
    simp [scan, hd, hescape]
  have hletter : ∀ d, d ≠ 'u' → simpleEscape? d = some c → ∃ unit, Writes unit c ∧
      ∀ (units : List CodeUnit) (rest : List Char), lex (.text units) (['\\', d] ++ rest) =
        lex (.text (unit :: units)) rest :=
    fun d hd hescape => ⟨.char c, Or.inl rfl, hsimple d hd hescape⟩
  have hcode : ∀ n < 32, c.toNat = n → c = Char.ofNat n := fun n _ hn => by rw [← hn, Char.ofNat_toNat]
  unfold escapeChar
  by_cases hquote : c = '"'
  · rw [if_pos hquote]
    exact hletter '"' (by decide) (by rw [hquote]; decide)
  rw [if_neg hquote]
  by_cases hslash : c = '\\'
  · rw [if_pos hslash]
    exact hletter '\\' (by decide) (by rw [hslash]; decide)
  rw [if_neg hslash]
  by_cases hn : c = '\n'
  · rw [if_pos hn]
    exact hletter 'n' (by decide) (by rw [hn]; decide)
  rw [if_neg hn]
  by_cases hr : c = '\r'
  · rw [if_pos hr]
    exact hletter 'r' (by decide) (by rw [hr]; decide)
  rw [if_neg hr]
  by_cases ht : c = '\t'
  · rw [if_pos ht]
    exact hletter 't' (by decide) (by rw [ht]; decide)
  rw [if_neg ht]
  by_cases hb : c.toNat = 8
  · rw [if_pos hb]
    exact hletter 'b' (by decide) (by rw [hcode 8 (by decide) hb]; decide)
  rw [if_neg hb]
  by_cases hf : c.toNat = 12
  · rw [if_pos hf]
    exact hletter 'f' (by decide) (by rw [hcode 12 (by decide) hf]; decide)
  rw [if_neg hf]
  by_cases hescaped : c.toNat < 32 ∨ c = '<' ∨ c = '>' ∨ c = '&' ∨ c.toNat = 0x2028 ∨ c.toNat = 0x2029
  · rw [if_pos hescaped]
    have hsmall : c.toNat < 0x10000 := by
      rcases hescaped with h | rfl | rfl | rfl | h | h <;> first | omega | decide
    exact ⟨.code c.toNat, Or.inr rfl, fun units rest => lex_unicodeEscape hsmall units rest⟩
  · rw [if_neg hescaped]
    refine ⟨.char c, Or.inl rfl, fun units rest => ?_⟩
    apply lex_of_scan
    have hlarge : ¬c.toNat < 32 := fun h => hescaped (Or.inl h)
    simp [scan, hquote, hslash, hlarge]

theorem lex_text (cs : List Char) : ∃ written, List.Forall₂ Writes written cs ∧
    ∀ (units : List CodeUnit) (rest : List Char),
      lex (.text units) (cs.flatMap escapeChar ++ rest) = lex (.text (written.reverse ++ units)) rest := by
  induction cs with
  | nil => exact ⟨[], .nil, fun units rest => rfl⟩
  | cons c cs ih =>
      obtain ⟨unit, hunit, hfirst⟩ := lex_escapeChar c
      obtain ⟨written, hwritten, hrest⟩ := ih
      refine ⟨unit :: written, .cons hunit hwritten, fun units rest => ?_⟩
      rw [List.flatMap_cons, List.append_assoc, hfirst, hrest, List.reverse_cons, List.append_assoc]
      rfl

theorem lex_str (s : String) (rest : List Char) :
    lex .idle ((Token.str s).text ++ rest) = (lex .idle rest).map (.str s :: ·) := by
  obtain ⟨written, hwritten, htext⟩ := lex_text s.toList
  rw [Token.text, List.cons_append, @lex_of_scan _ (.text []) _ rfl, List.append_assoc, htext, List.append_nil,
    List.singleton_append]
  apply lex_of_scan_token
  rw [scan, if_pos rfl, List.reverse_reverse, joinUnits_of_writes hwritten, String.ofList_toList]

/-! ### Reading back -/

theorem flatMap_intercalate {α β : Type} (f : α → List β) (sep : List α) (lists : List (List α)) :
    (sep.intercalate lists).flatMap f = (sep.flatMap f).intercalate (lists.map (·.flatMap f)) := by
  induction lists with
  | nil => simp
  | cons first rest ih =>
      cases rest with
      | nil => simp
      | cons second rest =>
          simp only [List.map_cons] at ih ⊢
          rw [List.intercalate_cons_cons, List.intercalate_cons_cons, List.flatMap_append, List.flatMap_append, ih]

theorem lex_tokens {tokens : List Token} (hchain : tokens.IsChain fun a b => a.isWord = true → b.isWord = false)
    (hwords : ∀ text, .word text ∈ tokens → scalar? text ≠ none) :
    lex .idle (tokens.flatMap Token.text) = some tokens := by
  induction tokens with
  | nil => rfl
  | cons token rest ih =>
      have hlater : lex .idle (rest.flatMap Token.text) = some rest :=
        ih hchain.tail fun text htext => hwords text (List.mem_cons_of_mem _ htext)
      rw [List.flatMap_cons]
      cases token with
      | beginObj => rw [Token.text, List.singleton_append, @lex_of_scan_token _ .idle _ .beginObj rfl, hlater]; rfl
      | endObj => rw [Token.text, List.singleton_append, @lex_of_scan_token _ .idle _ .endObj rfl, hlater]; rfl
      | beginArr => rw [Token.text, List.singleton_append, @lex_of_scan_token _ .idle _ .beginArr rfl, hlater]; rfl
      | endArr => rw [Token.text, List.singleton_append, @lex_of_scan_token _ .idle _ .endArr rfl, hlater]; rfl
      | colon => rw [Token.text, List.singleton_append, @lex_of_scan_token _ .idle _ .colon rfl, hlater]; rfl
      | comma => rw [Token.text, List.singleton_append, @lex_of_scan_token _ .idle _ .comma rfl, hlater]; rfl
      | str s => rw [lex_str, hlater]; rfl
      | word text =>
          obtain ⟨hne, htext⟩ := word_of_scalar (hwords text List.mem_cons_self)
          rw [Token.text, lex_word hne htext, hlater]
          · rfl
          · -- what follows a word is not a word, and its text begins with no letter of one
            cases rest with
            | nil => exact fun c hc => nomatch hc
            | cons next rest =>
                have hnext := (List.isChain_cons_cons.mp hchain).1 rfl
                cases next with
                | word text => cases hnext
                | _ =>
                    intro c hc
                    obtain rfl := Option.some.inj hc
                    decide

theorem words_of_run {tokens : List Token} {s : State} (h : (tokens.foldlM step s).isSome = true) :
    ∀ text, .word text ∈ tokens → scalar? text ≠ none := by
  induction tokens generalizing s with
  | nil => exact fun text htext => nomatch htext
  | cons first rest ih =>
      rw [List.foldlM_cons] at h
      cases hstep : step s first with
      | none => simp [hstep] at h
      | some s' =>
          rw [hstep] at h
          intro text htext
          rcases List.mem_cons.mp htext with rfl | htext
          · exact (step_word hstep).1
          · exact ih h text htext

/-- What is written is read back. -/
theorem parse_render {v : Value} (h : v.fits maxNestingDepth = true) : parse v.render = some v := by
  have hrun := run_tokens v maxNestingDepth [] h (by simp)
  have hsome : (v.tokens.foldlM step (.value [])).isSome = true := by rw [hrun]; rfl
  rw [parse, Value.render, lex_tokens (isChain_of_run hsome) (words_of_run hsome), Option.bind_some, hrun]
  rfl

end JsonText
