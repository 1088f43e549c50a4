import Mathlib.Data.List.Sort
import Inec.Lib.JsonRecord

/-!
# JSON values and their canonical text

The evidence payloads are Go maps passed to `encoding/json`. `canonicalJSON` follows what that package
documents: object keys of a map in increasing order, no white space, and the escapes of
`json.Marshal`, which also escapes the HTML characters and the two line separators.
-/

namespace Inec

inductive Json
  | null
  | bool (value : Bool)
  | int (value : Int)
  | str (value : String)
  | arr (items : List Json)
  | obj (fields : List (String × Json))

namespace Json

/-- A quoted JSON string. -/
def quote (s : String) : String :=
  String.ofList ('"' :: (s.toList.flatMap JsonText.escapeChar ++ ['"']))

/-- A Go map: `encoding/json` writes its keys in increasing order. -/
def ofMap (fields : List (String × Json)) : Json :=
  .obj (fields.insertionSort fun a b => a.1 ≤ b.1)

end Json

mutual

/-- `canonicalJSON` of evidence_integrity.go: `json.Marshal` of the value. -/
def canonicalJSON : Json → String
  | .null => "null"
  | .bool value => if value then "true" else "false"
  | .int value => toString value
  | .str value => Json.quote value
  | .arr items => "[" ++ String.intercalate "," (canonicalItems items) ++ "]"
  | .obj fields => "\x7b" ++ String.intercalate "," (canonicalFields fields) ++ "\x7d"

def canonicalItems : List Json → List String
  | [] => []
  | item :: rest => canonicalJSON item :: canonicalItems rest

def canonicalFields : List (String × Json) → List String
  | [] => []
  | (key, value) :: rest => (Json.quote key ++ ":" ++ canonicalJSON value) :: canonicalFields rest

end

example : canonicalJSON (.ofMap [("b", .int 2), ("a", .str "x<y")]) =
    "\x7b\"a\":\"x\\u003cy\",\"b\":2\x7d" := by decide

/-! ### Reading it back -/

mutual

/-- The value a text of `canonicalJSON` is read as. -/
def Json.parsed : Json → JsonText.Value
  | .null => .null
  | .bool value => .bool value
  | .int value => .number (toString value).toList
  | .str value => .str value
  | .arr items => .arr (parsedItems items)
  | .obj fields => .obj (parsedFields fields)

def parsedItems : List Json → List JsonText.Value
  | [] => []
  | item :: rest => item.parsed :: parsedItems rest

def parsedFields : List (String × Json) → List (String × JsonText.Value)
  | [] => []
  | (key, value) :: rest => (key, value.parsed) :: parsedFields rest

end

mutual

theorem canonicalJSON_toList (j : Json) : (canonicalJSON j).toList = j.parsed.render := by
  match j with
  | .null => decide
  | .bool true => decide
  | .bool false => decide
  | .int value =>
      simp [canonicalJSON, Json.parsed, JsonText.Value.render, JsonText.Value.tokens, JsonText.Token.text]
  | .str value =>
      simp [canonicalJSON, Json.quote, Json.parsed, JsonText.Value.render, JsonText.Value.tokens,
        JsonText.Token.text]
  | .arr items =>
      have hitems := canonicalItems_toList items
      simp [canonicalJSON, Json.parsed, JsonText.Value.render, JsonText.Value.tokens, JsonText.Token.text,
        JsonText.flatMap_intercalate, hitems]
  | .obj fields =>
      have hfields := canonicalFields_toList fields
      simp [canonicalJSON, Json.parsed, JsonText.Value.render, JsonText.Value.tokens, JsonText.Token.text,
        JsonText.flatMap_intercalate, hfields]

theorem canonicalItems_toList (items : List Json) : (canonicalItems items).map String.toList =
    (JsonText.itemTokens (parsedItems items)).map fun tokens => tokens.flatMap JsonText.Token.text := by
  match items with
  | [] => rfl
  | item :: rest =>
      rw [canonicalItems, parsedItems, JsonText.itemTokens, List.map_cons, List.map_cons,
        canonicalItems_toList rest, canonicalJSON_toList item]
      rfl

theorem canonicalFields_toList (fields : List (String × Json)) : (canonicalFields fields).map String.toList =
    (JsonText.fieldTokens (parsedFields fields)).map fun tokens => tokens.flatMap JsonText.Token.text := by
  match fields with
  | [] => rfl
  | (key, value) :: rest =>
      rw [canonicalFields, parsedFields, JsonText.fieldTokens, List.map_cons, List.map_cons,
        canonicalFields_toList rest, String.toList_append, String.toList_append, canonicalJSON_toList value]
      simp [Json.quote, JsonText.Value.render, JsonText.Token.text]

end

/-- `json.Unmarshal` of what `json.Marshal` has written. -/
theorem parse_canonicalJSON {j : Json} (h : j.parsed.fits JsonText.maxNestingDepth = true) :
    JsonText.parse (canonicalJSON j).toList = some j.parsed := by
  rw [canonicalJSON_toList, JsonText.parse_render h]

end Inec
