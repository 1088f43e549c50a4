import Inec.Evidence.BundleRoot
import Inec.Lib.Interning
import Inec.Lib.Protobuf
import Inec.Lib.Text
import Mathlib.Algebra.Group.Int.Defs
import Mathlib.Data.Int.Order.Basic

/-!
# Vector tiles

`buildMVTLayer` of mvt.go, and a decoder written from the schema of Mapbox vector tiles. The keys and values of all
features are collected in two dictionaries, and a feature refers to them by place. The ranges over the properties of
a feature come in any order.

The schema takes the geometry, the tags and the extent as 32 bits, and the ids as unsigned numbers. The callers stay
inside: the coordinates are clamped to the extent, which is 4096, and the features are numbered from 0.

Texts are bytes. Of the property values, texts and integers are modelled, which are those the tiles are made with.
-/

namespace Inec.Mvt

open Inec.BundleRoot (utf8 utf8_inj)
open Interning (Dictionary intern)
open Protobuf (Bytes Field)

inductive PropValue
  | string (text : Bytes)
  | int64 (n : Int64)
  | int (n : Int64)
  deriving DecidableEq

abbrev Entry := Bytes × PropValue

/-- `mvtFeatureData`; the keys of the map `props` are distinct. -/
structure MvtFeatureData where
  id : Int64
  px : Int64
  py : Int64
  props : List Entry
  nodup : (props.map Prod.fst).Nodup

/-- The order in which Go ranges over the properties of a feature. -/
structure PropOrder where
  arrange : List Entry → List Entry
  perm : ∀ props, (arrange props).Perm props

/-! ### Encoding -/

def zigzag (n : Int64) : UInt64 := ((n <<< 1) ^^^ (n >>> 63)).toUInt64

def appendVarint (buf : Bytes) (v : Nat) : Bytes := buf ++ Protobuf.varint v

/-- The length of a text or message and then its bytes. -/
def appendBytes (buf bytes : Bytes) : Bytes := appendVarint buf bytes.length ++ bytes

def encodePointGeom (px py : Int64) : Bytes :=
  appendVarint (appendVarint (appendVarint [] 0x09) (zigzag px).toNat) (zigzag py).toNat

def encodeMVTValue : PropValue → Bytes
  | .string text => appendBytes (appendVarint [] (1 <<< 3 ||| 2)) text
  | .int64 n => appendVarint (appendVarint [] (6 <<< 3 ||| 0)) (zigzag n).toNat
  | .int n => appendVarint (appendVarint [] (6 <<< 3 ||| 0)) (zigzag n).toNat

def encodeMVTFeature (id px py : Int64) (tags : List Nat) : Bytes :=
  let buf := appendVarint (appendVarint [] (1 <<< 3 ||| 0)) id.toUInt64.toNat
  let buf :=
    if tags ≠ [] then appendBytes (appendVarint buf (2 <<< 3 ||| 2)) (tags.foldl appendVarint []) else buf
  let buf := appendVarint (appendVarint buf (3 <<< 3 ||| 0)) 1
  appendBytes (appendVarint buf (4 <<< 3 ||| 2)) (encodePointGeom px py)

/-- `fmt.Sprintf("%T:%v", v, v)` -/
def valKey : PropValue → Bytes
  | .string text => utf8 "string:" ++ text
  | .int64 n => utf8 ("int64:" ++ toString n.toInt)
  | .int n => utf8 ("int:" ++ toString n.toInt)

structure Dictionaries where
  keys : Dictionary Bytes Bytes
  vals : Dictionary PropValue Bytes

/-- The range over the properties of a feature: its tags, and the dictionaries after it. -/
def tagProps (d : Dictionaries) : List Entry → List Nat × Dictionaries
  | [] => ([], d)
  | (k, v) :: props =>
      let key := intern id d.keys k
      let val := intern valKey d.vals v
      let rest := tagProps ⟨key.2, val.2⟩ props
      (key.1 % 2 ^ 32 :: val.1 % 2 ^ 32 :: rest.1, rest.2)

/-- The loop over the features. -/
def encodeFeatures (orders : Nat → PropOrder) (d : Dictionaries) :
    Nat → List MvtFeatureData → List Bytes × Dictionaries
  | _, [] => ([], d)
  | i, f :: features =>
      let tagged := tagProps d ((orders i).arrange f.props)
      let rest := encodeFeatures orders tagged.2 (i + 1) features
      (encodeMVTFeature f.id f.px f.py tagged.1 :: rest.1, rest.2)

def buildMVTLayer (orders : Nat → PropOrder) (name : Bytes) (features : List MvtFeatureData)
    (extent : Int64) : Bytes :=
  let encoded := encodeFeatures orders ⟨Interning.empty, Interning.empty⟩ 0 features
  let layer := appendVarint (appendVarint [] (15 <<< 3 ||| 0)) 2
  let layer := appendBytes (appendVarint layer (1 <<< 3 ||| 2)) name
  let layer := appendVarint (appendVarint layer (5 <<< 3 ||| 0)) extent.toUInt64.toNat
  let layer := encoded.2.keys.items.foldl (fun layer k => appendBytes (appendVarint layer (3 <<< 3 ||| 2)) k) layer
  let layer := encoded.2.vals.items.foldl
    (fun layer v => appendBytes (appendVarint layer (4 <<< 3 ||| 2)) (encodeMVTValue v)) layer
  let layer := encoded.1.foldl (fun layer f => appendBytes (appendVarint layer (2 <<< 3 ||| 2)) f) layer
  appendBytes (appendVarint [] (3 <<< 3 ||| 2)) layer

/-! ### The schema -/

inductive TileValue
  | string (text : Bytes)
  | float (bits : Bytes)
  | double (bits : Bytes)
  | integer (n : Int)
  | bool (b : Bool)
  deriving DecidableEq, Repr

structure TileFeature where
  id : Nat
  properties : List (Bytes × TileValue)
  point : Int × Int
  deriving DecidableEq, Repr

structure TileLayer where
  version : Nat
  name : Bytes
  extent : Nat
  features : List TileFeature
  deriving DecidableEq, Repr

/-- A number of 64 bits with a sign. -/
def signed64 (v : Nat) : Int := if v % 2 ^ 64 < 2 ^ 63 then (v % 2 ^ 64 : Nat) else
      ((v % 2 ^ 64 : Nat) : Int) - 2 ^ 64

/-- `Tile.Value`: the last of its fields counts. -/
def tileValue : Field → Option TileValue
  | (1, .lengthDelimited text) => some (.string text)
  | (2, .fixed32 bits) => some (.float bits)
  | (3, .fixed64 bits) => some (.double bits)
  | (4, .varint v) => some (.integer (signed64 v))
  | (5, .varint v) => some (.integer (v % 2 ^ 64 : Nat))
  | (6, .varint v) => some (.integer (Protobuf.unzigzag (v % 2 ^ 64)))
  | (7, .varint v) => some (.bool (v % 2 ^ 64 ≠ 0))
  | _ => none

def decodeValue (bytes : Bytes) : Option TileValue :=
  (Protobuf.parse bytes).bind fun fields => (fields.filterMap tileValue).getLast?

/-- The tags in pairs, each a place among the keys and one among the values. -/
def decodeTags (keys : List Bytes) (values : List TileValue) : List Nat → Option (List (Bytes × TileValue))
  | [] => some []
  | k :: v :: tags =>
      keys[k]?.bind fun key => values[v]?.bind fun value =>
        (decodeTags keys values tags).map fun properties => (key, value) :: properties
  | [_] => none

/-- A single point: one MoveTo and its two parameters. -/
def decodePoint : List Nat → Option (Int × Int)
  | [9, x, y] => some (Protobuf.unzigzag x, Protobuf.unzigzag y)
  | _ => none

/-- `Tile.Feature`, of the type POINT. -/
def decodeFeature (keys : List Bytes) (values : List TileValue) (bytes : Bytes) : Option TileFeature :=
  (Protobuf.parse bytes).bind fun fields =>
    if (Protobuf.varints 3 fields).getLast? = some 1 then
      (Protobuf.repeated 2 fields).bind fun tags =>
        (Protobuf.repeated 4 fields).bind fun geometry =>
          (decodeTags keys values (tags.map (· % 2 ^ 32))).bind fun properties =>
            (decodePoint (geometry.map (· % 2 ^ 32))).map fun point =>
              ⟨((Protobuf.varints 1 fields).getLast?.getD 0) % 2 ^ 64, properties, point⟩
    else none

/-- `Tile.Layer` -/
def decodeLayer (bytes : Bytes) : Option TileLayer :=
  (Protobuf.parse bytes).bind fun fields =>
    (Protobuf.varints 15 fields).getLast?.bind fun version =>
      (Protobuf.messages 1 fields).getLast?.bind fun name =>
        ((Protobuf.messages 4 fields).mapM decodeValue).bind fun values =>
          ((Protobuf.messages 2 fields).mapM (decodeFeature
            (Protobuf.messages 3 fields) values)).map fun features =>
            ⟨version % 2 ^ 32, name, ((Protobuf.varints 5 fields).getLast?.getD 4096) % 2 ^ 32, features⟩

/-- `Tile` -/
def decodeTile (bytes : Bytes) : Option (List TileLayer) :=
  (Protobuf.parse bytes).bind fun fields => (Protobuf.messages 3 fields).mapM decodeLayer

/-! ### What a decoder should find -/

def PropValue.toTile : PropValue → TileValue
  | .string text => .string text
  | .int64 n => .integer n.toInt
  | .int n => .integer n.toInt

/-- The id, the point and the properties of the feature, these in any order. -/
structure SameFeature (f : MvtFeatureData) (g : TileFeature) : Prop where
  id : (g.id : Int) = f.id.toInt
  point : g.point = (f.px.toInt, f.py.toInt)
  properties : g.properties.Perm (f.props.map fun entry => (entry.1, entry.2.toTile))

/-- The tile has one layer, with this name and extent and these features. -/
def Decodes (bytes : Bytes) (name : Bytes) (features : List MvtFeatureData) (extent : Int64) : Prop :=
  ∃ layer, decodeTile bytes = some [layer] ∧ layer.name = name ∧ (layer.extent : Int) = extent.toInt ∧
    List.Forall₂ SameFeature features layer.features

/-- A point of 32 bits, and an id that is not negative. -/
structure MvtFeatureData.Small (f : MvtFeatureData) : Prop where
  id : 0 ≤ f.id.toInt
  px : -2 ^ 31 ≤ f.px.toInt ∧ f.px.toInt < 2 ^ 31
  py : -2 ^ 31 ≤ f.py.toInt ∧ f.py.toInt < 2 ^ 31

def allProps (features : List MvtFeatureData) : List Entry := features.flatMap MvtFeatureData.props

/-! ### Numbers and texts -/

theorem toInt_eq (n : Int64) : n.toInt = if 2 * n.toBitVec.toNat < 2 ^ 64 then
    (n.toBitVec.toNat : Int) else n.toBitVec.toNat - 2 ^ 64 :=
  BitVec.toInt_eq_toNat_cond n.toBitVec

theorem toNat_zigzag (n : Int64) :
    ((zigzag n).toNat : Int) = if n.toInt < 0 then -2 * n.toInt - 1 else 2 * n.toInt := by
  have hbits : (zigzag n).toBitVec = n.toBitVec <<< 1 ^^^ n.toBitVec.sshiftRight 63 := rfl
  have hlt := n.toBitVec.isLt
  have hint := toInt_eq n
  have hshift : (n.toBitVec <<< 1).toNat = 2 * n.toBitVec.toNat % 2 ^ 64 := by
    rw [BitVec.toNat_shiftLeft, Nat.shiftLeft_eq, Nat.mul_comm]
  rw [← UInt64.toNat_toBitVec, hbits]
  by_cases hneg : 2 * n.toBitVec.toNat < 2 ^ 64
  · have hsign : n.toBitVec.sshiftRight 63 = 0#64 := by
      rw [BitVec.sshiftRight_eq_of_msb_false (BitVec.msb_eq_false_iff_two_mul_lt.mpr hneg)]
      apply BitVec.eq_of_toNat_eq
      rw [BitVec.toNat_ushiftRight, Nat.shiftRight_eq_div_pow, BitVec.toNat_ofNat]
      omega
    rw [hsign, BitVec.xor_zero, hshift, hint, if_pos hneg]
    omega
  · have hsign : n.toBitVec.sshiftRight 63 = BitVec.allOnes 64 := by
      rw [BitVec.sshiftRight_eq_of_msb_true (BitVec.msb_eq_true_iff_two_mul_ge.mpr (Nat.not_lt.mp hneg))]
      apply BitVec.eq_of_toNat_eq
      rw [BitVec.toNat_not, BitVec.toNat_ushiftRight, BitVec.toNat_not, Nat.shiftRight_eq_div_pow,
        BitVec.toNat_allOnes]
      omega
    rw [hsign, BitVec.xor_allOnes, BitVec.toNat_not, hshift, hint, if_neg hneg]
    omega

theorem unzigzag_zigzag (n : Int64) : Protobuf.unzigzag (zigzag n).toNat = n.toInt := by
  have h := toNat_zigzag n
  unfold Protobuf.unzigzag
  split at h
  · rw [if_neg (by omega)]
    omega
  · rw [if_pos (by omega)]
    omega

/-- Of a coordinate of 32 bits nothing is cut off. -/
theorem zigzag_mod {n : Int64} (h : -2 ^ 31 ≤ n.toInt ∧ n.toInt < 2 ^ 31) :
    (zigzag n).toNat % 2 ^ 32 = (zigzag n).toNat := by
  have hzigzag := toNat_zigzag n
  apply Nat.mod_eq_of_lt
  split at hzigzag
  · omega
  · omega

theorem toNat_toUInt64 {n : Int64} (h : 0 ≤ n.toInt) : (n.toUInt64.toNat : Int) = n.toInt := by
  have hint := toInt_eq n
  have hlt := n.toBitVec.isLt
  have hbits : n.toUInt64.toNat = n.toBitVec.toNat := rfl
  rw [hbits]
  split at hint
  · exact hint.symm
  · omega

theorem utf8_append (s t : String) : utf8 (s ++ t) = utf8 s ++ utf8 t := by
  simp [utf8]

theorem utf8_toString_inj {prefixText : String} {m n : Int}
    (h : utf8 (prefixText ++ toString m) = utf8 (prefixText ++ toString n)) : m = n := by
  rw [utf8_append, utf8_append] at h
  exact Text.toString_int_inj (congrArg String.toList (utf8_inj (List.append_cancel_left h)))

/-- The fourth letter of the name of the type. -/
def PropValue.typeLetter : PropValue → UInt8
  | .string _ => 105
  | .int64 _ => 54
  | .int _ => 58

theorem getElem?_valKey (v : PropValue) : (valKey v)[3]? = some v.typeLetter := by
  have hname : ∀ {name more : Bytes}, 3 < name.length → (name ++ more)[3]? = name[3]? :=
    fun h => List.getElem?_append_left h
  cases v with
  | string text =>
      rw [valKey, hname (by decide +kernel)]
      exact (by decide +kernel : (utf8 "string:")[3]? = some 105)
  | int64 n =>
      rw [valKey, utf8_append, hname (by decide +kernel)]
      exact (by decide +kernel : (utf8 "int64:")[3]? = some 54)
  | int n =>
      rw [valKey, utf8_append, hname (by decide +kernel)]
      exact (by decide +kernel : (utf8 "int:")[3]? = some 58)

/-- The types have different names, so the texts of two values agree only if the values do. -/
theorem valKey_injective : Function.Injective valKey := by
  intro v w h
  have hletter : v.typeLetter = w.typeLetter := by
    apply Option.some.inj
    rw [← getElem?_valKey, ← getElem?_valKey, h]
  cases v with
  | string text =>
      cases w with
      | string other => rw [List.append_cancel_left h]
      | int64 n => exact absurd hletter (by simp [PropValue.typeLetter])
      | int n => exact absurd hletter (by simp [PropValue.typeLetter])
  | int64 m =>
      cases w with
      | string other => exact absurd hletter (by simp [PropValue.typeLetter])
      | int64 n => rw [Int64.toInt_inj.mp (utf8_toString_inj h)]
      | int n => exact absurd hletter (by simp [PropValue.typeLetter])
  | int m =>
      cases w with
      | string other => exact absurd hletter (by simp [PropValue.typeLetter])
      | int64 n => exact absurd hletter (by simp [PropValue.typeLetter])
      | int n => rw [Int64.toInt_inj.mp (utf8_toString_inj h)]

/-! ### The tags and the dictionaries -/

/-- The tags of some properties are the places of their keys and values. -/
inductive Tagged (keys : List Bytes) (vals : List PropValue) : List Entry → List Nat → Prop
  | nil : Tagged keys vals [] []
  | cons {k : Bytes} {v : PropValue} {key val : Nat} {props : List Entry} {tags : List Nat} :
      keys[key]? = some k → vals[val]? = some v → Tagged keys vals props tags →
        Tagged keys vals ((k, v) :: props) (key % 2 ^ 32 :: val % 2 ^ 32 :: tags)

theorem Tagged.mono {keys moreKeys : List Bytes} {vals moreVals : List PropValue}
    {props : List Entry} {tags : List Nat} (hkeys : keys <+: moreKeys) (hvals : vals <+: moreVals)
    (h : Tagged keys vals props tags) : Tagged moreKeys moreVals props tags := by
  induction h with
  | nil => exact Tagged.nil
  | cons hkey hval _ ih =>
      apply Tagged.cons _ _ ih
      · exact Interning.getElem?_of_prefix hkeys hkey
      · exact Interning.getElem?_of_prefix hvals hval

/-- As long as the places have 32 bits the tags are read as the properties. -/
theorem Tagged.decodeTags {keys : List Bytes} {vals : List PropValue} {props : List Entry} {tags : List Nat}
    (hkeys : keys.length ≤ 2 ^ 32) (hvals : vals.length ≤ 2 ^ 32) (h : Tagged keys vals props tags) :
    Mvt.decodeTags keys (vals.map PropValue.toTile) (tags.map (· % 2 ^ 32))
      = some (props.map fun entry => (entry.1, entry.2.toTile)) := by
  have hplace : ∀ {α : Type} {items : List α} {place : Nat} {item : α}, items.length ≤ 2 ^ 32 →
      items[place]? = some item → place % 2 ^ 32 = place := by
    intro α items place item hsize hitem
    obtain ⟨hlt, -⟩ := List.getElem?_eq_some_iff.mp hitem
    exact Nat.mod_eq_of_lt (Nat.lt_of_lt_of_le hlt hsize)
  induction h with
  | nil => rfl
  | cons hkey hval _ ih =>
      rw [List.map_cons, List.map_cons, Nat.mod_mod, Nat.mod_mod, hplace hkeys hkey,
        hplace hvals hval, Mvt.decodeTags, hkey, Option.bind_some, List.getElem?_map, hval, Option.map_some,
        Option.bind_some, ih, Option.map_some, List.map_cons]

structure Dictionaries.Valid (d : Dictionaries) : Prop where
  keys : Interning.Valid id d.keys
  vals : Interning.Valid valKey d.vals

/-- Both dictionaries after some properties. -/
structure Dictionaries.After (d more : Dictionaries) (props : List Entry) : Prop where
  keys : Interning.After id d.keys more.keys (props.map Prod.fst)
  vals : Interning.After valKey d.vals more.vals (props.map Prod.snd)

theorem Dictionaries.After.valid {d more : Dictionaries} {props : List Entry}
    (h : d.After more props) : more.Valid :=
  ⟨h.keys.valid, h.vals.valid⟩

theorem Dictionaries.Valid.after_nil {d : Dictionaries} (hd : d.Valid) : d.After d [] :=
  ⟨hd.keys.after_nil, hd.vals.after_nil⟩

theorem Dictionaries.After.trans {d e f : Dictionaries} {props more : List Entry} (h : d.After e props)
    (h' : e.After f more) : d.After f (props ++ more) where
  keys := by
    rw [List.map_append]
    exact h.keys.trans h'.keys
  vals := by
    rw [List.map_append]
    exact h.vals.trans h'.vals

theorem Dictionaries.After.perm {d e : Dictionaries} {props more : List Entry} (h : d.After e props)
    (hperm : props.Perm more) : d.After e more :=
  ⟨h.keys.perm (hperm.map _), h.vals.perm (hperm.map _)⟩

theorem Dictionaries.Valid.after_intern {d : Dictionaries} (hd : d.Valid) (k : Bytes) (v : PropValue) :
    d.After ⟨(intern id d.keys k).2, (intern valKey d.vals v).2⟩ [(k, v)] :=
  ⟨hd.keys.after_intern k, hd.vals.after_intern v⟩

theorem exists_place {d : Dictionaries} (hd : d.Valid) (k : Bytes) (v : PropValue) :
    (intern id d.keys k).2.items[(intern id d.keys k).1]? = some k ∧
      (intern valKey d.vals v).2.items[(intern valKey d.vals v).1]? = some v := by
  obtain ⟨key, hkey, hsame⟩ := hd.keys.exists_getElem?_intern k
  obtain ⟨val, hval, heq⟩ := hd.vals.exists_getElem?_intern v
  rw [hkey, hval, valKey_injective heq, show key = k from hsame]
  exact ⟨rfl, rfl⟩

/-- What the range over the properties of a feature does. -/
theorem tagProps_spec {d : Dictionaries} (hd : d.Valid) (props : List Entry) :
    d.After (tagProps d props).2 props ∧
      Tagged (tagProps d props).2.keys.items (tagProps d props).2.vals.items props (tagProps d props).1 := by
  induction props generalizing d with
  | nil => exact ⟨hd.after_nil, Tagged.nil⟩
  | cons entry props ih =>
      obtain ⟨k, v⟩ := entry
      have hafter := hd.after_intern k v
      obtain ⟨hrest, htagged⟩ := ih hafter.valid
      obtain ⟨hkey, hval⟩ := exists_place hd k v
      refine ⟨hafter.trans hrest, ?_⟩
      apply Tagged.cons _ _ htagged
      · exact Interning.getElem?_of_prefix hrest.keys.grown hkey
      · exact Interning.getElem?_of_prefix hrest.vals.grown hval

/-- The bytes of a feature, with tags for its properties in some order. -/
def Encoded (d : Dictionaries) (f : MvtFeatureData) (bytes : Bytes) : Prop :=
  ∃ props tags, props.Perm f.props ∧ Tagged d.keys.items d.vals.items props tags ∧
    bytes = encodeMVTFeature f.id f.px f.py tags

theorem Encoded.mono {d more : Dictionaries} {props : List Entry} (h : d.After more props) {f : MvtFeatureData}
    {bytes : Bytes} (hbytes : Encoded d f bytes) : Encoded more f bytes := by
  obtain ⟨order, tags, hperm, htagged, rfl⟩ := hbytes
  exact ⟨order, tags, hperm, htagged.mono h.keys.grown h.vals.grown, rfl⟩

/-- What the loop over the features does. -/
theorem encodeFeatures_spec (orders : Nat → PropOrder) {d : Dictionaries} (hd : d.Valid) (i : Nat)
    (features : List MvtFeatureData) :
    d.After (encodeFeatures orders d i features).2 (allProps features) ∧
      List.Forall₂ (Encoded (encodeFeatures orders d i features).2) features
        (encodeFeatures orders d i features).1 := by
  induction features generalizing d i with
  | nil => exact ⟨hd.after_nil, List.Forall₂.nil⟩
  | cons f features ih =>
      have hperm := (orders i).perm f.props
      obtain ⟨hafter, htagged⟩ := tagProps_spec hd ((orders i).arrange f.props)
      obtain ⟨hrest, hencoded⟩ := ih hafter.valid (i + 1)
      refine ⟨?_, ?_⟩
      · rw [allProps, List.flatMap_cons]
        exact (hafter.perm hperm).trans hrest
      · apply List.Forall₂.cons _ hencoded
        exact Encoded.mono hrest ⟨_, _, hperm, htagged, rfl⟩

/-! ### Reading the messages -/

open Protobuf (encodeField repeatedField)

theorem appendBytes_field {tag number : Nat} (h : tag = 8 * number + 2) (buf bytes : Bytes) :
    appendBytes (appendVarint buf tag) bytes = buf ++ encodeField (number, .lengthDelimited bytes) := by
  rw [h, appendBytes, appendVarint, appendVarint, encodeField, Protobuf.Payload.encode, Protobuf.Payload.wireType]
  simp only [List.append_assoc]

theorem appendVarint_field {tag number : Nat} (h : tag = 8 * number) (buf : Bytes) (v : Nat) :
    appendVarint (appendVarint buf tag) v = buf ++ encodeField (number, .varint v) := by
  rw [h, appendVarint, appendVarint, encodeField, Protobuf.Payload.encode, Protobuf.Payload.wireType, Nat.add_zero,
    List.append_assoc]

theorem foldl_appendVarint (values : List Nat) (buf : Bytes) :
    values.foldl appendVarint buf = buf ++ Protobuf.packed values := by
  induction values generalizing buf with
  | nil => exact (List.append_nil buf).symm
  | cons v values ih =>
      rw [List.foldl_cons, ih, appendVarint, List.append_assoc, Protobuf.packed, Protobuf.packed, List.flatMap_cons]

/-- A loop that appends one field for each item. -/
theorem foldl_appendBytes {α : Type} {tag number : Nat} (h : tag = 8 * number + 2)
    (write : α → Bytes) (items : List α) (buf : Bytes) :
    items.foldl (fun buf a => appendBytes (appendVarint buf tag) (write a)) buf
      = buf ++ (repeatedField number write items).flatMap encodeField := by
  induction items generalizing buf with
  | nil => exact (List.append_nil buf).symm
  | cons a items ih =>
      rw [List.foldl_cons, ih, appendBytes_field h, List.append_assoc]
      rfl

theorem encodePointGeom_eq (px py : Int64) :
    encodePointGeom px py = Protobuf.packed [9, (zigzag px).toNat, (zigzag py).toNat] := by
  simp [encodePointGeom, appendVarint, Protobuf.packed]

def valueField : PropValue → Field
  | .string text => (1, .lengthDelimited text)
  | .int64 n => (6, .varint (zigzag n).toNat)
  | .int n => (6, .varint (zigzag n).toNat)

theorem encodeMVTValue_eq (v : PropValue) : encodeMVTValue v = [valueField v].flatMap encodeField := by
  have htext : 1 <<< 3 ||| 2 = 8 * 1 + 2 := by decide
  have hint : 6 <<< 3 ||| 0 = 8 * 6 := by decide
  rw [List.flatMap_singleton]
  cases v with
  | string text => rw [encodeMVTValue, valueField, appendBytes_field htext, List.nil_append]
  | int64 n => rw [encodeMVTValue, valueField, appendVarint_field hint, List.nil_append]
  | int n => rw [encodeMVTValue, valueField, appendVarint_field hint, List.nil_append]

theorem decodeValue_encodeMVTValue (v : PropValue) : decodeValue (encodeMVTValue v) = some v.toTile := by
  have hsized : ∀ field ∈ [valueField v], field.2.Sized := by
    intro field hfield
    rw [List.mem_singleton.mp hfield]
    cases v <;> exact trivial
  have hint : ∀ n : Int64, tileValue (6, .varint (zigzag n).toNat) = some (.integer n.toInt) := by
    intro n
    rw [tileValue, Nat.mod_eq_of_lt (zigzag n).toNat_lt, unzigzag_zigzag]
  have hfield : tileValue (valueField v) = some v.toTile := by
    cases v with
    | string text => rfl
    | int64 n => exact hint n
    | int n => exact hint n
  rw [decodeValue, encodeMVTValue_eq, Protobuf.parse_flatMap hsized, Option.bind_some, List.filterMap_cons, hfield]
  rfl

def tagFields (tags : List Nat) : List Field :=
  if tags ≠ [] then [(2, .lengthDelimited (Protobuf.packed tags))] else []

def featureFields (id px py : Int64) (tags : List Nat) : List Field :=
  (1, .varint id.toUInt64.toNat) :: (tagFields tags ++
    [(3, .varint 1), (4, .lengthDelimited (Protobuf.packed [9, (zigzag px).toNat, (zigzag py).toNat]))])

theorem encodeMVTFeature_eq (id px py : Int64) (tags : List Nat) :
    encodeMVTFeature id px py tags = (featureFields id px py tags).flatMap encodeField := by
  have htags : ∀ buf, (if tags ≠ [] then
        appendBytes (appendVarint buf (2 <<< 3 ||| 2)) (tags.foldl appendVarint []) else buf)
      = buf ++ (tagFields tags).flatMap encodeField := by
    intro buf
    unfold tagFields
    split
    · rw [foldl_appendVarint, appendBytes_field (by decide : 2 <<< 3 ||| 2 = 8 * 2 + 2), List.nil_append,
        List.flatMap_singleton]
    · exact (List.append_nil buf).symm
  rw [encodeMVTFeature, htags, appendVarint_field (by decide : 1 <<< 3 ||| 0 = 8 * 1),
    appendVarint_field (by decide : 3 <<< 3 ||| 0 = 8 * 3),
    appendBytes_field (by decide : 4 <<< 3 ||| 2 = 8 * 4 + 2), encodePointGeom_eq, featureFields]
  simp [List.flatMap_append]

theorem parse_encodeMVTFeature (id px py : Int64) (tags : List Nat) :
    Protobuf.parse (encodeMVTFeature id px py tags) = some (featureFields id px py tags) := by
  rw [encodeMVTFeature_eq, Protobuf.parse_flatMap]
  intro field hfield
  rw [featureFields, tagFields] at hfield
  split at hfield
  · simp only [List.mem_cons, List.mem_append, List.not_mem_nil, or_false] at hfield
    rcases hfield with rfl | rfl | rfl | rfl <;> exact trivial
  · simp only [List.mem_cons, List.mem_append, List.not_mem_nil, or_false, false_or] at hfield
    rcases hfield with rfl | rfl | rfl <;> exact trivial

/-- What the schema has under the numbers of the fields of a feature. -/
theorem featureFields_spec (id px py : Int64) (tags : List Nat) :
    Protobuf.varints 1 (featureFields id px py tags) = [id.toUInt64.toNat] ∧
      Protobuf.varints 3 (featureFields id px py tags) = [1] ∧
      Protobuf.repeated 2 (featureFields id px py tags) = some tags ∧
      Protobuf.repeated 4 (featureFields id px py tags) = some [9, (zigzag px).toNat, (zigzag py).toNat] := by
  unfold featureFields tagFields
  by_cases htags : tags = []
  · rw [htags]
    simp [Protobuf.varints, Protobuf.repeated, Protobuf.unpack_packed]
  · simp [htags, Protobuf.varints, Protobuf.repeated, Protobuf.unpack_packed]

/-- A small feature is read back. -/
theorem Encoded.decode {d : Dictionaries} (hkeys : d.keys.items.length ≤ 2 ^ 32)
    (hvals : d.vals.items.length ≤ 2 ^ 32) {f : MvtFeatureData} (hsmall : f.Small) {bytes : Bytes}
    (h : Encoded d f bytes) :
    ∃ g, decodeFeature d.keys.items (d.vals.items.map PropValue.toTile) bytes = some g ∧ SameFeature f g := by
  obtain ⟨props, tags, hperm, htagged, rfl⟩ := h
  obtain ⟨hid, htype, htags, hgeometry⟩ := featureFields_spec f.id f.px f.py tags
  have hpoint : decodePoint ([9, (zigzag f.px).toNat, (zigzag f.py).toNat].map (· % 2 ^ 32))
      = some (f.px.toInt, f.py.toInt) := by
    show decodePoint [9, (zigzag f.px).toNat % 2 ^ 32, (zigzag f.py).toNat % 2 ^ 32] = _
    rw [zigzag_mod hsmall.px, zigzag_mod hsmall.py, decodePoint, unzigzag_zigzag, unzigzag_zigzag]
  refine ⟨⟨f.id.toUInt64.toNat, props.map fun entry => (entry.1, entry.2.toTile), (f.px.toInt, f.py.toInt)⟩, ?_, ?_⟩
  · rw [decodeFeature, parse_encodeMVTFeature, Option.bind_some, htype, if_pos List.getLast?_singleton, htags,
      Option.bind_some, hgeometry, Option.bind_some, htagged.decodeTags hkeys hvals, Option.bind_some, hpoint,
      Option.map_some, hid]
    show some (TileFeature.mk (f.id.toUInt64.toNat % 2 ^ 64) _ _) = _
    rw [Nat.mod_eq_of_lt f.id.toUInt64.toNat_lt]
  · exact ⟨toNat_toUInt64 hsmall.id, rfl, hperm.map _⟩

def layerFields (name : Bytes) (extent : Int64) (d : Dictionaries) (features : List Bytes) : List Field :=
  [(15, .varint 2), (1, .lengthDelimited name), (5, .varint extent.toUInt64.toNat)] ++
    (repeatedField 3 id d.keys.items ++ (repeatedField 4 encodeMVTValue d.vals.items ++
      repeatedField 2 id features))

theorem sized_layerFields {name : Bytes} {extent : Int64} {d : Dictionaries} {features : List Bytes} {field : Field}
    (h : field ∈ layerFields name extent d features) : field.2.Sized := by
  rw [layerFields, List.mem_append, List.mem_append, List.mem_append] at h
  rcases h with h | h | h | h
  · simp only [List.mem_cons, List.not_mem_nil, or_false] at h
    rcases h with rfl | rfl | rfl <;> exact trivial
  · exact Protobuf.sized_repeatedField h
  · exact Protobuf.sized_repeatedField h
  · exact Protobuf.sized_repeatedField h

theorem buildMVTLayer_eq (orders : Nat → PropOrder) (name : Bytes) (features : List MvtFeatureData)
    (extent : Int64) :
    buildMVTLayer orders name features extent =
      let encoded := encodeFeatures orders ⟨Interning.empty, Interning.empty⟩ 0 features
      encodeField (3, .lengthDelimited ((layerFields name extent encoded.2 encoded.1).flatMap encodeField)) := by
  have hkeys := fun buf d => foldl_appendBytes (by decide : 3 <<< 3 ||| 2 = 8 * 3 + 2) id
    (d : Dictionaries).keys.items buf
  have hvals := fun buf d =>
    foldl_appendBytes (by decide : 4 <<< 3 ||| 2 = 8 * 4 + 2) encodeMVTValue (d : Dictionaries).vals.items buf
  have hfeatures := fun buf features =>
    foldl_appendBytes (by decide : 2 <<< 3 ||| 2 = 8 * 2 + 2) id (features : List Bytes) buf
  simp only [id_eq] at hkeys hfeatures
  simp only [buildMVTLayer]
  rw [hkeys, hvals, hfeatures, appendVarint_field (by decide : 15 <<< 3 ||| 0 = 8 * 15),
    appendBytes_field (by decide : 1 <<< 3 ||| 2 = 8 * 1 + 2),
    appendVarint_field (by decide : 5 <<< 3 ||| 0 = 8 * 5),
    appendBytes_field (by decide : 3 <<< 3 ||| 2 = 8 * 3 + 2), layerFields]
  simp [List.flatMap_append]

/-- What the schema has under the numbers of the fields of a layer. -/
theorem layerFields_spec (name : Bytes) (extent : Int64) (d : Dictionaries) (features : List Bytes) :
    Protobuf.varints 15 (layerFields name extent d features) = [2] ∧
      Protobuf.varints 5 (layerFields name extent d features) = [extent.toUInt64.toNat] ∧
      Protobuf.messages 1 (layerFields name extent d features) = [name] ∧
      Protobuf.messages 2 (layerFields name extent d features) = features ∧
      Protobuf.messages 3 (layerFields name extent d features) = d.keys.items ∧
      Protobuf.messages 4 (layerFields name extent d features) = d.vals.items.map encodeMVTValue := by
  have hhead : ∀ number, Protobuf.messages number
      [(15, .varint 2), (1, .lengthDelimited name), (5, .varint extent.toUInt64.toNat)]
      = if 1 = number then [name] else [] := by
    intro number
    by_cases hone : 1 = number <;> simp [Protobuf.messages, hone]
  simp only [layerFields, Protobuf.varints_append, Protobuf.messages_append, Protobuf.varints_repeatedField, hhead,
    List.append_nil]
  refine ⟨by simp [Protobuf.varints], by simp [Protobuf.varints], ?_, ?_, ?_, ?_⟩
  · rw [if_pos trivial, Protobuf.messages_repeatedField_of_ne (by decide),
      Protobuf.messages_repeatedField_of_ne (by decide), Protobuf.messages_repeatedField_of_ne (by decide)]
    rfl
  · rw [if_neg (by decide), Protobuf.messages_repeatedField_of_ne (by decide),
      Protobuf.messages_repeatedField_of_ne (by decide), Protobuf.messages_repeatedField, List.map_id]
    rfl
  · rw [if_neg (by decide), Protobuf.messages_repeatedField, Protobuf.messages_repeatedField_of_ne (by decide),
      Protobuf.messages_repeatedField_of_ne (by decide), List.map_id, List.append_nil,
      List.append_nil, List.nil_append]
  · rw [if_neg (by decide), Protobuf.messages_repeatedField_of_ne (by decide), Protobuf.messages_repeatedField,
      Protobuf.messages_repeatedField_of_ne (by decide), List.append_nil, List.nil_append, List.nil_append]

theorem decodeTile_layer {bytes : Bytes} {layer : TileLayer} (h : decodeLayer bytes = some layer) :
    decodeTile (encodeField (3, .lengthDelimited bytes)) = some [layer] := by
  have hsized : ∀ field ∈ [((3, .lengthDelimited bytes) : Field)], field.2.Sized := by
    intro field hfield
    rw [List.mem_singleton.mp hfield]
    exact trivial
  have hmessages : Protobuf.messages 3 [(3, .lengthDelimited bytes)] = [bytes] :=
    Protobuf.messages_repeatedField 3 id [bytes]
  rw [decodeTile, ← List.flatMap_singleton encodeField, Protobuf.parse_flatMap hsized, Option.bind_some, hmessages,
    List.mapM_cons, h]
  rfl

/-- A tile is decoded to its name, extent and features, when these have the sizes of the schema and the keys and
values can be numbered with 32 bits. -/
theorem buildMVTLayer_decodes (orders : Nat → PropOrder) (name : Bytes) (features : List MvtFeatureData)
    (extent : Int64) (hextent : 0 ≤ extent.toInt ∧ extent.toInt < 2 ^ 32) (hsmall : ∀ f ∈ features, f.Small)
    (hkeys : ((allProps features).map Prod.fst).dedup.length ≤ 2 ^ 32)
    (hvals : ((allProps features).map Prod.snd).dedup.length ≤ 2 ^ 32) :
    Decodes (buildMVTLayer orders name features extent) name features extent := by
  have hempty : Dictionaries.Valid ⟨Interning.empty, Interning.empty⟩ :=
    ⟨Interning.valid_empty, Interning.valid_empty⟩
  rw [buildMVTLayer_eq]
  obtain ⟨hafter, hencoded⟩ := encodeFeatures_spec orders hempty 0 features
  generalize encodeFeatures orders ⟨Interning.empty, Interning.empty⟩ 0 features = encoded at *
  obtain ⟨bytes, d⟩ := encoded
  have hkeysize := Nat.le_trans hafter.keys.length_le hkeys
  have hvalsize := Nat.le_trans hafter.vals.length_le hvals
  obtain ⟨read, hread, hsame⟩ := Protobuf.exists_mapM hencoded
    (fun f hf bytes h => Encoded.decode hkeysize hvalsize (hsmall f hf) h)
  obtain ⟨hversion, hextents, hname, hfeatures, hkey, hval⟩ := layerFields_spec name extent d bytes
  have hexact := toNat_toUInt64 hextent.1
  have hmod : extent.toUInt64.toNat % 2 ^ 32 = extent.toUInt64.toNat := Nat.mod_eq_of_lt (by omega)
  refine ⟨⟨2, name, extent.toUInt64.toNat, read⟩, ?_, rfl, hexact, hsame⟩
  apply decodeTile_layer
  rw [decodeLayer, Protobuf.parse_flatMap fun field hfield => sized_layerFields hfield, Option.bind_some, hversion,
    List.getLast?_singleton, Option.bind_some, hname, List.getLast?_singleton, Option.bind_some, hval,
    Protobuf.mapM_map_eq_some fun v _ => decodeValue_encodeMVTValue v, Option.bind_some, hfeatures, hkey, hread,
    Option.map_some, hextents, List.getLast?_singleton, Option.getD_some, hmod]
  rfl

def pollingUnit : MvtFeatureData where
  id := 0
  px := 4096
  py := 17
  props := [(utf8 "code", .string (utf8 "PU-001")), (utf8 "submitted_ts", .int64 (-5))]
  nodup := by decide +kernel

def inOrder : PropOrder := ⟨fun props => props, fun _ => List.Perm.refl _⟩

theorem pollingUnit_decodes :
    Decodes (buildMVTLayer (fun _ => inOrder) (utf8 "pus") [pollingUnit] 4096) (utf8 "pus") [pollingUnit] 4096 := by
  refine buildMVTLayer_decodes _ _ _ _ (by decide) ?_ (by decide +kernel) (by decide +kernel)
  intro f hf
  rw [List.mem_singleton.mp hf]
  exact ⟨by decide, by decide, by decide⟩

/-- A feature without properties. -/
def bare (id px : Int64) : MvtFeatureData := ⟨id, px, 0, [], List.nodup_nil⟩

theorem Decodes.of_eq {bytes name : Bytes} {features : List MvtFeatureData} {extent : Int64} {layer : TileLayer}
    (h : Decodes bytes name features extent) (hlayer : decodeTile bytes = some [layer]) :
    (layer.extent : Int) = extent.toInt ∧ List.Forall₂ SameFeature features layer.features := by
  obtain ⟨read, hread, -, hextent, hfeatures⟩ := h
  rw [hlayer] at hread
  cases hread
  exact ⟨hextent, hfeatures⟩

/-- Outside these sizes the schema keeps only the low bits: a point at `2 ^ 31` is read at 0, an extent of
`2 ^ 32` as 0, and the id -1 as a large number. -/
theorem large_tiles_differ :
    ¬ Decodes (buildMVTLayer (fun _ => inOrder) [] [bare 0 (2 ^ 31)] 4096) [] [bare 0 (2 ^ 31)] 4096 ∧
      ¬ Decodes (buildMVTLayer (fun _ => inOrder) [] [] (2 ^ 32)) [] [] (2 ^ 32) ∧
      ¬ Decodes (buildMVTLayer (fun _ => inOrder) [] [bare (-1) 0] 4096) [] [bare (-1) 0] 4096 := by
  have hpoint : decodeTile (buildMVTLayer (fun _ => inOrder) [] [bare 0 (2 ^ 31)] 4096)
      = some [⟨2, [], 4096, [⟨0, [], (0, 0)⟩]⟩] := by decide +kernel
  have hextent : decodeTile (buildMVTLayer (fun _ => inOrder) [] [] (2 ^ 32)) = some [⟨2, [], 0, []⟩] := by
    decide +kernel
  have hid : decodeTile (buildMVTLayer (fun _ => inOrder) [] [bare (-1) 0] 4096)
      = some [⟨2, [], 4096, [⟨2 ^ 64 - 1, [], (0, 0)⟩]⟩] := by decide +kernel
  refine ⟨?_, ?_, ?_⟩
  · intro h
    obtain ⟨-, hfeatures⟩ := h.of_eq hpoint
    exact absurd (List.forall₂_cons.mp hfeatures).1.point (by decide)
  · intro h
    exact absurd (h.of_eq hextent).1 (by decide)
  · intro h
    obtain ⟨-, hfeatures⟩ := h.of_eq hid
    exact absurd (List.forall₂_cons.mp hfeatures).1.id (by decide)

end Inec.Mvt
