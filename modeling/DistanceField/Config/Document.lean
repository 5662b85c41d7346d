import DistanceField.Config.Resolve
import DistanceField.Yaml.Excerpt

/-! The values of a configuration file. Anchors are remembered and aliases looked up, merged maps
are spread out, and tags change what a scalar stands for. -/
namespace DistanceField.Config

open Yaml (Problem problem exhausted isOne)

def Value.ofScalar : Yaml.Scalar → Value
  | .null => .null
  | .bool b => .bool b
  | .natural n => .natural n
  | .negative n => .negative n
  | .float v => .float v
  | .text b => .text b

def Value.isNull : Value → Bool
  | .null => true
  | _ => false

/-! Tags. -/

/-- Within 64 bits; what is no number is zero. -/
def toInteger (b : Bytes) : Int :=
  let (negative, body) := Read.sign b
  let bound : Int := if negative then pow2 63 else pow2 63 - 1
  let size : Int := match body.foldlM (Yaml.addDigit 10) 0 with
    | .ok n => min n bound
    | .error .outOfRange => bound
    | .error .malformed => 0
  if negative then -size else size

def toFloat : Value → Value
  | .natural n => .float (Float.ofNat n)
  | .negative n => .float (-Float.ofNat n)
  | .integer n => .float (Float.ofInt n)
  | .float v => .float v
  | .text b => .float (Read.double b).value
  | _ => .integer 0

def toSwitch? (v : Value) : Option Value :=
  let word := v.display.map Bytes.lowerByte
  if isOne ["1", "t", "true", "yes"] word then some (.bool true)
  else if isOne ["0", "f", "false", "no"] word then some (.bool false)
  else none

def tagged (tag : Bytes) (mark : Yaml.Token) (v : Value) : Except Problem Value :=
  if isOne ["!!int"] tag then .ok (.integer (toInteger v.display))
  else if isOne ["!!float"] tag then .ok (toFloat v)
  else if isOne ["!!null"] tag then .ok .null
  else if isOne ["!!bool"] tag then
    match toSwitch? v with
    | some v => .ok v
    | none => problem (.notSwitch v.display) mark
  else if isOne ["!!str"] tag then .ok (.text (if v.isNull then [] else v.display))
  else .ok v

/-! Anchors and merged maps. -/

/-- An anchor has no node while its own value is read. -/
structure Anchor where
  name : Bytes
  node : Option Yaml.Node
  value : Value

abbrev Anchors := List Anchor

def Anchors.find? (as : Anchors) (name : Bytes) : Option Anchor := List.find? (·.name == name) as

def kindOf : Yaml.Node → Bytes
  | .scalar mark s =>
    if mark.kind == .blockHead then "scalar"
    else match s with
      | .null => "null"
      | .bool _ => "boolean"
      | .natural _ | .negative _ => "int"
      | .float v => if v.isNaN then "nan" else if v.isInf then "inf" else "float"
      | .text _ => "string"
  | .list _ _ => "sequence"
  | .map _ _ => "mapping"
  | .anchor _ _ _ => "anchor"
  | .reference _ _ => "alias"
  | .tag _ _ => "tag"
  | .merge _ => "merge key"
  | .directive _ => "directive"

mutual

/-- The entries of a map, behind anchors, aliases and tags. Where maps are merged a list of them
stands for all their entries. -/
def entriesOf (fuel : Nat) (as : Anchors) (merged : Bool) (n : Yaml.Node) :
    Except Problem (List (Yaml.Node × Yaml.Node)) :=
  match fuel, n with
  | 0, _ => exhausted
  | _, .map _ es => .ok es
  | fuel + 1, .anchor _ _ v => entriesOf fuel as merged v
  | fuel + 1, .tag _ v => entriesOf fuel as merged v
  | fuel + 1, .reference _ name =>
    match (as.find? name.text).bind Anchor.node with
    | some n => entriesOf fuel as merged n
    | none => .error ⟨.unknownAnchor name.text, none⟩
  | fuel + 1, .list mark items =>
    if merged then itemEntries fuel as items else problem (.notMap "sequence") mark
  | _, n => problem (.notMap (kindOf n)) n.mark

def itemEntries (fuel : Nat) (as : Anchors) :
    List Yaml.Node → Except Problem (List (Yaml.Node × Yaml.Node))
  | [] => .ok []
  | n :: rest =>
    match fuel with
    | 0 => exhausted
    | fuel + 1 => do
      let es ← entriesOf fuel as false n
      let more ← itemEntries fuel as rest
      .ok (es ++ more)

end

def put (fields : Fields) (k : Bytes) (v : Value) : Fields :=
  if fields.any (·.1 == k) then fields.map fun f => if f.1 == k then (k, v) else f
  else fields ++ [(k, v)]

def innerKey (v : Value) : Bytes := if v.isNull then "null" else v.display

mutual

def valueOf (fuel : Nat) (as : Anchors) (n : Yaml.Node) : Except Problem (Value × Anchors) :=
  match fuel, n with
  | 0, _ => exhausted
  | _, .scalar _ s => .ok (.ofScalar s, as)
  | fuel + 1, .list _ items => do
    let (vs, as) ← valuesOf fuel as items
    .ok (.list vs, as)
  | fuel + 1, .map _ es => do
    let (fs, as) ← fieldsOf fuel as [] es
    .ok (.map fs, as)
  | fuel + 1, .anchor _ name n => do
    let (v, as) ← valueOf fuel (⟨name.text, none, .null⟩ :: as) n
    .ok (v, ⟨name.text, some n, v⟩ :: as)
  | _, .reference _ name =>
    match as.find? name.text with
    | some a => .ok (a.value, as)
    | none => problem (.unknownAlias name.text) name
  | fuel + 1, .tag mark n => do
    let (v, as) ← valueOf fuel as n
    .ok (← tagged mark.text n.mark v, as)
  | _, .merge _ | _, .directive _ => .ok (.null, as)

def valuesOf (fuel : Nat) (as : Anchors) (ns : List Yaml.Node) :
    Except Problem (List Value × Anchors) :=
  match fuel, ns with
  | 0, _ => exhausted
  | _, [] => .ok ([], as)
  | fuel + 1, n :: rest => do
    let (v, as) ← valueOf fuel as n
    let (vs, as) ← valuesOf fuel as rest
    .ok (v :: vs, as)

def fieldsOf (fuel : Nat) (as : Anchors) (fields : Fields) (es : List (Yaml.Node × Yaml.Node)) :
    Except Problem (Fields × Anchors) :=
  match fuel, es with
  | 0, _ => exhausted
  | _, [] => .ok (fields, as)
  | fuel + 1, (k, n) :: rest =>
    if k.isMerge then do
      let (_, as) ← valueOf fuel as n
      let (fields, as) ← fieldsOf fuel as fields (← entriesOf fuel as true n)
      fieldsOf fuel as fields rest
    else do
      let (key, as) ← valueOf fuel as k
      let (v, as) ← valueOf fuel as n
      fieldsOf fuel as (put fields (innerKey key) v) rest

end

/-- Keys at the top are texts; a collection is none. -/
def topKey (mark : Yaml.Token) : Value → Except Problem Bytes
  | .null => .ok []
  | .list _ => problem (.keyNotText "[]interface \x7b\x7d") mark
  | .map _ => problem (.keyNotText "map[string]interface \x7b\x7d") mark
  | v => .ok v.display

/-- The fields of the whole file. No key may come twice, except by merging. -/
def topFields (fuel : Nat) (as : Anchors) (seen : List Bytes) (fields : Fields)
    (es : List (Yaml.Node × Yaml.Node)) : Except Problem (Fields × Anchors) :=
  match fuel, es with
  | 0, _ => exhausted
  | _, [] => .ok (fields, as)
  | fuel + 1, (k, n) :: rest =>
    if k.isMerge then do
      let (_, as) ← valueOf fuel as n
      let (merged, as) ← topFields fuel as [] [] (← entriesOf fuel as true n)
      topFields fuel as seen (merged.foldl (fun fs f => put fs f.1 f.2) fields) rest
    else do
      let (key, as) ← valueOf fuel as k
      let key ← topKey k.mark key
      if seen.contains key then problem (.fieldTwice key) k.mark
      else
        let (v, as) ← valueOf fuel as n
        topFields fuel as (key :: seen) (put fields key v) rest

/-- Whether a document counts: one without a value does not, unless it says so. -/
def isFilled : Yaml.Node × Value → Bool
  | (.scalar _ .null, _) => true
  | (_, v) => !v.isNull

/-- The fields of a stream: those of its first document, though all of them must be well formed. An
empty stream has none, and one that is no map is malformed. -/
def fieldsOfTokens (ts : List Yaml.Token) : Except Problem Fields := do
  let fuel := (8 * ts.length + 8) * (ts.length + 4)
  let trees ← Yaml.trees ts
  let (values, _) ← valuesOf fuel [] trees
  match (trees.zip values).find? isFilled with
  | none | some (.scalar _ .null, _) => .ok []
  | some (n, _) =>
    let (_, as) ← valueOf fuel [] n
    let (fields, _) ← topFields fuel as [] [] (← entriesOf fuel as false n)
    .ok fields

def readFields (b : Bytes) : Except Bytes Fields :=
  let ts := Yaml.tokens b
  (fieldsOfTokens ts).mapError (Problem.text ts)

end DistanceField.Config
