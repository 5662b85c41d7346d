import DistanceField.Yaml.Phrase

/-! The tree of a YAML document. Columns tell how far a map or a list reaches. -/
namespace DistanceField.Yaml

/-- Each node has the token that shows where it stands. -/
inductive Node where
  | scalar (mark : Token) (s : Scalar)
  | list (mark : Token) (items : List Node)
  | map (mark : Token) (entries : List (Node × Node))
  | anchor (mark name : Token) (value : Node)
  | reference (mark name : Token)
  | tag (mark : Token) (value : Node)
  /-- The key that merges its value into the map. -/
  | merge (mark : Token)
  | directive (mark : Token)

namespace Node

def mark : Node → Token
  | scalar t _ | list t _ | map t _ | anchor t _ _ | reference t _ | tag t _ | merge t
  | directive t => t

def missing (t : Token) : Node :=
  .scalar { t with place := ⟨t.place.line, t.place.column + 1⟩ } .null

def isAnchor : Node → Bool
  | anchor _ _ _ => true
  | _ => false

def isMerge : Node → Bool
  | merge _ => true
  | anchor _ _ v => v.isMerge
  | tag _ v => v.isMerge
  | _ => false

def isScalar : Node → Bool
  | list _ _ | map _ _ => false
  | _ => true

end Node

abbrev Front (α : Type) := α × List Phrase

/-- The answer when fuel ends, which that of a whole stream never does. -/
def exhausted {α : Type} : Except Problem α := .error ⟨.strayValue, none⟩

/-- The text of a key, by which it must be the only one in its map. -/
def keyText : Phrase → Bytes
  | .asked _ k | .key k _ | .entry k _ | .tagged _ k | .anchor _ _ k => keyText k
  | .reference _ _ => []
  | p => p.first.text

abbrev Keys := List (Bytes × Place)

def isBlank (c : Char) : Bool := c == ' ' || isBreak c

def breaks (cs : List Char) : Nat := (normalBreaks cs).countP isBreak

/-- A key is the only one of its text and stands on one line; inside brackets its colon is on the
line on which it ends. -/
def checkKey (flow : Bool) (seen : Keys) (text : Bytes) (first colon : Token) :
    Except Problem Unit :=
  match seen.lookup text with
  | some p => problem (.keyTwice first.text p.line p.column) first
  | none =>
    let source := first.source.dropWhile isBlank
    if flow then
      let isPlainText := first.kind == .plain && first.isText
      let source := if isPlainText then (source.reverse.dropWhile isBlank).reverse else source
      if first.place.line + breaks source == colon.place.line then .ok ()
      else problem .brokenKey first
    else if !first.isText || breaks source == 0 then .ok ()
    else problem .badKeyName first

def lastOf : Phrase → Token
  | .key _ colon => colon
  | .asked _ k => k.first
  | p => p.first

def defaultOf (tag : Bytes) : Scalar :=
  if isOne ["!!int"] tag then .natural 0
  else if isOne ["!!float"] tag then .float 0
  else if isOne ["!!bool"] tag then .bool false
  else if isOne ["!!null"] tag then .null
  else .text []

def scalarToken (t : Token) : Except Problem Node :=
  if t.isScalar then .ok (.scalar t t.scalar)
  else if t.kind == .merge then .ok (.merge t)
  else problem .notScalarMark t

def nameOf : Phrase → Except Problem Token
  | .token t => (scalarToken t).map Node.mark
  | p => problem .notScalar p.first

def blockText (head : Token) : Option Token → Except Problem Node
  | none => .ok (.scalar head (.text []))
  | some t => if t.isText then .ok (.scalar head t.scalar) else problem .notText t

def directiveNode (mark name : Token) (values : List Token) : Except Problem Node :=
  if name.text == Bytes.ofString "YAML" then
    match values with
    | [v] =>
      if isOne ["1.0", "1.1", "1.2", "1.3"] v.text then .ok (.directive mark)
      else problem (.badVersion v.text) v
    | _ => problem .badVersionLine mark
  else if name.text == Bytes.ofString "TAG" && values.length != 2 then problem .badTagLine mark
  else .ok (.directive mark)

def endsEntry (p : Option Phrase) : Bool :=
  match p with
  | some p => p.kind == .mapClose || p.kind == .comma
  | none => false

def anchored (mark : Token) (name : Token) (v : Node) : Except Problem Node :=
  if v.isAnchor then problem .anchorTwice v.mark else .ok (.anchor mark name v)

/-- An anchor and a tag on different lines: the tag must be indented more than a column. -/
def placed (flaw : Flaw) (column : Nat) (r : Except Problem (Front Node)) :
    Except Problem (Front Node) := do
  match ← r with
  | (.anchor a n (.tag t v), rest) =>
    if a.place.line == t.place.line || t.place.column > column then
      .ok (.anchor a n (.tag t v), rest)
    else problem flaw t
  | r => .ok r

/-- What may stand at the places of a collection: the flaws of an anchor and of a tag that are not
indented, and the phrase that starts the next part. -/
structure Spot where
  anchor : Flaw
  tag : Flaw
  next : Phrase → Bool

def Spot.map : Spot := ⟨.anchorInMap, .tagInMap, Phrase.isMapPart⟩

def Spot.list : Spot := ⟨.anchorInList, .tagInList, fun p => p.kind == .dash⟩

mutual

def value (fuel : Nat) (flow : Bool) (ps : List Phrase) : Except Problem (Front Node) :=
  match fuel, ps with
  | 0, _ | _, [] => exhausted
  | fuel + 1, p :: rest =>
    match p with
    | .asked _ _ | .key _ _ | .entry _ _ => do
      let (es, r) ← blockMap fuel flow [] (p :: rest)
      .ok (.map (lastOf p) es, r)
    | .directive mark name values => do .ok (← directiveNode mark name values, rest)
    | .token t =>
      match t.kind with
      | .tag => tagValue fuel flow t rest
      | .mapOpen => do
        let (es, r) ← flowMap fuel t true [] rest
        .ok (.map t es, r)
      | .listOpen => do
        let (vs, r) ← flowList fuel t true rest
        .ok (.list t vs, r)
      | .dash => do
        let (vs, r) ← blockList fuel flow p.column (p :: rest)
        .ok (.list t vs, r)
      | .listClose => problem .strayListClose t
      | .mapClose => problem .strayMapClose t
      | .colon => problem .badKey t
      | _ => do .ok (← scalarToken t, rest)
    | p => scalarValue fuel flow (p :: rest)

def scalarValue (fuel : Nat) (flow : Bool) (ps : List Phrase) : Except Problem (Front Node) :=
  match fuel, ps with
  | 0, _ | _, [] => exhausted
  | fuel + 1, p :: rest =>
    match p with
    | .token t =>
      if t.kind == .tag then do
        match ← tagValue fuel flow t rest with
        | (.tag t v, r) => if v.isScalar then .ok (.tag t v, r) else problem .notScalarTag t
        | _ => problem .notScalarTag t
      else do .ok (← scalarToken t, rest)
    | .block head body => do .ok (← blockText head body, rest)
    | .reference mark name => do .ok (.reference mark (← nameOf name), rest)
    | .anchor mark name inner => do
      let name ← nameOf name
      let (v, _) ← value fuel flow [inner]
      .ok (← anchored mark name v, rest)
    | .anchorName mark name => do
      let name ← nameOf name
      if rest.isEmpty then problem .noValueForAnchor mark
      let (v, r) ← value fuel flow rest
      .ok (← anchored mark name v, r)
    | .tagged tag inner => do
      let (n, _) ← tagValue fuel flow tag [inner]
      .ok (n, rest)
    | p => problem .notScalar p.first

def tagValue (fuel : Nat) (flow : Bool) (tag : Token) (ps : List Phrase) :
    Except Problem (Front Node) :=
  match fuel, ps with
  | 0, _ => exhausted
  | _, [] => .ok (.tag tag (.missing tag), [])
  | fuel + 1, p :: rest => do
    let (v, r) ←
      if isOne ["!!map", "!!set"] tag.text then
        if !p.isMapPart then problem .noMap p.first
        else if p.kind == .mapOpen then do
          let (es, r) ← flowMap fuel p.first true [] rest
          .ok (.map p.first es, r)
        else do
          let (es, r) ← blockMap fuel flow [] (p :: rest)
          .ok (.map (lastOf p) es, r)
      else if isOne scalarTags tag.text then
        if p.kind == .comma || p.kind == .colon then
          .ok (.scalar tag (defaultOf tag.text), p :: rest)
        else scalarValue fuel flow (p :: rest)
      else if isOne ["!!seq", "!!omap"] tag.text then
        if p.kind == .listOpen then do
          let (vs, r) ← flowList fuel p.first true rest
          .ok (.list p.first vs, r)
        else do
          let (vs, r) ← blockList fuel flow p.column (p :: rest)
          .ok (.list p.first vs, r)
      else value fuel flow (p :: rest)
    .ok (.tag tag v, r)

def keyNode (fuel : Nat) (flow : Bool) (seen : Keys) (p : Phrase) : Except Problem Node :=
  match fuel with
  | 0 => exhausted
  | fuel + 1 => do
    let (n, _) ← match p with
      | .key (.asked _ k) _ | .key k _ | .asked _ k => scalarValue fuel flow [k]
      | _ => problem .notScalar p.first
    checkKey flow seen (keyText p) p.first (lastOf p)
    .ok n

def valueBehind (fuel : Nat) (flow : Bool) (spot : Spot) (mark : Place) (bare : Node)
    (ps : List Phrase) : Except Problem (Front Node) :=
  match fuel, ps with
  | 0, _ => exhausted
  | _, [] => .ok (bare, [])
  | fuel + 1, p :: rest =>
    let sameLine := p.line == mark.line
    if p.column == mark.column && spot.next p then .ok (bare, p :: rest)
    else match p with
      | .anchorName t name =>
        let next := rest.head?
        let starts := Phrase.columnOf next == mark.column && (next.map spot.next).getD false
        if sameLine && starts then do
          .ok (.anchor t (← nameOf name) bare, rest)
        else if p.column ≤ mark.column then problem spot.anchor t
        else if sameLine && Phrase.columnOf next < mark.column then do
          .ok (.anchor t (← nameOf name) bare, rest)
        else placed spot.tag mark.column (value fuel flow (p :: rest))
      | _ =>
        if p.column ≤ mark.column && p.kind == .tag then problem spot.tag p.first
        else if p.column < mark.column then .ok (bare, p :: rest)
        else placed spot.tag mark.column (value fuel flow (p :: rest))

def blockEntry (fuel : Nat) (flow : Bool) (seen : Keys) (p : Phrase) (rest : List Phrase) :
    Except Problem (Front (Node × Node)) :=
  match fuel with
  | 0 => exhausted
  | fuel + 1 =>
    match p with
    | .entry k v => do
      let key ← keyNode fuel flow seen k
      let (v, _) ← value fuel flow [v]
      match rest with
      | q :: _ =>
        if q.column > p.column && !(flow && (q.kind == .comma || q.kind == .listClose)) then
          problem .valueAfterEntry q.first
      | [] => pure ()
      .ok ((key, v), rest)
    | _ => do
      let key ← keyNode fuel flow seen p
      match rest with
      | q :: _ =>
        if q.line == p.line && q.kind == .dash then problem .dashAfterKey q.first
        if q.column != p.column && q.line == p.line && q.isKey then problem .keyAfterKey q.first
      | [] => pure ()
      let (v, after) ← valueBehind fuel flow .map p.first.place (.missing (lastOf p)) rest
      .ok ((key, v), after)

def blockMap (fuel : Nat) (flow : Bool) (seen : Keys) (ps : List Phrase) :
    Except Problem (Front (List (Node × Node))) :=
  match fuel, ps with
  | 0, _ | _, [] => exhausted
  | fuel + 1, p :: rest => do
    let (entry, after) ← blockEntry fuel flow seen p rest
    match after with
    | [] => .ok ([entry], [])
    | q :: more =>
      if q.column != p.column || (flow && q.kind == .listClose) then .ok ([entry], after)
      else if !q.isMapPart then problem .notMapPart q.first
      else if q.kind == .mapClose then .ok ([entry], more)
      else do
        let (es, r) ← blockMap fuel flow ((keyText p, p.first.place) :: seen) after
        .ok (entry :: es, r)

def blockList (fuel : Nat) (flow : Bool) (column : Nat) (ps : List Phrase) :
    Except Problem (Front (List Node)) :=
  match fuel, ps with
  | 0, _ => exhausted
  | _, [] => .ok ([], [])
  | fuel + 1, p :: rest =>
    if p.kind != .dash || p.column != column then .ok ([], p :: rest)
    else do
      let (v, r) ← valueBehind fuel flow .list p.first.place (.missing p.first) rest
      let (vs, r) ← blockList fuel flow column r
      .ok (v :: vs, r)

def flowList (fuel : Nat) (opening : Token) (isFirst : Bool) (ps : List Phrase) :
    Except Problem (Front (List Node)) :=
  match fuel, ps with
  | 0, _ => exhausted
  | _, [] => problem .openList opening
  | fuel + 1, p :: rest => do
    if p.kind == .listClose then return ([], rest)
    let comma := p.kind == .comma
    if comma && isFirst then problem .commaFirst p.first
    if !comma && !isFirst then problem .commaOrBracket p.first
    match if comma then rest else p :: rest with
    | [] => problem .openList opening
    | q :: more =>
      if q.kind == .listClose then return ([], more)
      let (v, r) ← value fuel true (q :: more)
      let (vs, r) ← flowList fuel opening false r
      return (v :: vs, r)

def flowMap (fuel : Nat) (opening : Token) (isFirst : Bool) (seen : Keys) (ps : List Phrase) :
    Except Problem (Front (List (Node × Node))) :=
  match fuel, ps with
  | 0, _ => exhausted
  | _, [] => problem .openMap opening
  | fuel + 1, p :: rest => do
    if p.kind == .mapClose then return ([], rest)
    let comma := p.kind == .comma
    if !comma && !isFirst then problem .commaOrBrace p.first
    match if comma then rest else p :: rest with
    | [] => problem .noMapEntry p.first
    | q :: more =>
      if q.kind == .mapClose then return ([], more)
      let ((entry, keys), r) ← flowEntry fuel seen q more
      let (es, r) ← flowMap fuel opening false (keys ++ seen) r
      return (entry :: es, r)

/-- An entry inside braces, and its key. A key alone has no value. -/
def flowEntry (fuel : Nat) (seen : Keys) (q : Phrase) (rest : List Phrase) :
    Except Problem (Front ((Node × Node) × Keys)) :=
  match fuel with
  | 0 => exhausted
  | fuel + 1 =>
    match q with
    | .entry k v => do
      let key ← keyNode fuel true seen k
      let (v, _) ← value fuel true [v]
      .ok (((key, v), [(keyText k, k.first.place)]), rest)
    | .key _ _ | .asked _ _ => do
      let key ← keyNode fuel true seen q
      let keys := [(keyText q, q.first.place)]
      if endsEntry rest.head? then .ok (((key, .missing (lastOf q)), keys), rest)
      else if rest.isEmpty then problem .noMapValue (lastOf q)
      else do
        let (v, r) ← value fuel true rest
        .ok (((key, v), keys), r)
    | _ => do
      if !endsEntry rest.head? then problem .noMapEntry q.first
      let (key, _) ← scalarValue fuel true [q]
      .ok (((key, .missing q.first), []), rest)

end

def document (fuel : Nat) (ps : List Phrase) : Except Problem (Option Node) :=
  if ps.isEmpty then .ok none
  else do
    match ← value fuel false ps with
    | (n, []) => .ok (some n)
    | (_, p :: _) => problem .strayValue p.first

def trees (ts : List Token) : Except Problem (List Node) := do
  let docs ← documents [] (← phrases ts)
  let trees ← docs.mapM (document (16 * ts.length + 16))
  .ok (trees.filterMap id)

end DistanceField.Yaml
