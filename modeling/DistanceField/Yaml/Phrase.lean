import DistanceField.Yaml.Scan

/-! Tokens put together: a block with its text, an anchor or a tag with its scalar, a key with its
colon, and a key with a scalar on the same line. -/
namespace DistanceField.Yaml

inductive Phrase where
  | token (t : Token)
  /-- A block and the text below its head. -/
  | block (head : Token) (body : Option Token)
  /-- An anchor whose value follows. -/
  | anchorName (mark : Token) (name : Phrase)
  | anchor (mark : Token) (name value : Phrase)
  | reference (mark : Token) (name : Phrase)
  | tagged (tag : Token) (value : Phrase)
  /-- A key behind a question mark. -/
  | asked (mark : Token) (key : Phrase)
  /-- A key and its colon. -/
  | key (key : Phrase) (colon : Token)
  | entry (key value : Phrase)
  | directive (mark name : Token) (values : List Token)

namespace Phrase

def first : Phrase → Token
  | token t | block t _ | anchorName t _ | anchor t _ _ | reference t _ | tagged t _ | asked t _
  | directive t _ _ => t
  | key k _ => k.first
  | entry k _ => k.first

def kind (p : Phrase) : Kind := p.first.kind

def line (p : Phrase) : Nat := p.first.place.line

def column (p : Phrase) : Nat := p.first.place.column

def columnOf (p : Option Phrase) : Nat := (p.map column).getD 0

def isKey : Phrase → Bool
  | asked _ _ | key _ _ | entry _ _ => true
  | _ => false

def isAnchorName : Phrase → Bool
  | anchorName _ _ => true
  | _ => false

def isTagged : Phrase → Bool
  | tagged _ _ => true
  | _ => false

def isScalar (p : Phrase) : Bool :=
  !p.isKey && [Kind.anchor, .reference, .blockHead, .quoted, .plain].contains p.kind

def isMapPart (p : Phrase) : Bool :=
  match p with
  | token t => t.kind == .mapOpen || t.kind == .mapClose
  | p => p.isKey

end Phrase

/-! The passes, in order. -/

def joinBlocks : List Token → List Phrase
  | [] => []
  | [t] => [if t.kind == .blockHead then .block t none else .token t]
  | t :: u :: rest =>
    if t.kind == .blockHead then .block t (some u) :: joinBlocks rest
    else .token t :: joinBlocks (u :: rest)

/-- Anchors with a scalar on the same line, and aliases. Both need a name, and after an anchor
something must follow. -/
def joinAnchors : List Phrase → Except Problem (List Phrase)
  | [] => .ok []
  | [p] =>
    if p.kind == .anchor then problem .noAnchorName p.first
    else if p.kind == .reference then problem .noAliasName p.first
    else .ok [p]
  | [p, n] =>
    if p.kind == .anchor then problem .noAnchorValue p.first
    else if p.kind == .reference then .ok [.reference p.first n]
    else (joinAnchors [n]).map (p :: ·)
  | p :: n :: v :: rest =>
    if p.kind == .anchor then
      if p.line == v.line && v.kind == .dash then problem .dashAfterAnchor v.first
      else if p.line == v.line && v.isScalar then
        (joinAnchors rest).map (.anchor p.first n v :: ·)
      else (joinAnchors (v :: rest)).map (.anchorName p.first n :: ·)
    else if p.kind == .reference then (joinAnchors (v :: rest)).map (.reference p.first n :: ·)
    else (joinAnchors (n :: v :: rest)).map (p :: ·)

def joinsTag (tag : Token) (next : Phrase) : Except Problem Bool :=
  if tag.place.line != next.line || next.isAnchorName then .ok false
  else if isOne scalarTags tag.text then .ok next.isScalar
  else if tag.text == Bytes.ofString "!!merge" then
    if next.kind == .merge then .ok true else problem .noMergeKey next.first
  else if Bytes.startsWith tag.text "!!" then .ok false
  else .ok !([Kind.mapOpen, .mapClose, .listOpen, .dash].contains next.kind)

def joinTags : List Phrase → Except Problem (List Phrase)
  | [] => .ok []
  | [p] => .ok [p]
  | p :: q :: rest =>
    if p.kind == .tag then
      match joinsTag p.first q with
      | .error e => .error e
      | .ok true => (joinTags rest).map (.tagged p.first q :: ·)
      | .ok false => (joinTags (q :: rest)).map (p :: ·)
    else (joinTags (q :: rest)).map (p :: ·)

def joinTaggedAnchors : List Phrase → Except Problem (List Phrase)
  | [] => .ok []
  | [p] => if p.isAnchorName then problem .noAnchorValue p.first else .ok [p]
  | p :: q :: rest =>
    match p with
    | .anchorName mark name =>
      if p.line == q.line && q.isTagged then
        (joinTaggedAnchors rest).map (.anchor mark name q :: ·)
      else (joinTaggedAnchors (q :: rest)).map (p :: ·)
    | _ => (joinTaggedAnchors (q :: rest)).map (p :: ·)

def joinAsked : List Phrase → Except Problem (List Phrase)
  | [] => .ok []
  | [p] => if p.kind == .question then problem .noKey p.first else .ok [p]
  | p :: q :: rest =>
    if p.kind == .question then (joinAsked rest).map (.asked p.first q :: ·)
    else (joinAsked (q :: rest)).map (p :: ·)

def isNoKey (k : Kind) : Bool :=
  [Kind.directive, .documentStart, .documentEnd, .comma, .mapOpen, .colon, .mapClose, .listOpen,
    .listClose].contains k

def joinKeys : List Phrase → Except Problem (List Phrase)
  | [] => .ok []
  | [p] => if p.kind == .colon then problem .badKey p.first else .ok [p]
  | p :: q :: rest =>
    if p.kind == .colon then problem .badKey p.first
    else if q.kind == .colon then
      if isNoKey p.kind then problem .badKey q.first
      else (joinKeys rest).map (.key p q.first :: ·)
    else (joinKeys (q :: rest)).map (p :: ·)

def checkFirst : List Phrase → Except Problem Unit
  | p :: _ => if p.kind == .colon then problem .badKeyName p.first else .ok ()
  | [] => .ok ()

def joinsValue (key value : Phrase) : Bool :=
  key.line == value.line && !value.isAnchorName && (value.isScalar || value.isTagged)

def joinEntries : List Phrase → List Phrase
  | [] => []
  | [p] => [p]
  | p :: q :: rest =>
    if p.isKey && joinsValue p q then .entry p q :: joinEntries rest
    else p :: joinEntries (q :: rest)

def joinDirectives : List Phrase → Except Problem (List Phrase)
  | [] => .ok []
  | [p] => if p.kind == .directive then problem .noDirective p.first else .ok [p]
  | p :: n :: rest =>
    if p.kind == .directive then
      let values := rest.takeWhile fun q => q.line == p.line
      match rest.drop values.length with
      | [] => problem .noDocument p.first
      | next :: _ =>
        if next.kind == .documentStart then
          (joinDirectives (rest.drop values.length)).map
            (.directive p.first n.first (values.map Phrase.first) :: ·)
        else problem .noDocument p.first
    else (joinDirectives (n :: rest)).map (p :: ·)
termination_by ps => ps.length
decreasing_by all_goals simp only [List.length_drop, List.length_cons]; omega

def checkTokens (ts : List Token) : Except Problem Unit :=
  match ts.findSome? fun t => t.flaw.map fun f => (f, t) with
  | some (flaw, t) => problem flaw t
  | none => .ok ()

def phrases (ts : List Token) : Except Problem (List Phrase) := do
  checkTokens ts
  let ps ← joinAnchors (joinBlocks (ts.filter (·.kind != .comment)))
  let ps ← joinTaggedAnchors (← joinTags ps)
  let ps ← joinAsked ps
  checkFirst ps
  joinDirectives (joinEntries (← joinKeys ps))

/-- The documents of a stream, without the marks between them. `seen` is what came since the last
mark, the last phrase first. -/
def documents (seen : List Phrase) : List Phrase → Except Problem (List (List Phrase))
  | [] => .ok [seen.reverse]
  | p :: rest =>
    let before := if seen.isEmpty then [] else [seen.reverse]
    if p.kind == .documentStart then
      match rest with
      | [] => .ok (before ++ [[]])
      | q :: _ =>
        if q.kind == .documentStart then .ok (before ++ [[]])
        else if p.line == q.line && (q.isKey || q.kind == .dash) then
          problem .valueAfterDivider q.first
        else (documents [] rest).map (before ++ ·)
    else if p.kind == .documentEnd then
      match rest with
      | [] => .ok before
      | q :: _ =>
        if q.isScalar then problem .valueAfterEnd q.first
        else (documents [] rest).map (before ++ ·)
    else documents (p :: seen) rest

end DistanceField.Yaml
