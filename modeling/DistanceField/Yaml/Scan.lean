import DistanceField.Yaml.Quote

/-! From the text of a YAML stream to its tokens. A step looks at one character. -/
namespace DistanceField.Yaml

namespace Cursor

/-! Scalars in lines of their own. -/

def emitBlock (s : Cursor) : Cursor :=
  (s.emit (.verbatim .plain s.content s.sourceText s.place)).clear

def lineStep (b : Block) (c : Char) (s : Cursor) : Cursor :=
  let b := b.enter s.column
  let (b, text) := b.fold s.column s.text
  { s with
    block := some b
    delim := if b.first > 1 then b.first - 1 else s.delim
    text := text.collectLine c }.advance 1

def lastStep (b : Block) (c : Char) (s : Cursor) : Except Refusal Cursor :=
  let (b, text) := if s.fresh && c == ' ' then b.space s.column s.text
    else (b, s.text.collect (if isBreak c then '\n' else c))
  let b := b.enter s.column
  if !b.indentOk then s.refuse .shallowLine 1
  else .ok ({ s with block := some b, text }.emitBlock.advance 1)

def blockStep (b : Block) (c : Char) (s : Cursor) : Except Refusal Cursor :=
  let s := s.note c
  if s.isLast then s.lastStep b c
  else if isBreak c then
    let s := { s with
      block := some (b.breakLine (s.column - 1))
      text := s.text.collect '\n' }.nextLine
    .ok (if isMarker s.rest then s.emitBlock else s)
  else if s.fresh && c == ' ' then
    let (b, text) := b.space s.column s.text
    .ok ({ s with block := some b, text }.advance 1)
  else if s.fresh && c == '\t' && b.isBefore s.column then s.refuse .tabInIndent 1
  else if c == '\t' && !b.isBefore s.column then
    .ok ({ s with text := s.text.collectLine c }.advance 1)
  else if !b.blankOk s.column then s.refuse .longBlank 1
  else if !(b.enter s.column).indentOk then s.refuse .shallowLine 1
  else .ok (s.lineStep b c)

/-- A line in front of the last key or dash ends a block; an empty one is an empty text. -/
def endBlock (s : Cursor) : Except Refusal Cursor :=
  match s.tokens with
  | [] => .ok { s with block := none }
  | t :: _ =>
    if t.place.column == 1 then s.refuse .noBlock 0
    else
      let s := if t.kind == .plain then s else s.emit (.verbatim .plain [] [] s.place)
      .ok { s with block := none }

def blockHead (style : BlockStyle) (s : Cursor) : Except Refusal Cursor :=
  let line := (s.rest.drop 1).takeWhile fun c => !isBreak c
  let atEnd := (s.rest.drop 1).length == line.length
  let value := Block.dropEndOf ' ' (if atEnd then line.dropLast else line)
  let option := match value with
    | '#' :: _ => value
    | _ => value.takeWhile (· != '#')
  let option := Utf8.encode ((option.reverse.dropWhile isGap).reverse)
  let source := s.sourceText ++ s.rest.take (line.length + 2)
  if !Block.isOption option then
    let next := (s.notes (s.rest.take (line.length + 2))).advance (line.length + 1)
    .error ⟨.badOption option, s.place, next⟩
  else
    let delim := if s.column == 1 then 1 else s.delim
    let head := source.takeWhile (· != '#')
    let rest := source.drop head.length
    let next := s.emit
      { kind := .blockHead, text := Utf8.encode (s.rest.take 1) ++ option, source := head
        place := s.place }
    let next := if rest.isEmpty then next else next.emit
      { kind := .comment, text := [], source := rest
        place := ⟨s.line, s.column + head.length⟩ }
    .ok ({ next with
      delim, block := some (Block.start style delim option), shift := .keep
      text := {}, source := {} }.skip (line.length + 1)).nextLine

/-! Marks. -/

def emitMark (kind : Kind) (mark : String) (s : Cursor) : Cursor :=
  let source := s.sourceText ++ mark.toList
  ((s.emit { kind, text := mark, source, place := s.place }).advance mark.length).clear

def emitBare (kind : Kind) (mark : Char) (s : Cursor) : Cursor :=
  let token := { kind, text := Utf8.encode [mark], source := [mark], place := s.place : Token }
  ((s.emit token).advance 1).clear

/-- A tag runs to the next blank; inside brackets a comma ends it too. -/
def tag (s : Cursor) : Except Refusal Cursor :=
  let body := (s.rest.drop 1).takeWhile fun c =>
    c != ' ' && !isBreak c && !(c == ',' && s.inFlow) && c != '\x7b' && c != '\x7d'
  let name := '!' :: body
  let emitTag := fun (source : List Char) => s.emit
    { kind := .tag, text := Utf8.encode name, source := s.sourceText ++ source, place := s.place }
  match s.rest.drop name.length with
  | [] => .ok (s.skip name.length).clear
  | c :: _ =>
    if c == '\x7b' || c == '\x7d' then
      ((s.notes (name ++ [c])).skip 1 |>.advance name.length).refuse .badTag 0
    else if c == ' ' then
      .ok { ((emitTag (name ++ [c])).skip (name.length + 1)).clear with
        column := s.column + name.length }
    else
      .ok { ((emitTag name).skip name.length).clear with
        column := s.column + (name.length - 1) }

/-- A comment up to the end of its line; inside a scalar it needs a blank before it. -/
def comment? (s : Cursor) : Option Cursor :=
  if !s.text.isEmpty && !isGap s.last && !isBreak s.last then none
  else
    let s := s.flush
    let line := s.rest.takeWhile fun c => !isBreak c
    let token := { kind := .comment, text := Utf8.encode (line.drop 1), place := s.place
                   source := s.sourceText ++ s.rest.take (line.length + 1) : Token }
    some ((s.emit token).skip line.length).nextLine.clear

def isMergeKey (cs : List Char) : Bool :=
  match cs with
  | '<' :: '<' :: rest =>
    match rest.dropWhile (· == ' ') with
    | ':' :: c :: _ => c == ' ' || isBreak c
    | _ => false
  | _ => false

def isDivider (c : Char) (s : Cursor) : Bool :=
  s.indent == 0 && s.column == 1 && s.rest.take 3 == [c, c, c] && (s.rest.drop 3).head? != some c

def isTabbed (s : Cursor) : Bool :=
  let source := match s.sourceText with
    | ' ' :: rest => rest
    | t => t
  source.head? == some '\t' && s.text.chars.getLast? != some '\t'

def isKeyEnd (s : Cursor) : Bool :=
  let blank := match s.peek with
    | some c => isGap c || isBreak c
    | none => true
  !s.inDirective && !s.inAnchor && !s.inAlias && (s.maps > 0 || blank) &&
    !(s.maps > 0 && s.peek == some '/') &&
    !(s.maps > 0 && (s.tokens.head?.map (·.kind)) == some .colon)

def keyEnd (s : Cursor) : Except Refusal Cursor :=
  if s.isTabbed then s.refuse .tabBeforeKey 1
  else
    let delim := match s.pending? with
      | some t => t.place.column
      | none =>
        match s.tokens with
        | t :: _ => if t.kind == .quoted then t.place.column else s.delim
        | [] => s.delim
    .ok { s.flush.emitBare .colon ':' with delim }

/-- The end of a line outside quotes and blocks. Inside a plain scalar it is a space, and of several
one is lost. -/
def endLine (c : Char) (s : Cursor) : Cursor :=
  let s := if s.text.size > 0 && s.saved.isNone then
    { s with saved := some ⟨s.line, s.column - s.text.solid⟩ } else s
  let s := if s.source.size > s.source.solid then
    { s with source := s.source.trimmed, text := s.text.trimmed } else s
  let s := if s.isLast || s.inAnchor || s.inAlias || s.inDirective then s.flush else s
  let text := if !s.text.isEmpty && s.fresh then
      match s.text.chars with
      | ' ' :: rest => { s.text with chars := '\n' :: rest }
      | chars => { s.text with chars := '\n' :: chars, size := s.text.size + 1 }
    else s.text.collect ' '
  ({ s with text }.note c).nextLine

def plainStep (c : Char) (s : Cursor) : Cursor := ((s.collect c).note c).advance 1

def bracketStep (c : Char) (s : Cursor) : Cursor :=
  let opens := s.text.isEmpty || s.inFlow
  match c with
  | '\x7b' =>
    if opens then { s.flush.emitMark .mapOpen "\x7b" with maps := s.maps + 1 } else s.plainStep c
  | '\x7d' =>
    if s.maps > 0 then { s.flush.emitMark .mapClose "\x7d" with maps := s.maps - 1 }
    else s.plainStep c
  | '[' =>
    if opens then { s.flush.emitMark .listOpen "[" with lists := s.lists + 1 } else s.plainStep c
  | ']' =>
    if s.text.isEmpty || s.lists > 0 then
      { s.flush.emitMark .listClose "]" with lists := s.lists - 1 }
    else s.plainStep c
  | _ => if s.inFlow then s.flush.emitMark .comma "," else s.plainStep c

def dashStep (s : Cursor) : Cursor :=
  let ends := fun (c : Option Char) => match c with
    | some c => isGap c || isBreak c
    | none => true
  if s.isDivider '-' && ends (s.rest.drop 3).head? then
    { s.flush.emitMark .documentStart "---" with delim := 0, indent := 0 }
  else if !s.text.isEmpty && s.shift == .up then
    { s.plainStep '-' with block := some (Block.enter s.column { style := .dashed, option := [] }) }
  else if s.text.isEmpty && ends s.peek then { s.emitMark .dash "-" with delim := s.column }
  else s.plainStep '-'

def gapStep (c : Char) (s : Cursor) : Except Refusal Cursor :=
  if c == ' ' then
    .ok (if s.fresh then (s.note c).advance 1
      else if s.inDirective then (s.flush.note c).advance 1
      else if s.inAnchor || s.inAlias then
        { s.flush with inAnchor := false, inAlias := false }.plainStep c
      else s.plainStep c)
  else if (!s.text.isEmpty && s.delim == 0) || s.delim < s.column then
    .ok { (s.note c).skip 1 with indent := s.indent + 1 }
  else if !s.inFlow && s.fresh then (s.note c).refuse .tabAtStart 1
  else .ok (s.plainStep c)

/-- One character outside a block. Most marks count only where a scalar may start. -/
def freeStep (c : Char) (s : Cursor) : Except Refusal Cursor :=
  let starts := s.text.isEmpty
  match c with
  | '\x7b' | '\x7d' | '[' | ']' | ',' => .ok (s.bracketStep c)
  | '-' => .ok s.dashStep
  | ' ' | '\t' => s.gapStep c
  | '\n' | '\r' => .ok (s.endLine c)
  | '#' => .ok (s.comment?.getD (s.plainStep c))
  | '.' => .ok (if s.isDivider c then s.flush.emitMark .documentEnd "..." else s.plainStep c)
  | '<' =>
    .ok (if isMergeKey s.rest then { s.emitMark .merge "<<" with delim := s.column }
      else s.plainStep c)
  | ':' => if s.isKeyEnd then s.keyEnd else .ok (s.plainStep c)
  | '|' => if starts then s.blockHead .literal else .ok (s.plainStep c)
  | '>' => if starts then s.blockHead .folded else .ok (s.plainStep c)
  | '!' => if starts && !s.inDirective then s.tag else .ok (s.plainStep c)
  | '%' =>
    .ok (if starts && s.indent == 0 then { s.emitMark .directive "%" with inDirective := true }
      else s.plainStep c)
  | '?' =>
    .ok (if starts && (s.peek.map isGap) == some true then
        { s.emitBare .question c with delim := s.column }
      else s.plainStep c)
  | '&' => .ok (if starts then { s.emitMark .anchor "&" with inAnchor := true } else s.plainStep c)
  | '*' =>
    .ok (if starts then { s.emitMark .reference "*" with inAlias := true } else s.plainStep c)
  | '\'' => if starts then s.quoted true else .ok (s.plainStep c)
  | '"' => if starts then s.quoted false else .ok (s.plainStep c)
  | '@' | '\x60' => if starts then (s.note c).refuse (.reserved c) 1 else .ok (s.plainStep c)
  | _ => .ok (s.plainStep c)

def step (s : Cursor) : Except Refusal Cursor :=
  match s.rest with
  | [] => .ok s
  | c :: _ =>
    let s := s.arrive c
    let s := if s.shift == .down then s.flush else s
    match s.block with
    | none => s.freeStep c
    | some b => if s.shift == .down then s.endBlock.bind (freeStep c) else s.blockStep b c

/-- Reads on behind what is refused. -/
def run : (fuel : Nat) → Cursor → Cursor
  | 0, s => s
  | fuel + 1, s =>
    if s.rest.isEmpty then s
    else match s.step with
      | .ok s => run fuel s
      | .error r => run fuel r.settle

end Cursor

def normalBreaks : List Char → List Char
  | '\r' :: '\n' :: rest => '\n' :: normalBreaks rest
  | c :: rest => c :: normalBreaks rest
  | [] => []

/-- The tokens of a stream, comments and what is refused among them. -/
def tokens (b : Bytes) : List Token :=
  let cs := normalBreaks (Utf8.chars b)
  (Cursor.run (2 * cs.length) { rest := cs }).flush.tokens.reverse

end DistanceField.Yaml
