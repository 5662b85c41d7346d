import DistanceField.Yaml.Token

/-! The state of reading a YAML stream: what is left, the place, the scalar being collected, and the
tokens found so far. Columns decide what belongs together, so every step keeps track of them. -/
namespace DistanceField.Yaml

def isBreak (c : Char) : Bool := c == '\n' || c == '\r'

def isGap (c : Char) : Bool := c == ' ' || c == '\t'

/-- Collected characters, the last one first. `solid` of them reach up to the last that is no
blank. -/
structure Buffer where
  chars : List Char := []
  size : Nat := 0
  solid : Nat := 0

namespace Buffer

def push (c : Char) (b : Buffer) : Buffer :=
  ⟨c :: b.chars, b.size + 1, if isGap c then b.solid else b.size + 1⟩

/-- Blanks in front are not collected. -/
def collect (c : Char) (b : Buffer) : Buffer := if b.size == 0 && isGap c then b else b.push c

/-- Spaces in front are not collected, and tabs are no blanks. -/
def collectLine (c : Char) (b : Buffer) : Buffer :=
  if c != ' ' then ⟨c :: b.chars, b.size + 1, b.size + 1⟩
  else if b.size == 0 then b
  else b.push c

def trimmed (b : Buffer) : Buffer := ⟨b.chars.drop (b.size - b.solid), b.solid, b.solid⟩

def text (b : Buffer) : List Char := b.trimmed.chars.reverse

def isEmpty (b : Buffer) : Bool := b.solid == 0

end Buffer

inductive BlockStyle where
  | literal
  | folded
  /-- A plain scalar that goes on with a line that starts with a dash. -/
  | dashed
  deriving BEq

/-- A scalar in lines of its own. `first` is the column of its first line once that is known,
`current` and `earlier` those of this line and the line before, `filled` that of the last line that
was not blank, and `blank` that of blank lines before the first. -/
structure Block where
  style : BlockStyle
  option : Bytes
  first : Nat := 0
  current : Nat := 0
  earlier : Nat := 0
  filled : Nat := 0
  blank : Nat := 0
  folding : Bool := false

namespace Block

def strips (b : Block) : Bool :=
  b.style == .dashed || b.option.head? == some 45 || b.option.getLast? == some 45

def keeps (b : Block) : Bool := b.option.head? == some 43 || b.option.getLast? == some 43

def dropEndOf (c : Char) (t : List Char) : List Char := (t.reverse.dropWhile (· == c)).reverse

/-- Of the line breaks at the end one stays, or none, or all. -/
def chomp (b : Block) (t : List Char) : List Char :=
  let t :=
    if b.strips then dropEndOf ' ' (dropEndOf '\n' t)
    else if b.keeps then t
    else
      let body := dropEndOf '\n' t
      t.take (body.length + 1)
  let t := if t == ['\n'] then [] else t
  if b.keeps && t.isEmpty then ['\n'] else t

def withoutSigns (option : Bytes) : Bytes :=
  let o := (Bytes.after? "-" option).getD option
  let o := (Bytes.after? "+" o).getD o
  dropEnd "+" (dropEnd "-" o)

def indentOf (option : Bytes) : Nat := (naturalOf? 10 (withoutSigns option)).getD 0

def isOption (option : Bytes) : Bool :=
  let o := withoutSigns option
  o.isEmpty || (match naturalOf? 10 o with
    | some n => o != [48] && n ≤ 9
    | none => false)

def start (style : BlockStyle) (delim : Nat) (option : Bytes) : Block :=
  { style, option, first := if indentOf option > 0 then delim + indentOf option else 0 }

def enter (column : Nat) (b : Block) : Block :=
  { b with
    first := if b.first == 0 then column else b.first
    current := if b.current == 0 then column else b.current }

def breakLine (column : Nat) (b : Block) : Block :=
  { b with
    blank := if b.first == 0 then column else b.blank
    earlier := b.current
    filled := if b.current == 0 then b.filled else b.current
    folding := true
    current := 0 }

def isBefore (column : Nat) (b : Block) : Bool :=
  if b.first == 0 then column == 1 else column < b.first

/-- Blank lines before the first line must not be longer than its indent. -/
def blankOk (column : Nat) (b : Block) : Bool := b.first != 0 || b.blank ≤ column

/-- A number in the header must not exceed the indent. -/
def indentOk (b : Block) : Bool := indentOf b.option == 0 || b.first ≤ b.current

/-- A space at a column in front of a line. One behind the indent belongs to the text. -/
def space (column : Nat) (b : Block) (t : Buffer) : Block × Buffer :=
  if b.first == 0 || column < b.first then (b, t)
  else
    ({ b with folding := if b.style == .literal then b.folding else false },
      ⟨' ' :: t.chars, t.size + 1, t.size + 1⟩)

/-- A line break between two lines of one column becomes a space, and of several one is lost. -/
def fold (column : Nat) (b : Block) (t : Buffer) : Block × Buffer :=
  if b.style == .literal || !b.folding then (b, t)
  else
    let t : Buffer :=
      if b.current == b.earlier then
        match t.chars with
        | '\n' :: rest => { t with chars := ' ' :: rest }
        | _ => t
      else if b.earlier == 0 && b.filled == column then
        match t.chars with
        | '\n' :: '\n' :: rest => ⟨'\n' :: rest, t.size - 1, t.size - 1⟩
        | _ => t
      else t
    ({ b with folding := false }, t)

end Block

inductive Shift where
  | keep
  | up
  | down
  deriving BEq

structure Cursor where
  rest : List Char
  last : Char := '\x00'
  line : Nat := 1
  column : Nat := 1
  /-- The column of the last key or dash. -/
  delim : Nat := 0
  indent : Nat := 0
  /-- Only blanks so far on this line. -/
  fresh : Bool := true
  shift : Shift := .keep
  /-- Reading the name of an anchor, of an alias, or a directive. -/
  inAnchor : Bool := false
  inAlias : Bool := false
  inDirective : Bool := false
  /-- Open brackets. -/
  lists : Nat := 0
  maps : Nat := 0
  /-- Where a scalar of several lines starts. -/
  saved : Option Place := none
  text : Buffer := {}
  source : Buffer := {}
  block : Option Block := none
  /-- The last one first. -/
  tokens : List Token := []
  count : Nat := 0

namespace Cursor

def place (s : Cursor) : Place := ⟨s.line, s.column⟩

def peek (s : Cursor) : Option Char := (s.rest.drop 1).head?

def isLast (s : Cursor) : Bool := (s.rest.drop 1).isEmpty

def inFlow (s : Cursor) : Bool := s.lists > 0 || s.maps > 0

def skip (n : Nat) (s : Cursor) : Cursor :=
  { s with rest := s.rest.drop n, last := (s.rest.take n).getLastD s.last }

def advance (n : Nat) (s : Cursor) : Cursor := { s.skip n with column := s.column + n }

def nextLine (s : Cursor) : Cursor :=
  { s.skip 1 with
    line := s.line + 1, column := 1, indent := 0, fresh := true
    inAnchor := false, inAlias := false, inDirective := false }

def note (c : Char) (s : Cursor) : Cursor := { s with source := s.source.push c }

def notes (cs : List Char) (s : Cursor) : Cursor :=
  { s with source := cs.foldl (fun b c => b.push c) s.source }

def collect (c : Char) (s : Cursor) : Cursor := { s with text := s.text.collect c }

def emit (t : Token) (s : Cursor) : Cursor :=
  { s with tokens := { t with index := s.count } :: s.tokens, count := s.count + 1 }

def clear (s : Cursor) : Cursor := { s with text := {}, source := {}, block := none }

def sourceText (s : Cursor) : List Char := s.source.chars.reverse

def content (s : Cursor) : List Char :=
  match s.block with
  | some b => b.chomp s.text.text
  | none => s.text.text

def contentPlace (s : Cursor) : Place :=
  match s.saved with
  | some p => p
  | none =>
    match s.block with
    | some _ => ⟨s.line, if s.text.chars.reverse.isPrefixOf s.sourceText then 1 else 0⟩
    | none => ⟨s.line, s.column - s.text.size⟩

/-- Behind a tag that is not known everything is text. -/
def isTagged (s : Cursor) : Bool :=
  match s.tokens with
  | t :: _ => t.kind == .tag && !isOne knownTags t.text
  | [] => false

def pending? (s : Cursor) : Option Token :=
  let t := s.content
  if t.isEmpty then none
  else if s.block.isSome || s.isTagged then
    some (.verbatim .plain t s.sourceText s.contentPlace)
  else some (.plain t s.sourceText s.contentPlace)

def flush (s : Cursor) : Cursor :=
  match s.pending? with
  | some t => { s.emit t with saved := none, text := {}, source := {} }
  | none => { s with saved := none, text := {} }

def arrive (c : Char) (s : Cursor) : Cursor :=
  if !s.fresh then { s with shift := .keep }
  else if isBreak c || c == '\t' then s
  else if c == ' ' then { s with indent := s.indent + 1 }
  else
    { s with
      fresh := false
      shift := if s.delim == 0 then s.shift else if s.delim < s.column then .up else .down }

end Cursor

structure Refusal where
  flaw : Flaw
  place : Place
  next : Cursor

namespace Cursor

def refuse {α : Type} (flaw : Flaw) (n : Nat) (s : Cursor) : Except Refusal α :=
  .error ⟨flaw, s.place, s.advance n⟩

end Cursor

def Refusal.settle (r : Refusal) : Cursor :=
  let source := r.next.sourceText
  (r.next.emit { kind := .refused, text := Utf8.encode source, source, place := r.place
                 flaw := some r.flaw }).clear

end DistanceField.Yaml
