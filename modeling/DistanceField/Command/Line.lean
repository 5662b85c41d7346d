import DistanceField.Command.Grammar

/-! Reading a command line. -/
namespace DistanceField.Command

inductive Usage where
  | unknownFlag (flag : Bytes) (near : List Bytes)
  | unexpected (arg : Bytes)
  | badValue (subject why : Bytes)
  | badChoice (flag : Bytes) (options : List Bytes) (value : Bytes)
  | missingFlags (flags : List Bytes)
  | missingArgument (name : Bytes)
deriving DecidableEq, Repr

namespace Usage

def guesses (near : List Bytes) : Bytes :=
  match near with
  | [] => []
  | [n] => ", did you mean " ++ Quoted.quote n ++ "?"
  | ns => ", did you mean one of " ++ Bytes.join ", " (ns.map Quoted.quote) ++ "?"

def message : Usage → Bytes
  | unknownFlag f near => "unknown flag " ++ f ++ guesses near
  | unexpected a => "unexpected argument " ++ a
  | badValue subject why => subject ++ ": " ++ why
  | badChoice f options v =>
    f ++ " must be one of " ++ Bytes.join "," (options.map Quoted.quote) ++ " but got " ++
      Quoted.quote v
  | missingFlags fs => "missing flags: " ++ Bytes.join ", " fs
  | missingArgument n => "expected " ++ Quoted.quote ("<" ++ n ++ ">")

/-! Edits that turn one name into another: the next row of the table of distances. -/

def nextRow (c : Char) : (left diagonal : Nat) → List Char → List Nat → List Nat
  | left, diagonal, d :: t, above :: row =>
    let here := if c == d then diagonal else min above (min left diagonal) + 1
    here :: nextRow c here above t row
  | _, _, _, _ => []

def lastRow (t : List Char) : (n : Nat) → List Nat → List Char → List Nat
  | _, row, [] => row
  | n, row, c :: s =>
    lastRow t (n + 1) ((n + 1) :: nextRow c (n + 1) (row.headD 0) t (row.drop 1)) s

/-- The least number of edits from one name to another. -/
def distance (s t : List Char) : Nat := (lastRow t 0 (List.range (t.length + 1)) s).getLastD 0

def close (text : Bytes) (names : List Bytes) : List Bytes :=
  names.filter fun n => text.isPrefixOf n || distance (Utf8.chars n) (Utf8.chars text) ≤ 2

end Usage

/-- An argument as far as it was read: as it was given, the rest of some short flags, a value behind
an equals sign, or an argument for sure. -/
inductive Piece where
  | raw (b : Bytes)
  | tail (b : Bytes)
  | value (b : Bytes)
  | sure (b : Bytes)
deriving DecidableEq, Repr

def Piece.text : Piece → Bytes
  | raw b | tail b | value b | sure b => b

def Piece.flagSort? : Piece → Option Bytes
  | raw b =>
    if b == [45] then none
    else if b.take 2 == [45, 45] then some "long flag"
    else if b.take 1 == [45] then some "short flag"
    else none
  | _ => none

/-- A command line as far as it was read: the nodes entered, what flags were given, the switches
that were negated, and the source. -/
structure Line where
  path : List Node := [.root]
  given : List ((Node × Bytes) × Given) := []
  negated : List (Node × Bytes) := []
  source : Option Bytes := none

namespace Line

def get? (l : Line) (n : Node) (name : Bytes) : Option Given := l.given.lookup (n, name)

def set (l : Line) (n : Node) (name : Bytes) (g : Given) : Line :=
  { l with given := ((n, name), g) :: l.given.filter fun x => x.1 != (n, name) }

def add (l : Line) (n : Node) (name : Bytes) (g : Given) : Line :=
  match l.get? n name, g with
  | some (.texts old), .texts new => l.set n name (.texts (old ++ new))
  | _, g => l.set n name g

def noValue (f : Flag) (next : Option Piece) : Usage :=
  let lead : Bytes := "expected " ++ f.wanted ++ " value but got "
  match next with
  | none => .badValue f.long (lead ++ "\"EOL\" (<EOL>)")
  | some p =>
    .badValue f.long (lead ++ Quoted.quote p.text ++ " (" ++ (p.flagSort?.getD []) ++
      "); perhaps try " ++ f.long ++ "=" ++ Quoted.quote p.text ++ "?")

def valueOf (f : Flag) (rest : List Piece) : Except Usage (Given × List Piece) :=
  match rest with
  | [] =>
    match f.take with
    | .list d =>
      let divider : Bytes := match d with
        | some c => [c]
        | none => Bytes.ofChar Utf8.replacement
      .error (.badValue f.long ("missing value, expecting \"<arg>" ++ divider ++ "...\""))
    | _ => .error (noValue f none)
  | p :: rest =>
    if p.flagSort?.isSome then
      let shown := match f.take with
        | .list (some d) => .raw ((splitParts d [] p.text).headD [])
        | _ => p
      .error (noValue f (some shown))
    else match f.read (.text p.text) with
      | .ok g => .ok (g, rest)
      | .error why => .error (.badValue f.long why)

/-- A switch takes a value only behind an equals sign. -/
def switchOf (f : Flag) (rest : List Piece) : Except Usage (Bool × List Piece) :=
  match rest with
  | .value v :: rest =>
    match switchValue (.text v) with
    | .ok b => .ok (b, rest)
    | .error why => .error (.badValue f.long why)
  | rest => .ok (true, rest)

def matches_ (f : Flag) (spelling : Bytes) : Bool :=
  f.long == spelling || (!f.short.isEmpty && 45 :: f.short == spelling) ||
    f.negation? == some spelling

/-- Reads one flag. A switch that was negated once stays so. -/
def readFlag (l : Line) (n : Node) (spelling : Bytes) (rest : List Piece) :
    Except Usage (Line × List Piece) :=
  match n.available.find? fun (_, f) => matches_ f spelling with
  | none =>
    let names := n.available.flatMap fun (_, f) =>
      f.long :: if f.short.isEmpty then [] else [45 :: f.short]
    .error (.unknownFlag spelling (Usage.close spelling names))
  | some (owner, f) =>
    let key := (owner, f.name)
    if f.isSwitch then do
      let l := if f.negation? == some spelling then { l with negated := key :: l.negated } else l
      let (on, rest) ← switchOf f rest
      .ok (l.set owner f.name (.switch (on != l.negated.contains key)), rest)
    else do
      let (g, rest) ← valueOf f rest
      .ok (l.add owner f.name g, rest)

def readSource (check : Bytes → Except Bytes Bytes) (l : Line) (n : Node) (b : Bytes) :
    Except Usage Line :=
  match n.source with
  | .file =>
    if b == [45] then .ok { l with source := some b }
    else match check b with
      | .ok path => .ok { l with source := some path }
      | .error why => .error (.badValue "<source>" why)
  | _ => .ok { l with source := some b }

def readArgument (check : Bytes → Except Bytes Bytes) (l : Line) (n : Node) (b : Bytes) :
    Except Usage (Line × Node) :=
  if n.source != .none && l.source.isNone then do .ok (← readSource check l n b, n)
  else match n.children.find? fun c => c.name == b with
    | some c => .ok ({ l with path := l.path ++ [c] }, c)
    | none =>
      match n.default? with
      | some c => do .ok (← readSource check { l with path := l.path ++ [c] } c b, c)
      | none => .error (.unexpected b)

/-- Reads the pieces below a node. The fuel is the number of bytes and arguments. -/
def read (check : Bytes → Except Bytes Bytes) :
    (fuel : Nat) → Line → Node → List Piece → Except Usage (Line × Node)
  | 0, l, n, _ => .ok (l, n)
  | _, l, n, [] => .ok (l, n)
  | fuel + 1, l, n, p :: rest =>
    match p with
    | .tail b => do
      let more := b.drop 1
      let rest := if more.isEmpty then rest else .tail more :: rest
      let (l, rest) ← l.readFlag n (45 :: b.take 1) rest
      read check fuel l n rest
    | .sure b | .value b => do
      let (l, n) ← l.readArgument check n b
      read check fuel l n rest
    | .raw b =>
      if b == Bytes.ofString "--" then read check fuel l n (rest.map fun p => .sure p.text)
      else if b.take 2 == [45, 45] then do
        let (spelling, rest) := match Bytes.cut 61 b with
          | some (s, v) => (s, .value v :: rest)
          | none => (b, rest)
        let (l, rest) ← l.readFlag n spelling rest
        read check fuel l n rest
      else if b.take 1 == [45] && b != [45] then read check fuel l n (.tail (b.drop 1) :: rest)
      else do
        let (l, n) ← l.readArgument check n b
        read check fuel l n rest

def ofArgs (check : Bytes → Except Bytes Bytes) (args : List Bytes) : Except Usage Line := do
  let fuel := 2 * total (args.map fun a => a.length + 1) + 1
  let (l, n) ← read check fuel {} .root (args.map .raw)
  match n.default? with
  | some c => .ok { l with path := l.path ++ [c] }
  | none => .ok l

abbrev Files := Option Bytes → Bytes → List Config.Value

def resolveFlag (files : Files) (n : Node) (l : Line) (f : Flag) : Except Usage Line :=
  let command := if n == .root then none else some n.name
  match l.get? n f.name, (files command f.name).getLast? with
  | some _, _ => .ok l
  | none, none => .ok l
  | none, some v =>
    match f.read v with
    | .ok g => .ok (l.set n f.name g)
    | .error why => .error (.badValue f.long why)

/-- Flags that were not given take what the files say. -/
def resolve (files : Files) (l : Line) : Except Usage Line :=
  l.path.foldlM (fun l n => n.flags.foldlM (resolveFlag files n) l) l

def command (l : Line) : Node := l.path.getLastD .root

def checkChoice (l : Line) (n : Node) (f : Flag) : Except Usage Unit :=
  match f.take, l.get? n f.name with
  | .choice options, some (.text v) =>
    if options.contains v then .ok () else .error (.badChoice f.long options v)
  | _, _ => .ok ()

def missing (l : Line) (n : Node) : List Bytes :=
  n.flags.filterMap fun f => match f.needed with
    | some placeholder =>
      if (l.get? n f.name).isNone then some (f.long ++ "=" ++ placeholder) else none
    | none => none

/-- Choices, then flags that have to be there, then the source. -/
def validate (l : Line) : Except Usage Unit := do
  for n in l.path do
    for f in n.flags do
      l.checkChoice n f
  for n in l.path do
    match l.missing n with
    | [] => pure ()
    | fs => .error (.missingFlags fs)
  match l.command.source, l.source with
  | .needed, none | .file, none => .error (.missingArgument "source")
  | _, _ => .ok ()

def parse (check : Bytes → Except Bytes Bytes) (files : Files) (args : List Bytes) :
    Except Usage Line := do
  let l ← ofArgs check args
  let l ← l.resolve files
  l.validate
  .ok l

/-! What flags were given, or their defaults. -/

def switch (l : Line) (n : Node) (name : Bytes) (d : Bool) : Bool :=
  match l.get? n name with
  | some (.switch b) => b
  | _ => d

def text (l : Line) (n : Node) (name d : Bytes) : Bytes :=
  match l.get? n name with
  | some (.text b) => b
  | _ => d

def number (l : Line) (n : Node) (name : Bytes) (d : Int) : Int :=
  match l.get? n name with
  | some (.number i) => i
  | _ => d

def duration (l : Line) (n : Node) (name : Bytes) (d : Int) : Int :=
  match l.get? n name with
  | some (.duration i) => i
  | _ => d

def texts (l : Line) (n : Node) (name : Bytes) (d : List Bytes) : List Bytes :=
  match l.get? n name with
  | some (.texts bs) => bs
  | _ => d

def level (l : Line) (n : Node) (name : Bytes) (d : Log.Level) : Log.Level :=
  match l.get? n name with
  | some (.level i) => i
  | _ => d

def format (l : Line) (n : Node) (name : Bytes) (d : Log.Format) : Log.Format :=
  match l.get? n name with
  | some (.format f) => f
  | _ => d

end Line

end DistanceField.Command
