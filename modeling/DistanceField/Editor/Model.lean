import DistanceField.Compile.Session
import DistanceField.Editor.Buffer
import DistanceField.Editor.Hint
import DistanceField.Source.Cursor

/-! The editor as a machine: messages come in, the state changes, and commands go out. -/
namespace DistanceField.Editor

inductive Key where
  | cancel
  | quit
  | save
  | external
  | tab
  | shiftTab
  | escape
  | edit (e : Edit)
deriving DecidableEq, Repr

/-- The keys with names; a key without a meaning changes no text. The keys of a text area for words,
for the rest of a line, for the clipboard and for other names of the arrows are left out: they count as
keys without a meaning. -/
def Key.ofName (name : String) : Key :=
  if name == "ctrl+c" then .cancel
  else if name == "ctrl+q" then .quit
  else if name == "ctrl+s" then .save
  else if name == "ctrl+e" then .external
  else if name == "tab" then .tab
  else if name == "shift+tab" then .shiftTab
  else if name == "esc" then .escape
  else if name == "space" then .edit (.insert [' '])
  else .edit ((Edit.ofName? name).getD (.insert []))

/-- Typed text; the name of an editing key is that key. -/
def Key.ofText (text : Bytes) : Key :=
  let cs := Utf8.chars text
  .edit ((Edit.ofName? (String.ofList cs)).getD (.insert cs))

inductive Message where
  | key (k : Key)
  | resized (width : Int)
  | tick
  | compiled (u : Update)
  | saved (source : Bytes) (failure : Option Bytes)
  | edited (source : Bytes) (failure : Option Bytes)

/-- What a message asks for. A compile runs in the background, and its update comes back as a
message. -/
inductive Command where
  | compile (source : Bytes)
  | save (path source : Bytes)
  | external (source : Bytes)
  | quit

/-- Whether a command goes on beside the editor, which hears of its end in a message. -/
def Command.isLong : Command → Bool
  | compile _ | external _ => true
  | _ => false

structure Model where
  session : Session
  root : Option Document := none
  path : Bytes
  saved : Bytes
  submitted : Bytes
  message : Bytes := []
  buffer : Buffer
  matched : List Match := []
  state : State := {}
  wordStart : Nat := 0
  wordEnd : Nat := 0
  selected : Int := -1
  width : Int := 80
  tabbing : Bool := false
  armed : Bool := false
  quitting : Bool := false

namespace Model

def start (strict : Bool) (path source : Bytes) : Model :=
  { session := { strict := strict }, path := path, saved := source, submitted := source
    buffer := .ofText source }

def value (m : Model) : Bytes := m.buffer.value

def cursor (m : Model) : Nat := m.buffer.cursor

/-- The text has half of the screen, of which a margin takes five columns. -/
def rowWidth (m : Model) : Nat := min (max (m.width.tdiv 2).toNat 6) 500 - 5

/-- Runs a compile command: the session changes at once, the model only when the update comes. -/
def submit (m : Model) (source : Bytes) : Update × Model :=
  let (u, s) := m.session.submit false source
  (u, { m with session := s })

/-- An update that is not stale brings the session's state with it. -/
def applyUpdate (m : Model) (u : Update) : Model :=
  if u.stale then m
  else
    let m := { m with state := m.session.state }
    match u.error, u.result with
    | none, some r => { m with root := some r.document }
    | _, _ => m

def refresh (m : Model) : Model :=
  let (found, start, stop) := completions m.value m.cursor
  { m with matched := found, wordStart := start, wordEnd := stop, selected := -1 }

def columnOf (m : Model) (offset : Nat) : Nat :=
  let before := m.value.take offset
  (Utf8.chars (before.reverse.takeWhile (· != 10)).reverse).length

/-- The word gives way to `name`, and the cursor stands behind it. -/
def replaceWord (m : Model) (name : Bytes) : Model :=
  let first := m.columnOf m.wordStart
  let last := m.columnOf m.wordEnd
  let b := ((m.buffer.setColumn last).erase (last - first)).insert (Utf8.chars name)
  { m with buffer := b, wordEnd := m.wordStart + name.length }

def nextSelection (m : Model) (forward : Bool) : Int :=
  let n : Int := m.matched.length
  if m.tabbing then (m.selected + (if forward then 1 else -1) + n).tmod n
  else if forward then 0 else n - 1

/-- Selects a neighbouring completion and writes it in place of the word; a single one is
accepted at once. -/
def cycle (m : Model) (forward : Bool) : Model :=
  match m.matched with
  | [] => m
  | [c] => { m.replaceWord c.name with matched := [], tabbing := false, selected := -1 }
  | cs =>
    let i := m.nextSelection forward
    let m := { m with tabbing := true, selected := i }
    match cs[i.toNat]? with
    | some c => m.replaceWord c.name
    | none => m

def unsaved : Bytes := "unsaved changes; press ctrl+q again to quit"

def press (m : Model) (k : Key) : Model × List Command :=
  let m := { m with message := [], armed := m.armed && k == .quit }
  match k with
  | .cancel => ({ m with quitting := true }, [.quit])
  | .quit =>
    if m.value != m.saved && !m.armed then ({ m with armed := true, message := unsaved }, [])
    else ({ m with quitting := true }, [.quit])
  | .save => (m, [.save m.path m.value])
  | .external => (m, [.external m.value])
  | .tab => (m.cycle true, [])
  | .shiftTab => (m.cycle false, [])
  | .escape => ({ m with tabbing := false, matched := [], selected := -1 }, [])
  | .edit e => ({ m with tabbing := false, buffer := m.buffer.apply m.rowWidth e }.refresh, [])

def update (m : Model) : Message → Model × List Command
  | .key k => m.press k
  | .resized w => ({ m with width := w }, [])
  | .tick =>
    if m.value == m.submitted then (m, [])
    else ({ m with submitted := m.value }, [.compile m.value])
  | .compiled u => (m.applyUpdate u, [])
  | .saved source none =>
    ({ m with saved := source, message := Width.aligned ("saved " ++ m.path) }, [])
  | .saved _ (some why) =>
    ({ m with message := Width.aligned ("save failed: " ++ why) }, [])
  | .edited source none =>
    ({ m with buffer := .ofText source }.refresh, [.compile source])
  | .edited _ (some why) => ({ m with message := Width.aligned why }, [])

def init (m : Model) : List Command := [.compile m.value]

def around (m : Model) : List Function :=
  match m.root with
  | some d => d.path m.cursor
  | none => []

def outcomeText (m : Model) : Bytes :=
  match m.state.error, m.state.result with
  | some e, _ =>
    let place : Bytes := match m.state.errorPosition? with
      | some (l, c) => Bytes.ofNat l ++ ":" ++ Bytes.ofNat c ++ ": "
      | none => []
    Width.aligned ("✘ " ++ place ++ e.message)
  | none, some r => "✔ " ++ Bytes.ofNat r.code.length ++ " bytes"
  | none, none => []

def crumbs (m : Model) : Bytes :=
  match m.around with
  | [] => []
  | fs => "  " ++ Bytes.join " › " (fs.map Function.name)

def statusLine (m : Model) : Bytes :=
  let mark : Bytes := if m.value == m.saved then [] else " [+]"
  let (row, col) := m.buffer.place
  let last := if m.message.isEmpty then m.outcomeText else m.message
  Width.cut m.width (Width.aligned (m.path ++ mark) ++ "  " ++ Bytes.ofNat (row + 1) ++ ":" ++
    Bytes.ofNat (col + 1) ++ m.crumbs ++ "  " ++ last)

def keyHelp : Bytes := "ctrl+s save · ctrl+e $EDITOR · tab complete · ctrl+q quit"

def hintLine (m : Model) : Bytes :=
  if !m.matched.isEmpty then candidateBar m.matched m.width
  else match (callAt? m.value m.cursor).bind fun c => schema? c.name with
    | some s => Width.cut m.width (signatureHint s)
    | none => keyHelp

end Model

end DistanceField.Editor
