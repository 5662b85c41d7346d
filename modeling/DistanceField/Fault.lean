import DistanceField.Source.Complaint

/-! Failures as values: a message, what caused it, attributes for the log, and for failures of a
source text the place. -/
namespace DistanceField

mutual

inductive Fault where
  | source (msg : Bytes) (cause : Option Fault) (attrs : List Attr) (place : Option Interval)
  | command (msg : Bytes) (cause : Option Fault) (attrs : List Attr)
  | plain (text : Bytes)
  | outer (lead : Bytes) (cause : Fault)

inductive Attr where
  | mk (key : Bytes) (value : Value)

inductive Value where
  | text (b : Bytes)
  | integer (n : Int)
  | float (v : Float)
  | bool (b : Bool)
  | duration (nanoseconds : Int)
  | time (seconds : Int)
  | level (n : Int)
  | null
  | group (attrs : List Attr)
  | fault (f : Fault)

end

instance : Inhabited Fault := ⟨.plain []⟩

instance : Inhabited Attr := ⟨.mk [] .null⟩

def Attr.key : Attr → Bytes
  | mk k _ => k

def Attr.value : Attr → Value
  | mk _ v => v

namespace Attr

def text (key value : Bytes) : Attr := mk key (.text value)

def int (key : Bytes) (n : Int) : Attr := mk key (.integer n)

def bool (key : Bytes) (b : Bool) : Attr := mk key (.bool b)

def duration (key : Bytes) (ns : Int) : Attr := mk key (.duration ns)

def fault (key : Bytes) (f : Fault) : Attr := mk key (.fault f)

def isEmptyGroup : Attr → Bool
  | mk _ (.group []) => true
  | _ => false

/-- A group leaves out the empty groups it is given. -/
def group (key : Bytes) (attrs : List Attr) : Attr :=
  mk key (.group (attrs.filter fun a => !a.isEmptyGroup))

def interval (key : Bytes) (lo hi : Int) : Attr :=
  mk key (.group [int "min" lo, int "max" hi])

end Attr

namespace Fault

/-- Message and cause, joined by a colon when there are both. -/
def message : Fault → Bytes
  | source m none _ _ | command m none _ => m
  | source m (some c) _ _ | command m (some c) _ =>
    if m.isEmpty then c.message else m ++ ": " ++ c.message
  | plain t => t
  | outer lead c => lead ++ ": " ++ c.message

def cause? : Fault → Option Fault
  | source _ c _ _ | command _ c _ => c
  | plain _ => none
  | outer _ c => some c

def ofSource (msg : Bytes) : Fault := source msg none [] none

def ofCommand (msg : Bytes) : Fault := command msg none []

def wrap (f cause : Fault) : Fault :=
  match f with
  | source m _ a p => source m (some cause) a p
  | command m _ a => command m (some cause) a
  | f => f

def withAttrs (f : Fault) (attrs : List Attr) : Fault :=
  match f with
  | source m c a p => source m c (a ++ attrs) p
  | command m c a => command m c (a ++ attrs)
  | f => f

def locate (f : Fault) (i : Interval) : Fault :=
  match f with
  | source m c a _ => source m c a (some i)
  | f => f

def interval : Fault → Interval
  | source _ _ _ (some i) => i
  | _ => .none

def isLocated : Fault → Bool
  | source _ _ _ (some _) => true
  | _ => false

def position (f : Fault) (source : Bytes) : Bytes :=
  if f.isLocated then
    let (line, col) := f.interval.position source
    f.message ++ " (line " ++ Bytes.ofNat line ++ ", column " ++ Bytes.ofNat col ++ ")"
  else f.message

/-- The first failure of a source text among `f` and its causes. -/
def source? : Fault → Option Fault
  | source m c a p => some (source m c a p)
  | command _ (some c) _ => c.source?
  | outer _ c => c.source?
  | _ => none

/-- The first failure of a command among `f` and its causes. -/
def command? : Fault → Option Fault
  | command m c a => some (command m c a)
  | source _ (some c) _ _ => c.command?
  | outer _ c => c.command?
  | _ => none

def asSource (f : Fault) : Fault := f.source?.getD (source [] (some f) [] none)

def isSource (name : Bytes) : Fault → Bool
  | source m c _ _ => m == name || (match c with | some c => c.isSource name | none => false)
  | command _ (some c) _ => c.isSource name
  | outer _ c => c.isSource name
  | _ => false

def isCommand (name : Bytes) : Fault → Bool
  | command m c _ => m == name || (match c with | some c => c.isCommand name | none => false)
  | source _ (some c) _ _ => c.isCommand name
  | outer _ c => c.isCommand name
  | _ => false

def messageAttr (m : Bytes) : List Attr := if m.isEmpty then [] else [.text "error" m]

def placeAttr (p : Option Interval) : List Attr :=
  match p with
  | some i => [.interval "interval" i.min i.max]
  | none => []

def details : Fault → List Attr
  | source m c a p =>
    messageAttr m ++ (c.map fun c => Attr.text "cause" c.message).toList ++ placeAttr p ++
      a.filter (fun a => !a.isEmptyGroup)
  | command m c a =>
    messageAttr m ++ (c.map fun c => Attr.fault "cause" c).toList ++
      a.filter (fun a => !a.isEmptyGroup)
  | _ => []

def lexical : Bytes := "lexical error"
def parsing : Bytes := "syntax error"
def reading : Bytes := "failed to read source"
def canceled : Bytes := "compile canceled"
def compiling : Bytes := "compile failed"
def writing : Bytes := "write output"
def formatting : Bytes := "format failed"
def badPoint : Bytes := "invalid point (want x,y,z)"
def probing : Bytes := "probe failed"
def configuring : Bytes := "write configuration file"
def fileExists : Bytes := "file exists (use --force to overwrite)"

end Fault

def Complaint.fault (c : Complaint) : Fault :=
  .source (if c.trouble.isLexical then Fault.lexical else Fault.parsing)
    (some (.plain c.trouble.message)) [] (some c.span)

end DistanceField
