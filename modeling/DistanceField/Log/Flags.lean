import DistanceField.Log.Config

/-! Settings of the logger among command line arguments. They are looked for before the command
line is read, so that what is wrong with it is logged as asked for. -/
namespace DistanceField.Log

inductive Flag where
  | level
  | format
  | layout
  | caller
  | pretty
deriving DecidableEq, Repr

namespace Flag

def ofName? (b : Bytes) : Option Flag :=
  if b == Bytes.ofString "level" then some level
  else if b == Bytes.ofString "format" then some format
  else if b == Bytes.ofString "time-layout" then some layout
  else if b == Bytes.ofString "caller" then some caller
  else if b == Bytes.ofString "pretty" then some pretty
  else none

def isSwitch : Flag → Bool
  | caller | pretty => true
  | _ => false

def setting? (value : Bytes) : Flag → Option Setting
  | level => (Level.read? value).map .level
  | format => (Format.read? value).map .format
  | layout => some (.layout value)
  | caller => (Integer.bool? value).map .caller
  | pretty => (Integer.bool? value).map .pretty

def switch (on : Bool) : Flag → Option Setting
  | caller => some (.caller on)
  | pretty => some (.pretty on)
  | _ => none

end Flag

/-- An argument that names a flag: whether it is negated, the flag, and the value behind an
equals sign. -/
def flag? (arg : Bytes) : Option (Bool × Flag × Option Bytes) := do
  let (name, value) : Bytes × Option Bytes := match Bytes.cut 61 arg with
    | some (n, v) => (n, some v)
    | none => (arg, none)
  let (negated, name) ← match Bytes.after? "--no-log-" name with
    | some n => some (true, n)
    | none => (Bytes.after? "--log-" name).map fun n => (false, n)
  let f ← Flag.ofName? name
  if negated && !f.isSwitch then none else some (negated, f, value)

/-- What a flag sets: a switch is on unless a value says otherwise, another flag takes the value
behind its equals sign or the next argument, which must not look like a flag. -/
def Flag.given (f : Flag) (negated : Bool) (value next : Option Bytes) : Option Setting :=
  if f.isSwitch then do
    let on ← match value with
      | none => some true
      | some v => Integer.bool? v
    f.switch (on != negated)
  else match value with
    | some v => f.setting? v
    | none => do
      let v ← next
      if v.head? == some 45 then none else f.setting? v

/-- The settings named by arguments, in order. Values that cannot be read are passed over. -/
def scanFlags : List Bytes → List Setting
  | [] => []
  | arg :: rest =>
    if arg == Bytes.ofString "--" then []
    else
      let here := (flag? arg).bind fun (negated, f, value) => f.given negated value rest.head?
      here.toList ++ scanFlags rest

end DistanceField.Log
