import DistanceField.Config.Value

/-! Values of flags from a configuration file. Keys may be spelled with hyphens or underscores, and
the section of a command comes before the top level. -/
namespace DistanceField.Config

abbrev Fields := List (Bytes × Value)

def replaceByte (old new : UInt8) (b : Bytes) : Bytes := b.map fun c => if c == old then new else c

def spellings (name : Bytes) : List Bytes := [name, replaceByte 45 95 name, replaceByte 95 45 name]

def lookup? (fields : Fields) (name : Bytes) : Option Value :=
  (spellings name).findSome? fun key => fields.lookup key

/-- A null is no value. -/
def given? (fields : Fields) (name : Bytes) : Option Value :=
  match lookup? fields name with
  | some .null => none
  | v => v

def section? (fields : Fields) (command : Option Bytes) : Option Fields := do
  match lookup? fields (← command) with
  | some (.map inner) => some inner
  | _ => none

def resolve (fields : Fields) (command : Option Bytes) (flag : Bytes) : Option Value :=
  let inner := (section? fields command).bind fun s => given? s flag
  (inner <|> given? fields flag).map Value.normal

end DistanceField.Config
