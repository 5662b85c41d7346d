import DistanceField.Config.Resolve
import DistanceField.Text.JsonReader

/-! Configuration files in JSON. There are no sections, and names are spelled with underscores or in
camel case. -/
namespace DistanceField.Config

mutual

def ofJson : Json → Value
  | .null => .null
  | .bool b => .bool b
  | .number t => .float (Read.double t).value
  | .string b => .text b
  | .array items => .list (ofItems items)
  | .object fields => .map (ofFields fields)

def ofItems : List Json → List Value
  | [] => []
  | j :: rest => ofJson j :: ofItems rest

/-- Of equal keys the last counts. -/
def ofFields : List (Bytes × Json) → Fields
  | [] => []
  | (k, j) :: rest =>
    let more := ofFields rest
    if more.any (·.1 == k) then more else (k, ofJson j) :: more

end

namespace Json

def notObject (kind : Bytes) : Bytes :=
  "json: cannot unmarshal " ++ kind ++ " into Go value of type map[string]interface \x7b\x7d"

/-- The fields of the first object in a text; what follows it does not matter. -/
def read (b : Bytes) : Except Bytes Fields :=
  match Json.first b with
  | .error why => .error (if b.all Bytes.isBlank then "EOF" else why.message)
  | .ok (j, _) =>
    match j with
    | .null => .ok []
    | .object fields =>
      match j.overflow? with
      | some t => .error ("json: cannot unmarshal number " ++ t ++ " into Go value of type float64")
      | none => .ok (ofFields fields)
    | .bool _ => .error (notObject "bool")
    | .number _ => .error (notObject "number")
    | .string _ => .error (notObject "string")
    | .array _ => .error (notObject "array")

/-- Each word but the first with a capital, and no hyphens. -/
def camelCase (name : Bytes) : Bytes :=
  match Bytes.split 45 name with
  | [] => []
  | w :: ws => w ++ ws.flatMap fun w => (w.take 1).map Bytes.upperByte ++ w.drop 1

/-- What a file says about a flag; a null says nothing. -/
def resolve (fields : Fields) (flag : Bytes) : Option Value :=
  let found := (fields.lookup (replaceByte 45 95 flag)).or (fields.lookup (camelCase flag))
  match found with
  | some .null => none
  | v => v

end Json

end DistanceField.Config
