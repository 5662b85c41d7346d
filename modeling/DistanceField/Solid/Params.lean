import DistanceField.Solid.Printer
import DistanceField.Text.JsonReader

/-! Evaluated parameters in JSON: finite values are numbers, the others texts. -/
namespace DistanceField

abbrev Params := List (Bytes × Float)

namespace Params

inductive Error where
  | notObject
  | badNumber (name text : Bytes) (why : Read.Error)
  | unsupported (name : Bytes) (value : Json)

mutual

def describe : Json → Bytes
  | .null => "<nil>"
  | .bool b => (if b then "true" else "false" : String)
  | .number t => Decimal.text Decimal.general (Read.double t).value
  | .string b => b
  | .array items => "[" ++ Bytes.join " " (describeItems items) ++ "]"
  | .object fields =>
    "map[" ++ Bytes.join " " ((Geometry.sortedParams (describeFields fields)).map (·.2)) ++ "]"

def describeItems : List Json → List Bytes
  | [] => []
  | j :: rest => describe j :: describeItems rest

def describeFields : List (Bytes × Json) → List (Bytes × Bytes)
  | [] => []
  | (k, j) :: rest =>
    let more := describeFields rest
    if more.any (·.1 == k) then more else (k, k ++ ":" ++ describe j) :: more

end

def Error.message : Error → Bytes
  | .notObject => "not an object"
  | .badNumber n t why => "parameter " ++ n ++ ": " ++ why.message t
  | .unsupported n j => "parameter " ++ n ++ ": unsupported value " ++ describe j

/-- A parameter's value: a number, or a text that reads as one. -/
def value (name : Bytes) : Json → Except Error Float
  | .number t => .ok (Read.double t).value
  | .string t =>
    match Read.double t with
    | ⟨v, none⟩ => .ok v
    | ⟨_, some why⟩ => .error (.badNumber name t why)
  | j => .error (.unsupported name j)

/-- Adds the values of the fields to `new`, up to the first field that has none. -/
def fill (new : Params) : List (Bytes × Json) → EStateM Error Params Params
  | [] => pure new
  | (n, j) :: rest =>
    match value n j with
    | .error e => throw e
    | .ok v => fill (new ++ [(n, v)]) rest

/-- Reads a text into the parameters that are the state. They are replaced at the end, when every
field has its value; a null has none. -/
def receive (b : Bytes) : EStateM Error Params Unit :=
  match Json.read? b with
  | some (.object fields) => do
    let new ← fill [] (Geometry.sortedParams (Json.distinct fields))
    set new
  | some .null => set ([] : Params)
  | _ => throw .notObject

def ofJson (b : Bytes) : Except Error Params :=
  match (receive b).run [] with
  | .ok _ ps => .ok ps
  | .error e _ => .error e

def toJson (ps : Params) : Bytes := (paramsJson ps).compact

end Params

end DistanceField
