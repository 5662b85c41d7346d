import DistanceField.Config.Resolve
import DistanceField.Log.Level
import DistanceField.Number.Read
import DistanceField.Text.Duration
import DistanceField.Yaml.Scalar

/-! Flags: what they take, and how a value is read. -/
namespace DistanceField.Command

/-- What a flag takes. The items of a list are divided by a byte, or not at all. -/
inductive Take where
  | switch (negatable : Bool)
  | text
  | number
  | duration
  | list (divider : Option UInt8)
  | level
  | format
  | choice (options : List Bytes)
deriving DecidableEq, Repr

/-- A flag. A flag without a short name has an empty one. -/
structure Flag where
  name : Bytes
  short : Bytes := []
  take : Take
  needed : Option Bytes := none

inductive Given where
  | switch (on : Bool)
  | text (b : Bytes)
  | number (n : Int)
  | duration (nanoseconds : Int)
  | texts (bs : List Bytes)
  | level (l : Log.Level)
  | format (f : Log.Format)
deriving DecidableEq, Repr

def Flag.long (f : Flag) : Bytes := "--" ++ f.name

def Flag.isSwitch (f : Flag) : Bool :=
  match f.take with
  | .switch _ => true
  | _ => false

def Flag.negation? (f : Flag) : Option Bytes :=
  match f.take with
  | .switch true => some ("--no-" ++ f.name)
  | _ => none

/-! Reading values. A value on the command line is a text; one from a file may be anything. -/

def withBase? (base : Nat) (b : Bytes) : Option Nat :=
  if b.all (· == 95) then some 0 else Yaml.naturalOf? base (b.filter (· != 95))

/-- A number of 64 bits whose mark tells the base; underscores may separate digits. -/
def wholeNumber? (b : Bytes) : Option Int := do
  let (negative, body) : Bool × Bytes := match b with
    | 45 :: rest => (true, rest)
    | 43 :: rest => (false, rest)
    | _ => (false, b)
  let n ← match body with
    | [] => none
    | 48 :: m :: c :: rest =>
      let l := Bytes.lowerByte m
      if l == 98 then withBase? 2 (c :: rest)
      else if l == 111 then withBase? 8 (c :: rest)
      else if l == 120 then withBase? 16 (c :: rest)
      else withBase? 8 (m :: c :: rest)
    | 48 :: rest => if rest.isEmpty then some 0 else withBase? 8 rest
    | _ => withBase? 10 body
  if body.contains 95 && !Read.underscoresOk body then none
  else Integer.inRange? (if negative then -n else n)

def jsonKind : Config.Value → Bytes
  | .bool _ => "bool"
  | .list _ | .texts _ => "array"
  | .map _ => "object"
  | .text _ => "string"
  | .null => "null"
  | _ => "number"

def notText (v : Config.Value) : Bytes :=
  "json: cannot unmarshal " ++ jsonKind v ++ " into Go value of type string"

def textValue : Config.Value → Except Bytes Bytes
  | .text b => .ok b
  | .null => .ok []
  | v => .error (notText v)

def shown : Config.Value → Bytes
  | .text b => Quoted.quote b
  | .list items => "[" ++ Bytes.join " " (Config.Value.displayItems items) ++ "]"
  | .map fields => Config.Value.display (.map fields)
  | v => "%!q(" ++ v.typeName ++ "=" ++ v.display ++ ")"

def switchValue : Config.Value → Except Bytes Bool
  | .bool b => .ok b
  | .text t =>
    let l := Utf8.encode (Letter.lowered t)
    if ["true", "1", "yes"].any (fun s => Bytes.ofString s == l) then .ok true
    else if ["false", "0", "no"].any (fun s => Bytes.ofString s == l) then .ok false
    else .error ("bool value must be true, 1, yes, false, 0 or no but got " ++ Quoted.quote l)
  | v => .error ("expected bool but got " ++ shown v ++ " (" ++ v.typeName ++ ")")

def numberValue (v : Config.Value) : Except Bytes Int :=
  let read := fun (t : Bytes) => match wholeNumber? t with
    | some n => Except.ok n
    | none => .error ("expected a valid 64 bit int but got " ++ Quoted.quote t)
  match v with
  | .text t => read t
  | .float x => read (Decimal.places 0 x)
  | v => .error ("expected an int but got " ++ Quoted.quote v.display ++ " (" ++ v.typeName ++ ")")

def durationValue : Config.Value → Except Bytes Int
  | .text t =>
    match Duration.read t with
    | .ok n => .ok n
    | .error e => .error ("expected duration but got " ++ Quoted.quote t ++ ": " ++ e.message t)
  | v => .error ("expected duration but got " ++ shown v)

/-- The parts between dividers; a divider behind a backslash divides nothing, and there is no
empty part at the end. -/
def splitParts (divider : UInt8) (token : Bytes) : Bytes → List Bytes
  | [] => if token.isEmpty then [] else [token]
  | 92 :: c :: rest =>
    splitParts divider (token ++ (if c == divider then [c] else [92, c])) rest
  | c :: rest =>
    if c == divider then token :: splitParts divider [] rest
    else splitParts divider (token ++ [c]) rest

def listValue (divider : Option UInt8) : Config.Value → Except Bytes (List Bytes)
  | .text t =>
    match divider with
    | none => .ok [t]
    | some d => .ok (splitParts d [] t)
  | .list items => items.mapM textValue
  | v => .error (notText v)

def Flag.read (f : Flag) (v : Config.Value) : Except Bytes Given :=
  match f.take with
  | .switch _ => (switchValue v).map .switch
  | .text | .choice _ => (textValue v).map .text
  | .number => (numberValue v).map .number
  | .duration => (durationValue v).map .duration
  | .list d => (listValue d v).map .texts
  | .level => do
    let t ← textValue v
    match Log.Level.read? t with
    | some l => .ok (.level l)
    | none => .error (Log.Level.unknown t)
  | .format => do
    let t ← textValue v
    match Log.Format.read? t with
    | some l => .ok (.format l)
    | none => .error (Log.Format.unknown t)

def Flag.wanted (f : Flag) : Bytes :=
  match f.take with
  | .number => "int"
  | .duration => "duration"
  | .level | .format => "value"
  | _ => "string"

end DistanceField.Command
