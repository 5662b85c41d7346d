import DistanceField.Number.Integer
import DistanceField.Text.Letter

/-! Addresses that a server listens on: a host and a port. -/
namespace DistanceField.Serve

structure Address where
  host : Bytes
  port : Nat
deriving DecidableEq, Repr

namespace Address

inductive Error where
  | missingPort (text : Bytes)
  | tooManyColons (text : Bytes)
  | missingBracket (text : Bytes)
  | unexpectedLeft (text : Bytes)
  | unexpectedRight (text : Bytes)
  | invalidPort (port : Bytes)
  | unknownPort (port : Bytes)
deriving DecidableEq, Repr

def Error.message : Error → Bytes
  | missingPort t => "address " ++ t ++ ": missing port in address"
  | tooManyColons t => "address " ++ t ++ ": too many colons in address"
  | missingBracket t => "address " ++ t ++ ": missing ']' in address"
  | unexpectedLeft t => "address " ++ t ++ ": unexpected '[' in address"
  | unexpectedRight t => "address " ++ t ++ ": unexpected ']' in address"
  | invalidPort p => "address " ++ p ++ ": invalid port"
  | unknownPort p => "lookup tcp/" ++ p ++ ": unknown port"

def lastColon (t : Bytes) : Except Error (Bytes × Bytes) :=
  let port := (t.reverse.takeWhile (· != 58)).reverse
  if port.length == t.length then .error (.missingPort t)
  else .ok (t.take (t.length - port.length - 1), port)

def bracketed (t : Bytes) : Except Error (Bytes × Bytes) :=
  let host := (t.drop 1).takeWhile (· != 93)
  match t.drop (host.length + 1) with
  | [] => .error (.missingBracket t)
  | _ :: 58 :: port => if port.contains 58 then .error (.tooManyColons t) else .ok (host, port)
  | _ => .error (.missingPort t)

def split (t : Bytes) : Except Error (Bytes × Bytes) := do
  let (host, port) ← lastColon t
  let inBrackets := t.head? == some 91
  let (host, port) ← if inBrackets then bracketed t
    else if host.contains 58 then .error (.tooManyColons t)
    else .ok (host, port)
  if (if inBrackets then t.drop 1 else t).contains 91 then .error (.unexpectedLeft t)
  if (if inBrackets then t.drop (host.length + 2) else t).contains 93 then
    .error (.unexpectedRight t)
  .ok (host, port)

def services : List (String × Nat) :=
  [("domain", 53), ("ftp", 21), ("ftps", 990), ("gopher", 70), ("http", 80), ("https", 443),
    ("imap2", 143), ("imap3", 220), ("imaps", 993), ("pop3", 110), ("pop3s", 995), ("smtp", 25),
    ("submissions", 465), ("ssh", 22), ("telnet", 23)]

/-- A number, or the name of a service in any case. No port stands for any that is free. -/
def portOf (p : Bytes) : Except Error Nat :=
  let (negative, digits) : Bool × Bytes := match p with
    | 45 :: rest => (true, rest)
    | 43 :: rest => (false, rest)
    | _ => (false, p)
  if digits.all Integer.isDigit then
    let n := (Integer.natural? digits).getD 0
    if n > 65535 || (negative && n > 0) then .error (.invalidPort p) else .ok n
  else match services.find? fun s => Letter.same (Bytes.ofString s.1) p with
    | some s => .ok s.2
    | none => .error (.unknownPort p)

def listenFailure (t : Bytes) (e : Error) : Bytes :=
  "listen on " ++ t ++ ": listen tcp: " ++ e.message

/-- An address; no text stands for any free port of any host. -/
def read (t : Bytes) : Except Error Address :=
  if t.isEmpty then .ok ⟨[], 0⟩
  else do
    let (host, port) ← split t
    .ok ⟨host, ← portOf port⟩

end Address

end DistanceField.Serve
