import DistanceField.Number.Integer
import DistanceField.Serve.Server

/-! Requests and responses as they travel. -/
namespace DistanceField.Serve

def lineEnd : Bytes := [13, 10]

def headLines? (fuel : Nat) (b : Bytes) : Option (List Bytes) :=
  match fuel with
  | 0 => none
  | fuel + 1 => do
    let (line, rest) ← Bytes.cut 10 b
    let line := if line.getLast? == some 13 then line.dropLast else line
    if line.isEmpty then some [] else (line :: ·) <$> headLines? fuel rest

def headerOf? (line : Bytes) : Option (Bytes × Bytes) :=
  (Bytes.cut 58 line).map fun (k, v) => (k, Letter.trim v)

def Request.read? (b : Bytes) : Option Request := do
  let lines ← headLines? (b.length + 1) b
  match Bytes.split 32 (lines.headD []) with
  | method :: target :: _ => some ⟨method, target, (lines.drop 1).filterMap headerOf?⟩
  | _ => none

def reason : Nat → Bytes
  | 200 => "OK"
  | 301 => "Moved Permanently"
  | 304 => "Not Modified"
  | 404 => "Not Found"
  | 405 => "Method Not Allowed"
  | 503 => "Service Unavailable"
  | _ => "Unknown"

def headerLine (h : Bytes × Bytes) : Bytes := h.1 ++ ": " ++ h.2 ++ lineEnd

/-- The text of a response; the connection ends with it. The answer to a request for the head, or for
what is not modified, has no body. -/
def Response.write (r : Response) (method : Bytes) : Bytes :=
  let bodiless := r.status == 304 || method == Bytes.ofString "HEAD"
  let added : List (Bytes × Bytes) :=
    if r.status == 304 || (r.headers.lookup (Bytes.ofString "Content-Length")).isSome then
      [("Connection", "close")]
    else [("Content-Length", Bytes.ofNat r.body.length), ("Connection", "close")]
  let line : Bytes := "HTTP/1.1 " ++ Bytes.ofNat r.status ++ " " ++ reason r.status ++ lineEnd
  line ++ (r.headers ++ added).flatMap headerLine ++ lineEnd ++ (if bodiless then [] else r.body)

end DistanceField.Serve
