import DistanceField.Compile.Session
import DistanceField.Number.Decimal

/-! Counts of what a session and its server did, and their text form. -/
namespace DistanceField

inductive Verdict where
  | error
  | ok
  | stale
deriving DecidableEq, Repr

def Verdict.name : Verdict → Bytes
  | .error => "error"
  | .ok => "ok"
  | .stale => "stale"

/-- A stale outcome is only that; else an error decides. -/
def Update.verdict (u : Update) : Verdict :=
  if u.stale then .stale else if u.error.isSome then .error else .ok

/-- Counters grow, and the gauges `codeBytes`, `helpers` and `seq` show the latest value. Answers
are counted by status and route. -/
structure Metrics where
  errors : Nat := 0
  oks : Nat := 0
  stales : Nat := 0
  changes : Nat := 0
  durations : Nat := 0
  codeBytes : Nat := 0
  helpers : Nat := 0
  seq : Nat := 0
  answers : List ((Nat × Bytes) × Nat) := []

namespace Metrics

def observe (m : Metrics) (u : Update) : Metrics :=
  match u.verdict with
  | .stale => { m with stales := m.stales + 1 }
  | .error => { m with errors := m.errors + 1, seq := u.seq }
  | .ok =>
    let m := { m with oks := m.oks + 1, seq := u.seq
                      changes := if u.changed then m.changes + 1 else m.changes }
    match u.result with
    | some r => { m with durations := m.durations + 1, codeBytes := r.code.length
                         helpers := r.helpers }
    | none => m

def increment (key : Nat × Bytes) : List ((Nat × Bytes) × Nat) → List ((Nat × Bytes) × Nat)
  | [] => [(key, 1)]
  | (k, n) :: rest => if k == key then (k, n + 1) :: rest else (k, n) :: increment key rest

def answered (m : Metrics) (status : Nat) (route : Bytes) : Metrics :=
  { m with answers := increment (status, route) m.answers }

/-! Text form: families in alphabetical order, each under a line of help and one with its type. -/

def sample (name labels : Bytes) (n : Nat) : Bytes :=
  "sdfc_" ++ name ++ labels ++ " " ++ Decimal.text Decimal.general (Float.ofNat n)

def family (name help type : Bytes) (samples : List Bytes) : List Bytes :=
  if samples.isEmpty then []
  else ("# HELP sdfc_" ++ name ++ " " ++ help) :: ("# TYPE sdfc_" ++ name ++ " " ++ type) :: samples

def single (name help type : Bytes) (n : Nat) : List Bytes :=
  family name help type [sample name [] n]

def label (key value : Bytes) : Bytes := key ++ "=\"" ++ value ++ "\""

/-- A result that never came up has no sample. -/
def verdictSamples (m : Metrics) : List Bytes :=
  let counts := [(Verdict.error, m.errors), (Verdict.ok, m.oks), (Verdict.stale, m.stales)]
  (counts.filter fun c => c.2 > 0).map fun (v, n) =>
    sample "compiles_total" ("\x7b" ++ label "result" v.name ++ "\x7d") n

def earlier (a b : (Nat × Bytes) × Nat) : Bool :=
  let (s, t) := (Bytes.ofNat a.1.1, Bytes.ofNat b.1.1)
  !(Bytes.before t s || (s == t && Bytes.before b.1.2 a.1.2))

def answerSamples (m : Metrics) : List Bytes :=
  (m.answers.mergeSort earlier).map fun ((status, route), n) =>
    sample "http_requests_total" ("\x7b" ++ label "code" (Bytes.ofNat status) ++ "," ++
      label "route" route ++ "\x7d") n

/-- The lines of the text form. How long compiles took is shown by their number alone. -/
def lines (m : Metrics) : List Bytes :=
  single "code_bytes" "Size of the current generated code in bytes" "gauge" m.codeBytes ++
  single "code_changes_total" "Total number of accepted compiles that changed the code" "counter"
    m.changes ++
  single "code_helpers" "Number of helper functions in the current generated code" "gauge"
    m.helpers ++
  family "compile_duration_seconds" "Duration of successful compiles in seconds" "histogram"
    [sample "compile_duration_seconds_count" [] m.durations] ++
  family "compiles_total" "Total number of finished compiles by result" "counter"
    m.verdictSamples ++
  family "http_requests_total" "Total number of HTTP requests by route and status code" "counter"
    m.answerSamples ++
  single "session_seq" "Sequence number of the latest accepted submission" "gauge" m.seq

def text (m : Metrics) : Bytes := m.lines.flatMap (· ++ "\n")

end Metrics

end DistanceField
