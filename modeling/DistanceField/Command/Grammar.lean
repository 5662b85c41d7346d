import DistanceField.Command.Flag

/-! The commands, and the flags that each of them takes. -/
namespace DistanceField.Command

inductive Node where
  | root
  | build
  | watch
  | serve
  | edit
  | fmt
  | native
  | json
  | yaml
  | ast
  | probe
  | init
  | version
deriving DecidableEq, Repr

namespace Node

def name : Node → Bytes
  | root => "sdfc"
  | build => "build"
  | watch => "watch"
  | serve => "serve"
  | edit => "edit"
  | fmt => "fmt"
  | native => "native"
  | json => "json"
  | yaml => "yaml"
  | ast => "ast"
  | probe => "probe"
  | init => "init"
  | version => "version"

def children : Node → List Node
  | root => [build, watch, serve, edit, fmt, probe, init, version]
  | fmt => [native, json, yaml, ast]
  | _ => []

def default? : Node → Option Node
  | root => some build
  | fmt => some native
  | _ => none

def lineage : Node → List Node
  | root => [root]
  | native => [root, fmt, native]
  | json => [root, fmt, json]
  | yaml => [root, fmt, yaml]
  | ast => [root, fmt, ast]
  | n => [root, n]

def indent : Flag := { name := "indent", short := "i", take := .number }

def output : Flag := { name := "output", short := "o", take := .text }

def debounce : Flag := { name := "debounce", take := .duration }

def flags : Node → List Flag
  | root => [
      { name := "help", short := "h", take := .switch false },
      { name := "log-level", take := .level },
      { name := "log-format", take := .format },
      { name := "log-time-layout", take := .text },
      { name := "log-caller", take := .switch true },
      { name := "log-pretty", take := .switch true },
      { name := "strict", take := .switch true }]
  | build => [output]
  | watch => [output, debounce]
  | serve => [
      { name := "addr", take := .text },
      debounce,
      { name := "shutdown", take := .duration },
      { name := "profiler", take := .switch false }]
  | edit => [{ name := "interval", take := .duration }]
  | fmt | ast => []
  | native => [indent, { name := "write", short := "w", take := .switch false }]
  | json | yaml => [indent]
  | probe => [
      { name := "at", take := .list none, needed := some (Bytes.ofString "X,Y,Z") },
      { name := "fn", take := .list (some 44) },
      { name := "format", take := .choice ["table", "csv", "markdown"] },
      { name := "precision", take := .number }]
  | init => [{ name := "force", short := "f", take := .switch false }]
  | version => [{ name := "verbose", short := "v", take := .switch false }]

/-- How a command takes its source: not at all, if there is one, always, or always and it has to
be a file. -/
inductive Source where
  | none
  | optional
  | needed
  | file
deriving DecidableEq, Repr

def source : Node → Source
  | build | native | json | yaml | ast | probe => .optional
  | edit => .needed
  | watch | serve => .file
  | _ => .none

def available (n : Node) : List (Node × Flag) :=
  ((n.default?.getD n).lineage).flatMap fun m => m.flags.map fun f => (m, f)

end Node

end DistanceField.Command
