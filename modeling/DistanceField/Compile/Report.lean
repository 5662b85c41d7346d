import DistanceField.Compile.Session
import DistanceField.Log.Record

/-! What is logged of parses, compiles and sessions. -/
namespace DistanceField

open Log (Record)

def Warning.record (w : Warning) : Record :=
  .warn w.message [.interval "interval" w.span.min w.span.max]

def parseRecords (strict : Bool) (source : Bytes) : List Record :=
  match scan source with
  | .error _ => []
  | .ok tokens =>
    let start := Record.trace "parse start"
      [.int "token_count" tokens.length, .bool "strict_params" strict]
    match parseTokens strict tokens with
    | ⟨_, .error c⟩ => [start, .trace "parse failed" [.fault "error" c.fault]]
    | ⟨warnings, .ok d⟩ =>
      start :: warnings.map Warning.record ++ [.trace "parse complete"
        [.int "function_count" d.operands.length, .int "warning_count" warnings.length]]

def compileRecord (source : Bytes) (elapsed : Int) : Except Fault Result → Record
  | .error f => .debug "compile failed" [.int "source_bytes" source.length, .fault "error" f]
  | .ok r => .debug "compiled"
      [.int "source_bytes" source.length, .int "code_bytes" r.code.length,
        .int "helpers" r.helpers, .int "warnings" r.warnings.length,
        .duration "elapsed" elapsed]

def Update.record (u : Update) (id : Bytes) (elapsed : Int) : Record :=
  let session := Attr.text "session" id
  if u.stale then .debug "discarded stale result" [session, .int "seq" u.seq]
  else match u.error, u.result with
    | some e, _ => .warn "compile failed" [session, .int "seq" u.seq, .fault "error" e]
    | none, some r => .info "compile succeeded"
        [session, .int "seq" u.seq, .bool "changed" u.changed, .int "code_bytes" r.code.length,
          .duration "elapsed" elapsed]
    | none, none => .debug "discarded stale result" [session, .int "seq" u.seq]

end DistanceField
