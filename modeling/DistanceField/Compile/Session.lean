import DistanceField.Compile.Cache

/-! The latest accepted compile of a changing source. Outcomes may arrive in any order; one that
is older than the last accepted is discarded. Submissions are numbered without a bound, so this is a
counter of 64 bits only as long as fewer than 2 ^ 64 of them were begun. -/
namespace DistanceField

/-- The effect of one finished submission: `result` is the current good result after it. -/
structure Update where
  seq : Nat
  result : Option Result
  error : Option Fault
  changed : Bool
  stale : Bool

structure State where
  seq : Nat := 0
  source : Bytes := []
  result : Option Result := none
  error : Option Fault := none

namespace State

def ok (s : State) : Bool := s.error.isNone && s.result.isSome

def isUpdated (s : State) : Bool := s.seq > 0

def errorPosition? (s : State) : Option (Nat × Nat) :=
  match s.error.bind Fault.source? with
  | some f => if f.isLocated then some (f.interval.position s.source) else none
  | none => none

end State

def differs (old : Option Result) (new : Result) : Bool :=
  match old with
  | none => true
  | some r => r.hash != new.hash || r.code != new.code

/-- How a submission ended: neither a result nor an error means that it was called off. -/
def outcome (res : Option Result) (err : Option Fault) : Except Fault Result :=
  match err, res with
  | some e, _ => .error e
  | none, some r => .ok r
  | none, none => .error (Fault.ofSource Fault.canceled)

def State.finish (s : State) (seq : Nat) (source : Bytes) (res : Option Result)
    (err : Option Fault) : Update × State :=
  if seq ≤ s.seq then (⟨seq, s.result, err, false, true⟩, s)
  else match outcome res err with
    | .error e =>
      (⟨seq, s.result, some e, false, false⟩, ⟨seq, source, s.result, some e⟩)
    | .ok r =>
      (⟨seq, some r, none, differs s.result r, false⟩, ⟨seq, source, some r, none⟩)

structure Session where
  strict : Bool := false
  cache : Option Cache := none
  next : Nat := 0
  state : State := {}

namespace Session

def current (s : Session) : Option Result := s.state.result

def begin (s : Session) : Nat × Session := (s.next + 1, { s with next := s.next + 1 })

def finish (s : Session) (seq : Nat) (source : Bytes) (res : Option Result) (err : Option Fault) :
    Update × Session :=
  let (u, state) := s.state.finish seq source res err
  (u, { s with state := state })

def compile (s : Session) (canceled : Bool) (source : Bytes) : Except Fault Result × Session :=
  match s.cache with
  | none => (compileUnless canceled s.strict source, s)
  | some c =>
    let ((_, r), c) := c.compile canceled s.strict source
    (r, { s with cache := some c })

def finishWith (s : Session) (seq : Nat) (source : Bytes) : Except Fault Result → Update × Session
  | .ok r => s.finish seq source (some r) none
  | .error e => s.finish seq source none (some e)

def submit (s : Session) (canceled : Bool) (source : Bytes) : Update × Session :=
  let (seq, s) := s.begin
  let (r, s) := s.compile canceled source
  s.finishWith seq source r

end Session

end DistanceField
