import DistanceField.Compile.Cache

/-! A cache with several callers at once. A call is a row of small steps, and the steps of different
calls may come in any order. -/
namespace DistanceField.Callers

/-- What the callers share. A key leads to the number of a place, and a place holds an outcome as soon as
one call has worked it out. -/
structure Store where
  limit : Nat
  digest : Bytes → Bytes := id
  keys : List (Bytes × Nat) := []
  places : List (Option (Except Fault Result)) := []
  size : Nat := 0
  hits : Nat := 0
  misses : Nat := 0

inductive Phase where
  | load
  | measure
  | empty
  | reset
  | keep
  | grow (place : Nat)
  | count (hit : Bool) (place : Nat)
  | work (place : Nat)
  | done (outcome : Option (Except Fault Result))

/-- A call; without a question it is one that clears the cache. -/
structure Call where
  question : Option (Bool × Bytes)
  phase : Phase

namespace Call

/-- A compile that was called off is over before its first step. -/
def compile (canceled strict : Bool) (source : Bytes) : Call :=
  ⟨some (strict, source), if canceled then .done (some (.error calledOff)) else .load⟩

def clear : Call := ⟨none, .empty⟩

def outcome? (c : Call) : Option (Except Fault Result) :=
  match c.phase with
  | .done r => r
  | _ => none

end Call

namespace Store

def key (s : Store) (question : Bool × Bytes) : Bytes :=
  s.digest ((if question.1 then 1 else 0) :: question.2)

def work (s : Store) (place : Nat) (question : Bool × Bytes) : Except Fault Result × Store :=
  match s.places[place]? with
  | some (some r) => (r, s)
  | _ =>
    let r := DistanceField.compile question.1 question.2
    (r, { s with places := s.places.set place (some r) })

def step (s : Store) (question : Bool × Bytes) : Phase → Phase × Store
  | .load =>
    match s.keys.lookup (s.key question) with
    | some p => (.count true p, s)
    | none => (.measure, s)
  | .measure => (if s.limit ≤ s.size then .empty else .keep, s)
  | .empty => (.reset, { s with keys := [] })
  | .reset => (.keep, { s with size := 0 })
  | .keep =>
    match s.keys.lookup (s.key question) with
    | some p => (.count true p, s)
    | none =>
      let p := s.places.length
      (.grow p, { s with keys := (s.key question, p) :: s.keys, places := s.places ++ [none] })
  | .grow p => (.count false p, { s with size := s.size + 1 })
  | .count true p => (.work p, { s with hits := s.hits + 1 })
  | .count false p => (.work p, { s with misses := s.misses + 1 })
  | .work p =>
    let (r, s) := s.work p question
    (.done (some r), s)
  | .done r => (.done r, s)

def clearStep (s : Store) : Phase → Phase × Store
  | .empty => (.reset, { s with keys := [] })
  | .reset => (.done none, { s with size := 0 })
  | p => (p, s)

end Store

structure Scene where
  store : Store
  calls : List Call

namespace Scene

def step (w : Scene) (i : Nat) : Scene :=
  match w.calls[i]? with
  | none => w
  | some c =>
    let (p, s) := match c.question with
      | some question => w.store.step question c.phase
      | none => w.store.clearStep c.phase
    ⟨s, w.calls.set i { c with phase := p }⟩

def run (w : Scene) (turns : List Nat) : Scene := turns.foldl step w

def start (limit : Int) (digest : Bytes → Bytes) (calls : List Call) : Scene :=
  ⟨{ limit := (Cache.ofLimit limit).limit, digest := digest }, calls⟩

end Scene

end DistanceField.Callers
