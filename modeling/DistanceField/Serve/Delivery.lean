import DistanceField.Serve.Metrics

/-! Submissions that finish beside each other. The session takes each outcome at once, and the metrics
hear of it later, in any order. -/
namespace DistanceField.Serve

/-- A session's state, the updates under way, and what was counted of those that arrived. -/
structure Delivery where
  state : State := {}
  waiting : List Update := []
  metrics : Metrics := {}

namespace Delivery

inductive Move where
  | finish (seq : Nat) (source : Bytes) (result : Option Result) (error : Option Fault)
  | deliver (update : Nat)

def step (d : Delivery) : Move → Delivery
  | .finish seq source result error =>
    let (u, state) := d.state.finish seq source result error
    { d with state := state, waiting := d.waiting ++ [u] }
  | .deliver i =>
    match d.waiting[i]? with
    | none => d
    | some u => { d with waiting := d.waiting.eraseIdx i, metrics := d.metrics.observe u }

def run (d : Delivery) (ms : List Move) : Delivery := ms.foldl step d

end Delivery

end DistanceField.Serve
