import DistanceField.Editor.Model

/-! Compiles beside the editor. Each takes a number when it begins, and what it found may reach the editor
in any order. -/
namespace DistanceField.Editor

inductive Job where
  | issued (source : Bytes)
  | begun (seq : Nat) (source : Bytes)
  | finished (u : Update)

structure Desk where
  model : Model
  jobs : List Job := []

namespace Desk

inductive Move where
  | message (m : Message)
  | begin (job : Nat)
  | finish (job : Nat)
  | deliver (job : Nat)

def jobsOf (cs : List Command) : List Job :=
  cs.filterMap fun c => match c with
    | .compile source => some (.issued source)
    | _ => none

def start (strict : Bool) (path source : Bytes) : Desk :=
  let m := Model.start strict path source
  ⟨m, jobsOf m.init⟩

def message (d : Desk) (m : Message) : Desk :=
  let (model, cs) := d.model.update m
  ⟨model, d.jobs ++ jobsOf cs⟩

def begin (d : Desk) (i : Nat) : Desk :=
  match d.jobs[i]? with
  | some (.issued source) =>
    let (seq, session) := d.model.session.begin
    ⟨{ d.model with session := session }, d.jobs.set i (.begun seq source)⟩
  | _ => d

def finish (d : Desk) (i : Nat) : Desk :=
  match d.jobs[i]? with
  | some (.begun seq source) =>
    let (r, session) := d.model.session.compile false source
    let (u, session) := session.finishWith seq source r
    ⟨{ d.model with session := session }, d.jobs.set i (.finished u)⟩
  | _ => d

def deliver (d : Desk) (i : Nat) : Desk :=
  match d.jobs[i]? with
  | some (.finished u) => ⟨(d.model.update (.compiled u)).1, d.jobs.eraseIdx i⟩
  | _ => d

def step (d : Desk) : Move → Desk
  | .message m => d.message m
  | .begin i => d.begin i
  | .finish i => d.finish i
  | .deliver i => d.deliver i

def run (d : Desk) (ms : List Move) : Desk := ms.foldl step d

end Desk

end DistanceField.Editor
