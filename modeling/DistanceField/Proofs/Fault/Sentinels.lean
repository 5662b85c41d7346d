import Mathlib.Tactic.Common
import DistanceField.Fault

/-! Failures that others are made from, and which of them a failure counts as: those that it or one of
its causes is a refinement of, told apart by message and by origin. -/
namespace DistanceField

inductive Origin where
  | source
  | command
deriving DecidableEq

structure Sentinel where
  origin : Origin
  name : Bytes
  named : name ≠ []

namespace Fault

def origin? : Fault → Option Origin
  | source .. => some .source
  | command .. => some .command
  | plain _ | outer .. => none

def own : Fault → Bytes
  | source m .. | command m .. => m
  | plain t => t
  | outer lead _ => lead

/-- The second failure is the first or stands behind it as a cause. -/
inductive Unwraps : Fault → Fault → Prop where
  | self (f : Fault) : Unwraps f f
  | cause {f c g : Fault} (caused : f.cause? = some c) (behind : Unwraps c g) : Unwraps f g

def ofOrigin (msg : Bytes) : Origin → Fault
  | .source => ofSource msg
  | .command => ofCommand msg

def is (f : Fault) (s : Sentinel) : Bool :=
  match s.origin with
  | .source => f.isSource s.name
  | .command => f.isCommand s.name

end Fault

/-- The failure is of the sentinel's origin and has its message. -/
def Sentinel.Marks (s : Sentinel) (f : Fault) : Prop := f.origin? = some s.origin ∧ f.own = s.name

instance (s : Sentinel) (f : Fault) : Decidable (s.Marks f) :=
  inferInstanceAs (Decidable (_ ∧ _))

namespace Fault

variable {s : Sentinel} {f g c : Fault}

theorem is_step (f : Fault) (s : Sentinel) :
    f.is s = (decide (s.Marks f) || f.cause?.elim false (·.is s)) := by
  obtain ⟨origin, name, -⟩ := s
  cases origin <;> cases f with
  | source m c a p | command m c a =>
    cases c <;>
      simp [is, isSource, isCommand, Sentinel.Marks, origin?, own, cause?, beq_eq_decide]
  | plain t | outer lead c => simp [is, isSource, isCommand, Sentinel.Marks, origin?, cause?]

theorem is_cases : f.is s = true ↔ s.Marks f ∨ ∃ c, f.cause? = some c ∧ c.is s = true := by
  rw [is_step]
  cases f.cause? <;> simp

theorem sizeOf_cause (caused : f.cause? = some c) : sizeOf c < sizeOf f := by
  cases f with
  | source m k a p | command m k a | outer lead k =>
    cases caused
    simp only [source.sizeOf_spec, command.sizeOf_spec, outer.sizeOf_spec, Option.some.sizeOf_spec]
    omega
  | plain t => cases caused

theorem is_iff (f : Fault) (s : Sentinel) : f.is s = true ↔ ∃ g, f.Unwraps g ∧ s.Marks g := by
  constructor
  · intro matched
    induction size : sizeOf f using Nat.strongRecOn generalizing f with
    | _ n ih =>
      rcases is_cases.mp matched with here | ⟨c, caused, behind⟩
      · exact ⟨f, .self f, here⟩
      · obtain ⟨g, found, marked⟩ := ih _ (size ▸ sizeOf_cause caused) c behind rfl
        exact ⟨g, .cause caused found, marked⟩
  · rintro ⟨g, found, marked⟩
    induction found with
    | self f => exact is_cases.mpr (.inl marked)
    | cause caused _ ih => exact is_cases.mpr (.inr ⟨_, caused, ih marked⟩)

@[simp] theorem is_withAttrs (f : Fault) (as : List Attr) (s : Sentinel) :
    (f.withAttrs as).is s = f.is s := by
  rw [is_step, is_step f]
  cases f <;> rfl

@[simp] theorem is_locate (f : Fault) (i : Interval) (s : Sentinel) :
    (f.locate i).is s = f.is s := by
  rw [is_step, is_step f]
  cases f <;> rfl

theorem withAttrs_place (f : Fault) (as : List Attr) :
    (f.withAttrs as).isLocated = f.isLocated ∧ (f.withAttrs as).interval = f.interval := by
  cases f with
  | source m c a p => cases p <;> exact ⟨rfl, rfl⟩
  | command | plain | outer => exact ⟨rfl, rfl⟩

theorem wrap_place (f c : Fault) :
    (f.wrap c).isLocated = f.isLocated ∧ (f.wrap c).interval = f.interval := by
  cases f with
  | source m c a p => cases p <;> exact ⟨rfl, rfl⟩
  | command | plain | outer => exact ⟨rfl, rfl⟩

theorem locate_place (placed : f.origin? = some .source) (i : Interval) :
    (f.locate i).isLocated = true ∧ (f.locate i).interval = i := by
  cases f with
  | source => exact ⟨rfl, rfl⟩
  | command | plain | outer => cases placed

theorem is_wrap (refined : f.origin?.isSome) (c : Fault) (s : Sentinel) :
    (f.wrap c).is s = true ↔ s.Marks f ∨ c.is s = true := by
  rw [is_step]
  cases f with
  | source | command => simp [wrap, cause?, Sentinel.Marks, origin?, own]
  | plain | outer => cases refined

end Fault

end DistanceField
