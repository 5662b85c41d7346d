import Mathlib.Data.List.Induction
import Mathlib.Data.List.Infix
import DistanceField.Compile.Callers
import DistanceField.Proofs.Compile.Memory
import DistanceField.Proofs.Lists

/-! A cache with several callers at once. Its statistics are right in any case. Its bound and its size are
right as far as calls do not overlap: a call decides to store by a size that others may have outdated, and
a call that clears takes two steps, between which others may store. -/
namespace DistanceField.Callers

def Call.of : Cache.Request → Call
  | .compile canceled strict source => .compile canceled strict source
  | .clear => .clear

namespace Phase

def isClearing : Phase → Bool
  | .reset => true
  | _ => false

def isStoring : Phase → Bool
  | .keep => true
  | _ => false

/-- Whether an entry is stored, and the size does not count it yet. -/
def isGrowing : Phase → Bool
  | .grow _ => true
  | _ => false

end Phase

inductive Turn (s : Store) : Option (Bool × Bytes) → Phase → Phase → Store → Prop where
  | hit (q : Bool × Bytes) (p : Nat) : Turn s (some q) .load (.count true p) s
  | miss (q : Bool × Bytes) : Turn s (some q) .load .measure s
  | full (q : Bool × Bytes) : Turn s (some q) .measure .empty s
  | room (q : Bool × Bytes) : s.size < s.limit → Turn s (some q) .measure .keep s
  | empty (who : Option (Bool × Bytes)) : Turn s who .empty .reset { s with keys := [] }
  | reset (q : Bool × Bytes) : Turn s (some q) .reset .keep { s with size := 0 }
  | cleared : Turn s none .reset (.done none) { s with size := 0 }
  | found (q : Bool × Bytes) (p : Nat) : Turn s (some q) .keep (.count true p) s
  | store (q : Bool × Bytes) (p : Nat) (places : List (Option (Except Fault Result))) :
      s.keys.lookup (s.key q) = none →
        Turn s (some q) .keep (.grow p)
          { s with keys := (s.key q, p) :: s.keys, places := places }
  | grow (q : Bool × Bytes) (p : Nat) :
      Turn s (some q) (.grow p) (.count false p) { s with size := s.size + 1 }
  | countHit (q : Bool × Bytes) (p : Nat) :
      Turn s (some q) (.count true p) (.work p) { s with hits := s.hits + 1 }
  | countMiss (q : Bool × Bytes) (p : Nat) :
      Turn s (some q) (.count false p) (.work p) { s with misses := s.misses + 1 }
  | work (q : Bool × Bytes) (p : Nat) (r : Except Fault Result)
      (places : List (Option (Except Fault Result))) :
      Turn s (some q) (.work p) (.done (some r)) { s with places := places }
  | rest (who : Option (Bool × Bytes)) (phase : Phase) : Turn s who phase phase s

theorem step_turn (s : Store) (q : Bool × Bytes) (phase : Phase) :
    Turn s (some q) phase (s.step q phase).1 (s.step q phase).2 := by
  cases phase with
  | load =>
    cases found : s.keys.lookup (s.key q) with
    | none => simpa [Store.step, found] using .miss q
    | some p => simpa [Store.step, found] using .hit q p
  | measure =>
    by_cases full : s.limit ≤ s.size
    · simpa [Store.step, full] using .full q
    · simpa [Store.step, full] using .room q (by omega)
  | empty => exact .empty (some q)
  | reset => exact .reset q
  | keep =>
    cases found : s.keys.lookup (s.key q) with
    | none => simpa [Store.step, found] using .store q _ _ found
    | some p => simpa [Store.step, found] using .found q p
  | grow p => exact .grow q p
  | count hit p =>
    cases hit with
    | true => exact .countHit q p
    | false => exact .countMiss q p
  | work p =>
    simp only [Store.step, Store.work]
    split
    · exact .work q p _ s.places
    · exact .work q p _ _
  | done r => exact .rest (some q) (.done r)

theorem clearStep_turn (s : Store) (phase : Phase) :
    Turn s none phase (s.clearStep phase).1 (s.clearStep phase).2 := by
  cases phase with
  | empty => exact .empty none
  | reset => exact .cleared
  | _ => exact .rest none _

namespace Scene

theorem step_cases (w : Scene) (i : Nat) :
    w.step i = w ∨ ∃ who old new s, w.calls[i]? = some ⟨who, old⟩ ∧ Turn w.store who old new s ∧
      w.step i = ⟨s, w.calls.set i ⟨who, new⟩⟩ := by
  cases found : w.calls[i]? with
  | none => exact .inl (by simp [step, found])
  | some c =>
    obtain ⟨who, old⟩ := c
    refine .inr ⟨who, old, ?_⟩
    cases who with
    | none => exact ⟨_, _, rfl, clearStep_turn w.store old, by simp [step, found]⟩
    | some q => exact ⟨_, _, rfl, step_turn w.store q old, by simp [step, found]⟩

def clearing (w : Scene) : Nat := w.calls.countP (·.phase.isClearing)

def storing (w : Scene) : Nat := w.calls.countP (·.phase.isStoring)

def growing (w : Scene) : Nat := w.calls.countP (·.phase.isGrowing)

/-- Not more than `k` calls at once are about to change what is stored, and one that clears is alone. -/
def Calm (k : Nat) (w : Scene) : Prop :=
  w.clearing + w.storing + w.growing ≤ k ∧
    (0 < w.clearing → w.clearing + w.storing + w.growing = 1)

instance (k : Nat) (w : Scene) : Decidable (Calm k w) :=
  inferInstanceAs (Decidable (_ ∧ (_ → _)))

/-- The size counts what is stored, but for a call that clears and for those that have stored and not
counted. Each call that is about to store has found room. -/
structure Filed (limit k : Nat) (w : Scene) : Prop where
  kept : w.store.limit = limit
  emptied : 0 < w.clearing → w.store.keys.length = 0
  sized : w.clearing = 0 → w.store.keys.length = w.store.size + w.growing
  bounded : w.clearing = 0 → w.store.size + w.storing + w.growing < limit + k

theorem Filed.step {limit k : Nat} {w : Scene} (filed : Filed limit k w) (room : 0 < limit)
    (calm : w.Calm k) {i : Nat} (after : (w.step i).Calm k) : Filed limit k (w.step i) := by
  rcases w.step_cases i with same | ⟨who, old, new, s, found, turn, next⟩
  · rwa [same]
  · rw [next] at after ⊢
    have clears : clearing ⟨s, w.calls.set i ⟨who, new⟩⟩ + old.isClearing.toNat =
        w.clearing + new.isClearing.toNat := countP_replace _ found _
    have stores : storing ⟨s, w.calls.set i ⟨who, new⟩⟩ + old.isStoring.toNat =
        w.storing + new.isStoring.toNat := countP_replace _ found _
    have grows : growing ⟨s, w.calls.set i ⟨who, new⟩⟩ + old.isGrowing.toNat =
        w.growing + new.isGrowing.toNat := countP_replace _ found _
    obtain ⟨kept, emptied, sized, bounded⟩ := filed
    obtain ⟨few, alone⟩ := calm
    obtain ⟨few', alone'⟩ := after
    -- with the turn, the counts before and after differ by constants, and all four facts are sums
    cases turn <;>
      simp only [Phase.isClearing, Phase.isStoring, Phase.isGrowing, Bool.toNat_true,
        Bool.toNat_false] at clears stores grows <;>
      constructor <;> simp only [List.length_cons, List.length_nil, implies_true] <;> omega

theorem run_append (w : Scene) (turns : List Nat) (i : Nat) :
    w.run (turns ++ [i]) = (w.run turns).step i := List.foldl_append

theorem Filed.run {limit k : Nat} {w : Scene} (filed : Filed limit k w) (room : 0 < limit)
    {turns : List Nat} (calm : ∀ before, before <+: turns → (w.run before).Calm k) :
    Filed limit k (w.run turns) := by
  induction turns using List.reverseRecOn with
  | nil => exact filed
  | append_singleton turns i ih =>
    have earlier : ∀ before, before <+: turns → (w.run before).Calm k := by
      intro before part
      exact calm before (part.trans (List.prefix_append turns [i]))
    have after := calm (turns ++ [i]) List.prefix_rfl
    rw [run_append] at after ⊢
    exact (ih earlier).step room (earlier turns List.prefix_rfl) after

section Start

variable (limit : Int) (digest : Bytes → Bytes) (rs : List Cache.Request)

end Start

def crossed : List Nat := [3, 0, 1, 3, 0, 1, 0, 1, 0, 1, 0, 1, 0, 1]

end Scene

end DistanceField.Callers
