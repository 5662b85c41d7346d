import Mathlib.Tactic.Common

/-! Runs that only add. A step may be refused; otherwise it makes one more thing out of those that are
there, by number, and leaves these as they were. -/
namespace DistanceField

variable {σ α β : Type} {step : σ → α → Option σ}

theorem run_cons {s t : σ} {a : α} {as : List α} (ran : (a :: as).foldlM step s = some t) :
    ∃ u, step s a = some u ∧ as.foldlM step u = some t := by
  rw [List.foldlM_cons] at ran
  exact Option.bind_eq_some_iff.mp ran

theorem run_at {s t : σ} {a : α} {as : List α} {k : Nat} (ran : as.foldlM step s = some t)
    (here : as[k]? = some a) :
    ∃ before after, (as.take k).foldlM step s = some before ∧ step before a = some after ∧
      (as.drop (k + 1)).foldlM step after = some t := by
  obtain ⟨inside, rfl⟩ := List.getElem?_eq_some_iff.mp here
  have split : as = as.take k ++ as[k] :: as.drop (k + 1) := by simp
  rw [split, List.foldlM_append] at ran
  obtain ⟨before, first, rest⟩ := Option.bind_eq_some_iff.mp ran
  obtain ⟨after, next, last⟩ := run_cons rest
  exact ⟨before, after, first, next, last⟩

/-- In a sound state `look` shows as many things as its size says, and `mean` is what a step makes of
the things that it names. -/
structure Growth (step : σ → α → Option σ) (Sound : σ → Prop) (size : σ → Nat)
    (look : σ → Nat → Option β) (mean : (Nat → Option β) → α → Option β) : Prop where
  adds : ∀ {s a t}, Sound s → step s a = some t → Sound t ∧ size t = size s + 1 ∧
    look t (size s) = mean (look s) a ∧ ∀ k < size s, look t k = look s k
  known : ∀ {s k x}, look s k = some x → k < size s
  shown : ∀ {s k}, Sound s → k < size s → ∃ x, look s k = some x
  mono : ∀ {f g a x}, (∀ k y, f k = some y → g k = some y) → mean f a = some x → mean g a = some x

namespace Growth

variable {Sound : σ → Prop} {size : σ → Nat} {look : σ → Nat → Option β}
  {mean : (Nat → Option β) → α → Option β} {s t : σ} {as : List α}

theorem run (growth : Growth step Sound size look mean) (sound : Sound s)
    (ran : as.foldlM step s = some t) :
    Sound t ∧ size t = size s + as.length ∧ ∀ k < size s, look t k = look s k := by
  induction as generalizing s with
  | nil =>
    cases ran
    exact ⟨sound, rfl, fun _ _ => rfl⟩
  | cons a as ih =>
    obtain ⟨u, first, rest⟩ := run_cons ran
    obtain ⟨soundNext, one, -, sameNext⟩ := growth.adds sound first
    obtain ⟨soundLast, all, sameLast⟩ := ih soundNext rest
    refine ⟨soundLast, by rw [all, one, List.length_cons]; omega, fun k old => ?_⟩
    exact (sameLast k (by omega)).trans (sameNext k old)

theorem made_early (growth : Growth step Sound size look mean) (sound : Sound s)
    (start : size s = 0) (ran : as.foldlM step s = some t) {k : Nat} {a : α}
    (here : as[k]? = some a) :
    ∃ x early, look t k = some x ∧ mean early a = some x ∧
      ∀ e y, early e = some y → e < k ∧ look t e = some y := by
  obtain ⟨before, after, earlier, done, rest⟩ := run_at ran here
  obtain ⟨soundBefore, count, -⟩ := growth.run sound earlier
  have inside : k < as.length := (List.getElem?_eq_some_iff.mp here).1
  have number : size before = k := by
    rw [count, start, List.length_take, Nat.min_eq_left (Nat.le_of_lt inside), Nat.zero_add]
  obtain ⟨soundAfter, one, new, sameAfter⟩ := growth.adds soundBefore done
  obtain ⟨-, -, sameLast⟩ := growth.run soundAfter rest
  rw [number] at new
  obtain ⟨x, found⟩ := growth.shown soundAfter (show k < size after by omega)
  refine ⟨x, look before, (sameLast k (by omega)).trans found, new.symm.trans found, ?_⟩
  intro e y held
  have old := growth.known held
  exact ⟨by omega, (sameLast e (by omega)).trans ((sameAfter e old).trans held)⟩

theorem made (growth : Growth step Sound size look mean) (sound : Sound s) (start : size s = 0)
    (ran : as.foldlM step s = some t) {k : Nat} {a : α} (here : as[k]? = some a) :
    ∃ x, look t k = some x ∧ mean (look t) a = some x := by
  obtain ⟨x, early, shown, built, same⟩ := growth.made_early sound start ran here
  exact ⟨x, shown, growth.mono (fun e y held => (same e y held).2) built⟩

end Growth

end DistanceField
