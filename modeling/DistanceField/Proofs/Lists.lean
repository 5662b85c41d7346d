import Mathlib.Tactic.Common

/-! Facts on lists that several parts share: one list cut at two places or at the end of a run, a row of
jobs in which one is changed or taken out, the last entry of a log that is of some kind, and pairs under
distinct keys. -/
namespace DistanceField

theorem takeWhile_stop {α : Type} {p : α → Bool} {cs rest : List α} (all : ∀ c ∈ cs, p c = true)
    (stops : ∀ c ∈ rest.head?, p c = false) :
    (cs ++ rest).takeWhile p = cs ∧ (cs ++ rest).dropWhile p = rest := by
  rw [List.takeWhile_append_of_pos all, List.dropWhile_append_of_pos all]
  cases rest with
  | nil => exact ⟨List.append_nil cs, rfl⟩
  | cons c rest =>
    have stop : ¬ p c = true := by simp [stops c rfl]
    rw [List.takeWhile_cons_of_neg stop, List.dropWhile_cons_of_neg stop]
    exact ⟨List.append_nil cs, rfl⟩

theorem split_append {α : Type} {front rest before after : List α} {x : α}
    (whole : front ++ rest = before ++ x :: after) :
    (∃ more, front = before ++ x :: more ∧ after = more ++ rest) ∨
      ∃ more, before = front ++ more ∧ rest = more ++ x :: after := by
  rcases List.append_eq_append_iff.mp whole with ⟨more, split, behind⟩ | ⟨more, split, behind⟩
  · exact .inr ⟨more, split, behind⟩
  · cases more with
    | nil => exact .inr ⟨[], by simpa using split.symm, behind.symm⟩
    | cons y more =>
      obtain ⟨rfl, later⟩ := List.cons.inj behind
      exact .inl ⟨more, split, later⟩

theorem split_twice {α : Type} {front rest before after : List α} {x y : α}
    (whole : front ++ x :: rest = before ++ y :: after) :
    (∃ more, front = before ++ y :: more ∧ after = more ++ x :: rest) ∨
      (front = before ∧ x = y ∧ rest = after) ∨
      ∃ more, before = front ++ x :: more ∧ rest = more ++ y :: after := by
  rcases split_append whole with earlier | ⟨more, split, behind⟩
  · exact .inl earlier
  · cases more with
    | nil =>
      obtain ⟨rfl, rfl⟩ := List.cons.inj behind
      exact .inr (.inl ⟨by simpa using split.symm, rfl, rfl⟩)
    | cons z more =>
      obtain ⟨rfl, later⟩ := List.cons.inj behind
      exact .inr (.inr ⟨more, split, later⟩)

theorem split_at {α : Type} {l : List α} {i : Nat} {x : α} (found : l[i]? = some x) :
    ∃ before after, l = before ++ x :: after ∧ (∀ y, l.set i y = before ++ y :: after) ∧
      l.eraseIdx i = before ++ after := by
  obtain ⟨inside, rfl⟩ := List.getElem?_eq_some_iff.mp found
  refine ⟨l.take i, l.drop (i + 1), ?_, ?_, ?_⟩
  · simp
  · intro y
    exact List.set_eq_take_append_cons_drop .. |>.trans (if_pos inside)
  · exact List.eraseIdx_eq_take_drop_succ ..

theorem countP_replace {α : Type} (p : α → Bool) {l : List α} {i : Nat} {x : α}
    (found : l[i]? = some x) (y : α) :
    (l.set i y).countP p + (p x).toNat = l.countP p + (p y).toNat := by
  obtain ⟨before, after, split, set, -⟩ := split_at found
  rw [set, split]
  cases old : p x <;> cases new : p y <;> simp [old, new] <;> omega

theorem last_append {α β : Type} (f : α → Option β) (l : List α) (x : α) :
    ((l ++ [x]).filterMap f).getLast? = (f x).or (l.filterMap f).getLast? := by
  cases found : f x <;> simp [found]

section Keys

variable {κ α : Type} [BEq κ] [LawfulBEq κ] {ps qs : List (κ × α)}

theorem lookup_of_mem (distinct : (ps.map Prod.fst).Nodup) {k : κ} {a : α} (found : (k, a) ∈ ps) :
    ps.lookup k = some a := by
  induction ps with
  | nil => cases found
  | cons p ps ih =>
    obtain ⟨other, distinct⟩ := List.nodup_cons.mp distinct
    rcases List.mem_cons.mp found with rfl | later
    · exact List.lookup_cons_self
    · have apart : (k == p.1) = false := by
        rw [beq_eq_false_iff_ne]
        rintro rfl
        exact other (List.mem_map.mpr ⟨_, later, rfl⟩)
      rw [List.lookup_cons, apart]
      exact ih distinct later

theorem lookup_perm (distinct : (ps.map Prod.fst).Nodup) (perm : ps.Perm qs) (k : κ) :
    ps.lookup k = qs.lookup k := by
  cases given : qs.lookup k with
  | none =>
    rw [List.lookup_eq_none_iff] at given ⊢
    exact fun p found => given p (perm.subset found)
  | some a =>
    obtain ⟨before, after, split, -⟩ := List.lookup_eq_some_iff.mp given
    have found : (k, a) ∈ qs := split ▸ List.mem_append_right before List.mem_cons_self
    exact lookup_of_mem distinct (perm.symm.subset found)

end Keys

end DistanceField
