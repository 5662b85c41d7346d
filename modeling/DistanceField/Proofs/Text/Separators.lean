import Mathlib.Tactic.Common
import DistanceField.Text.Bytes

/-! Texts that are joined by a separator, and split at one. -/
namespace DistanceField.Bytes

theorem join_cons (sep b : Bytes) (rest : List Bytes) :
    join sep (b :: rest) = b ++ rest.flatMap (sep ++ ·) := by
  induction rest generalizing b with
  | nil => simp [join]
  | cons c rest ih => simp [join, ih]

theorem join_append (sep b : Bytes) (front back : List Bytes) :
    join sep (front ++ b :: back) = front.flatMap (· ++ sep) ++ b ++ back.flatMap (sep ++ ·) := by
  induction front with
  | nil => simp [join_cons]
  | cons c front ih =>
    have more : join sep (c :: (front ++ b :: back)) = c ++ sep ++ join sep (front ++ b :: back) := by
      cases front <;> rfl
    simp [more, ih]

section Split

variable {sep : UInt8} {text : Bytes}

theorem split_cons (sep c : UInt8) (text : Bytes) : ∃ piece more, split sep text = piece :: more ∧
    split sep (c :: text) = if c == sep then [] :: piece :: more else (c :: piece) :: more := by
  have some : split sep text ≠ [] := by
    cases text with
    | nil => simp [split]
    | cons b text =>
      rw [split]
      split
      · simp
      · split <;> simp
  obtain ⟨piece, more, pieces⟩ := List.exists_cons_of_ne_nil some
  exact ⟨piece, more, pieces, by rw [split, pieces]⟩

theorem split_none (other : ∀ b ∈ text, b ≠ sep) : split sep text = [text] := by
  induction text with
  | nil => rfl
  | cons b text ih =>
    obtain ⟨here, later⟩ := List.forall_mem_cons.mp other
    simp [split, ih later, here]

theorem split_append (sep : UInt8) (front back : Bytes) :
    split sep (front ++ sep :: back) = split sep front ++ split sep back := by
  induction front with
  | nil =>
    obtain ⟨piece, more, pieces, next⟩ := split_cons sep sep back
    simp [next, pieces, split]
  | cons c front ih =>
    obtain ⟨piece, more, pieces, next⟩ := split_cons sep c front
    rw [List.cons_append, split, ih, pieces, next]
    by_cases here : c = sep <;> simp [here]

theorem join_split (sep : UInt8) (text : Bytes) : join [sep] (split sep text) = text := by
  induction text with
  | nil => rfl
  | cons c text ih =>
    obtain ⟨piece, more, pieces, next⟩ := split_cons sep c text
    rw [pieces, join_cons] at ih
    rw [next]
    by_cases here : c = sep <;> simpa [here, join_cons] using ih

theorem mem_split {x : Bytes} (found : x ∈ split sep text) :
    ∃ u v, sep :: (text ++ [sep]) = u ++ sep :: (x ++ sep :: v) := by
  obtain ⟨front, back, pieces⟩ := List.append_of_mem found
  have whole := join_split sep text
  rw [pieces, join_append] at whole
  have before : sep :: front.flatMap (· ++ [sep]) = front.flatMap (sep :: ·) ++ [sep] := by
    clear pieces whole
    induction front with
    | nil => rfl
    | cons b front ih => simpa using ih
  have behind : back.flatMap (sep :: ·) ++ [sep] = sep :: back.flatMap (· ++ [sep]) := by
    clear pieces whole
    induction back with
    | nil => rfl
    | cons b back ih => simpa using ih
  refine ⟨front.flatMap (sep :: ·), back.flatMap (· ++ [sep]), ?_⟩
  calc sep :: (text ++ [sep])
      = (sep :: front.flatMap (· ++ [sep])) ++ x ++ (back.flatMap (sep :: ·) ++ [sep]) := by
        simp [← whole]
    _ = _ := by simp [before, behind]

theorem split_join {x : Bytes} (xs : List Bytes) :
    split sep (join [sep] (x :: xs)) = (x :: xs).flatMap (split sep) := by
  induction xs generalizing x with
  | nil => simp [join]
  | cons y xs ih => simp [join, split_append, ih]

end Split

end DistanceField.Bytes
