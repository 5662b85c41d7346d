import Mathlib.Tactic.Common

/-! Views into arrays that others share. Appending writes behind a view when its array has room there,
and what stood there may belong to another view; a view that gave up its spare room first leaves all
others as they were. -/
namespace DistanceField

/-- The first elements of an array, by its number. Appending may use `room` elements of it. -/
structure Slice where
  array : Nat
  length : Nat
  room : Nat
deriving DecidableEq

namespace Slice

variable {α : Type}

def empty : Slice := ⟨0, 0, 0⟩

def clip (s : Slice) : Slice := { s with room := s.length }

def contents (arrays : List (List α)) (n : Nat) : List α := arrays[n]?.getD []

def read (arrays : List (List α)) (s : Slice) : List α := (contents arrays s.array).take s.length

/-- A new array holds `xs`, with `spare` behind them. -/
def alloc (arrays : List (List α)) (xs spare : List α) : List (List α) × Slice :=
  (arrays ++ [xs ++ spare], ⟨arrays.length, xs.length, xs.length + spare.length⟩)

def append (arrays : List (List α)) (s : Slice) (xs spare : List α) : List (List α) × Slice :=
  if s.length + xs.length ≤ s.room then
    (arrays.modify s.array fun a => a.take s.length ++ xs ++ a.drop (s.length + xs.length),
      { s with length := s.length + xs.length })
  else alloc arrays (s.read arrays ++ xs) spare

-- Two appends to one view with room: the second overwrites what the first wrote.
example :
    let shared : Slice := ⟨0, 1, 2⟩
    let first := append [[1, 0]] shared [2] []
    let second := append first.1 shared [3] []
    first.2.read first.1 = [1, 2] ∧ first.2.read second.1 = [1, 3] := by decide

/-- The array is as long as the view says. -/
def Within (arrays : List (List α)) (s : Slice) : Prop :=
  s.length ≤ s.room ∧ s.room ≤ (contents arrays s.array).length

/-- Every view reads later what it reads now. -/
def Kept (before after : List (List α)) : Prop :=
  ∀ s : Slice, s.Within before → s.Within after ∧ s.read after = s.read before

variable {arrays later : List (List α)} {s : Slice}

theorem within_empty (arrays : List (List α)) : empty.Within arrays :=
  ⟨Nat.le_refl 0, Nat.zero_le _⟩

theorem Kept.refl (arrays : List (List α)) : Kept arrays arrays := fun _ inside => ⟨inside, rfl⟩

theorem contents_push (arrays : List (List α)) (a : List α) {n : Nat} (old : n < arrays.length) :
    contents (arrays ++ [a]) n = contents arrays n := by
  unfold contents
  rw [List.getElem?_append_left old]

theorem contents_new (arrays : List (List α)) (a : List α) :
    contents (arrays ++ [a]) arrays.length = a := by
  simp [contents]

theorem kept_push (arrays : List (List α)) (a : List α) : Kept arrays (arrays ++ [a]) := by
  intro s inside
  by_cases old : s.array < arrays.length
  · have same := contents_push arrays a old
    exact ⟨⟨inside.1, same ▸ inside.2⟩, congrArg (List.take s.length) same⟩
  · -- The view is of no array yet, and therefore it is empty.
    obtain ⟨fits, bound⟩ := inside
    have missing : contents arrays s.array = [] := by
      unfold contents
      rw [List.getElem?_eq_none (Nat.le_of_not_lt old)]
      rfl
    rw [missing, List.length_nil] at bound
    have none : s.length = 0 := by omega
    exact ⟨⟨fits, by omega⟩, by simp [read, none]⟩

theorem alloc_spec (arrays : List (List α)) (xs spare : List α) :
    Kept arrays (alloc arrays xs spare).1 ∧
      (alloc arrays xs spare).2.Within (alloc arrays xs spare).1 ∧
      (alloc arrays xs spare).2.read (alloc arrays xs spare).1 = xs := by
  have new := contents_new arrays (xs ++ spare)
  refine ⟨kept_push arrays _, ⟨Nat.le_add_right .., ?_⟩, ?_⟩
  · simp only [alloc, new, List.length_append, Nat.le_refl]
  · simp only [alloc, read, new, List.take_left]

theorem append_clip (inside : s.Within arrays) (xs spare : List α) :
    Kept arrays (append arrays s.clip xs spare).1 ∧
      (append arrays s.clip xs spare).2.Within (append arrays s.clip xs spare).1 ∧
      (append arrays s.clip xs spare).2.read (append arrays s.clip xs spare).1 =
        s.read arrays ++ xs := by
  by_cases room : s.length + xs.length ≤ s.length
  · have nothing : xs = [] := List.eq_nil_of_length_eq_zero (by omega)
    subst nothing
    have same : append arrays s.clip [] spare = (arrays, s.clip) := by
      have whole : (fun a : List α => a.take s.length ++ [] ++ a.drop s.length) = id := by
        funext a
        simp
      simp only [append, clip, List.length_nil, Nat.add_zero, Nat.le_refl, if_true]
      rw [whole, List.modify_id]
    rw [same]
    exact ⟨Kept.refl arrays, ⟨Nat.le_refl _, Nat.le_trans inside.1 inside.2⟩, by simp [read, clip]⟩
  · have grown : append arrays s.clip xs spare = alloc arrays (s.read arrays ++ xs) spare :=
      if_neg room
    rw [grown]
    exact alloc_spec arrays _ spare

end Slice

end DistanceField
