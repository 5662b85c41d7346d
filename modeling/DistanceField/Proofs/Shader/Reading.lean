import Mathlib
import DistanceField.Shader.Generate

/-! Generated programs under any reading of their expressions: what a program means through its
numbered helpers is what its tree means by recursion. -/
namespace DistanceField.Shader

/-- A meaning for each form of a distance. -/
structure Reading (α F : Type) where
  empty : F
  full : F
  min : F → F → F
  max : F → F → F
  neg : F → F
  box : α → α → α → F
  ball : α → F
  rod : α → α → F
  sample : F → Placement α → F
  times : F → α → F

namespace Reading

variable {α F : Type} (R : Reading α F)

def distance (helper : Nat → F) : Distance α → F
  | .empty => R.empty
  | .full => R.full
  | .min a b => R.min (distance helper a) (distance helper b)
  | .max a b => R.max (distance helper a) (distance helper b)
  | .neg a => R.neg (distance helper a)
  | .box x y h => R.box x y h
  | .ball r => R.ball r
  | .rod r h => R.rod r h
  | .sample i w => R.sample (helper i) w
  | .times a k => R.times (distance helper a) k

def among (known : List F) (i : Nat) : F := known.getD i R.empty

def helpers (hs : List (Distance α)) : List F :=
  hs.foldl (fun known d => known ++ [R.distance (R.among known) d]) []

def program (p : Program α) : F := R.distance (R.among (R.helpers p.helpers)) p.distance

section Tree

variable [Scalar α]

def unite (fs : List F) : F := fs.foldl R.min R.empty

def intersect (fs : List F) : F := fs.foldl R.max R.full

def subtract : List F → F
  | [] => R.empty
  | f :: rest => rest.foldl (fun acc g => R.max acc (R.neg g)) f

def raise (f : F) (h : α) : F := R.sample f (.shift ⟨Scalar.zero, Scalar.zero, h⟩)

def solid (shape : Shape) (param : Bytes → α) (fs : List F) : F :=
  let turn := Placement.turn (turnBack (param "x") (param "y") (param "z"))
  match shape with
  | .group | .union | .other _ => R.unite fs
  | .intersection => R.intersect fs
  | .diff => R.subtract fs
  | .box =>
    R.min (R.raise (R.unite fs) (param "z"))
      (R.box (Scalar.half (param "x")) (Scalar.half (param "y")) (param "z"))
  | .sphere => R.min (R.raise (R.unite fs) (param "d")) (R.ball (Scalar.half (param "d")))
  | .cylinder =>
    R.min (R.raise (R.unite fs) (param "h")) (R.rod (Scalar.half (param "d")) (param "h"))
  | .trans => R.sample (R.unite fs) (.shift ⟨param "x", param "y", param "z"⟩)
  | .rot => R.sample (R.unite fs) turn
  | .arot => R.raise (R.sample (R.unite fs) turn) drop
  | .scale => R.times (R.sample (R.unite fs) (.shrink (Scalar.one / param "r"))) (param "r")

mutual

def tree : Geometry α → F
  | .mk _ shape params children => R.solid shape (Geometry.lookup shape params) (trees children)

def trees : List (Geometry α) → List F
  | [] => []
  | g :: gs => tree g :: trees gs

end

end Tree

theorem helpers_concat (hs : List (Distance α)) (d : Distance α) :
    R.helpers (hs ++ [d]) = R.helpers hs ++ [R.distance (R.among (R.helpers hs)) d] := by
  simp [helpers]

theorem length_helpers (hs : List (Distance α)) : (R.helpers hs).length = hs.length := by
  induction hs using List.reverseRecOn with
  | nil => rfl
  | append_singleton hs d ih => simp [helpers_concat, ih]

theorem helpers_append (hs more : List (Distance α)) :
    ∃ rest, R.helpers (hs ++ more) = R.helpers hs ++ rest := by
  induction more using List.reverseRecOn with
  | nil => exact ⟨[], by simp⟩
  | append_singleton more d ih =>
    obtain ⟨rest, same⟩ := ih
    rw [← List.append_assoc, helpers_concat, same]
    exact ⟨_, List.append_assoc ..⟩

theorem among_next (hs more : List (Distance α)) (d : Distance α) :
    R.among (R.helpers (hs ++ [d] ++ more)) hs.length = R.distance (R.among (R.helpers hs)) d := by
  obtain ⟨rest, same⟩ := R.helpers_append (hs ++ [d]) more
  rw [same, helpers_concat, among, List.append_assoc, ← R.length_helpers hs]
  simp

/-- A distance over some helpers means `f`, however many helpers follow. -/
def Denotes (hs : List (Distance α)) (d : Distance α) (f : F) : Prop :=
  ∀ more, R.distance (R.among (R.helpers (hs ++ more))) d = f

variable {R} {hs : List (Distance α)}

theorem Denotes.append {d : Distance α} {f : F} (denotes : R.Denotes hs d f)
    (new : List (Distance α)) : R.Denotes (hs ++ new) d f := by
  intro more
  rw [List.append_assoc]
  exact denotes (new ++ more)

theorem Denotes.min {a b : Distance α} {f g : F} (left : R.Denotes hs a f)
    (right : R.Denotes hs b g) : R.Denotes hs (.min a b) (R.min f g) := by
  intro more
  simp only [distance, left more, right more]

theorem Denotes.max {a b : Distance α} {f g : F} (left : R.Denotes hs a f)
    (right : R.Denotes hs b g) : R.Denotes hs (.max a b) (R.max f g) := by
  intro more
  simp only [distance, left more, right more]

theorem Denotes.cut {a b : Distance α} {f g : F} (left : R.Denotes hs a f)
    (right : R.Denotes hs b g) : R.Denotes hs (.max a (.neg b)) (R.max f (R.neg g)) := by
  intro more
  simp only [distance, left more, right more]

theorem Denotes.foldl {join : Distance α → Distance α → Distance α} {combine : F → F → F}
    (joins : ∀ {a b f g}, R.Denotes hs a f → R.Denotes hs b g → R.Denotes hs (join a b) (combine f g))
    {ds : List (Distance α)} {fs : List F} (all : List.Forall₂ (R.Denotes hs) ds fs)
    {d : Distance α} {f : F} (start : R.Denotes hs d f) :
    R.Denotes hs (ds.foldl join d) (fs.foldl combine f) := by
  induction all generalizing d f with
  | nil => exact start
  | cons first _ ih => exact ih (joins start first)

/-- More helpers, and a distance over all of them that means `f`. -/
def Builds (R : Reading α F) (hs : List (Distance α)) (r : Distance α × List (Distance α)) (f : F) :
    Prop :=
  ∃ new, r.2 = hs ++ new ∧ R.Denotes r.2 r.1 f

theorem Builds.keep {d : Distance α} {f : F} (denotes : R.Denotes hs d f) : R.Builds hs (d, hs) f :=
  ⟨[], (List.append_nil hs).symm, denotes⟩

theorem Builds.place {body : Distance α} {f : F} (denotes : R.Denotes hs body f) (w : Placement α) :
    R.Builds hs (place body w hs) (R.sample f w) := by
  refine ⟨[body], rfl, ?_⟩
  intro more
  have own := denotes []
  rw [List.append_nil] at own
  simp only [Shader.place, distance, among_next, own]

theorem Builds.stack [Scalar α] {body base : Distance α} {f g : F} (denotes : R.Denotes hs body f)
    (stand : ∀ hs, R.Denotes hs base g) (h : α) :
    R.Builds hs (.min (lift body h hs).1 base, (lift body h hs).2) (R.min (R.raise f h) g) := by
  obtain ⟨new, more, above⟩ := Builds.place denotes (.shift ⟨Scalar.zero, Scalar.zero, h⟩)
  exact ⟨new, more, above.min (stand _)⟩

variable [Scalar α]

theorem shaped_builds (shape : Shape) (param : Bytes → α) {ds : List (Distance α)} {fs : List F}
    (all : List.Forall₂ (R.Denotes hs) ds fs) :
    R.Builds hs (shaped shape param ds hs) (R.solid shape param fs) := by
  have body : R.Denotes hs (Shader.unite ds) (R.unite fs) :=
    Denotes.foldl Denotes.min all fun _ => rfl
  cases shape with
  | group | union | other => exact .keep body
  | intersection => exact .keep (Denotes.foldl Denotes.max all fun _ => rfl)
  | diff =>
    cases all with
    | nil => exact .keep fun _ => rfl
    | cons first rest => exact .keep (Denotes.foldl Denotes.cut rest first)
  | box | sphere | cylinder => exact Builds.stack body (fun _ _ => rfl) _
  | trans | rot => exact Builds.place body _
  | arot =>
    obtain ⟨new, more, turned⟩ :=
      Builds.place body (.turn (turnBack (param "x") (param "y") (param "z")))
    obtain ⟨newer, most, lowered⟩ :=
      Builds.place turned (.shift ⟨Scalar.zero, Scalar.zero, drop⟩)
    refine ⟨new ++ newer, ?_, lowered⟩
    rw [← List.append_assoc, ← more]
    exact most
  | scale =>
    obtain ⟨new, more, small⟩ := Builds.place body (.shrink (Scalar.one / param "r"))
    refine ⟨new, more, ?_⟩
    intro later
    exact congrArg (R.times · (param "r")) (small later)

mutual

theorem distance_builds (hs : List (Distance α)) :
    (g : Geometry α) → R.Builds hs (Shader.distance g hs) (R.tree g)
  | .mk _ shape params children => by
    obtain ⟨new, more, all⟩ := distances_build hs children
    obtain ⟨newer, most, denotes⟩ := shaped_builds shape (Geometry.lookup shape params) all
    rw [Shader.distance, tree]
    refine ⟨new ++ newer, ?_, denotes⟩
    rw [← List.append_assoc, ← more]
    exact most

theorem distances_build (hs : List (Distance α)) : (gs : List (Geometry α)) →
    ∃ new, (distances gs hs).2 = hs ++ new ∧
      List.Forall₂ (R.Denotes (distances gs hs).2) (distances gs hs).1 (R.trees gs)
  | [] => ⟨[], by simp [distances], by simp [distances, trees]⟩
  | g :: gs => by
    obtain ⟨new, more, first⟩ := distance_builds hs g
    obtain ⟨newer, most, rest⟩ := distances_build (Shader.distance g hs).2 gs
    rw [distances, trees]
    refine ⟨new ++ newer, ?_, .cons ?_ rest⟩
    · rw [← List.append_assoc, ← more]
      exact most
    · change R.Denotes (distances gs (Shader.distance g hs).2).2 _ _
      rw [most]
      exact first.append newer

end

/-- Under every reading, a generated program means what its tree means. -/
theorem program_eq_tree (g : Geometry α) : R.program (Shader.program g) = R.tree g := by
  obtain ⟨new, -, denotes⟩ := distance_builds (R := R) [] g
  have whole := denotes []
  rw [List.append_nil] at whole
  exact whole

end Reading

end DistanceField.Shader
