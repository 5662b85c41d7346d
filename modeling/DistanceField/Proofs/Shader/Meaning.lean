import Mathlib
import DistanceField.Probe.Builtin
import DistanceField.Shader.Generate

/-! The distance of a solid at a point, and that programs of helpers keep it. -/
namespace DistanceField.Shader

open Probe (least greatest)
open Probe.Builtin (inner norm)

/-- The value of a number once it is written: kept within the bounds, zero without a sign. -/
def written (v : Float) : Float := if Scalar.clamp v == 0 then 0 else Scalar.clamp v

def far : Float := 1e9

def Triple.list (p : Triple Float) : List Float := [p.x, p.y, p.z]

def Triple.written (v : Triple Float) : Triple Float :=
  ⟨Shader.written v.x, Shader.written v.y, Shader.written v.z⟩

/-- Where the sampled point comes to lie. -/
def Placement.apply (w : Placement Float) (p : Triple Float) : Triple Float :=
  match w with
  | .shift v => ⟨p.x - written v.x, p.y - written v.y, p.z - written v.z⟩
  | .shrink k => ⟨p.x * written k, p.y * written k, p.z * written k⟩
  | .turn m =>
    ⟨inner p.list m.x.written.list, inner p.list m.y.written.list, inner p.list m.z.written.list⟩

def slab (h : Float) (p : Triple Float) : Float := greatest (-p.z) (p.z - written h)

def block (x y h : Float) (p : Triple Float) : Float :=
  greatest (greatest (p.x.abs - written x) (p.y.abs - written y)) (slab h p)

def pillar (r h : Float) (p : Triple Float) : Float :=
  greatest (norm [p.x, p.y] - written r) (slab h p)

def globe (r : Float) (p : Triple Float) : Float :=
  norm [p.x - 0, p.y - 0, p.z - written r] - written r

abbrev Field := Triple Float → Float

def unionAt (fs : List Field) (p : Triple Float) : Float :=
  fs.foldl (fun acc f => least acc (f p)) far

def intersectionAt (fs : List Field) (p : Triple Float) : Float :=
  fs.foldl (fun acc f => greatest acc (f p)) (-far)

def differenceAt (fs : List Field) (p : Triple Float) : Float :=
  match fs with
  | [] => far
  | f :: fs => fs.foldl (fun acc g => greatest acc (-g p)) (f p)

def solid (shape : Shape) (param : Bytes → Float) (fs : List Field) (p : Triple Float) : Float :=
  let raised h := (Placement.shift ⟨0, 0, h⟩).apply p
  let turn := Placement.turn (turnBack (param "x") (param "y") (param "z"))
  match shape with
  | .group | .union | .other _ => unionAt fs p
  | .intersection => intersectionAt fs p
  | .diff => differenceAt fs p
  | .box =>
    least (unionAt fs (raised (param "z")))
      (block (param "x" / 2) (param "y" / 2) (param "z") p)
  | .sphere => least (unionAt fs (raised (param "d"))) (globe (param "d" / 2) p)
  | .cylinder => least (unionAt fs (raised (param "h"))) (pillar (param "d" / 2) (param "h") p)
  | .trans => unionAt fs ((Placement.shift ⟨param "x", param "y", param "z"⟩).apply p)
  | .rot => unionAt fs (turn.apply p)
  | .arot => unionAt fs (turn.apply (raised drop))
  | .scale => unionAt fs ((Placement.shrink (1 / param "r")).apply p) * written (param "r")

mutual

/-- The distance of a tree, straight from its shape. -/
def field : Geometry Float → Field
  | .mk _ shape params children => solid shape (Geometry.lookup shape params) (fields children)

def fields : List (Geometry Float) → List Field
  | [] => []
  | g :: gs => field g :: fields gs

end

/-- A distance as generated, the helpers being given. -/
def Distance.value (helper : Nat → Field) (p : Triple Float) : Distance Float → Float
  | .empty => far
  | .full => -far
  | .min a b => least (a.value helper p) (b.value helper p)
  | .max a b => greatest (a.value helper p) (b.value helper p)
  | .neg a => -a.value helper p
  | .box x y h => block x y h p
  | .ball r => globe r p
  | .rod r h => pillar r h p
  | .sample i w => helper i (w.apply p)
  | .times a k => a.value helper p * written k

def sampled (known : List Field) (i : Nat) : Field := known.getD i fun _ => 0

def extend (known : List Field) (d : Distance Float) : List Field :=
  known ++ [fun p => d.value (sampled known) p]

/-- The helpers in order, each over the earlier ones. -/
def meanings (hs : List (Distance Float)) : List Field := hs.foldl extend []

theorem meanings_concat (hs : List (Distance Float)) (d : Distance Float) :
    meanings (hs ++ [d]) = meanings hs ++ [fun p => d.value (sampled (meanings hs)) p] := by
  rw [meanings, List.foldl_append]
  rfl

theorem length_meanings (hs : List (Distance Float)) : (meanings hs).length = hs.length := by
  induction hs using List.reverseRecOn with
  | nil => rfl
  | append_singleton hs d ih => rw [meanings_concat, List.length_append, ih]; simp

theorem sampled_append {hs more : List (Distance Float)} {i : Nat} (known : i < hs.length) :
    sampled (meanings (hs ++ more)) i = sampled (meanings hs) i := by
  induction more using List.reverseRecOn with
  | nil => rw [List.append_nil]
  | append_singleton more d ih =>
    have inside : i < (meanings (hs ++ more)).length := by
      rw [length_meanings, List.length_append]
      omega
    rw [← ih, ← List.append_assoc, meanings_concat]
    exact List.getD_append _ _ _ _ inside

theorem sampled_last (hs : List (Distance Float)) (d : Distance Float) (p : Triple Float) :
    sampled (meanings (hs ++ [d])) hs.length p = d.value (sampled (meanings hs)) p := by
  rw [meanings_concat, sampled, List.getD_append_right _ _ _ _ (length_meanings hs).le,
    length_meanings, Nat.sub_self]
  rfl

/-- A distance that samples earlier helpers only, and scales nothing but a sample. -/
inductive Grounded (n : Nat) : Distance Float → Prop where
  | empty : Grounded n .empty
  | full : Grounded n .full
  | min {a b : Distance Float} (left : Grounded n a) (right : Grounded n b) : Grounded n (.min a b)
  | max {a b : Distance Float} (left : Grounded n a) (right : Grounded n b) : Grounded n (.max a b)
  | neg {a : Distance Float} (inner : Grounded n a) : Grounded n (.neg a)
  | box (x y h : Float) : Grounded n (.box x y h)
  | ball (r : Float) : Grounded n (.ball r)
  | rod (r h : Float) : Grounded n (.rod r h)
  | sample {i : Nat} (earlier : i < n) (w : Placement Float) : Grounded n (.sample i w)
  | times {i : Nat} (earlier : i < n) (w : Placement Float) (k : Float) :
      Grounded n (.times (.sample i w) k)

theorem Grounded.mono {n k : Nat} {d : Distance Float} (grounded : Grounded n d) (le : n ≤ k) :
    Grounded k d := by
  induction grounded with
  | empty => exact .empty
  | full => exact .full
  | min _ _ ihl ihr => exact .min ihl ihr
  | max _ _ ihl ihr => exact .max ihl ihr
  | neg _ ih => exact .neg ih
  | box x y h => exact .box x y h
  | ball r => exact .ball r
  | rod r h => exact .rod r h
  | sample earlier w => exact .sample (by omega) w
  | times earlier w k => exact .times (by omega) w k

theorem Grounded.value_eq {n : Nat} {d : Distance Float} (grounded : Grounded n d)
    {h k : Nat → Field} (same : ∀ i < n, h i = k i) (p : Triple Float) :
    d.value h p = d.value k p := by
  induction grounded with
  | empty | full | box | ball | rod => rfl
  | min _ _ ihl ihr | max _ _ ihl ihr => simp only [Distance.value, ihl, ihr]
  | neg _ ih => simp only [Distance.value, ih]
  | sample earlier w | times earlier w k => simp only [Distance.value, same _ earlier]

/-- Each helper samples earlier ones only. -/
def Ordered (hs : List (Distance Float)) : Prop := ∀ i d, hs[i]? = some d → Grounded i d

theorem Ordered.concat {hs : List (Distance Float)} {d : Distance Float} (ordered : Ordered hs)
    (grounded : Grounded hs.length d) : Ordered (hs ++ [d]) := by
  intro i e found
  by_cases inside : i < hs.length
  · rw [List.getElem?_append_left inside] at found
    exact ordered i e found
  · rw [List.getElem?_append_right (by omega)] at found
    obtain ⟨rfl, rfl⟩ : i = hs.length ∧ d = e := by
      rw [List.getElem?_singleton] at found
      split at found
      · exact ⟨by omega, Option.some.inj found⟩
      · cases found
    exact grounded

theorem sampled_eq {hs : List (Distance Float)} (ordered : Ordered hs) {i : Nat}
    {d : Distance Float} (found : hs[i]? = some d) (p : Triple Float) :
    sampled (meanings hs) i p = d.value (sampled (meanings hs)) p := by
  obtain ⟨inside, same⟩ := List.getElem?_eq_some_iff.mp found
  have split : hs.take i ++ d :: hs.drop (i + 1) = hs := by
    rw [← same, List.cons_getElem_drop_succ, List.take_append_drop]
  have count : (hs.take i).length = i := List.length_take_of_le inside.le
  generalize hs.take i = before, hs.drop (i + 1) = after at split count
  subst split count
  -- the helpers behind it change neither it nor those it samples
  have early : ∀ k < before.length,
      sampled (meanings before) k = sampled (meanings (before ++ d :: after)) k :=
    fun k earlier => (sampled_append earlier).symm
  have own : sampled (meanings (before ++ d :: after)) before.length =
      sampled (meanings (before ++ [d])) before.length := by
    rw [List.append_cons]
    exact sampled_append (by simp)
  rw [own, sampled_last]
  exact (ordered _ d found).value_eq early p

/-- A distance that has the values of a field over its helpers. -/
structure Denotes (hs : List (Distance Float)) (d : Distance Float) (f : Field) : Prop where
  grounded : Grounded hs.length d
  value : ∀ p, d.value (sampled (meanings hs)) p = f p

theorem Denotes.append {hs : List (Distance Float)} {d : Distance Float} {f : Field}
    (denotes : Denotes hs d f) (more : List (Distance Float)) : Denotes (hs ++ more) d f := by
  refine ⟨denotes.grounded.mono (by simp), fun p => ?_⟩
  rw [← denotes.value p]
  exact denotes.grounded.value_eq (fun i known => sampled_append known) p

structure Grows (hs hs' : List (Distance Float)) : Prop where
  more : ∃ new, hs' = hs ++ new
  ordered : Ordered hs → Ordered hs'

theorem Grows.refl (hs : List (Distance Float)) : Grows hs hs :=
  ⟨⟨[], (List.append_nil hs).symm⟩, id⟩

theorem Grows.trans {hs hs' hs'' : List (Distance Float)} (first : Grows hs hs')
    (second : Grows hs' hs'') : Grows hs hs'' := by
  obtain ⟨new, rfl⟩ := first.more
  obtain ⟨newer, rfl⟩ := second.more
  exact ⟨⟨new ++ newer, List.append_assoc ..⟩,
    fun ordered => second.ordered (first.ordered ordered)⟩

theorem Denotes.grow {hs hs' : List (Distance Float)} {d : Distance Float} {f : Field}
    (denotes : Denotes hs d f) (grows : Grows hs hs') : Denotes hs' d f := by
  obtain ⟨new, rfl⟩ := grows.more
  exact denotes.append new

/-- What a step of the generation gives: more helpers, and a distance over all of them. -/
structure Builds (hs : List (Distance Float)) (r : Distance Float × List (Distance Float))
    (f : Field) : Prop where
  grows : Grows hs r.2
  denotes : Denotes r.2 r.1 f

theorem place_builds {hs : List (Distance Float)} {body : Distance Float} {f : Field}
    (denotes : Denotes hs body f) (w : Placement Float) :
    Builds hs (place body w hs) fun p => f (w.apply p) := by
  refine ⟨⟨⟨[body], rfl⟩, fun ordered => ordered.concat denotes.grounded⟩, ?_, fun p => ?_⟩
  · exact .sample (by simp [place]) w
  · show sampled (meanings (hs ++ [body])) hs.length (w.apply p) = _
    rw [sampled_last, denotes.value]

section Folds

variable {hs : List (Distance Float)} {ds : List (Distance Float)} {fs : List Field}

theorem foldl_denotes {join : Distance Float → Distance Float → Distance Float}
    (combine : Float → Float → Float)
    (joins : ∀ {a b f g}, Denotes hs a f → Denotes hs b g →
      Denotes hs (join a b) fun p => combine (f p) (g p))
    (all : List.Forall₂ (Denotes hs) ds fs) {d : Distance Float} {f : Field}
    (start : Denotes hs d f) :
    Denotes hs (ds.foldl join d) fun p => fs.foldl (fun acc g => combine acc (g p)) (f p) := by
  induction all generalizing d f with
  | nil => exact start
  | cons first _ ih => exact ih (joins start first)

theorem Denotes.min {a b : Distance Float} {f g : Field} (left : Denotes hs a f)
    (right : Denotes hs b g) : Denotes hs (.min a b) fun p => least (f p) (g p) :=
  ⟨.min left.grounded right.grounded, fun p => by rw [Distance.value, left.value, right.value]⟩

theorem Denotes.max {a b : Distance Float} {f g : Field} (left : Denotes hs a f)
    (right : Denotes hs b g) : Denotes hs (.max a b) fun p => greatest (f p) (g p) :=
  ⟨.max left.grounded right.grounded, fun p => by rw [Distance.value, left.value, right.value]⟩

theorem Denotes.cut {a b : Distance Float} {f g : Field} (left : Denotes hs a f)
    (right : Denotes hs b g) : Denotes hs (.max a (.neg b)) fun p => greatest (f p) (-g p) :=
  left.max ⟨.neg right.grounded, fun p => by rw [Distance.value, right.value]⟩

theorem unite_denotes (all : List.Forall₂ (Denotes hs) ds fs) :
    Denotes hs (unite ds) (unionAt fs) :=
  foldl_denotes least .min all ⟨.empty, fun _ => rfl⟩

theorem intersect_denotes (all : List.Forall₂ (Denotes hs) ds fs) :
    Denotes hs (intersect ds) (intersectionAt fs) :=
  foldl_denotes greatest .max all ⟨.full, fun _ => rfl⟩

theorem subtract_denotes (all : List.Forall₂ (Denotes hs) ds fs) :
    Denotes hs (subtract ds) (differenceAt fs) := by
  cases all with
  | nil => exact ⟨.empty, fun _ => rfl⟩
  | cons first rest => exact foldl_denotes (fun x y => greatest x (-y)) .cut rest first

end Folds

theorem Builds.keep {hs : List (Distance Float)} {d : Distance Float} {f : Field}
    (denotes : Denotes hs d f) : Builds hs (d, hs) f := ⟨.refl hs, denotes⟩

theorem stacked_builds {hs : List (Distance Float)} {body base : Distance Float} {f g : Field}
    (denotes : Denotes hs body f) (stand : ∀ hs, Denotes hs base g) (h : Float) :
    Builds hs (.min (lift body h hs).1 base, (lift body h hs).2) fun p =>
      least (f ((Placement.shift ⟨0, 0, h⟩).apply p)) (g p) := by
  have above := place_builds denotes (.shift ⟨0, 0, h⟩)
  exact ⟨above.grows, above.denotes.min (stand _)⟩

theorem shaped_builds (shape : Shape) (param : Bytes → Float) {hs : List (Distance Float)}
    {ds : List (Distance Float)} {fs : List Field} (all : List.Forall₂ (Denotes hs) ds fs) :
    Builds hs (shaped shape param ds hs) (solid shape param fs) := by
  have body := unite_denotes all
  cases shape with
  | group | union | other => exact .keep body
  | intersection => exact .keep (intersect_denotes all)
  | diff => exact .keep (subtract_denotes all)
  | box => exact stacked_builds body (fun _ => ⟨.box .., fun _ => rfl⟩) _
  | sphere => exact stacked_builds body (fun _ => ⟨.ball _, fun _ => rfl⟩) _
  | cylinder => exact stacked_builds body (fun _ => ⟨.rod .., fun _ => rfl⟩) _
  | trans | rot => exact place_builds body _
  | arot =>
    have turned := place_builds body (.turn (turnBack (param "x") (param "y") (param "z")))
    have lowered := place_builds turned.denotes (.shift ⟨0, 0, drop⟩)
    exact ⟨turned.grows.trans lowered.grows, lowered.denotes⟩
  | scale =>
    have small := place_builds body (.shrink (1 / param "r"))
    refine ⟨small.grows, ?_, fun p => ?_⟩
    · exact .times (by simp [shaped, place]) _ _
    · exact congrArg (· * written (param "r")) (small.denotes.value p)

mutual

theorem distance_builds (hs : List (Distance Float)) :
    (g : Geometry Float) → Builds hs (distance g hs) (field g)
  | .mk _ shape params children => by
    obtain ⟨grows, all⟩ := distances_build hs children
    have built := shaped_builds shape (Geometry.lookup shape params) all
    rw [distance, field]
    exact ⟨grows.trans built.grows, built.denotes⟩

theorem distances_build (hs : List (Distance Float)) : (gs : List (Geometry Float)) →
    Grows hs (distances gs hs).2 ∧
      List.Forall₂ (Denotes (distances gs hs).2) (distances gs hs).1 (fields gs)
  | [] => ⟨.refl hs, .nil⟩
  | g :: gs => by
    have first := distance_builds hs g
    obtain ⟨grows, all⟩ := distances_build (distance g hs).2 gs
    rw [distances, fields]
    exact ⟨first.grows.trans grows, .cons (first.denotes.grow grows) all⟩

end

def Program.field (p : Program Float) : Field := fun q =>
  p.distance.value (sampled (meanings p.helpers)) q

theorem program_field (g : Geometry Float) : (program g).field = field g := by
  funext p
  exact (distance_builds [] g).denotes.value p

theorem program_ordered (g : Geometry Float) : Ordered (program g).helpers :=
  (distance_builds [] g).grows.ordered nofun

theorem program_grounded (g : Geometry Float) :
    Grounded (program g).helpers.length (program g).distance :=
  (distance_builds [] g).denotes.grounded

end DistanceField.Shader
