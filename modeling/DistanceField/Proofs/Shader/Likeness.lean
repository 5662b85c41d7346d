import DistanceField.Proofs.Lists
import DistanceField.Proofs.Shader.Sampling

/-! Generated text depends on the parameters that a schema declares, as they are resolved, and on
nothing else that a solid is written with. -/
namespace DistanceField

/-- The shapes that only unite their operands. -/
def Shape.Joins : Shape → Prop
  | .group | .union | .other _ => True
  | _ => False

def Shape.Akin (s t : Shape) : Prop := s = t ∨ s.Joins ∧ t.Joins

namespace Geometry

variable {α : Type}

/-- The solid at an address, which counts operands on the way down. -/
def at? : List Nat → Geometry α → Option (Geometry α)
  | [], g => some g
  | i :: path, .mk _ _ _ children => children[i]?.bind (at? path)

def replaceAt : List Nat → Geometry α → Geometry α → Geometry α
  | [], _, y => y
  | i :: path, .mk name shape params children, y =>
    .mk name shape params (children.modify i (replaceAt path · y))

variable [Scalar α]

mutual

/-- Trees of one form, of akin shapes, with the same values for what the schemas declare. -/
def Alike : Geometry α → Geometry α → Prop
  | .mk _ s ps gs, .mk _ t qs hs =>
    s.Akin t ∧ (∀ p ∈ (Schema.ofShape s).params, lookup s ps p.name = lookup t qs p.name) ∧
      AllAlike gs hs

def AllAlike : List (Geometry α) → List (Geometry α) → Prop
  | [], [] => True
  | g :: gs, h :: hs => Alike g h ∧ AllAlike gs hs
  | [], _ :: _ => False
  | _ :: _, [] => False

end

/-- Ways to write one solid: under another name, its parameters in another order, one more that its
schema does not declare, or one more that has its default. -/
inductive Respelled : Geometry α → Geometry α → Prop where
  | renamed {n m : Bytes} {s : Shape} {ps : List (Bytes × α)} {cs : List (Geometry α)} :
      Respelled (.mk n s ps cs) (.mk m s ps cs)
  | reordered {n : Bytes} {s : Shape} {ps qs : List (Bytes × α)} {cs : List (Geometry α)}
      (distinct : (ps.map Prod.fst).Nodup) (perm : ps.Perm qs) :
      Respelled (.mk n s ps cs) (.mk n s qs cs)
  | undeclared {n : Bytes} {s : Shape} {ps : List (Bytes × α)} {cs : List (Geometry α)}
      {name : Bytes} (foreign : ∀ p ∈ (Schema.ofShape s).params, p.name ≠ name) (v : α) :
      Respelled (.mk n s ps cs) (.mk n s ((name, v) :: ps) cs)
  | written {n : Bytes} {s : Shape} {ps : List (Bytes × α)} {cs : List (Geometry α)}
      {p : Param} (declared : p ∈ (Schema.ofShape s).params) (absent : ps.lookup p.name = none) :
      Respelled (.mk n s ps cs) (.mk n s ((p.name, Scalar.natural p.default) :: ps) cs)

mutual

theorem Alike.refl : (g : Geometry α) → g.Alike g
  | .mk _ _ _ gs => by
    rw [Alike]
    exact ⟨.inl rfl, fun _ _ => rfl, AllAlike.refl gs⟩

theorem AllAlike.refl : (gs : List (Geometry α)) → AllAlike gs gs
  | [] => trivial
  | g :: gs => by
    rw [AllAlike]
    exact ⟨Alike.refl g, AllAlike.refl gs⟩

end

theorem default_declared {s : Shape} {p : Param} (declared : p ∈ (Schema.ofShape s).params) :
    (Schema.ofShape s).default? p.name = some p.default := by
  cases s with
  | group | union | intersection | diff | other => cases declared
  | sphere | scale =>
    cases List.mem_singleton.mp declared
    rfl
  | cylinder =>
    simp only [Schema.ofShape, List.mem_cons, List.not_mem_nil, or_false] at declared
    rcases declared with rfl | rfl <;> rfl
  | box | trans | rot | arot =>
    simp only [Schema.ofShape, Schema.xyz, List.mem_cons, List.not_mem_nil, or_false] at declared
    rcases declared with rfl | rfl | rfl <;> rfl

theorem Respelled.alike {g h : Geometry α} (respelled : Respelled g h) : g.Alike h := by
  cases respelled with
  | renamed =>
    rw [Alike]
    exact ⟨.inl rfl, fun _ _ => rfl, .refl _⟩
  | reordered distinct perm =>
    rw [Alike]
    refine ⟨.inl rfl, fun p _ => ?_, .refl _⟩
    rw [lookup, lookup, lookup_perm distinct perm]
  | undeclared foreign v =>
    rw [Alike]
    refine ⟨.inl rfl, fun p declared => ?_, .refl _⟩
    have other : (p.name == _) = false := beq_eq_false_iff_ne.mpr (foreign p declared)
    rw [lookup, lookup, List.lookup_cons, other]
  | @written _ s ps _ p declared absent =>
    rw [Alike]
    refine ⟨.inl rfl, fun q _ => ?_, .refl _⟩
    by_cases same : q.name = p.name
    · rw [lookup, lookup, same, absent, List.lookup_cons_self, default_declared declared]
      rfl
    · rw [lookup, lookup, List.lookup_cons, beq_eq_false_iff_ne.mpr same]

end Geometry

namespace Shader

variable {α : Type} [Scalar α]

theorem shaped_joins {s : Shape} (joins : s.Joins) (param : Bytes → α)
    (ds hs : List (Distance α)) : shaped s param ds hs = (unite ds, hs) := by
  cases s with
  | group | union | other => rfl
  | _ => exact joins.elim

theorem shaped_agree {s : Shape} {f g : Bytes → α}
    (agree : ∀ p ∈ (Schema.ofShape s).params, f p.name = g p.name) (ds hs : List (Distance α)) :
    shaped s f ds hs = shaped s g ds hs := by
  cases s with
  | group | union | intersection | diff | other => rfl
  | box | trans | rot | arot =>
    simp only [Schema.ofShape, Schema.xyz, List.forall_mem_cons] at agree
    obtain ⟨x, y, z, -⟩ := agree
    simp only [shaped, x, y, z]
  | sphere | cylinder | scale =>
    simp only [Schema.ofShape, List.forall_mem_cons, List.not_mem_nil, false_implies, implies_true,
      and_true] at agree
    simp only [shaped, agree]

theorem shaped_akin {s t : Shape} {f g : Bytes → α} (akin : s.Akin t)
    (agree : ∀ p ∈ (Schema.ofShape s).params, f p.name = g p.name) (ds hs : List (Distance α)) :
    shaped s f ds hs = shaped t g ds hs := by
  obtain rfl | ⟨left, right⟩ := akin
  · exact shaped_agree agree ds hs
  · rw [shaped_joins left, shaped_joins right]

mutual

theorem distance_alike : (g h : Geometry α) → g.Alike h →
    ∀ known : List (Distance α), distance g known = distance h known
  | .mk _ s ps gs => by
    rintro ⟨_, t, qs, hs⟩ alike known
    rw [Geometry.Alike] at alike
    obtain ⟨akin, agree, below⟩ := alike
    rw [distance, distance, distances_alike gs hs below]
    exact shaped_akin akin agree _ _

theorem distances_alike : (gs hs : List (Geometry α)) → Geometry.AllAlike gs hs →
    ∀ known : List (Distance α), distances gs known = distances hs known
  | [] => by
    intro hs alike known
    cases hs with
    | nil => rfl
    | cons h hs => exact alike.elim
  | g :: gs => by
    intro hs alike known
    cases hs with
    | nil => exact alike.elim
    | cons h hs =>
      rw [Geometry.AllAlike] at alike
      obtain ⟨first, rest⟩ := alike
      simp only [distances, distance_alike g h first, distances_alike gs hs rest]

end

theorem distances_modify {f : Geometry α → Geometry α} {gs : List (Geometry α)} {i : Nat}
    {g : Geometry α} (found : gs[i]? = some g)
    (same : ∀ known : List (Distance α), distance (f g) known = distance g known)
    (known : List (Distance α)) : distances (gs.modify i f) known = distances gs known := by
  induction gs generalizing i known with
  | nil => cases found
  | cons h gs ih =>
    cases i with
    | zero =>
      cases found
      simp only [List.modify_zero_cons, distances, same]
    | succ i => simp only [List.modify_succ_cons, distances, ih found]

theorem distance_replaceAt {x y : Geometry α}
    (same : ∀ known : List (Distance α), distance y known = distance x known) {path : List Nat}
    {g : Geometry α} (found : g.at? path = some x) (known : List (Distance α)) :
    distance (g.replaceAt path y) known = distance g known := by
  induction path generalizing g known with
  | nil =>
    cases found
    exact same known
  | cons i path ih =>
    obtain ⟨name, shape, params, children⟩ := g
    obtain ⟨child, operand, below⟩ := Option.bind_eq_some_iff.mp found
    rw [Geometry.replaceAt, distance, distance, distances_modify operand (ih below)]

/-- A difference of one operand is that operand. -/
theorem distance_diff_single (name : Bytes) (params : List (Bytes × α)) (x : Geometry α)
    (known : List (Distance α)) : distance (.mk name .diff params [x]) known = distance x known := by
  simp only [distance, distances]
  rfl

theorem generated_same {g h : Geometry Float}
    (same : ∀ known : List (Distance Float), distance g known = distance h known) (s t : Generator) :
    generate g = generate h ∧ s.generate g = t.generate h := by
  have programs : program g = program h := by rw [program, program, same]
  constructor
  · rw [generate, generate, programs]
  · rw [Generator.generate_eq, Generator.generate_eq, programs]

/-- Whatever two generators wrote before, trees that are alike give one text and one number of helpers,
and so do a tree and what it becomes when one of its solids is written in another way, or is made the
only operand of a difference. -/
theorem generated_from_resolved (s t : Generator) :
    (∀ g h : Geometry Float, g.Alike h → generate g = generate h ∧ s.generate g = t.generate h) ∧
    (∀ (g x y : Geometry Float) (path : List Nat), g.at? path = some x → x.Respelled y →
      generate (g.replaceAt path y) = generate g ∧ s.generate (g.replaceAt path y) = t.generate g) ∧
    ∀ (g x : Geometry Float) (path : List Nat) (name : Bytes) (params : List (Bytes × Float)),
      g.at? path = some x →
        generate (g.replaceAt path (.mk name .diff params [x])) = generate g ∧
          s.generate (g.replaceAt path (.mk name .diff params [x])) = t.generate g := by
  refine ⟨fun g h alike => ?_, fun g x y path found respelled => ?_,
    fun g x path name params found => ?_⟩
  · exact generated_same (distance_alike g h alike) s t
  · have same := fun known => (distance_alike x y respelled.alike known).symm
    exact generated_same (distance_replaceAt same found) s t
  · have same := distance_diff_single name params x
    exact generated_same (distance_replaceAt same found) s t

def bead : Geometry Float := .mk "sphere" .sphere [] []

def tower : Geometry Float := .mk "tower" .group [] [.mk "box" .box [("z", 3)] [bead]]

def wordyTower : Geometry Float :=
  .mk "pile" (.other 99) [("k", 5)]
    [.mk "box" .box [("q", 7), ("y", 1), ("z", 3), ("x", 1)] [.mk "ball" .sphere [("d", 1)] []]]

theorem tower_alike : tower.Alike wordyTower := by
  simp only [tower, bead, wordyTower, Geometry.Alike, Geometry.AllAlike, and_true]
  refine ⟨.inr ⟨trivial, trivial⟩, by simp [Schema.ofShape], .inl rfl, ?_, .inl rfl, ?_⟩
  · simp only [Schema.ofShape, Schema.xyz, List.forall_mem_cons]
    exact ⟨rfl, rfl, rfl, by simp⟩
  · simp only [Schema.ofShape, List.forall_mem_cons]
    exact ⟨rfl, by simp⟩

theorem tower_generated :
    tower.Alike wordyTower ∧ generate tower = generate wordyTower ∧
      bead.Respelled (.mk "ball" .sphere [] []) ∧ tower.at? [0, 0] = some bead ∧
      generate (tower.replaceAt [0, 0] (.mk "ball" .sphere [] [])) = generate tower ∧
      generate (tower.replaceAt [0, 0] (.mk "diff" .diff [] [bead])) = generate tower := by
  obtain ⟨resolved, respelled, single⟩ := generated_from_resolved .new .new
  exact ⟨tower_alike, (resolved _ _ tower_alike).1, .renamed, rfl,
    (respelled tower bead _ [0, 0] rfl .renamed).1, (single tower bead [0, 0] "diff" [] rfl).1⟩

end Shader

end DistanceField
