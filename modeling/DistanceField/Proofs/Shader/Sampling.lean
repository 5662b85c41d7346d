import DistanceField.Proofs.Shader.Meaning
import DistanceField.Shader.Generator

/-! Each helper of a generated program is sampled once, and a generator that writes in one pass
writes that program. -/
namespace DistanceField

def Shape.helpers : Shape → Nat
  | .box | .sphere | .cylinder | .trans | .rot | .scale => 1
  | .arot => 2
  | .group | .union | .intersection | .diff | .other _ => 0

mutual

/-- The shapes of all solids of a tree, each before its operands. -/
def Geometry.shapes {α : Type} : Geometry α → List Shape
  | .mk _ shape _ children => shape :: Geometry.shapesOf children

def Geometry.shapesOf {α : Type} : List (Geometry α) → List Shape
  | [] => []
  | g :: gs => g.shapes ++ Geometry.shapesOf gs

end

namespace Shader

section Once

variable {α : Type} {hs later latest : List (Distance α)} {n k : Nat}

def Distance.samples : Distance α → List Nat
  | .min a b | .max a b => a.samples ++ b.samples
  | .neg a | .times a _ => a.samples
  | .sample i _ => [i]
  | .empty | .full | .box .. | .ball _ | .rod .. => []

theorem samples_foldl {join : Distance α → Distance α → Distance α}
    (joins : ∀ a b, (join a b).samples = a.samples ++ b.samples) (ds : List (Distance α))
    (d : Distance α) : (ds.foldl join d).samples = d.samples ++ ds.flatMap Distance.samples := by
  induction ds generalizing d with
  | nil => simp
  | cons e ds ih => simp [ih, joins]

theorem samples_subtract (ds : List (Distance α)) :
    (subtract ds).samples = ds.flatMap Distance.samples := by
  cases ds with
  | nil => rfl
  | cons d ds => exact samples_foldl (fun _ _ => rfl) ds d

/-- Going from some helpers to `later` ones adds `n`, and each of those is sampled once: by a helper
that was added, or in `used`. -/
def Adds (hs later : List (Distance α)) (used : List Nat) (n : Nat) : Prop :=
  ∃ new, later = hs ++ new ∧ new.length = n ∧
    (new.flatMap Distance.samples ++ used).Perm (List.range' hs.length n)

theorem Adds.none (hs : List (Distance α)) : Adds hs hs [] 0 :=
  ⟨[], (List.append_nil hs).symm, rfl, .refl []⟩

theorem Adds.place {body : Distance α} (adds : Adds hs later body.samples n) (w : Placement α) :
    Adds hs (place body w later).2 (place body w later).1.samples (n + 1) := by
  obtain ⟨new, rfl, rfl, once⟩ := adds
  refine ⟨new ++ [body], List.append_assoc .., List.length_append, ?_⟩
  -- the new helper takes over what its body samples, and is sampled in turn
  have own : (hs ++ new).length = hs.length + new.length := List.length_append
  simp only [Shader.place, Distance.samples, own, List.flatMap_append, List.flatMap_cons,
    List.flatMap_nil, List.append_nil, List.range'_1_concat]
  exact once.append_right _

theorem Adds.append {used more : List Nat} (first : Adds hs later used n)
    (second : Adds later latest more k) : Adds hs latest (used ++ more) (n + k) := by
  obtain ⟨new, rfl, rfl, once⟩ := first
  obtain ⟨newer, rfl, rfl, again⟩ := second
  refine ⟨new ++ newer, List.append_assoc .., List.length_append, ?_⟩
  rw [List.length_append] at again
  rw [← List.range'_append_1, List.flatMap_append]
  have both := once.append again
  rw [List.perm_iff_count] at both ⊢
  intro i
  have total := both i
  simp only [List.count_append] at total ⊢
  omega

variable [Scalar α]

theorem Adds.stack {body base : Distance α} (adds : Adds hs later body.samples n)
    (primitive : base.samples = []) (h : α) :
    Adds hs (lift body h later).2 (Distance.min (lift body h later).1 base).samples (n + 1) := by
  rw [Distance.samples, primitive, List.append_nil]
  exact adds.place _

theorem shaped_adds (shape : Shape) (param : Bytes → α) {ds : List (Distance α)}
    (adds : Adds hs later (ds.flatMap Distance.samples) n) :
    Adds hs (shaped shape param ds later).2 (shaped shape param ds later).1.samples
      (n + shape.helpers) := by
  have body : (unite ds).samples = ds.flatMap Distance.samples := samples_foldl (fun _ _ => rfl) ds _
  have united : Adds hs later (unite ds).samples n := body ▸ adds
  cases shape with
  | group | union | other => exact united
  | intersection =>
    have met : (intersect ds).samples = ds.flatMap Distance.samples :=
      samples_foldl (fun _ _ => rfl) ds _
    exact met ▸ adds
  | diff => exact samples_subtract ds ▸ adds
  | trans | rot => exact united.place _
  | scale => exact united.place (.shrink (Scalar.one / param "r"))
  | arot => exact (united.place _).place _
  | box | sphere | cylinder => exact united.stack rfl _

mutual

theorem distance_adds (hs : List (Distance α)) : (g : Geometry α) →
    Adds hs (distance g hs).2 (distance g hs).1.samples (g.shapes.map Shape.helpers).sum
  | .mk _ shape params children => by
    have adds := shaped_adds shape (Geometry.lookup shape params) (distances_add hs children)
    rw [Nat.add_comm] at adds
    rw [distance, Geometry.shapes]
    exact adds

theorem distances_add (hs : List (Distance α)) : (gs : List (Geometry α)) →
    Adds hs (distances gs hs).2 ((distances gs hs).1.flatMap Distance.samples)
      ((Geometry.shapesOf gs).map Shape.helpers).sum
  | [] => by
    rw [distances, Geometry.shapesOf]
    exact .none hs
  | g :: gs => by
    have adds := (distance_adds hs g).append (distances_add (distance g hs).2 gs)
    rw [distances, Geometry.shapesOf, List.map_append, List.sum_append]
    exact adds

end

/-- In a generated program each helper is sampled once, and there are as many as the shapes need. -/
theorem program_samples (g : Geometry α) :
    (program g).helpers.length = (g.shapes.map Shape.helpers).sum ∧
      ((program g).helpers.flatMap Distance.samples ++ (program g).distance.samples).Perm
        (List.range (program g).helpers.length) := by
  obtain ⟨new, rest, count, once⟩ := distance_adds [] g
  have helpers : (program g).helpers = new := rest
  rw [helpers, count, List.range_eq_range']
  exact ⟨rfl, once⟩

theorem sum_helpers (shapes : List Shape) :
    (shapes.map Shape.helpers).sum =
      shapes.countP (· ∈ [.box, .sphere, .cylinder, .trans, .rot, .scale]) +
        2 * shapes.count .arot := by
  induction shapes with
  | nil => rfl
  | cons shape shapes ih =>
    rw [List.map_cons, List.sum_cons, ih, List.countP_cons, List.count_cons]
    cases shape <;> simp [Shape.helpers] <;> omega

end Once

theorem Grounded.samples_lt {n : Nat} {d : Distance Float} (grounded : Grounded n d) :
    ∀ i ∈ d.samples, i < n := by
  induction grounded with
  | empty | full | box | ball | rod => nofun
  | min _ _ ihl ihr | max _ _ ihl ihr => exact List.forall_mem_append.mpr ⟨ihl, ihr⟩
  | neg _ ih => exact ih
  | sample earlier | times earlier => exact List.forall_mem_singleton.mpr earlier

namespace Generator

def ofHelpers (hs : List (Distance Float)) : Generator :=
  ⟨Write.helpersFrom literal 0 hs, hs.length⟩

def ofDistance (r : Distance Float × List (Distance Float)) : Bytes × Generator :=
  (Write.distance literal r.1, ofHelpers r.2)

theorem helpersFrom_concat (i : Nat) (hs : List (Distance Float)) (d : Distance Float) :
    Write.helpersFrom literal i (hs ++ [d]) = Write.helpersFrom literal i hs ++
      Write.definition (Write.helperName (i + hs.length)) (Write.distance literal d) := by
  induction hs generalizing i with
  | nil => simp [Write.helpersFrom]
  | cons e hs ih =>
    have next : i + 1 + hs.length = i + (hs.length + 1) := by omega
    simp [Write.helpersFrom, ih, next]

theorem place_ofHelpers (body : Distance Float) (w : Placement Float) (hs : List (Distance Float)) :
    place (Write.distance literal body) w (ofHelpers hs) = ofDistance (Shader.place body w hs) := by
  simp [place, ofHelpers, ofDistance, Shader.place, emit, helpersFrom_concat, Write.distance,
    Write.call, Bytes.join]

theorem foldl_write {join : Distance Float → Distance Float → Distance Float}
    {write : Bytes → Bytes → Bytes}
    (joins : ∀ a b, write (Write.distance literal a) (Write.distance literal b) =
      Write.distance literal (join a b)) (ds : List (Distance Float)) (d : Distance Float) :
    (ds.map (Write.distance literal)).foldl write (Write.distance literal d) =
      Write.distance literal (ds.foldl join d) := by
  induction ds generalizing d with
  | nil => rfl
  | cons e ds ih => rw [List.map_cons, List.foldl_cons, List.foldl_cons, joins, ih]

theorem shaped_ofHelpers (shape : Shape) (param : Bytes → Float) (ds : List (Distance Float))
    (hs : List (Distance Float)) :
    shaped shape param (ds.map (Write.distance literal)) (ofHelpers hs) =
      ofDistance (Shader.shaped shape param ds hs) := by
  have body : unite (ds.map (Write.distance literal)) = Write.distance literal (Shader.unite ds) :=
    foldl_write (fun _ _ => rfl) ds .empty
  have placed := place_ofHelpers (Shader.unite ds)
  cases shape with
  | group | union | other => simp only [shaped, body]; rfl
  | intersection =>
    have met : intersect (ds.map (Write.distance literal)) =
        Write.distance literal (Shader.intersect ds) := foldl_write (fun _ _ => rfl) ds .full
    simp only [shaped, met]
    rfl
  | diff =>
    cases ds with
    | nil => rfl
    | cons d ds =>
      have rest : subtract ((d :: ds).map (Write.distance literal)) =
          Write.distance literal (Shader.subtract (d :: ds)) := foldl_write (fun _ _ => rfl) ds d
      exact Prod.ext rest rfl
  | trans | rot => simp only [shaped, body, placed]; rfl
  | box | sphere | cylinder | scale =>
    simp only [shaped, lift, body, placed]
    rfl
  | arot =>
    simp only [shaped, lift, body, placed]
    exact place_ofHelpers _ _ _

mutual

theorem distance_ofHelpers (hs : List (Distance Float)) : (g : Geometry Float) →
    distance g (ofHelpers hs) = ofDistance (Shader.distance g hs)
  | .mk _ shape params children => by
    rw [distance, distances_ofHelpers hs children]
    exact shaped_ofHelpers shape (Geometry.lookup shape params) _ _

theorem distances_ofHelpers (hs : List (Distance Float)) : (gs : List (Geometry Float)) →
    distances gs (ofHelpers hs) =
      ((Shader.distances gs hs).1.map (Write.distance literal), ofHelpers (Shader.distances gs hs).2)
  | [] => by
    rw [distances, Shader.distances]
    rfl
  | g :: gs => by
    rw [distances, distance_ofHelpers hs g]
    simp only [ofDistance, distances_ofHelpers _ gs, Shader.distances]
    rfl

end

/-- Whatever was written before, a generator writes the program of its tree. -/
theorem generate_eq (s : Generator) (g : Geometry Float) :
    s.generate g = ⟨(program g).write, (program g).helpers.length⟩ := by
  have whole := distance_ofHelpers [] g
  change distance g { s with text := [], helpers := 0 } = _ at whole
  rw [generate, whole]
  rfl

end Generator

end Shader

end DistanceField
