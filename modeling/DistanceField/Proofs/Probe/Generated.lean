import DistanceField.Proofs.Lists
import DistanceField.Proofs.Probe.Code
import DistanceField.Proofs.Probe.Splitting

/-! Generated text compiles unless a definition is too large, and then evaluates to the distance of
its tree. -/
namespace DistanceField.Probe

open Shader

abbrev Named := Bytes × Distance Float

def Named.definition (d : Named) : Definition := ⟨d.1, Write.distance literal d.2⟩

def Named.compiled (d : Named) : Bytes × Expr := (d.1, Code.distance d.2)

def fits (d : Distance Float) : Bool := (Code.distance d).size ≤ Expr.limit

def numbered (i : Nat) (hs : List (Distance Float)) : List Named :=
  (hs.zipIdx i).map fun (d, k) => (Write.helperName k, d)

def named (p : Shader.Program Float) : List Named :=
  numbered 0 p.helpers ++ [(Bytes.ofString "de", p.distance), (Bytes.ofString "he", .empty)]

theorem numbered_cons (i : Nat) (d : Distance Float) (hs : List (Distance Float)) :
    numbered i (d :: hs) = (Write.helperName i, d) :: numbered (i + 1) hs := by
  rw [numbered, List.zipIdx_cons, List.map_cons]
  rfl

theorem helpersFrom_eq (i : Nat) (hs : List (Distance Float)) :
    Write.helpersFrom literal i hs = texts ((numbered i hs).map Named.definition) := by
  induction hs generalizing i with
  | nil => rfl
  | cons d hs ih => rw [Write.helpersFrom, numbered_cons, List.map_cons, texts_cons, ih]; rfl

theorem write_eq (p : Shader.Program Float) :
    p.write = texts ((named p).map Named.definition) := by
  rw [Shader.Program.write, helpersFrom_eq, named, List.map_append, texts, texts,
    List.flatMap_append, List.append_assoc]
  simp only [List.map_cons, List.map_nil, List.flatMap_cons, List.flatMap_nil, List.append_nil]
  rfl

theorem helperName_inj {i k : Nat} (same : Write.helperName i = Write.helperName k) : i = k := by
  have digits : Bytes.ofNat i = Bytes.ofNat k := List.append_cancel_left same
  rw [← Decimal.numeral_ofNat i, digits, Decimal.numeral_ofNat]

theorem helperName_ne {w : Bytes} (other : (w.drop 1).all Read.isDigit = false) (i : Nat) :
    Write.helperName i ≠ w := by
  rintro rfl
  have digits : (Bytes.ofNat i).all Read.isDigit = true :=
    List.all_eq_true.mpr fun _ => Decimal.isDigit_of_mem_ofNat
  exact absurd (other.symm.trans digits) (by decide)

theorem mem_numbered {i : Nat} {hs : List (Distance Float)} {d : Named}
    (found : d ∈ numbered i hs) :
    ∃ k, i ≤ k ∧ d.1 = Write.helperName k ∧ hs[k - i]? = some d.2 := by
  obtain ⟨⟨e, k⟩, member, rfl⟩ := List.mem_map.mp found
  obtain ⟨le, entry⟩ := List.mem_zipIdx_iff_le_and_getElem?_sub.mp member
  exact ⟨k, le, rfl, entry⟩

theorem nodup_numbered (i : Nat) (hs : List (Distance Float)) :
    ((numbered i hs).map (·.1)).Nodup := by
  induction hs generalizing i with
  | nil => exact List.nodup_nil
  | cons d hs ih =>
    rw [numbered_cons, List.map_cons, List.nodup_cons]
    refine ⟨fun found => ?_, ih (i + 1)⟩
    obtain ⟨e, member, same⟩ := List.mem_map.mp found
    obtain ⟨k, later, name, -⟩ := mem_numbered member
    have equal := helperName_inj (name.symm.trans same)
    omega

theorem nodup_named (p : Shader.Program Float) : ((named p).map (·.1)).Nodup := by
  rw [named, List.map_append, List.nodup_append]
  refine ⟨nodup_numbered 0 p.helpers, by simp only [List.map_cons, List.map_nil]; decide, ?_⟩
  intro name left other right
  obtain ⟨d, member, rfl⟩ := List.mem_map.mp left
  obtain ⟨k, -, same, -⟩ := mem_numbered member
  rw [same]
  simp only [List.map_cons, List.map_nil, List.mem_cons, List.not_mem_nil, or_false] at right
  rcases right with rfl | rfl <;> exact helperName_ne (by decide) k

/-- A program whose definitions sample earlier helpers only. -/
structure Founded (p : Shader.Program Float) : Prop where
  helpers : Ordered p.helpers
  distance : Grounded p.helpers.length p.distance

theorem program_founded (g : Geometry Float) : Founded (program g) :=
  ⟨program_ordered g, program_grounded g⟩

theorem mem_named {p : Shader.Program Float} (founded : Founded p) {d : Named}
    (found : d ∈ named p) : Free d.1 ∧ Grounded p.helpers.length d.2 := by
  have ends : Free "de" ∧ Free "he" := by
    constructor <;> exact ⟨by decide, ⟨_, _, rfl, by decide +kernel⟩, rfl, rfl⟩
  rcases List.mem_append.mp found with member | member
  · obtain ⟨k, -, name, entry⟩ := mem_numbered member
    obtain ⟨inside, -⟩ := List.getElem?_eq_some_iff.mp entry
    exact ⟨name ▸ free_helper k, (founded.helpers _ _ entry).mono inside.le⟩
  · simp only [List.mem_cons, List.not_mem_nil, or_false] at member
    rcases member with rfl | rfl
    · exact ⟨ends.1, founded.distance⟩
    · exact ⟨ends.2, .empty⟩

theorem clean_named {p : Shader.Program Float} (founded : Founded p) {d : Named}
    (found : d ∈ named p) : Clean d.definition := by
  obtain ⟨free, grounded⟩ := mem_named founded found
  obtain ⟨ts, spells, -⟩ := distance_argument grounded
  obtain ⟨b, rest, starts, -⟩ := free.starts
  have some : d.1 ≠ [] := starts ▸ List.cons_ne_nil b rest
  exact ⟨fun b found => free.isWord found, some, fun b found => (spells.plain b found).2⟩

theorem read_argument {text : Bytes} {e : Expr} (argument : Argument text e) :
    Expr.read? text = if e.size ≤ Expr.limit then some e else none := by
  obtain ⟨ts, spells, whole⟩ := argument
  have read := whole.reads (12 * (ts.length + 1)) [] (by omega) .none
  rw [List.append_nil] at read
  rw [Expr.read?, spells.scan]
  simp only [Option.bind_eq_bind, Option.bind_some, read]

theorem body_eq {n : Nat} {d : Named} (grounded : Grounded n d.2) {functions : List Bytes}
    (offers : Offers n functions) :
    Program.body? functions d.definition =
      if fits d.2 then some (Code.distance d.2) else none := by
  have read := read_argument (distance_argument grounded)
  have means := @means_distance n (fun _ _ => 0) d.2 grounded
  obtain ⟨kind, known⟩ := Option.isSome_iff_exists.mp (means.known functions offers)
  unfold Program.body? fits
  rw [Named.definition, read]
  by_cases small : (Code.distance d.2).size ≤ Expr.limit
  · simp only [small, if_true, decide_true, Option.bind_eq_bind, Option.bind_some, known]
    rfl
  · simp only [small, if_false, decide_false, Bool.false_eq_true]
    rfl

def oversized? (ds : List Named) : Option Named := ds.find? fun d => !fits d.2

def outcome (ds : List Named) : Except Error (List (Bytes × Expr)) :=
  match oversized? ds with
  | some d => .error (.badBody d.1)
  | none => .ok (ds.map Named.compiled)

theorem bodies_eq {functions : List Bytes} {ds : List Named}
    (all : ∀ d ∈ ds, Program.body? functions d.definition =
      if fits d.2 then some (Code.distance d.2) else none) :
    Program.bodies functions (ds.map Named.definition) = outcome ds := by
  induction ds with
  | nil => rfl
  | cons d ds ih =>
    obtain ⟨first, later⟩ := List.forall_mem_cons.mp all
    rw [List.map_cons, Program.bodies, first, ih later]
    unfold outcome oversized?
    cases small : fits d.2 with
    | false =>
      rw [List.find?_cons_of_pos (by rw [small]; rfl)]
      rfl
    | true =>
      rw [List.find?_cons_of_neg (by rw [small]; nofun), if_pos rfl]
      dsimp only
      cases ds.find? fun d => !fits d.2 with
      | none => rfl
      | some e => rfl

theorem mem_named_helper {p : Shader.Program Float} {i : Nat} {d : Distance Float}
    (entry : p.helpers[i]? = some d) : (Write.helperName i, d) ∈ named p := by
  refine List.mem_append_left _ (List.mem_map.mpr ⟨(d, i), ?_, rfl⟩)
  exact List.mem_zipIdx_iff_getElem?.mpr entry

theorem offers_named (p : Shader.Program Float) :
    Offers p.helpers.length (Program.callable ((named p).map Named.definition)) := by
  constructor
  · intro b
    have listed : b ∈ Builtin.all := by cases b <;> decide
    exact List.mem_append_left _ (List.mem_map_of_mem listed)
  · intro i inside
    have entry := mem_named_helper (List.getElem?_eq_getElem inside)
    exact List.mem_append_right _ (List.mem_map.mpr ⟨_, List.mem_map_of_mem entry, rfl⟩)

/-- The text of a program compiles, or the first definition that is too large is reported. -/
theorem compile_write {p : Shader.Program Float} (founded : Founded p) :
    Program.compile p.write = (outcome (named p)).map Program.mk := by
  have some : (named p).map Named.definition ≠ [] := by simp [named]
  have clean : ∀ d ∈ (named p).map Named.definition, Clean d := by
    intro d found
    obtain ⟨e, member, rfl⟩ := List.mem_map.mp found
    exact clean_named founded member
  have distinct : (((named p).map Named.definition).map (·.name)).Nodup := by
    rw [List.map_map]
    exact nodup_named p
  have all := bodies_eq fun d found => body_eq (mem_named founded found).2 (offers_named p)
  rw [write_eq, Program.compile, definitionsOf_texts some clean distinct]
  simp only [bind, Except.bind, all]
  cases outcome (named p) <;> rfl

def compiled (p : Shader.Program Float) : Program := ⟨(named p).map Named.compiled⟩

theorem lookup_named {p : Shader.Program Float} {name : Bytes} {d : Distance Float}
    (found : (name, d) ∈ named p) :
    (compiled p).definitions.lookup name = some (Code.distance d) := by
  refine lookup_of_mem ?_ (List.mem_map_of_mem (f := Named.compiled) found)
  rw [compiled, List.map_map]
  exact nodup_named p

theorem builtin_unnamed (p : Shader.Program Float) (b : Builtin) :
    (compiled p).definitions.lookup b.name = none := by
  rw [List.lookup_eq_none_iff]
  intro entry found
  obtain ⟨d, member, rfl⟩ := List.mem_map.mp found
  rw [bne_iff_ne]
  rcases List.mem_append.mp member with helper | last
  · obtain ⟨k, -, name, -⟩ := mem_numbered helper
    -- `float` starts like a helper, but no digits follow
    have other : (b.name.drop 1).all Read.isDigit = false := by cases b <;> rfl
    exact (name.trans_ne (helperName_ne other k)).symm
  · have apart : b.name ≠ Bytes.ofString "de" ∧ b.name ≠ Bytes.ofString "he" := by
      cases b <;> decide
    simp only [List.mem_cons, List.not_mem_nil, or_false] at last
    rcases last with rfl | rfl
    · exact apart.1
    · exact apart.2

theorem call_builtin (p : Shader.Program Float) (n : Nat) :
    Standard ((compiled p).call (n + 1)) := by
  intro b args
  have own : Builtin.ofName? b.name = some b := by cases b <;> rfl
  rw [Program.call, builtin_unnamed, own]

theorem call_named {p : Shader.Program Float} {name : Bytes} {d : Distance Float}
    (found : (name, d) ∈ named p) (n : Nat) (cs : List Float) :
    (compiled p).call (n + 1) name [.vector cs] =
      (Code.distance d).evaluate ((compiled p).call n) (.vector cs) := by
  rw [Program.call, lookup_named found]

theorem call_serves {p : Shader.Program Float} (founded : Founded p) {n k : Nat} (deep : k < n)
    (known : k ≤ p.helpers.length) :
    Serves k (sampled (meanings p.helpers)) ((compiled p).call n) := by
  -- on the depth: a helper samples earlier ones only, and each of them one level deeper
  induction n generalizing k with
  | zero => exact absurd deep (Nat.not_lt_zero k)
  | succ n ih =>
    refine ⟨call_builtin p n, fun i earlier q => ?_⟩
    have entry : p.helpers[i]? = some p.helpers[i] := List.getElem?_eq_getElem (by omega)
    rw [call_named (mem_named_helper entry), sampled_eq founded.helpers entry]
    exact (means_distance (founded.helpers i _ entry)).value _ (ih (by omega) (by omega)) q

theorem evaluate_compiled {p : Shader.Program Float} (founded : Founded p) (x y z : Float) :
    (compiled p).evaluate "de" x y z = .ok (p.field ⟨x, y, z⟩) := by
  have entry : (Bytes.ofString "de", p.distance) ∈ named p := by simp [named]
  have deep : p.helpers.length < (compiled p).definitions.length + 1999 := by
    simp [compiled, named, numbered]
    omega
  have serves := call_serves founded deep le_rfl
  have called : (compiled p).call ((compiled p).definitions.length + 2000) "de"
      [.vector [x, y, z]] = .ok (.float (p.field ⟨x, y, z⟩)) :=
    (call_named entry _ _).trans ((means_distance founded.distance).value _ serves ⟨x, y, z⟩)
  rw [Program.evaluate, lookup_named entry, Program.depth, called]
  rfl

/-- Every definition of the generated text is read as an expression within the limit. -/
def Small (g : Geometry Float) : Prop :=
  ∀ d ∈ named (program g), (Code.distance d.2).size ≤ Expr.limit

theorem small_iff (g : Geometry Float) : Small g ↔ oversized? (named (program g)) = none := by
  simp only [Small, oversized?, List.find?_eq_none, fits, Bool.not_eq_true',
    decide_eq_false_iff_not, not_not]

/-- The text generated for a tree compiles exactly when it is small, and then its distance is that
of the tree at every point. Otherwise its first definition beyond the limit is reported. -/
theorem compile_generate (g : Geometry Float) :
    (Small g ∧ ∃ p, Program.compile (generate g) = .ok p ∧
      ∀ x y z, p.evaluate "de" x y z = .ok (field g ⟨x, y, z⟩)) ∨
    (¬ Small g ∧ ∃ d, oversized? (named (program g)) = some d ∧
      Program.compile (generate g) = .error (.badBody d.1)) := by
  have founded := program_founded g
  have compiles := compile_write founded
  rw [small_iff]
  unfold outcome at compiles
  cases found : oversized? (named (program g)) with
  | none =>
    rw [found] at compiles
    refine .inl ⟨rfl, compiled (program g), compiles, fun x y z => ?_⟩
    rw [evaluate_compiled founded, program_field]
  | some d =>
    rw [found] at compiles
    exact .inr ⟨nofun, d, rfl, compiles⟩

section Crowd

def crowd (n : Nat) : Geometry Float :=
  .mk Shape.union.name .union [] (List.replicate n (.mk "a" (.ofName "a") [] []))

theorem distances_crowd (n : Nat) :
    distances (List.replicate n (.mk "a" (.ofName "a") [] [])) ([] : List (Distance Float)) =
      (List.replicate n .empty, []) := by
  induction n with
  | zero => rw [List.replicate_zero, distances, List.replicate_zero]
  | succ n ih =>
    have one : distance (.mk "a" (.ofName "a") [] []) ([] : List (Distance Float)) =
        (.empty, []) := by
      rw [distance, distances]
      rfl
    rw [List.replicate_succ, distances, one]
    simp only [ih, List.replicate_succ]

theorem size_unite (n : Nat) (d : Distance Float) :
    (Code.distance ((List.replicate n .empty).foldl .min d)).size =
      (Code.distance d).size + 3 * n := by
  induction n generalizing d with
  | zero => rfl
  | succ n ih =>
    rw [List.replicate_succ, List.foldl_cons, ih]
    simp only [Code.distance, Expr.size, Expr.sizes]
    omega

theorem program_crowd (n : Nat) :
    program (crowd n) = ⟨[], (List.replicate n .empty).foldl .min .empty⟩ := by
  rw [program, crowd, distance, distances_crowd]
  rfl

theorem compile_crowd {n : Nat} (many : 3334 ≤ n) :
    Program.compile (generate (crowd n)) = .error (.badBody "de") := by
  have size := size_unite n .empty
  have large : fits (program (crowd n)).distance = false := by
    rw [program_crowd]
    simp only [fits, size, Expr.limit, decide_eq_false_iff_not]
    omega
  have first : oversized? (named (program (crowd n))) =
      some (Bytes.ofString "de", (program (crowd n)).distance) := by
    rw [program_crowd] at large ⊢
    exact List.find?_cons_of_pos (by rw [large]; rfl)
  rw [generate, compile_write (program_founded _), outcome, first]
  rfl

theorem crowd_refused : Program.compile (generate (crowd 4000)) = .error (.badBody "de") :=
  compile_crowd (by decide)

end Crowd

end DistanceField.Probe
