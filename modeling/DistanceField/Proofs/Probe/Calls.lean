import DistanceField.Proofs.Probe.Generated
import DistanceField.Proofs.Shader.Sampling

/-! What the bodies of generated definitions call: builtins, and earlier helpers, each of them once
in the whole text. -/
namespace DistanceField.Probe

open Shader Double

/-- The words of a text that stand directly before an opening parenthesis. The word that the text
continues is given. -/
def callsFrom (word : Bytes) : Bytes → List Bytes
  | [] => []
  | b :: rest =>
    if Definition.isWord b then callsFrom (word ++ [b]) rest
    else if b = 40 ∧ word ≠ [] then word :: callsFrom [] rest
    else callsFrom [] rest

def calls (text : Bytes) : List Bytes := callsFrom [] text

def isBuiltin (w : Bytes) : Bool := (Builtin.all.map Builtin.name).contains w

/-- A byte that neither goes on with a word nor calls it. -/
structure Breaks (b : UInt8) : Prop where
  word : Definition.isWord b = false
  closed : b ≠ 40

/-- A text that neither goes on with a word nor calls it. -/
def Apart (rest : Bytes) : Prop := ∀ b ∈ rest.head?, Breaks b

section Scanning

variable {v w text rest : Bytes} {b : UInt8}

theorem Breaks.apart (breaks : Breaks b) : Apart (b :: rest) := by
  intro c found
  cases found
  exact breaks

theorem callsFrom_break (breaks : Breaks b) : callsFrom v (b :: rest) = callsFrom [] rest := by
  simp [callsFrom, breaks.word, breaks.closed]

theorem callsFrom_flat (flat : ∀ b ∈ text, b ≠ 40) (apart : Apart rest) :
    callsFrom v (text ++ rest) = callsFrom [] rest := by
  induction text generalizing v with
  | nil =>
    cases rest with
    | nil => rfl
    | cons b rest =>
      have breaks := apart b rfl
      exact (callsFrom_break breaks).trans (callsFrom_break breaks).symm
  | cons c text ih =>
    obtain ⟨first, others⟩ := List.forall_mem_cons.mp flat
    simp [callsFrom, first, ih others]

theorem callsFrom_word (all : ∀ b ∈ w, Definition.isWord b = true) :
    callsFrom v (w ++ rest) = callsFrom (v ++ w) rest := by
  induction w generalizing v with
  | nil => simp
  | cons b w ih =>
    obtain ⟨first, others⟩ := List.forall_mem_cons.mp all
    simp [callsFrom, first, ih others]

theorem callsFrom_open (w : Bytes) :
    callsFrom w (40 :: rest) = (if w = [] then [] else [w]) ++ callsFrom [] rest := by
  have other : Definition.isWord 40 = false := by decide
  by_cases none : w = [] <;> simp [callsFrom, other, none]

end Scanning

/-- A text that calls the given names besides builtins, before whatever stands apart from it. -/
def Invokes (text : Bytes) (names : List Bytes) : Prop :=
  ∀ rest, Apart rest → (callsFrom [] (text ++ rest)).filter (!isBuiltin ·) =
    names ++ (callsFrom [] rest).filter (!isBuiltin ·)

section Invoking

variable {text more : Bytes} {names others : List Bytes} {b : UInt8}

theorem Invokes.calls_eq (invokes : Invokes text names) :
    (calls text).filter (!isBuiltin ·) = names := by
  have whole := invokes [] nofun
  rwa [List.append_nil, callsFrom, List.filter_nil, List.append_nil] at whole

theorem invokes_flat (flat : ∀ b ∈ text, b ≠ 40) : Invokes text [] := by
  intro rest apart
  rw [callsFrom_flat flat apart, List.nil_append]

theorem Invokes.append (first : Invokes text names) (breaks : Breaks b)
    (second : Invokes more others) : Invokes (text ++ b :: more) (names ++ others) := by
  intro rest apart
  rw [List.append_assoc, List.cons_append, first _ breaks.apart, callsFrom_break breaks,
    second rest apart, List.append_assoc]

theorem breaks_minus : Breaks 45 := ⟨by decide, by decide⟩

theorem breaks_close : Breaks 41 := ⟨by decide, by decide⟩

theorem Invokes.negate (invokes : Invokes text names) :
    Invokes (45 :: 40 :: (text ++ [41])) names := by
  intro rest apart
  rw [List.cons_append, callsFrom_break breaks_minus, List.cons_append, callsFrom_open, if_pos rfl,
    List.nil_append, List.append_assoc, List.singleton_append, invokes _ breaks_close.apart,
    callsFrom_break breaks_close]

theorem Invokes.join {texts : List Bytes} {named : List (List Bytes)}
    (all : List.Forall₂ Invokes texts named) : Invokes (Bytes.join "," texts) named.flatten := by
  induction all with
  | nil => exact fun _ _ => rfl
  | @cons text names texts named first rest ih =>
    cases rest with
    | nil => simpa [Bytes.join] using first
    | @cons more others texts named second rest =>
      have comma : Bytes.join "," (text :: more :: texts) =
          text ++ 44 :: Bytes.join "," (more :: texts) := by
        rw [Bytes.join, List.append_assoc]
        · rfl
        · simp
      rw [comma, List.flatten_cons]
      exact first.append ⟨by decide, by decide⟩ ih

theorem invokes_call {w : Bytes} (free : Free w) {texts : List Bytes} {named : List (List Bytes)}
    (all : List.Forall₂ Invokes texts named) :
    Invokes (Write.call w texts) ([w].filter (!isBuiltin ·) ++ named.flatten) := by
  intro rest apart
  obtain ⟨b, tail, starts, -⟩ := free.starts
  have some : w ≠ [] := starts ▸ List.cons_ne_nil b tail
  have text : Write.call w texts ++ rest = w ++ 40 :: (Bytes.join "," texts ++ 41 :: rest) := by
    simp only [Write.call, List.append_assoc]
    rfl
  rw [text, callsFrom_word fun b => free.isWord, List.nil_append, callsFrom_open, if_neg some,
    List.filter_append, Invokes.join all _ breaks_close.apart, callsFrom_break breaks_close,
    List.append_assoc]

theorem isBuiltin_name (b : Builtin) : isBuiltin b.name = true := by cases b <;> decide

theorem not_isBuiltin_helper (i : Nat) : isBuiltin (Write.helperName i) = false := by
  rw [isBuiltin, List.contains_eq_mem, decide_eq_false_iff_not]
  intro found
  obtain ⟨b, -, same⟩ := List.mem_map.mp found
  have other : (b.name.drop 1).all Read.isDigit = false := by cases b <;> rfl
  exact helperName_ne other i same.symm

theorem invokes_builtin (b : Builtin) {texts : List Bytes} {named : List (List Bytes)}
    (all : List.Forall₂ Invokes texts named) : Invokes (Write.call b.name texts) named.flatten := by
  have invokes := invokes_call (free_builtin b) all
  rwa [List.filter_singleton, isBuiltin_name] at invokes

theorem number_flat (v : Float) : ∀ b ∈ Shader.number (Scalar.clamp v), b ≠ 40 := by
  have digits {ds : Bytes} (all : Read.AllDigits ds) : ∀ b ∈ ds, b ≠ 40 := by
    rintro b found rfl
    exact absurd (all _ found) (by decide)
  obtain ⟨negative, m, e, finite, -⟩ := view_clamp v
  change view (Scalar.clamp v) = _ at finite
  rw [number_clamp, eq_zero_iff finite]
  by_cases zero : m = 0
  · rw [beq_iff_eq.mpr zero, if_pos rfl]
    decide +kernel
  · rw [beq_eq_false_iff_ne.mpr zero, if_neg Bool.false_ne_true, Decimal.text, finite]
    obtain ⟨whole, frac, tail, text, all, -, fraction, ends, -⟩ :=
      write_shape zero (fits_of_view finite) Decimal.plain
    have flat : ∀ b ∈ Decimal.plain.write (Decimal.shortest m e), b ≠ 40 := by
      rw [text]
      refine List.forall_mem_append.mpr ⟨List.forall_mem_append.mpr ⟨digits all, ?_⟩, ?_⟩
      · cases fraction with
        | none => simp
        | point all => exact List.forall_mem_cons.mpr ⟨by decide, digits all⟩
      · cases ends with
        | none => simp
        | bare _ all => exact List.forall_mem_cons.mpr ⟨by decide, digits all⟩
        | signed is all =>
          refine List.forall_mem_cons.mpr ⟨by decide, List.forall_mem_cons.mpr ⟨?_, digits all⟩⟩
          rcases is with rfl | rfl <;> decide
    cases negative with
    | false => exact flat
    | true => exact List.forall_mem_cons.mpr ⟨by decide, flat⟩

theorem invokes_literal (v : Float) : Invokes (literal v) [] :=
  invokes_builtin .float (.cons (invokes_flat (number_flat v)) .nil)

theorem invokes_vector {x y z : Bytes} (first : Invokes x []) (second : Invokes y [])
    (third : Invokes z []) : Invokes (Write.vector x y z) [] :=
  invokes_builtin .vec3 (.cons first (.cons second (.cons third .nil)))

theorem invokes_triple (t : Triple Float) : Invokes (Write.triple literal t) [] :=
  invokes_vector (invokes_literal _) (invokes_literal _) (invokes_literal _)

theorem invokes_point : Invokes "p" [] := invokes_flat (by decide +kernel)

theorem invokes_dot (t : Triple Float) : Invokes (Write.dot literal t) [] :=
  invokes_builtin .dot (.cons invokes_point (.cons (invokes_triple t) .nil))

theorem invokes_placement (w : Placement Float) : Invokes (Write.placement literal w) [] := by
  cases w with
  | shift v => exact invokes_point.append breaks_minus (invokes_triple v)
  | shrink k => exact invokes_point.append (b := 42) ⟨by decide, by decide⟩ (invokes_literal k)
  | turn m => exact invokes_vector (invokes_dot m.x) (invokes_dot m.y) (invokes_dot m.z)

theorem invokes_between (h : Float) : Invokes (Write.between literal h) [] := by
  have top : Invokes "p.z" [] := invokes_flat (by decide +kernel)
  have low : Invokes "-p.z" [] := invokes_flat (by decide +kernel)
  exact invokes_builtin .max (.cons low (.cons (top.append breaks_minus (invokes_literal h)) .nil))

theorem Invokes.minus_literal (invokes : Invokes text []) (v : Float) :
    Invokes (text ++ 45 :: literal v) [] :=
  invokes.append breaks_minus (invokes_literal v)

/-- Besides builtins, the text of a distance calls the helpers that the distance samples. -/
theorem invokes_distance (d : Distance Float) :
    Invokes (Write.distance literal d) (d.samples.map Write.helperName) := by
  induction d with
  | empty | full => exact invokes_flat (by decide +kernel)
  | min a b iha ihb =>
    rw [Distance.samples, List.map_append, ← List.append_nil (b.samples.map _)]
    exact invokes_builtin .min (.cons iha (.cons ihb .nil))
  | max a b iha ihb =>
    rw [Distance.samples, List.map_append, ← List.append_nil (b.samples.map _)]
    exact invokes_builtin .max (.cons iha (.cons ihb .nil))
  | neg a ih => exact ih.negate
  | box x y h =>
    have side (sel : Bytes) (flat : ∀ b ∈ sel, b ≠ 40) (x : Float) :
        Invokes (Write.call Builtin.abs.name [sel] ++ 45 :: literal x) [] :=
      (invokes_builtin .abs (.cons (invokes_flat flat) .nil)).minus_literal x
    have sides := invokes_builtin .max
      (.cons (side "p.x" (by decide +kernel) x) (.cons (side "p.y" (by decide +kernel) y) .nil))
    exact invokes_builtin .max (.cons sides (.cons (invokes_between h) .nil))
  | ball r =>
    have zero : Invokes "0.0" [] := invokes_flat (by decide +kernel)
    have center := invokes_vector zero zero (invokes_literal r)
    have text : Write.distance literal (.ball r) = Write.call Builtin.distance.name
        ["p", Write.vector "0.0" "0.0" (literal r)] ++ 45 :: literal r := by
      simp only [Write.distance, Write.call, Bytes.join, List.append_assoc]
      rfl
    rw [text]
    exact (invokes_builtin .distance (.cons invokes_point (.cons center .nil))).minus_literal r
  | rod r h =>
    have part : Invokes "p.xy" [] := invokes_flat (by decide +kernel)
    have wide := invokes_builtin .length (.cons part .nil)
    exact invokes_builtin .max (.cons (wide.minus_literal r) (.cons (invokes_between h) .nil))
  | sample i w =>
    have invokes := invokes_call (free_helper i) (.cons (invokes_placement w) .nil)
    rwa [List.filter_singleton, not_isBuiltin_helper] at invokes
  | times a k ih =>
    have text : Write.distance literal (.times a k) =
        Write.distance literal a ++ 42 :: literal k := List.append_assoc ..
    have invokes := ih.append (b := 42) ⟨by decide, by decide⟩ (invokes_literal k)
    rwa [List.append_nil, ← text] at invokes

end Invoking

/-- Definitions of `n` numbered helpers, the distance and its empty counterpart, each calling
builtins and earlier helpers only, and all together each helper once. -/
structure Scoped (n : Nat) (ds : List Definition) : Prop where
  names : ds.map (·.name) = (List.range n).map Write.helperName ++ [("de" : Bytes), ("he" : Bytes)]
  distinct : (ds.map (·.name)).Nodup
  earlier : ∀ i d, ds[i]? = some d → ∀ w ∈ calls d.body,
    (∃ b : Builtin, w = b.name) ∨ ∃ k < i, k < n ∧ w = Write.helperName k
  once : ∀ k < n, (ds.flatMap (calls ·.body)).count (Write.helperName k) = 1

theorem names_named (p : Shader.Program Float) :
    (named p).map (·.1) =
      (List.range p.helpers.length).map Write.helperName ++ [("de" : Bytes), ("he" : Bytes)] := by
  have indices : (p.helpers.zipIdx 0).map (·.2) = List.range p.helpers.length := by
    rw [List.range_eq_range']
    exact List.zipIdx_map_snd 0 p.helpers
  rw [named, List.map_append, numbered, ← indices, List.map_map, List.map_map]
  rfl

theorem calls_named (d : Named) :
    (calls d.definition.body).filter (!isBuiltin ·) = d.2.samples.map Write.helperName :=
  (invokes_distance d.2).calls_eq

theorem grounded_named {p : Shader.Program Float} (founded : Founded p) {i : Nat} {d : Named}
    (found : (named p)[i]? = some d) : Grounded (min i p.helpers.length) d.2 := by
  have count : (numbered 0 p.helpers).length = p.helpers.length := by simp [numbered]
  rw [named] at found
  by_cases helper : i < p.helpers.length
  · rw [List.getElem?_append_left (by omega), numbered, List.getElem?_map, List.getElem?_zipIdx,
      Option.map_map, Option.map_eq_some_iff] at found
    obtain ⟨e, entry, rfl⟩ := found
    rw [Nat.min_eq_left (by omega)]
    exact founded.helpers i e entry
  · rw [List.getElem?_append_right (by omega), count] at found
    rw [Nat.min_eq_right (by omega)]
    cases place : i - p.helpers.length with
    | zero =>
      rw [place] at found
      cases found
      exact founded.distance
    | succ k =>
      rw [place] at found
      cases k with
      | zero =>
        cases found
        exact .empty
      | succ k => cases found

/-- The helpers that the definitions of a program call, in the order of its text. -/
theorem helper_calls (p : Shader.Program Float) :
    (((named p).map Named.definition).flatMap (calls ·.body)).filter (!isBuiltin ·) =
      (p.helpers.flatMap Distance.samples ++ p.distance.samples).map Write.helperName := by
  have bodies : (named p).map (·.2) = p.helpers ++ [p.distance, .empty] := by
    rw [named, numbered, List.map_append, List.map_map]
    exact congrArg (· ++ _) (List.zipIdx_map_fst 0 p.helpers)
  have all : p.helpers.flatMap Distance.samples ++ p.distance.samples =
      ((named p).map (·.2)).flatMap Distance.samples := by
    rw [bodies]
    simp [Distance.samples]
  rw [List.filter_flatMap, List.flatMap_map, all, List.flatMap_map, List.map_flatMap]
  exact List.flatMap_congr fun d _ => calls_named d

theorem scoped_named {p : Shader.Program Float} (founded : Founded p)
    (once : (p.helpers.flatMap Distance.samples ++ p.distance.samples).Perm
      (List.range p.helpers.length)) :
    Scoped p.helpers.length ((named p).map Named.definition) := by
  have names : ((named p).map Named.definition).map (·.name) = (named p).map (·.1) := by
    rw [List.map_map]
    rfl
  constructor
  case names => rw [names, names_named]
  case distinct =>
    rw [names]
    exact nodup_named p
  case earlier =>
    intro i d found w called
    rw [List.getElem?_map, Option.map_eq_some_iff] at found
    obtain ⟨e, entry, rfl⟩ := found
    cases builtin : isBuiltin w with
    | true =>
      obtain ⟨b, -, same⟩ := List.mem_map.mp (List.contains_iff_mem.mp builtin)
      exact .inl ⟨b, same.symm⟩
    | false =>
      have kept : w ∈ (calls e.definition.body).filter (!isBuiltin ·) :=
        List.mem_filter.mpr ⟨called, by rw [builtin]; rfl⟩
      rw [calls_named] at kept
      obtain ⟨k, sampled, rfl⟩ := List.mem_map.mp kept
      have below := (grounded_named founded entry).samples_lt k sampled
      exact .inr ⟨k, by omega, by omega, rfl⟩
  case once =>
    intro k known
    have kept := List.count_filter (p := (!isBuiltin ·)) (a := Write.helperName k)
      (l := ((named p).map Named.definition).flatMap (calls ·.body))
      (by rw [not_isBuiltin_helper]; rfl)
    have single := once.count_eq k
    rw [List.count_eq_one_of_mem List.nodup_range (List.mem_range.mpr known)] at single
    rw [← kept, helper_calls, List.count_map_of_injective _ _ fun _ _ => helperName_inj, single]

/-- Whatever a generator wrote before, its text for a tree splits into definitions that are scoped:
one helper for each solid that is moved, turned, scaled or stacked upon, and two for each that is
turned and lowered. -/
theorem generated_scoped (s : Generator) (g : Geometry Float) :
    (s.generate g).helpers =
        g.shapes.countP (· ∈ [.box, .sphere, .cylinder, .trans, .rot, .scale]) +
          2 * g.shapes.count .arot ∧
      ∃ ds, (s.generate g).text = texts ds ∧ Program.definitionsOf (s.generate g).text = .ok ds ∧
        Scoped (s.generate g).helpers ds := by
  obtain ⟨count, once⟩ := program_samples g
  have founded := program_founded g
  have well := scoped_named founded once
  rw [Generator.generate_eq]
  refine ⟨count.trans (sum_helpers _), _, write_eq _, ?_, well⟩
  have some : (named (program g)).map Named.definition ≠ [] := by simp [named]
  rw [write_eq]
  refine definitionsOf_texts some ?_ well.distinct
  intro d found
  obtain ⟨e, member, rfl⟩ := List.mem_map.mp found
  exact clean_named founded member

end DistanceField.Probe
