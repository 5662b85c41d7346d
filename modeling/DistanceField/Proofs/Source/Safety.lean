import DistanceField.Compile.Result
import DistanceField.Proofs.Source.Evaluation
import DistanceField.Proofs.Source.Spans
import DistanceField.Source.Stream

/-! An accepted document is evaluated, printed and drawn without an internal error. -/
namespace DistanceField

open Grammar

/-- A function whose parameters have different names and can be computed, with the names and values
that are written for it somewhere in the tokens. -/
structure Function.Sane (ts : List Token) (f : Function) : Prop where
  distinct : (f.params.map Prod.fst).Nodup
  written : ∃ us as vs, us <:+: ts ∧ Grammar.Call us f.name as ∧ Grammar.Values as vs ∧
    evaluateParams f.params = .ok vs
  computed : ∀ p ∈ f.params, p.2.Computed
  evaluated : ∀ p ∈ f.params, ∃ v, p.2.evaluate = .ok v

theorem Function.Sane.mono {ts us : List Token} {f : Function} (sane : f.Sane ts)
    (inside : ts <:+: us) : f.Sane us := by
  obtain ⟨vs, as, values, within, call⟩ := sane.written
  exact { sane with written := ⟨vs, as, values, within.trans inside, call⟩ }

theorem Function.Sane.append {ts us : List Token} {fs gs : List Function} (first : ∀ f ∈ fs, f.Sane ts)
    (rest : ∀ f ∈ gs, f.Sane us) : ∀ f ∈ fs ++ gs, f.Sane (ts ++ us) := by
  intro f found
  rcases List.mem_append.mp found with before | behind
  · exact (first f before).mono (List.prefix_append ts us).isInfix
  · exact (rest f behind).mono (List.suffix_append ts us).isInfix

theorem Function.Sane.placed {ts : List Token} {f : Function} (sane : f.unplaced.Sane ts) :
    f.Sane ts := by
  obtain ⟨name, params, operands, span⟩ := f
  obtain ⟨distinct, written, computed, -⟩ := sane
  simp only [Function.unplaced, Function.params, Function.name, evaluateParams_unplaced] at written
  simp only [Function.unplaced, Function.params, unplacedParams_eq_map] at distinct computed
  have computed : ∀ p ∈ params, p.2.Computed := fun p found =>
    (computed _ (List.mem_map_of_mem found)).placed
  refine ⟨?_, written, computed, fun p found => (computed p found).evaluates⟩
  simpa [Function.comp_def, Function.params] using distinct

namespace Grammar

theorem Head.sane {strict : Bool} {next : Kind} {ts : List Token} {name : Bytes}
    {ps : List (Bytes × Node)} (head : Head strict next ts name ps) (fs : List Function) :
    (Function.mk name ps fs .none).Sane ts := by
  obtain ⟨as, vs, call, values, evaluated⟩ := head.valued
  have facts : (ps.map Prod.fst).Nodup ∧ ∀ p ∈ ps, p.2.Computed := by
    cases head with
    | bare => exact ⟨List.nodup_nil, List.forall_mem_nil _⟩
    | called _ _ list _ _ =>
      exact ⟨nodup_collect _, fun p found => list.computed p (mem_of_mem_collect found)⟩
  exact ⟨facts.1, ⟨ts, as, vs, List.infix_refl ts, call, values, evaluated⟩, facts.2,
    fun p found => (facts.2 p found).evaluates⟩

theorem Solid.sane {strict : Bool} {part : Part} {next : Kind} {ts : List Token}
    {fs : List Function} (solid : Solid strict part next ts fs) : ∀ f ∈ fs, f.Sane ts := by
  induction solid with
  | plain head => exact List.forall_mem_singleton.mpr (head.sane _)
  | block head _ _ _ _ =>
    exact List.forall_mem_singleton.mpr ((head.sane _).mono (List.prefix_append ..).isInfix)
  | child _ ih => exact ih
  | @group _ _ l r _ _ _ _ ih => exact fun f found => (ih f found).mono ⟨[l], [r], rfl⟩
  | none => exact List.forall_mem_nil _
  | more _ _ ihf ihr => exact Function.Sane.append ihf ihr

theorem Text.sane {strict : Bool} {ts : List Token} {fs : List Function} (text : Text strict ts fs) :
    ∀ f ∈ fs, f.Sane ts := by
  induction text with
  | last function => exact function.sane
  | more function _ ih => exact Function.Sane.append function.sane ih

end Grammar

namespace Stream

/-- Writing that ends early only where there is no more room. -/
def Safe (w : Writing) : Prop := ∀ s why, (w s).1 ≠ .error (.malformed why)

theorem safe_put (b : Bytes) : Safe (put b) := by
  intro s why failed
  simp only [put] at failed
  split at failed <;> cases failed

theorem safe_pure : Safe (pure ()) := by
  intro s why failed
  cases failed

theorem Safe.andThen {w v : Writing} (first : Safe w) (second : Safe v) : Safe (do w; v) := by
  intro s why failed
  have early := first s why
  simp only [bind, ExceptT.bind, ExceptT.mk, ExceptT.bindCont, StateT.bind] at failed
  generalize w s = p at early failed
  obtain ⟨r, s'⟩ := p
  cases r with
  | ok => exact second s' why failed
  | error => exact early failed

theorem Safe.run {w : Writing} (safe : Safe w) (s : Sink) (why : Malformed) :
    (Stream.run w s).2 ≠ some (.malformed why) := by
  intro failed
  have never := safe s why
  unfold Stream.run at failed
  generalize w s = p at never failed
  obtain ⟨r, s'⟩ := p
  cases r with
  | ok => cases failed
  | error e =>
    cases failed
    exact never rfl

end Stream

/-- A part of a tree that is printed as a whole, and piece by piece as far as there is room. -/
def Prints (whole : Except Malformed Bytes) (pieces : Stream.Writing) : Prop :=
  (∃ b, whole = .ok b) ∧ Stream.Safe pieces

section Printing

open DistanceField.Stream

theorem Node.Computed.prints {e : Node} (computed : e.Computed) (depth : Nat) :
    Prints (Dump.node depth e) (Stream.node depth e) := by
  induction computed generalizing depth with
  | number v span => exact ⟨⟨_, rfl⟩, safe_put _⟩
  | operator _ _ _ ihl ihr =>
    obtain ⟨⟨a, left⟩, safe⟩ := ihl (depth + 1)
    obtain ⟨⟨b, right⟩, also⟩ := ihr (depth + 1)
    refine ⟨?_, (safe_put _).andThen (safe.andThen also)⟩
    simp only [Dump.node, left, right]
    exact ⟨_, rfl⟩

theorem parameters_print {ps : List (Bytes × Node)} (computed : ∀ p ∈ ps, p.2.Computed)
    (depth : Nat) : Prints (Dump.parameters depth ps) (Stream.parameters depth ps) := by
  induction ps with
  | nil => exact ⟨⟨[], rfl⟩, safe_pure⟩
  | cons p ps ih =>
    obtain ⟨first, rest⟩ := List.forall_mem_cons.mp computed
    obtain ⟨⟨a, value⟩, safe⟩ := first.prints (depth + 1)
    obtain ⟨⟨b, more⟩, also⟩ := ih rest
    refine ⟨?_, (safe_put _).andThen (safe.andThen also)⟩
    simp only [Dump.parameters, value, more]
    exact ⟨_, rfl⟩

mutual

theorem function_prints {ts : List Token} : (f : Function) → (∀ g ∈ f.functions, g.Sane ts) →
    (depth : Nat) →
    Prints (Dump.function depth f) (Stream.function depth f)
  | .mk name params operands span, sane, depth => by
    rw [Parser.functions_eq] at sane
    obtain ⟨own, inner⟩ := List.forall_mem_cons.mp sane
    obtain ⟨⟨a, given⟩, safe⟩ := parameters_print own.computed (depth + 1)
    obtain ⟨⟨b, rest⟩, also⟩ :=
      functions_print operands (List.forall_mem_append.mp inner).2 (depth + 1)
    refine ⟨?_, (safe_put _).andThen (safe.andThen also)⟩
    rw [Function.params] at given
    simp only [Dump.function, given, rest]
    exact ⟨_, rfl⟩

theorem functions_print {ts : List Token} : (fs : List Function) →
    (∀ g ∈ functionsOf fs, g.Sane ts) → (depth : Nat) →
    Prints (Dump.functions depth fs) (Stream.functions depth fs)
  | [], _, _ => ⟨⟨[], rfl⟩, safe_pure⟩
  | f :: fs, sane, depth => by
    obtain ⟨first, others⟩ := List.forall_mem_append.mp sane
    obtain ⟨⟨a, here⟩, safe⟩ := function_prints f first depth
    obtain ⟨⟨b, rest⟩, also⟩ := functions_print fs others depth
    refine ⟨?_, safe.andThen also⟩
    simp only [Dump.functions, here, rest]
    exact ⟨_, rfl⟩

end

theorem Document.prints {ts : List Token} {d : Document} (sane : ∀ f ∈ d.functions, f.Sane ts) :
    Prints d.dump (Stream.dump d) := by
  obtain ⟨⟨b, inner⟩, safe⟩ := functions_print d.operands sane 1
  refine ⟨?_, (safe_put _).andThen safe⟩
  simp only [Document.dump, Document.node, Node.dump, Dump.node, inner]
  exact ⟨_, rfl⟩

end Printing

/-- A tree of names, each with those of its parameters. -/
inductive Outline where
  | mk (name : Bytes) (params : List Bytes) (inner : List Outline)

mutual

def Function.outline : Function → Outline
  | .mk name params operands _ => .mk name (params.map Prod.fst) (Function.outlines operands)

def Function.outlines : List Function → List Outline
  | [] => []
  | f :: fs => f.outline :: Function.outlines fs

end

mutual

def Geometry.outline : Geometry Float → Outline
  | .mk name _ params children => .mk name (params.map Prod.fst) (Geometry.outlines children)

def Geometry.outlines : List (Geometry Float) → List Outline
  | [] => []
  | g :: gs => g.outline :: Geometry.outlines gs

end

mutual

theorem outline_geometry : (f : Function) → {g : Geometry Float} → f.geometry = .ok g →
    g.outline = f.outline
  | .mk name params operands span, g, drawn => by
    obtain ⟨vs, given, more⟩ := bind_ok drawn
    obtain ⟨gs, inner, same⟩ := bind_ok more
    cases same
    simp only [Geometry.outline, Function.outline, evaluateParams_names given,
      outlines_geometries operands inner]

theorem outlines_geometries : (fs : List Function) → {gs : List (Geometry Float)} →
    Function.geometries fs = .ok gs → Geometry.outlines gs = Function.outlines fs
  | [], gs, drawn => by
    cases drawn
    rfl
  | f :: fs, gs, drawn => by
    obtain ⟨g, rest, first, others, rfl⟩ := geometries_cons drawn
    simp only [Geometry.outlines, Function.outlines, outline_geometry f first,
      outlines_geometries fs others]

end

end DistanceField
