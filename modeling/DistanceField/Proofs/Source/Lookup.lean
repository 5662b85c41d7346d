import DistanceField.Proofs.Source.Places
import DistanceField.Proofs.Source.RoundTrip
import DistanceField.Source.Cursor

/-! The function that a cursor stands in: of those around it the innermost, and of two that meet at it
the first. -/
namespace DistanceField

/-- The functions that lie `n` levels deep in some others. -/
def generation : Nat → List Function → List Function
  | 0, fs => fs
  | n + 1, fs => fs.flatMap fun f => generation n f.operands

def Function.holds (cursor : Int) (f : Function) : Bool := f.span.contains cursor

/-- What is found of some functions: the first of the deepest ones around the cursor. -/
def Deepest (cursor : Int) (fs : List Function) : Option Function → Prop
  | none => ∀ n, (generation n fs).find? (·.holds cursor) = none
  | some f => ∃ n, (generation n fs).find? (·.holds cursor) = some f ∧
    ∀ m, n < m → (generation m fs).find? (·.holds cursor) = none

/-- A way down to what is found: from one of the functions through operands of operands. -/
structure Leads (fs path : List Function) (found : Option Function) : Prop where
  starts : ∀ f ∈ path.head?, f ∈ fs
  steps : path.IsChain fun f g => g ∈ f.operands
  ends : path.getLast? = found

section Descent

variable {cursor : Int} {f : Function} {fs path : List Function} {found : Option Function}

theorem Function.at?_eq (cursor : Int) (f : Function) :
    f.at? cursor = if f.holds cursor then (firstAt? cursor f.operands).or (some f) else none := by
  cases f
  rw [at?]
  rfl

theorem Function.path_eq (cursor : Int) (f : Function) :
    f.path cursor = f :: firstPath cursor f.operands := by
  cases f
  rw [path]
  rfl

theorem Leads.cons (leads : Leads f.operands path found) (member : f ∈ fs) :
    Leads fs (f :: path) (found.or (some f)) := by
  obtain ⟨starts, steps, rfl⟩ := leads
  refine ⟨?_, List.isChain_cons.mpr ⟨starts, steps⟩, ?_⟩
  · intro g first
    cases first
    exact member
  · rw [List.getLast?_cons]
    cases path.getLast? <;> rfl

theorem Leads.mono {gs : List Function} (leads : Leads fs path found) (sub : ∀ f ∈ fs, f ∈ gs) :
    Leads gs path found :=
  ⟨fun f first => sub f (leads.starts f first), leads.steps, leads.ends⟩

theorem leads_firstPath (cursor : Int) (fs : List Function) :
    Leads fs (Function.firstPath cursor fs) (Function.firstAt? cursor fs) := by
  induction fs using Function.firstPath.induct cursor fun f =>
      Leads f.operands (Function.firstPath cursor f.operands) (Function.firstAt? cursor f.operands) with
  | case1 name params operands span ih => exact ih
  | case2 => exact ⟨by simp [Function.firstPath], .nil, rfl⟩
  | case3 f rest here ih =>
    have first : f.at? cursor = (Function.firstAt? cursor f.operands).or (some f) := by
      rw [Function.at?_eq]
      exact if_pos here
    rw [Function.firstPath, if_pos here, Function.path_eq, Function.firstAt?, first, Option.or_assoc,
      Option.some_or]
    exact ih.cons List.mem_cons_self
  | case4 f rest away ih =>
    have first : f.at? cursor = none := by
      rw [Function.at?_eq]
      exact if_neg away
    rw [Function.firstPath, if_neg away, Function.firstAt?, first, Option.none_or]
    exact ih.mono fun g => List.mem_cons_of_mem f

/-- The search goes on in the first function around the cursor. -/
theorem firstAt?_eq (cursor : Int) (fs : List Function) :
    Function.firstAt? cursor fs = (fs.find? (·.holds cursor)).bind fun f =>
      (Function.firstAt? cursor f.operands).or (some f) := by
  induction fs with
  | nil => rfl
  | cons f fs ih =>
    rw [Function.firstAt?, Function.at?_eq, List.find?_cons]
    cases f.holds cursor with
    | true => rw [if_pos rfl, Option.or_assoc, Option.some_or, Option.bind_some]
    | false => simpa using ih

end Descent

section Depth

variable {Own : Function → Prop} {len cursor : Int} {f g : Function} {fs : List Function}

theorem holds_iff (within : f.span.Within len) :
    f.holds cursor = true ↔ f.span.min ≤ cursor ∧ cursor ≤ f.span.max := by
  have low := within.low
  have filled := within.filled
  simp only [Function.holds, Interval.contains, Interval.isEmpty, Bool.and_eq_true, Bool.not_eq_true',
    Bool.or_eq_false_iff, decide_eq_false_iff_not, decide_eq_true_eq]
  omega

/-- All that lies in a function lies strictly inside. -/
theorem Arranged.inside (arranged : Arranged Own len (.function f)) {n : Nat}
    (found : g ∈ generation n f.operands) :
    Arranged Own len (.function g) ∧ f.span.Around g.span := by
  induction n generalizing f with
  | zero =>
    cases arranged with
    | function _ _ _ operands _ inner => exact ⟨operands g found, inner g found⟩
  | succ n ih =>
    obtain ⟨h, member, deeper⟩ := List.mem_flatMap.mp found
    cases arranged with
    | function _ _ _ operands _ inner =>
      obtain ⟨below, around⟩ := ih (operands h member) deeper
      have outer := inner h member
      exact ⟨below, outer.begins.trans around.begins, around.ends.trans outer.ends⟩

theorem Arranged.misses (arranged : Arranged Own len (.function f))
    (border : cursor ≤ f.span.min ∨ f.span.max ≤ cursor) (n : Nat) :
    (generation n f.operands).find? (·.holds cursor) = none := by
  refine List.find?_eq_none.mpr fun g found holds => ?_
  obtain ⟨below, around⟩ := arranged.inside found
  have inside := (holds_iff below.within).mp holds
  have begins := around.begins
  have ends := around.ends
  omega

theorem Arranged.misses_of_outside (arranged : Arranged Own len (.function f))
    (outside : f.holds cursor = false) (n : Nat) :
    (generation n f.operands).find? (·.holds cursor) = none := by
  refine arranged.misses ?_ n
  have no : ¬ (f.span.min ≤ cursor ∧ cursor ≤ f.span.max) := by
    rw [← holds_iff arranged.within, outside]
    simp
  omega

theorem Ordered.pairwise (ordered : Ordered fs) (filled : ∀ f ∈ fs, f.span.min < f.span.max) :
    fs.Pairwise fun f g => f.span.max ≤ g.span.min := by
  induction fs with
  | nil => exact .nil
  | cons f fs ih =>
    obtain ⟨-, later⟩ := List.forall_mem_cons.mp filled
    obtain ⟨next, rest⟩ := List.isChain_cons.mp ordered
    have pairs := ih rest later
    refine List.pairwise_cons.mpr ⟨?_, pairs⟩
    cases fs with
    | nil => simp
    | cons g fs =>
      have first := next g rfl
      refine List.forall_mem_cons.mpr ⟨first, fun h found => ?_⟩
      have second := List.rel_of_pairwise_cons pairs found
      have wide := later g List.mem_cons_self
      omega

theorem find?_generation_none {n : Nat}
    (inside : ∀ f ∈ fs, (generation n f.operands).find? (·.holds cursor) = none) :
    (generation (n + 1) fs).find? (·.holds cursor) = none := by
  refine List.find?_eq_none.mpr fun g found => ?_
  obtain ⟨f, member, deeper⟩ := List.mem_flatMap.mp found
  exact List.find?_eq_none.mp (inside f member) g deeper

theorem find?_inner (all : ∀ f ∈ fs, Arranged Own len (.function f)) (ordered : Ordered fs)
    (first : fs.find? (·.holds cursor) = some f) (n : Nat) :
    (generation (n + 1) fs).find? (·.holds cursor) =
      (generation n f.operands).find? (·.holds cursor) := by
  have pairs := ordered.pairwise fun f member => (all f member).within.filled
  obtain ⟨holds, before, behind, rfl, outside⟩ := List.find?_eq_some_iff_append.mp first
  obtain ⟨earlier, others⟩ := List.forall_mem_append.mp all
  obtain ⟨own, later⟩ := List.forall_mem_cons.mp others
  have left : (generation (n + 1) before).find? (·.holds cursor) = none :=
    find?_generation_none fun g member =>
      (earlier g member).misses_of_outside (by simpa using outside g member) n
  have right : (generation (n + 1) behind).find? (·.holds cursor) = none := by
    refine find?_generation_none fun g member => ?_
    -- The cursor is not beyond the end of `f`, and so not beyond the begin of `g`.
    have meet := List.rel_of_pairwise_cons (List.pairwise_append.mp pairs).2.1 member
    have ends := ((holds_iff own.within).mp holds).2
    exact (later g member).misses (.inl (ends.trans meet)) n
  have whole : generation (n + 1) (before ++ f :: behind) =
      generation (n + 1) before ++ (generation n f.operands ++ generation (n + 1) behind) := by
    simp only [generation, List.flatMap_append, List.flatMap_cons]
  rw [whole, List.find?_append, List.find?_append, left, right, Option.none_or, Option.or_none]

theorem deepest_of_inner (all : ∀ f ∈ fs, Arranged Own len (.function f)) (ordered : Ordered fs)
    (inner : ∀ f ∈ fs, Deepest cursor f.operands (Function.firstAt? cursor f.operands)) :
    Deepest cursor fs (Function.firstAt? cursor fs) := by
  rw [firstAt?_eq]
  cases first : fs.find? (·.holds cursor) with
  | none =>
    intro n
    cases n with
    | zero => exact first
    | succ n =>
      have outside := List.find?_eq_none.mp first
      exact find?_generation_none fun f member =>
        (all f member).misses_of_outside (by simpa using outside f member) n
  | some f =>
    have below := inner f (List.mem_of_find?_eq_some first)
    have same := find?_inner all ordered first
    rw [Option.bind_some]
    cases found : Function.firstAt? cursor f.operands with
    | none =>
      rw [found] at below
      refine ⟨0, first, fun m deeper => ?_⟩
      obtain ⟨m, rfl⟩ := Nat.exists_eq_succ_of_ne_zero deeper.ne'
      exact (same m).trans (below m)
    | some g =>
      rw [found] at below
      obtain ⟨n, here, nothing⟩ := below
      refine ⟨n + 1, (same n).trans here, fun m deeper => ?_⟩
      obtain ⟨m, rfl⟩ := Nat.exists_eq_succ_of_ne_zero (Nat.ne_zero_of_lt deeper)
      exact (same m).trans (nothing m (Nat.lt_of_succ_lt_succ deeper))

theorem Arranged.deepest (arranged : Arranged Own len (.function f)) (cursor : Int) :
    Deepest cursor f.operands (Function.firstAt? cursor f.operands) := by
  generalize whole : Node.function f = e at arranged
  induction arranged generalizing f with
  | function _ _ _ operands _ _ _ ordered _ ih =>
    cases whole
    exact deepest_of_inner operands ordered fun g member => ih g member rfl
  | number | operator | root => cases whole

theorem Arranged.functions {i : Interval} (arranged : Arranged Own len (.root fs i)) :
    (∀ f ∈ fs, Arranged Own len (.function f)) ∧ Ordered fs := by
  cases arranged with
  | root _ _ _ functions ordered => exact ⟨functions, ordered⟩

theorem Deepest.none_iff {found : Option Function} (deepest : Deepest cursor fs found) :
    found = none ↔ ∀ n, ∀ f ∈ generation n fs, f.holds cursor = false := by
  cases found with
  | none =>
    refine ⟨fun _ n f member => ?_, fun _ => rfl⟩
    exact Bool.eq_false_of_not_eq_true (List.find?_eq_none.mp (deepest n) f member)
  | some f =>
    obtain ⟨n, here, -⟩ := deepest
    refine ⟨by simp, fun outside => ?_⟩
    have holds := List.find?_some here
    rw [outside n f (List.mem_of_find?_eq_some here)] at holds
    cases holds

theorem pairwise_generation (all : ∀ f ∈ fs, Arranged Own len (.function f)) (ordered : Ordered fs)
    (n : Nat) : (generation n fs).Pairwise fun f g => f.span.max ≤ g.span.min := by
  have pairs := ordered.pairwise fun f member => (all f member).within.filled
  induction n generalizing fs with
  | zero => exact pairs
  | succ n ih =>
    refine List.pairwise_flatMap.mpr ⟨fun f member => ?_, ?_⟩
    · cases all f member with
      | function _ _ _ operands _ _ _ inner =>
        exact ih operands inner (inner.pairwise fun g found => (operands g found).within.filled)
    · refine pairs.imp_of_mem fun {f g} first second apart h inside k within => ?_
      have ends := ((all f first).inside inside).2.ends
      have begins := ((all g second).inside within).2.begins
      omega

end Depth

section Levels

theorem functions_of_arithmetic {e : Node} (arithmetic : Arithmetic e) : e.functions = [] := by
  induction arithmetic with
  | number => rfl
  | operator _ _ _ ihl ihr => rw [Node.functions, ihl, ihr, List.append_nil]

theorem mem_generations {fs : List Function} {g : Function}
    (each : ∀ f ∈ fs, g ∈ f.functions ↔ g = f ∨ ∃ n, g ∈ generation n f.operands) :
    g ∈ functionsOf fs ↔ ∃ n, g ∈ generation n fs := by
  rw [Parser.mem_functionsOf]
  constructor
  · rintro ⟨f, member, within⟩
    rcases (each f member).mp within with rfl | ⟨n, deeper⟩
    · exact ⟨0, member⟩
    · exact ⟨n + 1, List.mem_flatMap.mpr ⟨f, member, deeper⟩⟩
  · rintro ⟨n, found⟩
    cases n with
    | zero => exact ⟨g, found, (each g found).mpr (.inl rfl)⟩
    | succ n =>
      obtain ⟨f, member, deeper⟩ := List.mem_flatMap.mp found
      exact ⟨f, member, (each f member).mpr (.inr ⟨n, deeper⟩)⟩

theorem Writable.mem_functions {f g : Function} (writable : Writable f) :
    g ∈ f.functions ↔ g = f ∨ ∃ n, g ∈ generation n f.operands := by
  induction writable with
  | @mk name params operands span _ given _ _ ih =>
    have none : paramFunctions params = [] := by
      refine List.eq_nil_iff_forall_not_mem.mpr fun h found => ?_
      obtain ⟨p, member, within⟩ := Parser.mem_paramFunctions.mp found
      rw [functions_of_arithmetic (given p member).2] at within
      cases within
    rw [Parser.functions_eq, List.mem_cons, Parser.inner, Function.params, none, List.nil_append,
      Function.operands, mem_generations ih]

end Levels

/-- The function at a cursor in an accepted text is the first of the deepest ones around it, and the
path leads there. Levels hold all functions, in the order of the text. -/
theorem lookup_deepest {strict : Bool} {source : Bytes} {d : Document}
    (accepted : (parse strict source).result = .ok d) (cursor : Int) :
    (∀ f, f ∈ d.functions ↔ ∃ n, f ∈ generation n d.operands) ∧
    (∀ n, (generation n d.operands).Pairwise fun f g => f.span.max ≤ g.span.min) ∧
    (d.functionAt? cursor = none ↔ ∀ f ∈ d.functions, f.span.contains cursor = false) ∧
    (∀ f, d.functionAt? cursor = some f → ∃ n,
      (generation n d.operands).find? (·.span.contains cursor) = some f ∧
      ∀ m, n < m → ∀ g ∈ generation m d.operands, g.span.contains cursor = false) ∧
    Leads d.operands (d.path cursor) (d.functionAt? cursor) ∧
    (d.path cursor = [] ↔ d.functionAt? cursor = none) := by
  obtain ⟨ts, scanned, read⟩ := parse_ok accepted
  obtain ⟨all, ordered⟩ := (parseTokens_arranges read (ground_of_scan scanned strict)).functions
  have levels (f : Function) : f ∈ d.functions ↔ ∃ n, f ∈ generation n d.operands :=
    mem_generations fun g member => ((parse_writable accepted).2 g member).mem_functions
  have deepest : Deepest cursor d.operands (d.functionAt? cursor) :=
    deepest_of_inner all ordered fun f member => (all f member).deepest cursor
  have leads : Leads d.operands (d.path cursor) (d.functionAt? cursor) := leads_firstPath cursor _
  refine ⟨levels, pairwise_generation all ordered, ?_, ?_, leads, ?_⟩
  · rw [deepest.none_iff]
    constructor
    · intro outside f member
      obtain ⟨n, here⟩ := (levels f).mp member
      exact outside n f here
    · intro outside n f here
      exact outside f ((levels f).mpr ⟨n, here⟩)
  · intro f found
    rw [found] at deepest
    obtain ⟨n, here, nothing⟩ := deepest
    refine ⟨n, here, fun m deeper g member => ?_⟩
    exact Bool.eq_false_of_not_eq_true (List.find?_eq_none.mp (nothing m deeper) g member)
  · rw [← leads.ends, List.getLast?_eq_none_iff]

/-- Where `d()` ends and `e` begins, it is `d` that is found. -/
theorem lookup_deepest_packed :
    ∃ d f, (parse false packed).result = .ok d ∧ d.functionAt? 36 = some f ∧ f.name = "d" ∧
      (∃ n, (generation n d.operands).find? (·.span.contains 36) = some f ∧
        ∀ m, n < m → ∀ g ∈ generation m d.operands, g.span.contains 36 = false) ∧
      Leads d.operands (d.path 36) (some f) := by
  have accepted : ((parse false packed).result.toOption.bind fun d =>
      (d.functionAt? 36).map Function.name) = some "d" := by decide +kernel
  cases read : (parse false packed).result with
  | error c =>
    rw [read] at accepted
    cases accepted
  | ok d =>
    rw [read] at accepted
    obtain ⟨f, found, named⟩ := Option.map_eq_some_iff.mp accepted
    obtain ⟨-, -, -, deepest, leads, -⟩ := lookup_deepest read 36
    exact ⟨d, f, rfl, found, named, deepest f found, found ▸ leads⟩

end DistanceField
