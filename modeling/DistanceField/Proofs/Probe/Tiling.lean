import DistanceField.Proofs.Probe.Splitting

/-! A text is split exactly when it is written definitions and nothing else, and else the split fails
where the definitions from its start on end. -/
namespace DistanceField.Probe

open Definition

structure Tiles (ds : List Definition) (code : Bytes) : Prop where
  some : ds ≠ []
  clean : ∀ d ∈ ds, Clean d
  distinct : (ds.map (·.name)).Nodup
  text : code = texts ds

def Occurs (code : Bytes) : Prop := ∃ before d behind, Clean d ∧ code = before ++ d.write ++ behind

/-- The errors of a text that is not made of definitions. -/
def Error.IsSyntax : Error → Prop
  | .noDefinitions | .unexpectedText _ | .definedTwice _ => True
  | _ => False

theorem after_eq_some {start b rest : Bytes} (found : Bytes.after? start b = some rest) :
    b = start ++ rest := by
  unfold Bytes.after? at found
  split at found
  · rename_i starts
    obtain ⟨behind, rfl⟩ := List.isPrefixOf_iff_prefix.mp starts
    cases found
    rw [List.drop_left]
  · cases found

theorem first_sound {code rest : Bytes} {d : Definition} (found : first? code = some (d, rest)) :
    Clean d ∧ code = d.write ++ rest := by
  simp only [first?, Option.bind_eq_bind, Option.bind_eq_some_iff, Option.ite_none_left_eq_some,
    List.isEmpty_iff, Option.some.injEq] at found
  obtain ⟨named, starts, filled, opened, calls, behind, closes, result⟩ := found
  cases result
  have name := List.prefix_iff_eq_append.mp (List.takeWhile_prefix isWord (l := named))
  have body := List.prefix_iff_eq_append.mp (List.takeWhile_prefix (· != 59) (l := opened))
  rw [after_eq_some calls] at name
  rw [after_eq_some closes] at body
  constructor
  · exact ⟨fun b found => List.mem_takeWhile_imp found, filled,
      fun b found => bne_iff_ne.mp (List.mem_takeWhile_imp (p := (· != 59)) found)⟩
  · calc code = head ++ named := after_eq_some starts
      _ = head ++ (named.takeWhile isWord ++ (middle ++ opened)) := by rw [name]
      _ = head ++ (named.takeWhile isWord ++
          (middle ++ (opened.takeWhile (· != 59) ++ (tail ++ rest)))) := by rw [body]
      _ = write ⟨named.takeWhile isWord, opened.takeWhile (· != 59)⟩ ++ rest := by
        simp only [write, List.append_assoc]

theorem first_none {code : Bytes} (none : first? code = none) {d : Definition} (clean : Clean d)
    (rest : Bytes) : code ≠ d.write ++ rest := by
  rintro rfl
  rw [first_write clean] at none
  cases none

theorem tiles_then (code : Bytes) :
    ∃ ds rest, (∀ d ∈ ds, Clean d) ∧ code = texts ds ++ rest ∧ first? rest = none := by
  induction long : code.length using Nat.strong_induction_on generalizing code with
  | _ n ih =>
    cases found : first? code with
    | none => exact ⟨[], code, by simp, rfl, found⟩
    | some step =>
      obtain ⟨d, behind⟩ := step
      obtain ⟨clean, split⟩ := first_sound found
      have shorter : behind.length < n := by
        obtain ⟨text, written⟩ := write_eq_cons d
        rw [← long, split, written, List.cons_append, List.length_cons, List.length_append]
        omega
      obtain ⟨ds, rest, all, tiled, stops⟩ := ih _ shorter behind rfl
      refine ⟨d :: ds, rest, List.forall_mem_cons.mpr ⟨clean, all⟩, ?_, stops⟩
      rw [texts_cons, List.append_assoc, ← tiled, split]

theorem search_starts (code : Bytes) (taken offset : Nat) :
    ∀ s ∈ search taken offset code, offset ≤ s.start := by
  induction code generalizing taken offset with
  | nil => simp [search]
  | cons c rest ih =>
    intro s found
    cases taken with
    | succ n => exact Nat.le_of_succ_le (ih n (offset + 1) s found)
    | zero =>
      rw [search] at found
      split at found
      · exact Nat.le_of_succ_le (ih 0 (offset + 1) s found)
      · rcases List.mem_cons.mp found with rfl | later
        · exact Nat.le_refl offset
        · exact Nat.le_of_succ_le (ih _ (offset + 1) s later)

theorem uncovered_here {rest : Bytes} (stops : first? rest = none) (some : rest ≠ []) (offset : Nat) :
    uncovered? (offset + rest.length) offset (search 0 offset rest) = .some offset := by
  cases rest with
  | nil => exact absurd rfl some
  | cons c rest =>
    have later := search_starts rest 0 (offset + 1)
    simp only [search, stops]
    cases found : search 0 (offset + 1) rest with
    | nil => simp [uncovered?]
    | cons s sites =>
      have start := later s (found ▸ List.mem_cons_self)
      have apart : (s.start == offset) = false := beq_eq_false_iff_ne.mpr (by omega)
      rw [uncovered?, apart]
      rfl

theorem search_occurs {code : Bytes} (occurs : Occurs code) (offset : Nat) :
    search 0 offset code ≠ [] := by
  obtain ⟨before, d, behind, clean, rfl⟩ := occurs
  induction before generalizing offset with
  | nil =>
    rw [List.nil_append, search_write clean]
    exact List.cons_ne_nil _ _
  | cons c before ih =>
    simp only [List.cons_append, search]
    split
    · exact ih (offset + 1)
    · exact List.cons_ne_nil _ _

theorem search_nil {code : Bytes} (none : ¬ Occurs code) (offset : Nat) :
    search 0 offset code = [] := by
  induction code generalizing offset with
  | nil => rfl
  | cons c rest ih =>
    cases found : first? (c :: rest) with
    | none =>
      simp only [search, found]
      apply ih
      rintro ⟨before, d, behind, clean, rfl⟩
      exact none ⟨c :: before, d, behind, clean, rfl⟩
    | some step =>
      obtain ⟨clean, text⟩ := first_sound found
      exact absurd ⟨[], step.1, step.2, clean, text⟩ none

theorem texts_append (ds es : List Definition) : texts (ds ++ es) = texts ds ++ texts es :=
  List.flatMap_append

/-- Definitions at the start of a text are the first of those that the text has from there on. -/
theorem texts_front {ds es : List Definition} (all : ∀ d ∈ ds, Clean d) (others : ∀ e ∈ es, Clean e)
    {rest more : Bytes} (stops : first? rest = none) (same : texts ds ++ rest = texts es ++ more) :
    es <+: ds := by
  induction es generalizing ds with
  | nil => exact List.nil_prefix
  | cons e es ih =>
    obtain ⟨clean, laterEs⟩ := List.forall_mem_cons.mp others
    rw [texts_cons e, List.append_assoc] at same
    cases ds with
    | nil => exact absurd same (first_none stops clean _)
    | cons d ds =>
      obtain ⟨own, laterDs⟩ := List.forall_mem_cons.mp all
      rw [texts_cons, List.append_assoc] at same
      have first := first_write own (texts ds ++ rest)
      rw [same, first_write clean, Option.some.injEq, Prod.mk.injEq] at first
      obtain ⟨rfl, behind⟩ := first
      exact List.cons_prefix_cons.mpr ⟨rfl, ih laterDs laterEs behind.symm⟩

theorem nodup_of_repeated_none {ds : List Definition} {seen : List Bytes}
    (none : repeated? ds seen = none) :
    (ds.map (·.name)).Nodup ∧ ∀ d ∈ ds, d.name ∉ seen := by
  induction ds generalizing seen with
  | nil => simp
  | cons d ds ih =>
    rw [repeated?] at none
    split at none
    · cases none
    · rename_i new
      obtain ⟨distinct, fresh⟩ := ih none
      rw [List.map_cons, List.nodup_cons, List.forall_mem_cons]
      refine ⟨⟨?_, distinct⟩, by simpa using new, fun e found seen => ?_⟩
      · rw [List.mem_map]
        rintro ⟨e, found, same⟩
        exact fresh e found (same ▸ List.mem_cons_self)
      · exact fresh e found (List.mem_cons_of_mem _ seen)

inductive Split (code : Bytes) : Except Error (List Definition) → Prop where
  | empty (none : ¬ Occurs code) : Split code (.error .noDefinitions)
  | torn {ds : List Definition} {rest : Bytes} (occurs : Occurs code) (clean : ∀ d ∈ ds, Clean d)
      (text : code = texts ds ++ rest) (stops : first? rest = none) (some : rest ≠ []) :
      Split code (.error (.unexpectedText (texts ds).length))
  | doubled {ds : List Definition} {name : Bytes} (clean : ∀ d ∈ ds, Clean d)
      (text : code = texts ds) (twice : ¬ (ds.map (·.name)).Nodup) :
      Split code (.error (.definedTwice name))
  | tiled {ds : List Definition} (tiles : Tiles ds code) : Split code (.ok ds)

theorem definitionsOf_empty {code : Bytes} (none : ¬ Occurs code) :
    Program.definitionsOf code = .error .noDefinitions := by
  simp only [Program.definitionsOf, search_nil none]
  rfl

theorem definitionsOf_torn {ds : List Definition} {rest : Bytes} (occurs : Occurs (texts ds ++ rest))
    (all : ∀ d ∈ ds, Clean d) (stops : first? rest = none) (some : rest ≠ []) :
    Program.definitionsOf (texts ds ++ rest) = .error (.unexpectedText (texts ds).length) := by
  have found := search_occurs occurs 0
  have open' : uncovered? (texts ds ++ rest).length 0 (search 0 0 (texts ds ++ rest)) =
      .some (texts ds).length := by
    rw [search_texts all, uncovered_laid, List.length_append, Nat.zero_add]
    exact uncovered_here stops some _
  simp only [Program.definitionsOf, List.isEmpty_eq_false_iff.mpr found, open']
  rfl

theorem definitionsOf_repeated {ds : List Definition} (some : ds ≠ []) (all : ∀ d ∈ ds, Clean d)
    {name : Bytes} (twice : repeated? ds [] = .some name) :
    Program.definitionsOf (texts ds) = .error (.definedTwice name) := by
  obtain ⟨found, filled, covered⟩ := searched_texts some all
  simp only [Program.definitionsOf, found, filled, covered, laid_definitions, twice]
  rfl

theorem definitionsOf_split (code : Bytes) : Split code (Program.definitionsOf code) := by
  by_cases occurs : Occurs code
  · obtain ⟨ds, rest, all, rfl, stops⟩ := tiles_then code
    cases rest with
    | cons c rest =>
      have some := List.cons_ne_nil c rest
      rw [definitionsOf_torn occurs all stops some]
      exact .torn occurs all rfl stops some
    | nil =>
      rw [List.append_nil] at occurs ⊢
      have some : ds ≠ [] := by
        rintro rfl
        exact search_occurs occurs 0 rfl
      cases twice : repeated? ds [] with
      | none =>
        have distinct := (nodup_of_repeated_none twice).1
        rw [definitionsOf_texts some all distinct]
        exact .tiled ⟨some, all, distinct, rfl⟩
      | some name =>
        rw [definitionsOf_repeated some all twice]
        refine .doubled all rfl fun distinct => ?_
        rw [repeated_eq_none distinct fun d _ => List.not_mem_nil (a := d.name)] at twice
        cases twice
  · rw [definitionsOf_empty occurs]
    exact .empty occurs

theorem texts_length_le {ds es : List Definition} (front : es <+: ds) :
    (texts es).length ≤ (texts ds).length := by
  obtain ⟨more, rfl⟩ := front
  rw [texts_append, List.length_append]
  exact Nat.le_add_right _ _

theorem bodies_ok {functions : List Bytes} {ds : List Definition}
    (all : ∀ d ∈ ds, Program.body? functions d ≠ none) :
    ∃ bs, Program.bodies functions ds = .ok bs ∧ bs.map (·.1) = ds.map (·.name) ∧
      List.Forall₂ (fun d b => Expr.read? d.body = some b.2) ds bs := by
  induction ds with
  | nil => exact ⟨[], rfl, rfl, .nil⟩
  | cons d ds ih =>
    obtain ⟨here, later⟩ := List.forall_mem_cons.mp all
    obtain ⟨e, body⟩ := Option.ne_none_iff_exists'.mp here
    obtain ⟨bs, rest, names, read⟩ := ih later
    have own : Expr.read? d.body = some e := by
      simp only [Program.body?, Option.bind_eq_bind, Option.bind_eq_some_iff, Option.pure_def,
        Option.some.injEq] at body
      obtain ⟨f, given, -, -, rfl⟩ := body
      exact given
    refine ⟨(d.name, e) :: bs, ?_, ?_, .cons own read⟩
    · rw [Program.bodies, body, rest]
      rfl
    · rw [List.map_cons, names, List.map_cons]

theorem bodies_bad {functions : List Bytes} {ds : List Definition}
    (bad : ∃ d ∈ ds, Program.body? functions d = none) :
    ∃ d ∈ ds, Program.body? functions d = none ∧
      Program.bodies functions ds = .error (.badBody d.name) := by
  induction ds with
  | nil => simp at bad
  | cons d ds ih =>
    cases body : Program.body? functions d with
    | none => exact ⟨d, List.mem_cons_self, body, by rw [Program.bodies, body]⟩
    | some e =>
      have later : ∃ d ∈ ds, Program.body? functions d = none := by
        obtain ⟨d', found, none⟩ := bad
        rcases List.mem_cons.mp found with rfl | found
        · rw [body] at none
          cases none
        · exact ⟨d', found, none⟩
      obtain ⟨d', found, none, fails⟩ := ih later
      refine ⟨d', List.mem_cons_of_mem d found, none, ?_⟩
      rw [Program.bodies, body, fails]
      rfl

theorem compile_of_error {code : Bytes} {e : Error} (fails : Program.definitionsOf code = .error e) :
    Program.compile code = .error e := by
  rw [Program.compile, fails]
  rfl

theorem compile_of_bodies {code : Bytes} {ds : List Definition}
    (split : Program.definitionsOf code = .ok ds) :
    Program.compile code = (Program.bodies (Program.callable ds) ds).map Program.mk := by
  rw [Program.compile, split]
  simp only [bind, Except.bind]
  cases Program.bodies (Program.callable ds) ds <;> rfl

theorem definitionsOf_eq_ok {code : Bytes} {ds : List Definition} :
    Program.definitionsOf code = .ok ds ↔ Tiles ds code := by
  constructor
  · intro passes
    have split := definitionsOf_split code
    rw [passes] at split
    cases split
    assumption
  · rintro ⟨some, clean, distinct, rfl⟩
    exact definitionsOf_texts some clean distinct

/-- Splitting passes for nothing but written definitions under distinct names, and then their bodies are
what is read; all other texts are refused as malformed, and one that holds a definition but more than
definitions, behind its longest front of definitions. -/
theorem compile_splits (code : Bytes) :
    (∀ ds, Program.definitionsOf code = .ok ds ↔ Tiles ds code) ∧
    (∀ ds, Tiles ds code → (∀ d ∈ ds, Program.body? (Program.callable ds) d ≠ none) →
      ∃ p, Program.compile code = .ok p ∧ p.functions = ds.map (·.name) ∧
        List.Forall₂ (fun d f => Expr.read? d.body = some f.2) ds p.definitions) ∧
    (∀ ds, Tiles ds code → (∃ d ∈ ds, Program.body? (Program.callable ds) d = none) →
      ∃ d ∈ ds, Program.body? (Program.callable ds) d = none ∧
        Program.compile code = .error (.badBody d.name)) ∧
    ((¬ ∃ ds, Tiles ds code) → ∃ e, Program.compile code = .error e ∧ e.IsSyntax) ∧
    (Occurs code → (¬ ∃ ds, (∀ d ∈ ds, Clean d) ∧ code = texts ds) →
      ∃ n, Program.compile code = .error (.unexpectedText n) ∧
        IsGreatest {n | ∃ ds, (∀ d ∈ ds, Clean d) ∧ texts ds <+: code ∧ n = (texts ds).length} n) := by
  refine ⟨fun ds => definitionsOf_eq_ok, fun ds tiles all => ?_, fun ds tiles bad => ?_,
    fun none => ?_, fun occurs torn => ?_⟩
  · obtain ⟨bs, bodies, names, read⟩ := bodies_ok all
    refine ⟨⟨bs⟩, ?_, names, read⟩
    rw [compile_of_bodies (definitionsOf_eq_ok.mpr tiles), bodies]
    rfl
  · obtain ⟨d, found, none, fails⟩ := bodies_bad bad
    refine ⟨d, found, none, ?_⟩
    rw [compile_of_bodies (definitionsOf_eq_ok.mpr tiles), fails]
    rfl
  · have split := definitionsOf_split code
    generalize passes : Program.definitionsOf code = outcome at split
    cases split with
    | empty | torn | doubled => exact ⟨_, compile_of_error passes, trivial⟩
    | tiled tiles => exact absurd ⟨_, tiles⟩ none
  · have split := definitionsOf_split code
    generalize passes : Program.definitionsOf code = outcome at split
    cases split with
    | empty none => exact absurd occurs none
    | doubled clean text => exact absurd ⟨_, clean, text⟩ torn
    | tiled tiles => exact absurd ⟨_, tiles.clean, tiles.text⟩ torn
    | @torn ds rest _ clean text stops =>
      refine ⟨_, compile_of_error passes, ⟨ds, clean, ⟨rest, text.symm⟩, rfl⟩, ?_⟩
      rintro n ⟨es, others, ⟨more, front⟩, rfl⟩
      exact texts_length_le (texts_front clean others stops (text.symm.trans front.symm))

def ramp : Definition := ⟨"f0", "p.x+1"⟩

def ramped : Definition := ⟨"de", "f0(p)"⟩

def spaced : Bytes := texts [ramp] ++ 32 :: texts [ramped]

theorem clean_ramp : Clean ramp := ⟨by decide +kernel, by decide, by decide +kernel⟩

theorem tiles_ramps : Tiles [ramp, ramped] (texts [ramp, ramped]) := by
  have last : Clean ramped := ⟨by decide +kernel, by decide, by decide +kernel⟩
  exact ⟨by simp, by simp [clean_ramp, last], by decide, rfl⟩

theorem spaced_torn : ¬ ∃ ds, (∀ d ∈ ds, Clean d) ∧ spaced = texts ds := by
  rintro ⟨ds, clean, text⟩
  have stops : first? (32 :: texts [ramped]) = none := rfl
  have front := texts_front (by simp [clean_ramp]) clean stops
    (text.trans (List.append_nil (texts ds)).symm)
  have short := texts_length_le front
  rw [← text, spaced, List.length_append, List.length_cons] at short
  omega

theorem ramps_split_spaced_torn :
    Tiles [ramp, ramped] (texts [ramp, ramped]) ∧
      (∃ p, Program.compile (texts [ramp, ramped]) = .ok p ∧ p.functions = ["f0", "de"]) ∧
      Occurs spaced ∧ ∃ n, Program.compile spaced = .error (.unexpectedText n) := by
  have occurs : Occurs spaced := ⟨[], ramp, _, clean_ramp, rfl⟩
  obtain ⟨-, passes, -⟩ := compile_splits (texts [ramp, ramped])
  obtain ⟨-, -, -, -, fails⟩ := compile_splits spaced
  obtain ⟨p, compiled, names, -⟩ := passes _ tiles_ramps (by decide +kernel)
  obtain ⟨n, refused, -⟩ := fails occurs spaced_torn
  exact ⟨tiles_ramps, ⟨p, compiled, names⟩, occurs, n, refused⟩

end DistanceField.Probe
