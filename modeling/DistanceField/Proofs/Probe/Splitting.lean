import DistanceField.Proofs.Probe.Spelling
import DistanceField.Probe.Program

/-! Definitions written one behind the other are found where they stand. -/
namespace DistanceField.Probe

/-- A definition under a name, without a semicolon in its body. -/
structure Clean (d : Definition) : Prop where
  word : ∀ b ∈ d.name, Definition.isWord b = true
  some : d.name ≠ []
  body : ∀ b ∈ d.body, b ≠ 59

def texts (ds : List Definition) : Bytes := ds.flatMap Definition.write

theorem texts_cons (d : Definition) (ds : List Definition) :
    texts (d :: ds) = d.write ++ texts ds := List.flatMap_cons

theorem after_append (start rest : Bytes) : Bytes.after? start (start ++ rest) = some rest := by
  have starts : start.isPrefixOf (start ++ rest) = true :=
    List.isPrefixOf_iff_prefix.mpr (List.prefix_append start rest)
  rw [Bytes.after?, if_pos starts, List.drop_left]

theorem first_write {d : Definition} (clean : Clean d) (rest : Bytes) :
    Definition.first? (d.write ++ rest) = some (d, rest) := by
  let behind := d.body ++ (Definition.tail ++ rest)
  have text : d.write ++ rest = Definition.head ++ (d.name ++ (Definition.middle ++ behind)) := by
    simp only [behind, Definition.write, List.append_assoc]
  have name : (d.name ++ (Definition.middle ++ behind)).takeWhile Definition.isWord = d.name := by
    refine (takeWhile_stop clean.word fun c first => ?_).1
    cases first
    rfl
  have body : behind.takeWhile (· != 59) = d.body := by
    refine (takeWhile_stop (fun b found => bne_iff_ne.mpr (clean.body b found)) fun c first => ?_).1
    cases first
    rfl
  have filled : d.name.isEmpty = false := List.isEmpty_eq_false_iff.mpr clean.some
  rw [text, Definition.first?, after_append]
  simp only [Option.bind_eq_bind, Option.bind_some, name, filled, Bool.false_eq_true, if_false,
    List.drop_left, after_append, body]
  rw [List.drop_left, after_append]
  rfl

theorem write_eq_cons (d : Definition) : ∃ text, d.write = 102 :: text := ⟨_, rfl⟩

theorem search_taken (taken : Bytes) (offset : Nat) (rest : Bytes) :
    Definition.search taken.length offset (taken ++ rest) =
      Definition.search 0 (offset + taken.length) rest := by
  induction taken generalizing offset with
  | nil => rfl
  | cons c taken ih =>
    have next := ih (offset + 1)
    rw [Nat.add_right_comm] at next
    exact next

theorem search_write {d : Definition} (clean : Clean d) (offset : Nat) (rest : Bytes) :
    Definition.search 0 offset (d.write ++ rest) = ⟨offset, offset + d.write.length, d⟩ ::
      Definition.search 0 (offset + d.write.length) rest := by
  have first := first_write clean rest
  obtain ⟨text, written⟩ := write_eq_cons d
  have behind := search_taken text (offset + 1) rest
  have length : offset + 1 + text.length = offset + (text.length + 1) := by omega
  rw [length] at behind
  rw [written, List.cons_append] at first ⊢
  simp only [Definition.search, first, written, List.length_cons, Nat.add_sub_cancel, behind]

/-- Where some definitions stand that follow each other from `offset` on. -/
def laid (offset : Nat) : List Definition → List Definition.Site
  | [] => []
  | d :: ds => ⟨offset, offset + d.write.length, d⟩ :: laid (offset + d.write.length) ds

theorem laid_definitions (ds : List Definition) (offset : Nat) :
    (laid offset ds).map (·.definition) = ds := by
  induction ds generalizing offset with
  | nil => rfl
  | cons d ds ih => rw [laid, List.map_cons, ih]

theorem search_texts {ds : List Definition} (all : ∀ d ∈ ds, Clean d) (offset : Nat) (rest : Bytes) :
    Definition.search 0 offset (texts ds ++ rest) =
      laid offset ds ++ Definition.search 0 (offset + (texts ds).length) rest := by
  induction ds generalizing offset with
  | nil => rfl
  | cons d ds ih =>
    obtain ⟨clean, later⟩ := List.forall_mem_cons.mp all
    rw [texts_cons, List.append_assoc, search_write clean, ih later, laid, List.length_append,
      Nat.add_assoc, List.cons_append]

theorem uncovered_laid (length : Nat) (ds : List Definition) (offset : Nat)
    (more : List Definition.Site) :
    Definition.uncovered? length offset (laid offset ds ++ more) =
      Definition.uncovered? length (offset + (texts ds).length) more := by
  induction ds generalizing offset with
  | nil => rfl
  | cons d ds ih =>
    rw [laid, List.cons_append, Definition.uncovered?, if_pos (beq_self_eq_true offset), ih, texts_cons,
      List.length_append, Nat.add_assoc]

theorem repeated_eq_none {ds : List Definition} {seen : List Bytes}
    (distinct : (ds.map (·.name)).Nodup) (fresh : ∀ d ∈ ds, d.name ∉ seen) :
    Definition.repeated? ds seen = none := by
  induction ds generalizing seen with
  | nil => rfl
  | cons d ds ih =>
    obtain ⟨new, later⟩ := List.forall_mem_cons.mp fresh
    obtain ⟨other, distinct⟩ := List.nodup_cons.mp distinct
    rw [Definition.repeated?, if_neg (by simpa using new)]
    refine ih distinct fun e found => ?_
    rw [List.mem_cons, not_or]
    refine ⟨?_, later e found⟩
    intro same
    exact other (List.mem_map.mpr ⟨e, found, same⟩)

/-- Nothing but definitions is found and covered whole. -/
theorem searched_texts {ds : List Definition} (some : ds ≠ []) (all : ∀ d ∈ ds, Clean d) :
    Definition.search 0 0 (texts ds) = laid 0 ds ∧ (laid 0 ds).isEmpty = false ∧
      Definition.uncovered? (texts ds).length 0 (laid 0 ds) = none := by
  refine ⟨?_, ?_, ?_⟩
  · have found := search_texts all 0 []
    rwa [List.append_nil, Definition.search, List.append_nil] at found
  · cases ds with
    | nil => exact absurd rfl some
    | cons d ds => rfl
  · have covered := uncovered_laid (texts ds).length ds 0 []
    rw [List.append_nil, Nat.zero_add] at covered
    rw [covered, Definition.uncovered?, if_pos (beq_self_eq_true _)]

theorem definitionsOf_texts {ds : List Definition} (some : ds ≠ []) (all : ∀ d ∈ ds, Clean d)
    (distinct : (ds.map (·.name)).Nodup) : Program.definitionsOf (texts ds) = .ok ds := by
  obtain ⟨found, filled, covered⟩ := searched_texts some all
  have none := repeated_eq_none distinct fun d _ => List.not_mem_nil (a := d.name)
  simp only [Program.definitionsOf, found, filled, covered, laid_definitions, none]
  rfl

end DistanceField.Probe
