import DistanceField.Proofs.Lists
import DistanceField.Proofs.Text.Json
import DistanceField.Solid.Params

/-! Parameters are read back from the JSON that they are written as. -/
namespace DistanceField

open Double Decimal Json.Reader

theorem returns_paramJson (v : Float) : Returns (paramJson v) := by
  cases look : view v with
  | nan =>
    rw [paramJson, look, text, look]
    exact returns_string (Utf8.isValid_single (by decide +kernel))
  | infinite negative =>
    rw [paramJson, look, text, look]
    cases negative with
    | false => exact returns_string (Utf8.isValid_single (by decide +kernel))
    | true => exact returns_string (Utf8.isValid_single (by decide +kernel))
  | finite negative m e =>
    rw [paramJson, look, text_finite look]
    exact returns_number negative (unsigned_write (fits_of_view look) plain)

theorem overflow_paramJson (v : Float) : Json.overflow? (paramJson v) = none := by
  unfold paramJson
  split
  · rw [Json.overflow?, double_text]
    rfl
  · rfl

namespace Params

theorem value_paramJson (name : Bytes) (v : Float) : value name (paramJson v) = .ok v := by
  unfold paramJson
  split
  · rw [value, double_text]
  · rw [value, double_text]

def entry (p : Bytes × Float) : Bytes × Json := (p.1, paramJson p.2)

theorem fill_entries (new ps old : Params) :
    fill new (ps.map entry) old = .ok (new ++ ps) old := by
  induction ps generalizing new with
  | nil => simp [fill, pure, EStateM.pure]
  | cons p ps ih =>
    rw [List.map_cons, entry, fill, value_paramJson]
    dsimp only
    rw [ih, List.append_assoc]
    rfl

/-- The receiver waits until all fields have their values. -/
theorem fill_keeps (new : Params) (fields : List (Bytes × Json)) (old : Params) :
    (∃ ps, fill new fields old = .ok ps old) ∨ ∃ e, fill new fields old = .error e old := by
  induction fields generalizing new with
  | nil => exact .inl ⟨new, rfl⟩
  | cons f fields ih =>
    obtain ⟨n, j⟩ := f
    rw [fill]
    cases value n j with
    | error e => exact .inr ⟨e, rfl⟩
    | ok v => exact ih _

theorem sortedParams_entries (ps : Params) :
    Geometry.sortedParams (ps.map entry) = (Geometry.sortedParams ps).map entry := by
  have order : ∀ a ∈ ps, ∀ b ∈ ps,
      (!Bytes.before b.1 a.1) = !Bytes.before (entry b).1 (entry a).1 := fun _ _ _ _ => rfl
  exact (List.map_mergeSort order).symm

theorem sortedParams_perm {α : Type} (ps : List (Bytes × α)) : (Geometry.sortedParams ps).Perm ps :=
  List.mergeSort_perm ps _

theorem toJson_eq (ps : Params) :
    toJson ps = (Json.object ((Geometry.sortedParams ps).map entry)).compact := rfl

theorem read_toJson {ps : Params} (valid : ∀ p ∈ ps, Utf8.isValid p.1 = true) :
    Json.read? (toJson ps) = some (.object ((Geometry.sortedParams ps).map entry)) := by
  rw [toJson_eq]
  apply Json.read_object
  · intro f found
    obtain ⟨p, inside, rfl⟩ := List.mem_map.mp found
    exact ⟨valid p ((sortedParams_perm ps).mem_iff.mp inside), returns_paramJson p.2⟩
  · intro f found
    obtain ⟨p, inside, rfl⟩ := List.mem_map.mp found
    exact overflow_paramJson p.2

theorem receive_toJson {ps : Params} (names : (ps.map Prod.fst).Nodup)
    (valid : ∀ p ∈ ps, Utf8.isValid p.1 = true) (old : Params) :
    (receive (toJson ps)).run old = .ok () (Geometry.sortedParams (Geometry.sortedParams ps)) := by
  have keys : (((Geometry.sortedParams ps).map entry).map Prod.fst).Nodup := by
    have same : ((Geometry.sortedParams ps).map entry).map Prod.fst =
        (Geometry.sortedParams ps).map Prod.fst := by
      rw [List.map_map]
      rfl
    rw [same]
    exact ((sortedParams_perm ps).map Prod.fst).nodup_iff.mpr names
  unfold receive
  rw [read_toJson valid]
  dsimp only
  rw [Json.distinct_of_nodup keys, sortedParams_entries]
  show (fill [] _ >>= fun new => set new) old = _
  simp only [bind, EStateM.bind, fill_entries]
  rfl

theorem receive_fails {text : Bytes} {old left : Params} {e : Error}
    (fails : (receive text).run old = .error e left) : left = old := by
  unfold receive EStateM.run at fails
  cases look : Json.read? text with
  | none =>
    rw [look] at fails
    cases fails
    rfl
  | some j =>
    rw [look] at fails
    cases j with
    | null => cases fails
    | bool | number | string | array =>
      cases fails
      rfl
    | object fields =>
      simp only [bind, EStateM.bind] at fails
      rcases fill_keeps [] (Geometry.sortedParams (Json.distinct fields)) old with
        ⟨ps, filled⟩ | ⟨e, filled⟩
      · rw [filled] at fails
        cases fails
      · rw [filled] at fails
        cases fails
        rfl

/-- Parameters whose names are valid texts come back from what they are written as, whatever their
values are and whatever the receiver held; a text that cannot be read leaves the receiver alone. -/
theorem params_survive {ps : Params} (names : (ps.map Prod.fst).Nodup)
    (valid : ∀ p ∈ ps, Utf8.isValid p.1 = true) (old : Params) :
    (∃ new, (receive (toJson ps)).run old = .ok () new ∧ new.Perm ps ∧
      ∀ name, new.lookup name = ps.lookup name) ∧
    ∀ text e left, (receive text).run old = .error e left → left = old := by
  refine ⟨⟨_, receive_toJson names valid old, ?_⟩, fun text e left => receive_fails⟩
  have perm : (Geometry.sortedParams (Geometry.sortedParams ps)).Perm ps :=
    (sortedParams_perm _).trans (sortedParams_perm ps)
  exact ⟨perm, fun name => (lookup_perm names perm.symm name).symm⟩

def odd : Params :=
  [("\"é<", -0), ("", infinity), ("a", nan), ("b", -infinity), ("c", 1e-7), ("\n", 0.1)]

def torn : List (Bytes × Json) := [("a", .string "NaN"), ("b", .string "x")]

theorem odd_survive :
    ((odd.map Prod.fst).Nodup ∧ ∀ p ∈ odd, Utf8.isValid p.1 = true) ∧
    (∃ new, (receive (toJson odd)).run [("a", 1)] = .ok () new ∧ new.Perm odd ∧
      ∀ name, new.lookup name = odd.lookup name) ∧
    ∃ e, (receive (Json.object torn).compact).run [("a", 2)] = .error e [("a", 2)] := by
  have names : (odd.map Prod.fst).Nodup := by decide +kernel
  have valid : ∀ p ∈ odd, Utf8.isValid p.1 = true := by
    have every : (odd.map Prod.fst).all Utf8.isValid = true := by decide +kernel
    intro p found
    exact List.all_eq_true.mp every p.1 (List.mem_map_of_mem found)
  have fails : ∃ e left, (receive (Json.object torn).compact).run [("a", 2)] = .error e left := by
    have read : Json.read? (Json.object torn).compact = some (.object torn) := by
      apply Json.read_object
      · exact List.forall_mem_cons.mpr
          ⟨⟨by decide +kernel, returns_string (by decide +kernel)⟩, List.forall_mem_singleton.mpr
            ⟨by decide +kernel, returns_string (by decide +kernel)⟩⟩
      · exact List.forall_mem_cons.mpr ⟨rfl, List.forall_mem_singleton.mpr rfl⟩
    have sorted : Geometry.sortedParams (Json.distinct torn) = torn := by
      rw [Json.distinct_of_nodup (by decide +kernel)]
      exact List.mergeSort_of_pairwise (by decide +kernel)
    unfold receive
    rw [read]
    dsimp only
    rw [sorted]
    exact ⟨_, _, rfl⟩
  obtain ⟨e, left, look⟩ := fails
  refine ⟨⟨names, valid⟩, (params_survive names valid _).1, e, ?_⟩
  have kept := (params_survive names valid _).2 _ _ _ look
  rw [look, kept]

end Params

end DistanceField
