import DistanceField.Proofs.Source.RoundTrip
import DistanceField.Proofs.Source.Safety
import DistanceField.Solid.Printer

/-! A tree that is written piece by piece is written as one text: a sink takes of it what there is room
for, and the writing fails exactly when something is left. Indented JSON of solids that nest too deep is
not written at all. -/
namespace DistanceField

namespace Geometry

mutual

/-- How many solids stand in each other inside of this one. -/
def height : Geometry Float → Nat
  | .mk _ _ _ children => heights children

def heights : List (Geometry Float) → Nat
  | [] => 0
  | g :: rest => max (g.height + 1) (heights rest)

end

theorem deep_paramsJson (room : Nat) (ps : List (Bytes × Float)) :
    (paramsJson ps).deep? (room + 1) = none := by
  have flat : ∀ v, (paramJson v).deep? room = none := by
    intro v
    unfold paramJson
    split <;> rfl
  show Json.deepUnder room _ = none
  induction sortedParams ps with
  | nil => rfl
  | cons p rest ih => rw [List.map_cons, Json.deepUnder, flat, ih]; rfl

theorem deepUnder_append (room : Nat) (fs gs : List (Bytes × Json)) :
    Json.deepUnder room (fs ++ gs) = (Json.deepUnder room fs).or (Json.deepUnder room gs) := by
  induction fs with
  | nil => rfl
  | cons f fs ih => rw [List.cons_append, Json.deepUnder, Json.deepUnder, ih, Option.or_assoc]

mutual

/-- A solid takes two brackets, its own and the one around the solids inside. -/
theorem deep_json : (g : Geometry Float) → (room : Nat) →
    g.json.deep? (2 * room) = if g.height < room then none else some 123
  | .mk name shape params children, 0 => rfl
  | .mk name shape params children, room + 1 => by
    have own : Json.deepUnder (2 * room + 1) (Json.field "name" (.string name) ::
        if params.isEmpty then [] else [Json.field "params" (paramsJson params)]) = none := by
      split
      · rfl
      · show (Json.deep? _ (paramsJson params)).or none = none
        rw [deep_paramsJson]
        rfl
    show Json.deepUnder (2 * room + 1) (_ ++ _) = _
    rw [deepUnder_append, own, Option.none_or, height]
    simp only [Nat.lt_succ_iff]
    split
    · next leaf =>
      rw [List.isEmpty_iff.mp leaf]
      rfl
    · show (Json.deepIn (2 * room) (jsons children)).or none = _
      rw [deep_jsons children room, Option.or_none]

theorem deep_jsons : (gs : List (Geometry Float)) → (room : Nat) →
    Json.deepIn (2 * room) (jsons gs) = if heights gs ≤ room then none else some 123
  | [], _ => rfl
  | g :: gs, room => by
    rw [jsons, Json.deepIn, deep_json g room, deep_jsons gs room, heights]
    by_cases here : g.height < room
    · simp [here, Nat.succ_le_iff.mpr here]
    · have high : ¬ max (g.height + 1) (heights gs) ≤ room := by omega
      rw [if_neg here, if_neg high]
      rfl

end

theorem formatJson_eq (indent : Int) (g : Geometry Float) :
    g.formatJson indent =
      if 0 < indent ∧ 5000 ≤ g.height then .error (Json.Reader.tooDeep 123)
      else .ok ((if 0 < indent then g.json.indented indent.toNat 0 else g.json.compact) ++ "\n") := by
  have room : Json.Reader.maxDepth = 2 * 5000 := rfl
  unfold formatJson Json.pretty
  rw [room, deep_json]
  by_cases positive : 0 < indent
  · by_cases high : g.height < 5000
    · have fits : ¬ (0 < indent ∧ 5000 ≤ g.height) := fun deep => absurd deep.2 (Nat.not_le.mpr high)
      rw [if_pos positive, if_pos high, if_neg fits, if_pos positive]
      rfl
    · rw [if_pos positive, if_neg high, if_pos ⟨positive, Nat.not_lt.mp high⟩]
      rfl
  · rw [if_neg positive, if_neg positive, if_neg fun deep => positive deep.1]
    rfl

end Geometry

namespace Stream

open Grammar

section Pieces

variable {w : Writing} {s t : Sink} {a b : Bytes}

theorem andThen_done (done : w s = (.ok (), t)) (v : Writing) : (do w; v : Writing) s = v t := by
  simp only [bind, ExceptT.bind, ExceptT.mk, ExceptT.bindCont, StateT.bind, done]

theorem andThen_stopped {e : Stop} (failed : w s = (.error e, t)) (v : Writing) :
    (do w; v : Writing) s = (.error e, t) := by
  simp only [bind, ExceptT.bind, ExceptT.mk, ExceptT.bindCont, StateT.bind, failed]
  rfl

theorem put_fits (fits : s.accepted b = b) :
    put b s = (.ok (), { s with written := s.written ++ b }) := by
  simp [put, Sink.write, fits]

theorem put_cut (short : (s.accepted b).length < b.length) :
    put b s = (.error .full, { s with written := s.written ++ s.accepted b }) := by
  simp [put, Sink.write, short.ne]

theorem accepted_cases (s : Sink) (b : Bytes) :
    s.accepted b = b ∨ (s.accepted b).length < b.length := by
  obtain ⟨limit, written⟩ := s
  cases limit with
  | none => exact .inl rfl
  | some n =>
    rcases le_or_gt b.length (n - written.length) with fits | short
    · exact .inl (List.take_of_length_le fits)
    · refine .inr ?_
      simp only [Sink.accepted, List.length_take]
      omega

theorem accepted_behind (fits : s.accepted a = a) (b : Bytes) :
    s.accepted (a ++ b) = a ++ Sink.accepted { s with written := s.written ++ a } b := by
  obtain ⟨limit, written⟩ := s
  cases limit with
  | none => rfl
  | some n =>
    have room : a.length ≤ n - written.length := List.take_eq_self_iff a |>.mp fits
    simp only [Sink.accepted, List.length_append, List.take_append, List.take_of_length_le room]
    rw [Nat.sub_sub]

theorem accepted_before (short : (s.accepted a).length < a.length) (b : Bytes) :
    s.accepted (a ++ b) = s.accepted a := by
  obtain ⟨limit, written⟩ := s
  cases limit with
  | none => exact absurd short (lt_irrefl _)
  | some n =>
    have room : n - written.length < a.length := by
      simp only [Sink.accepted, List.length_take] at short
      omega
    exact List.take_append_of_le_length room.le

theorem put_nil : put [] = pure () := by
  funext s
  have fits : s.accepted [] = [] := (accepted_cases s []).resolve_right (Nat.not_lt_zero _)
  rw [put_fits fits, List.append_nil]
  rfl

/-- Two pieces are written as one. If the first does not fit, nothing of the second is written. -/
theorem put_append (a b : Bytes) : (do put a; put b) = put (a ++ b) := by
  funext s
  rcases accepted_cases s a with fits | short
  · have whole := accepted_behind fits b
    rw [andThen_done (put_fits fits)]
    rcases accepted_cases { s with written := s.written ++ a } b with also | cut
    · rw [put_fits also, put_fits (by rw [whole, also]), List.append_assoc]
    · rw [put_cut cut, put_cut (by simpa [whole] using cut), whole, List.append_assoc]
  · have same := accepted_before short b
    have longer : (s.accepted (a ++ b)).length < (a ++ b).length := by
      rw [same, List.length_append]
      omega
    rw [andThen_stopped (put_cut short), put_cut longer, same]

end Pieces

mutual

/-- The pieces of a tree make up its text. -/
theorem node_eq : (e : Node) → {depth : Nat} → {text : Bytes} → Dump.node depth e = .ok text →
    node depth e = put text
  | .missing, _, _, printed => by cases printed
  | .number v i, _, _, printed => by
    cases printed
    rfl
  | .operator op l r i, _, _, printed => by
    obtain ⟨a, left, more⟩ := bind_ok printed
    obtain ⟨b, right, same⟩ := bind_ok more
    cases same
    simp only [node, node_eq l left, node_eq r right, put_append, List.append_assoc]
  | .function f, _, _, printed => by
    rw [node]
    exact function_eq f printed
  | .root fs i, _, _, printed => by
    obtain ⟨a, inner, same⟩ := bind_ok printed
    cases same
    simp only [node, functions_eq fs inner, put_append]

theorem function_eq : (f : Function) → {depth : Nat} → {text : Bytes} →
    Dump.function depth f = .ok text → function depth f = put text
  | .mk name params operands i, _, _, printed => by
    obtain ⟨a, given, more⟩ := bind_ok printed
    obtain ⟨b, inner, same⟩ := bind_ok more
    cases same
    simp only [function, parameters_eq params given, functions_eq operands inner, put_append,
      List.append_assoc]

theorem parameters_eq : (ps : List (Bytes × Node)) → {depth : Nat} → {text : Bytes} →
    Dump.parameters depth ps = .ok text → parameters depth ps = put text
  | [], _, _, printed => by
    cases printed
    exact put_nil.symm
  | (name, value) :: ps, _, _, printed => by
    obtain ⟨a, first, more⟩ := bind_ok printed
    obtain ⟨b, rest, same⟩ := bind_ok more
    cases same
    simp only [parameters, node_eq value first, parameters_eq ps rest, put_append, List.append_assoc]

theorem functions_eq : (fs : List Function) → {depth : Nat} → {text : Bytes} →
    Dump.functions depth fs = .ok text → functions depth fs = put text
  | [], _, _, printed => by
    cases printed
    exact put_nil.symm
  | f :: fs, _, _, printed => by
    obtain ⟨a, first, more⟩ := bind_ok printed
    obtain ⟨b, rest, same⟩ := bind_ok more
    cases same
    simp only [functions, function_eq f first, functions_eq fs rest, put_append]

end

mutual

theorem call_eq (indent : Int) : (f : Function) → (depth : Nat) →
    call indent depth f = put (Formatter.function indent depth f)
  | .mk name params operands i, depth => by
    have inner := calls_eq indent operands (depth + 1)
    cases params <;> cases operands <;> simp [call, Formatter.function, inner, put_append]

theorem calls_eq (indent : Int) : (fs : List Function) → (depth : Nat) →
    calls indent depth fs = put (Formatter.functions indent depth fs)
  | [], _ => put_nil.symm
  | f :: fs, depth => by
    simp only [calls, Formatter.functions, call_eq indent f depth, calls_eq indent fs depth, put_append,
      List.append_assoc]

end

theorem topLevel_eq (indent : Int) (fs : List Function) :
    topLevel indent fs = put (Formatter.topLevel indent fs) := by
  induction fs with
  | nil => exact put_nil.symm
  | cons f fs ih =>
    cases fs with
    | nil => exact call_eq indent f 0
    | cons g gs => simp only [topLevel, Formatter.topLevel, call_eq, ih, put_append, List.append_assoc]

theorem format_eq (indent : Int) (d : Document) : format indent d = put (d.format indent) := by
  rw [format, topLevel_eq, put_append, Document.format]

inductive Form where
  | tree
  | source
  | json
  | yaml

namespace Form

variable {indent : Int} {d : Document} {g : Geometry Float} {form : Form}

def writing (indent : Int) (d : Document) (g : Geometry Float) : Form → Writing
  | tree => dump d
  | source => format indent d
  | json => putOr (g.formatJson indent)
  | yaml => put (g.formatYaml indent)

def text (indent : Int) (d : Document) (g : Geometry Float) : Form → Except Stop Bytes
  | tree => d.dump.mapError .malformed
  | source => .ok (d.format indent)
  | json => (g.formatJson indent).mapError .refused
  | yaml => .ok (g.formatYaml indent)

/-- JSON that is to be indented, of solids that nest too deep for that. -/
def TooDeep (indent : Int) (g : Geometry Float) : Form → Prop
  | json => 0 < indent ∧ 5000 ≤ g.height
  | _ => False

def deepest : Stop := .refused (Json.Reader.tooDeep 123)

theorem refused (deep : form.TooDeep indent g) :
    form.text indent d g = .error deepest ∧
      ∀ sink, run (form.writing indent d g) sink = (sink, some deepest) := by
  cases form with
  | json =>
    obtain ⟨positive, high⟩ := deep
    have failed : g.formatJson indent = .error (Json.Reader.tooDeep 123) := by
      rw [Geometry.formatJson_eq, if_pos ⟨positive, high⟩]
    rw [text, writing, failed]
    exact ⟨rfl, fun sink => rfl⟩
  | _ => exact deep.elim

theorem written (printed : ∃ text, d.dump = .ok text) (fits : ¬ form.TooDeep indent g) :
    ∃ b, form.text indent d g = .ok b ∧ form.writing indent d g = put b := by
  cases form with
  | tree =>
    obtain ⟨b, whole⟩ := printed
    exact ⟨b, by rw [text, whole]; rfl, node_eq d.node whole⟩
  | source => exact ⟨_, rfl, format_eq indent d⟩
  | json =>
    have shallow : ¬ (0 < indent ∧ 5000 ≤ g.height) := fits
    rw [text, writing, Geometry.formatJson_eq, if_neg shallow]
    exact ⟨_, rfl, rfl⟩
  | yaml => exact ⟨_, rfl, rfl⟩

end Form

def bare : Bytes := "a\x7bb()(c\x7b\x7d)\x7d"

section Nested

def tower : Nat → Function
  | 0 => .mk "a" [] [] .none
  | n + 1 => .mk "a" [] [tower n] .none

def nested (n : Nat) : Bytes := Document.format 0 ⟨[tower n], .none⟩

end Nested

end Stream

end DistanceField
