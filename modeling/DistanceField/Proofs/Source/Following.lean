import Mathlib.Tactic.Common
import DistanceField.Proofs.Source.Machine

/-! A step of the parsing machine and an outcome of the parser, side by side. The two look at the same
token for as long as what they see is the same, which are the tokens up to the first end of input. A step
follows an outcome when it ends as the outcome says; this goes through sequences, reads and advances. -/
namespace DistanceField

namespace Parser

open Outcome

theorem andThen_done {α β : Type} (a : α) (ts : List Token) (next : α → List Token → Outcome β) :
    (done a ts).andThen next = next a ts := by
  simp [Outcome.andThen, done]

theorem andThen_assoc {α β γ : Type} (o : Outcome α) (first : α → List Token → Outcome β)
    (second : β → List Token → Outcome γ) :
    (o.andThen first).andThen second = o.andThen fun a ts => (first a ts).andThen second := by
  obtain ⟨ws, r⟩ := o
  cases r with
  | error c => rfl
  | ok a =>
    simp only [Outcome.andThen]
    cases (first a.1 a.2).result with
    | error c => rfl
    | ok b => simp

def parameter (s : Setting) (n : Nat) (f : Function) (ts : List Token) : Outcome Function :=
  let t := s.peek ts
  let eq := s.peek ts.tail
  if t.kind != .identifier then fail (.noParameterName t.kind) t.span
  else if eq.kind != .assign then fail (.noAssign eq.kind) eq.span
  else (expression s n ts.tail.tail).andThen fun e ts =>
    match e.function? with
    | some g => fail (.functionInParameter g.name) g.span
    | none => (assign s f t e ts).andThen fun f ts =>
      let sep := s.peek ts
      if sep.kind == .rparen then done f ts
      else if sep.kind == .comma then done f ts.tail
      else fail .noSeparator sep.span

theorem parameters_round {s : Setting} {n : Nat} {f : Function} {ts : List Token}
    (more : (s.peek ts).kind ≠ .rparen) :
    parameters s (n + 1) f ts = (parameter s n f ts).andThen (parameters s n) := by
  rw [parameters, if_neg (by simpa using more), parameter]
  dsimp only
  split
  · rfl
  split
  · rfl
  rw [andThen_assoc]
  congr 1
  funext e us
  cases e.function? with
  | some g => rfl
  | none =>
    dsimp only
    rw [andThen_assoc]
    congr 1
    funext g vs
    split
    · rw [andThen_done]
    split
    · rw [andThen_done]
    · rfl

def operand (s : Setting) (n : Nat) (f : Function) (ts : List Token) : Outcome Function :=
  let t := s.peek ts
  if t.kind == .eof then fail .noClosingBrace t.span
  else (expression s n ts).andThen fun e ts =>
    match e with
    | .function g =>
      if (s.peek ts).kind == .eof then fail .noClosingBrace (s.peek ts).span
      else done ((f.addOperand g).cover g.span) ts
    | e => fail (.notGeometry e.describe) e.span

theorem operands_round {s : Setting} {n : Nat} {f : Function} {ts : List Token}
    (more : (s.peek ts).kind ≠ .rbrace) :
    operands s (n + 1) f ts = (operand s n f ts).andThen (operands s n) := by
  rw [operands, if_neg (by simpa using more), operand]
  split
  · rfl
  rw [andThen_assoc]
  congr 1
  funext e us
  cases e with
  | function g =>
    dsimp only
    split
    · rfl
    · rw [andThen_done]
  | _ => rfl

end Parser

namespace Machine

open DistanceField.Parser (Setting Outcome)

/-- What can be seen of some tokens: those before the first end of input, and where that stands. -/
def sight (finish : Token) : List Token → List Token × Interval
  | [] => ([], finish.span)
  | t :: ts =>
    if t.kind == .eof then ([], t.span) else (t :: (sight finish ts).1, (sight finish ts).2)

def view (p : Machine) : List Token × Interval :=
  sight (finishOf p.tokens) (p.tok :: p.tokens.drop p.pos)

def ahead (p : Machine) : Nat := p.view.1.length

section Sight

variable {finish : Token} {t : Token} {ts : List Token}

theorem sight_eof (is : t.kind = .eof) : sight finish (t :: ts) = ([], t.span) := by
  rw [sight, if_pos (by simpa using is)]

theorem sight_cons (other : t.kind ≠ .eof) :
    sight finish (t :: ts) = (t :: (sight finish ts).1, (sight finish ts).2) := by
  rw [sight, if_neg (by simpa using other)]

theorem sight_tokens (finish : Token) (ts : List Token) :
    (sight finish ts).1 = ts.takeWhile fun t => t.kind != .eof := by
  induction ts with
  | nil => rfl
  | cons t ts ih =>
    by_cases is : t.kind = .eof
    · simp [sight_eof is, is]
    · simp [sight_cons is, is, ih]

theorem sight_advanced (p : Machine) :
    p.advanced.view = sight (finishOf p.tokens) (p.tokens.drop p.pos) := by
  unfold view advanced
  dsimp only
  by_cases more : p.pos < p.tokens.length
  · rw [List.drop_eq_getElem_cons more]
    simp [List.getD, more]
  · have none : p.tokens.drop p.pos = [] := List.drop_eq_nil_of_le (by omega)
    have last : p.tokens.getD p.pos (finishOf p.tokens) = finishOf p.tokens := by
      simp [List.getD, List.getElem?_eq_none (Nat.le_of_not_lt more)]
    rw [last, none, sight_eof rfl, sight]

theorem view_pass {p : Machine} (proper : p.tok.kind ≠ .eof) :
    p.view = (p.tok :: p.advanced.view.1, p.advanced.view.2) := by
  rw [sight_advanced, view, sight_cons proper]

theorem ahead_pass {p : Machine} (proper : p.tok.kind ≠ .eof) : p.ahead = p.advanced.ahead + 1 := by
  rw [ahead, view_pass proper]
  rfl

end Sight

/-- The cursor goes forward only, and never over an end of input. -/
inductive Moves : Machine → Machine → Prop where
  | stay (p : Machine) : Moves p p
  | pass {p q : Machine} (proper : p.tok.kind ≠ .eof) (rest : Moves p.advanced q) : Moves p q
  | warn {p q : Machine} {w : Warning} (rest : Moves (p.warned w) q) : Moves p q

namespace Moves

variable {p q r : Machine}

theorem trans (first : Moves p q) (second : Moves q r) : Moves p r := by
  induction first with
  | stay => exact second
  | pass proper _ ih => exact .pass proper (ih second)
  | warn _ ih => exact .warn (ih second)

theorem tokens (moves : Moves p q) : q.tokens = p.tokens := by
  induction moves with
  | stay => rfl
  | pass _ _ ih | warn _ ih => exact ih

theorem strict (moves : Moves p q) : q.strict = p.strict := by
  induction moves with
  | stay => rfl
  | pass _ _ ih | warn _ ih => exact ih

theorem ahead (moves : Moves p q) : q.pos + q.ahead = p.pos + p.ahead := by
  induction moves with
  | stay => rfl
  | @pass p q proper _ ih =>
    have here := ahead_pass proper
    have next : p.advanced.pos = p.pos + 1 := rfl
    omega
  | warn _ ih => exact ih

end Moves

/-- The machine and a list of tokens look the same, up to the first end of input. -/
structure Faces (s : Setting) (p : Machine) (ts : List Token) : Prop where
  view : p.view = sight s.finish ts
  strict : p.strict = s.strict
  ends : s.finish.kind = .eof

namespace Faces

variable {s : Setting} {p q : Machine} {ts : List Token}

theorem cases (faces : Faces s p ts) :
    p.tok.kind = .eof ∧ (s.peek ts).kind = .eof ∧ (s.peek ts).span = p.tok.span ∨
      p.tok.kind ≠ .eof ∧ s.peek ts = p.tok ∧ Faces s p.advanced ts.tail := by
  obtain ⟨view, strict, ends⟩ := faces
  by_cases last : p.tok.kind = .eof
  · left
    rw [Machine.view, sight_eof last] at view
    cases ts with
    | nil => exact ⟨last, ends, (congrArg Prod.snd view).symm⟩
    | cons t ts =>
      by_cases is : t.kind = .eof
      · rw [sight_eof is] at view
        exact ⟨last, is, (congrArg Prod.snd view).symm⟩
      · rw [sight_cons is] at view
        cases congrArg Prod.fst view
  · right
    rw [view_pass last] at view
    cases ts with
    | nil => cases congrArg Prod.fst view
    | cons t ts =>
      by_cases is : t.kind = .eof
      · rw [sight_eof is] at view
        cases congrArg Prod.fst view
      · rw [sight_cons is] at view
        obtain ⟨front, place⟩ := Prod.mk.inj view
        obtain ⟨same, rest⟩ := List.cons.inj front
        exact ⟨last, same.symm, Prod.ext rest place, strict, ends⟩

theorem kind (faces : Faces s p ts) : (s.peek ts).kind = p.tok.kind := by
  rcases faces.cases with ⟨last, is, -⟩ | ⟨-, same, -⟩
  · rw [last, is]
  · rw [same]

theorem span (faces : Faces s p ts) : (s.peek ts).span = p.tok.span := by
  rcases faces.cases with ⟨-, -, place⟩ | ⟨-, same, -⟩
  · exact place
  · rw [same]

theorem tok (faces : Faces s p ts) (proper : p.tok.kind ≠ .eof) : s.peek ts = p.tok := by
  rcases faces.cases with ⟨last, -⟩ | ⟨-, same, -⟩
  · exact absurd last proper
  · exact same

theorem pass (faces : Faces s p ts) (proper : p.tok.kind ≠ .eof) : Faces s p.advanced ts.tail := by
  rcases faces.cases with ⟨last, -⟩ | ⟨-, -, rest⟩
  · exact absurd last proper
  · exact rest

theorem self (p : Machine) :
    Faces ⟨p.strict, finishOf p.tokens⟩ p (p.tok :: p.tokens.drop p.pos) := ⟨rfl, rfl, rfl⟩

end Faces

/-- A step of the machine ends as an outcome says, with the same warnings. Either both fail, or both
return the same and face the same tokens, the cursor being at least `k` tokens further. -/
inductive Follows {α : Type} (s : Setting) (k : Nat) (m : Step α) (p : Machine) (o : Outcome α) :
    Prop where
  | fail {c : Complaint} {q : Machine} (run : m p = some (.error c, q)) (moves : Moves p q)
      (warnings : q.warnings = p.warnings ++ o.warnings) (result : o.result = .error c)
  | done {a : α} {q : Machine} {rest : List Token} (run : m p = some (.ok a, q)) (moves : Moves p q)
      (warnings : q.warnings = p.warnings ++ o.warnings) (result : o.result = .ok (a, rest))
      (faces : Faces s q rest) (far : p.pos + k ≤ q.pos)

section Steps

variable {α β : Type} {s : Setting} {p : Machine} {ts : List Token} {j k : Nat}

theorem Follows.weaken {m : Step α} {o : Outcome α} (follows : Follows s k m p o) (less : j ≤ k) :
    Follows s j m p o := by
  cases follows with
  | fail run moves warnings result => exact .fail run moves warnings result
  | done run moves warnings result faces far =>
    exact .done run moves warnings result faces (by omega)

theorem bind_ok {m : Step α} {q : Machine} {a : α} (run : m p = some (.ok a, q))
    (next : α → Step β) : (m >>= next) p = next a q := by
  show (m p).bind _ = _
  rw [run]
  rfl

theorem bind_error {m : Step α} {q : Machine} {c : Complaint} (run : m p = some (.error c, q))
    (next : α → Step β) : (m >>= next) p = some (.error c, q) := by
  show (m p).bind _ = _
  rw [run]
  rfl

theorem bind_none {m : Step α} (run : m p = none) (next : α → Step β) : (m >>= next) p = none := by
  show (m p).bind _ = _
  rw [run]
  rfl

theorem Follows.bind {m : Step α} {next : α → Step β} {o : Outcome α}
    {after : α → List Token → Outcome β} (first : Follows s k m p o)
    (rest : ∀ {a q us}, Moves p q → p.pos + k ≤ q.pos → Faces s q us →
      Follows s 0 (next a) q (after a us)) :
    Follows s k (m >>= next) p (o.andThen after) := by
  cases first with
  | fail run moves warnings result =>
    refine .fail (bind_error run next) moves ?_ ?_ <;> rw [Outcome.andThen, result]
    exact warnings
  | @done a q us run moves warnings result faces far =>
    have whole : o.andThen after =
        ⟨o.warnings ++ (after a us).warnings, (after a us).result⟩ := by
      rw [Outcome.andThen, result]
    rw [whole]
    cases rest moves far faces with
    | fail more later warned failed =>
      refine .fail ((bind_ok run next).trans more) (moves.trans later) ?_ failed
      rw [warned, warnings, List.append_assoc]
    | done more later warned returned ahead further =>
      refine .done ((bind_ok run next).trans more) (moves.trans later) ?_ returned ahead (by omega)
      rw [warned, warnings, List.append_assoc]

theorem Follows.look {next : Token → Step α} {o : Outcome α} (rest : Follows s k (next p.tok) p o) :
    Follows s k (look >>= next) p o := by
  cases rest with
  | fail run moves warnings result => exact .fail run moves warnings result
  | done run moves warnings result faces far => exact .done run moves warnings result faces far

theorem Follows.advance {next : Unit → Step α} {o : Outcome α} (proper : p.tok.kind ≠ .eof)
    (rest : Follows s k (next ()) p.advanced o) : Follows s (k + 1) (advance >>= next) p o := by
  cases rest with
  | fail run moves warnings result => exact .fail run (.pass proper moves) warnings result
  | done run moves warnings result faces far =>
    have next : p.advanced.pos = p.pos + 1 := rfl
    exact .done run (.pass proper moves) warnings result faces (by omega)

theorem Follows.pure (a : α) (faces : Faces s p ts) :
    Follows s 0 (Pure.pure a) p (Outcome.done a ts) :=
  .done rfl (.stay p) (List.append_nil _).symm rfl faces (Nat.le_refl _)

theorem Follows.failed (k : Nat) (trouble : Trouble) (span : Interval) :
    Follows s k (Machine.fail trouble span : Step α) p (Outcome.fail trouble span) :=
  .fail rfl (.stay p) (List.append_nil _).symm rfl

end Steps

end Machine

end DistanceField
