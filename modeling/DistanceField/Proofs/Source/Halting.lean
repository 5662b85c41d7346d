import DistanceField.Proofs.Source.Depth

/-! The parser ends on every list of tokens. Its machine goes step by step with the parser that works on
lists: both take the same branch, and each token that is passed pays for the calls up to the next one. The
machine passes no end of input, so what stands behind the first one does not matter. -/
namespace DistanceField

namespace Machine

open DistanceField.Parser (Setting Outcome)

section Procedures

variable {s : Setting} {p : Machine} {ts : List Token} {n : Nat}

theorem number_follows (faces : Faces s p ts) : Follows s 1 number p (Parser.number s ts) := by
  -- the digits, behind a sign or where it would stand
  have digits : ∀ {q : Machine} {us : List Token}, Faces s q us →
      Follows s 1 (do
        let n ← look
        if n.kind == .number then
          advance
          return Node.number (Parser.signOf p.tok.kind * (Read.double n.value).value)
            (p.tok.span.union n.span)
        else fail (.unexpected n.kind) n.span) q
      (if (s.peek us).kind == .number then
        Outcome.done (Node.number (Parser.signOf p.tok.kind * (Read.double (s.peek us).value).value)
          (p.tok.span.union (s.peek us).span)) us.tail
      else Outcome.fail (.unexpected (s.peek us).kind) (s.peek us).span) := by
    intro q us faces
    apply Follows.look
    rw [faces.kind, faces.span]
    by_cases is : q.tok.kind = .number
    · have proper : q.tok.kind ≠ .eof := by simp [is]
      rw [if_pos (by simp [is]), if_pos (by simp [is]), faces.tok proper]
      exact .advance proper (.pure _ (faces.pass proper))
    · rw [if_neg (by simpa using is), if_neg (by simpa using is)]
      exact .failed ..
  rw [number, Parser.number]
  apply Follows.look
  dsimp only
  rw [faces.kind, faces.span]
  cases signed : p.tok.kind == .plus || p.tok.kind == .minus with
  | true =>
    have proper : p.tok.kind ≠ .eof := by rintro is; simp [is] at signed
    exact (Follows.advance proper (digits (faces.pass proper))).weaken (by omega)
  | false => exact digits faces

theorem assign_follows (f : Function) (name : Token) (e : Node) (faces : Faces s p ts) :
    Follows s 0 (assign f name e) p (Parser.assign s f name e ts) := by
  rw [assign, Parser.assign]
  dsimp only
  split
  · rw [← faces.strict]
    cases strict : p.strict with
    | true =>
      refine .fail (c := ⟨.duplicateParameter name.value f.name, name.span⟩) ?_ (.stay p)
        (List.append_nil _).symm rfl
      show (if p.strict then _ else _ : Step Function) p = _
      rw [if_pos strict]
      rfl
    | false =>
      refine .done ?_ (.warn (.stay _)) rfl rfl ⟨faces.view, faces.strict, faces.ends⟩ (Nat.le_refl _)
      show (if p.strict then _ else _ : Step Function) p = _
      rw [if_neg (by simp [strict])]
      rfl
  · exact .pure _ faces

/-- At a depth that is enough for the tokens ahead, the procedures are followed. Each token pays for eight
calls, and what stands beside is how many more a procedure may nest before it passes its first token. -/
structure Followed (s : Setting) (n : Nat) : Prop where
  function : ∀ {p ts}, Faces s p ts → 8 * p.ahead + 1 ≤ n →
    Follows s 1 (function n) p (Parser.function s n ts)
  parameters : ∀ {p ts} f, Faces s p ts → 8 * p.ahead + 1 ≤ n →
    Follows s 1 (parameters n f) p (Parser.parameters s n f ts)
  operands : ∀ {p ts} f, Faces s p ts → 8 * p.ahead + 5 ≤ n →
    Follows s 1 (operands n f) p (Parser.operands s n f ts)
  expression : ∀ {p ts}, Faces s p ts → 8 * p.ahead + 4 ≤ n →
    Follows s 1 (expression n) p (Parser.expression s n ts)
  sums : ∀ {p ts} e, Faces s p ts → 8 * p.ahead + 1 ≤ n →
    Follows s 0 (sums n e) p (Parser.sumFrom s n e ts)
  term : ∀ {p ts}, Faces s p ts → 8 * p.ahead + 3 ≤ n →
    Follows s 1 (term n) p (Parser.term s n ts)
  products : ∀ {p ts} e, Faces s p ts → 8 * p.ahead + 1 ≤ n →
    Follows s 0 (products n e) p (Parser.productFrom s n e ts)
  factor : ∀ {p ts}, Faces s p ts → 8 * p.ahead + 2 ≤ n →
    Follows s 1 (factor n) p (Parser.factor s n ts)

theorem bracketed_follows (kind : Kind) (f : Function) {inside : Function → Step Function}
    {o : Outcome Function} (proper : kind ≠ .eof) (faces : Faces s p ts)
    (within : p.tok.kind ≠ .eof → Follows s 1 (inside f) p.advanced o) :
    Follows s 0 (bracketed kind inside f) p
      (if (s.peek ts).kind == kind then o else Outcome.done f ts) := by
  apply Follows.look
  rw [faces.kind]
  by_cases opens : p.tok.kind = kind
  · have proper : p.tok.kind ≠ .eof := opens ▸ proper
    rw [if_pos (by simpa using opens), if_pos (by simpa using opens)]
    exact (Follows.advance proper (within proper)).weaken (by omega)
  · rw [if_neg (by simpa using opens), if_neg (by simpa using opens)]
    exact .pure f faces

theorem list_follows (close : Kind) (f : Function) {round again : Function → Step Function}
    {o : Outcome Function} (proper : close ≠ .eof) (faces : Faces s p ts)
    (closed : (s.peek ts).kind = close → o = Outcome.done (f.cover (s.peek ts).span) ts.tail)
    (more : (s.peek ts).kind ≠ close → Follows s 1 (round f >>= again) p o) :
    Follows s 1 (list close round again f) p o := by
  rw [faces.kind, faces.span] at closed
  rw [faces.kind] at more
  apply Follows.look
  by_cases closes : p.tok.kind = close
  · rw [if_pos (by simpa using closes), closed closes]
    have proper : p.tok.kind ≠ .eof := closes ▸ proper
    exact .advance proper (.pure _ (faces.pass proper))
  · rw [if_neg (by simpa using closes)]
    exact more closes

theorem joined_follows {item : Step Node} {o : Outcome Node} (e : Node) (faces : Faces s p ts)
    (proper : p.tok.kind ≠ .eof) (right : Follows s 1 item p.advanced o) :
    Follows s 1 (joined item e) p
      (o.andThen fun r us => Outcome.done (Parser.operator (s.peek ts) e r) us) := by
  rw [faces.tok proper]
  refine .look (Follows.advance proper ?_)
  exact (right.weaken (Nat.zero_le 1)).bind fun _ _ faces => .pure _ faces

theorem chain_follows (among : Kind → Bool) (e : Node) {item : Step Node} {again : Node → Step Node}
    {o : Outcome Node} {after : Node → List Token → Outcome Node} (other : among .eof = false)
    (faces : Faces s p ts) (right : p.tok.kind ≠ .eof → Follows s 1 item p.advanced o)
    (rest : ∀ a {q us}, Moves p q → p.pos + 1 ≤ q.pos → Faces s q us →
      Follows s 0 (again a) q (after a us)) :
    Follows s 0 (chain among (joined item) again e) p
      (if among (s.peek ts).kind then
        o.andThen fun r us => after (Parser.operator (s.peek ts) e r) us
      else Outcome.done e ts) := by
  apply Follows.look
  rw [faces.kind]
  cases is : among p.tok.kind with
  | false => exact .pure e faces
  | true =>
    have proper : p.tok.kind ≠ .eof := by rintro eof; simp [eof, other] at is
    have whole := (joined_follows e faces proper (right proper)).bind fun {a q us} => rest a
    simp only [Parser.andThen_assoc, Parser.andThen_done] at whole
    exact whole.weaken (Nat.zero_le 1)

section Deeper

variable (all : Followed s n)

include all

theorem function_follows (faces : Faces s p ts) (enough : 8 * p.ahead + 1 ≤ n + 1) :
    Follows s 1 (function (n + 1)) p (Parser.function s (n + 1) ts) := by
  rw [function, Parser.function]
  apply Follows.look
  dsimp only
  rw [faces.kind, faces.span]
  by_cases word : p.tok.kind = .identifier
  swap
  · rw [if_pos (by simpa using word), if_pos (by simpa using word)]
    exact .failed ..
  have proper : p.tok.kind ≠ .eof := by simp [word]
  have less := ahead_pass proper
  have next := faces.pass proper
  rw [if_neg (by simp [word]), if_neg (by simp [word]), faces.tok proper]
  refine Follows.advance proper ((bracketed_follows .lparen _ (by decide) next
    fun proper => ?_).bind fun moves _ faces => ?_)
  · have less := ahead_pass proper
    exact all.parameters _ (next.pass proper) (by omega)
  · have kept := moves.ahead
    refine bracketed_follows .lbrace _ (by decide) faces fun proper => ?_
    have less := ahead_pass proper
    exact all.operands _ (faces.pass proper) (by omega)

theorem parameter_follows (f : Function) (faces : Faces s p ts) (enough : 8 * p.ahead ≤ n + 8) :
    Follows s 1 (parameter (expression n) f) p (Parser.parameter s n f ts) := by
  rw [parameter, Parser.parameter]
  apply Follows.look
  dsimp only
  rw [faces.kind, faces.span]
  by_cases word : p.tok.kind = .identifier
  swap
  · rw [if_pos (by simpa using word), if_pos (by simpa using word)]
    exact .failed ..
  have proper : p.tok.kind ≠ .eof := by simp [word]
  have less := ahead_pass proper
  have next := faces.pass proper
  rw [if_neg (by simp [word]), if_neg (by simp [word]), faces.tok proper]
  refine Follows.advance proper (.look ?_)
  rw [next.kind, next.span]
  by_cases equals : p.advanced.tok.kind = .assign
  swap
  · rw [if_pos (by simpa using equals), if_pos (by simpa using equals)]
    exact .failed ..
  have proper' : p.advanced.tok.kind ≠ .eof := by simp [equals]
  have less' := ahead_pass proper'
  rw [if_neg (by simp [equals]), if_neg (by simp [equals])]
  have value := all.expression (next.pass proper') (by omega)
  refine (Follows.advance proper' (value.bind fun {e q us} _ _ faces => ?_)).weaken (Nat.zero_le _)
  cases e.function? with
  | some g => exact .failed 0 ..
  | none =>
    refine (assign_follows f p.tok e faces).bind fun {g q us} _ _ faces => .look ?_
    rw [faces.kind, faces.span]
    split
    · exact .pure g faces
    split
    · next comma =>
      have proper : q.tok.kind ≠ .eof := by simp [eq_of_beq comma]
      exact (Follows.advance proper (.pure g (faces.pass proper))).weaken (Nat.zero_le _)
    · exact .failed ..

theorem operand_follows (f : Function) (faces : Faces s p ts) (enough : 8 * p.ahead + 4 ≤ n) :
    Follows s 1 (operand (expression n) f) p (Parser.operand s n f ts) := by
  rw [operand, Parser.operand]
  apply Follows.look
  rw [faces.kind, faces.span]
  split
  · exact .failed ..
  refine (all.expression faces enough).bind fun {e q us} _ _ faces => ?_
  cases e with
  | function g =>
    refine .look ?_
    rw [faces.kind, faces.span]
    split
    · exact .failed ..
    · exact .pure _ faces
  | _ => exact .failed 0 ..

theorem parameters_follows (f : Function) (faces : Faces s p ts) (enough : 8 * p.ahead + 1 ≤ n + 1) :
    Follows s 1 (parameters (n + 1) f) p (Parser.parameters s (n + 1) f ts) := by
  rw [parameters]
  refine list_follows .rparen f (by decide) faces (fun closes => ?_) fun more => ?_
  · rw [Parser.parameters, if_pos (by simpa using closes)]
  · rw [Parser.parameters_round more]
    refine (parameter_follows all f faces (by omega)).bind fun moves far faces => ?_
    have kept := moves.ahead
    exact (all.parameters _ faces (by omega)).weaken (Nat.zero_le _)

theorem operands_follows (f : Function) (faces : Faces s p ts) (enough : 8 * p.ahead + 5 ≤ n + 1) :
    Follows s 1 (operands (n + 1) f) p (Parser.operands s (n + 1) f ts) := by
  rw [operands]
  refine list_follows .rbrace f (by decide) faces (fun closes => ?_) fun more => ?_
  · rw [Parser.operands, if_pos (by simpa using closes)]
  · rw [Parser.operands_round more]
    refine (operand_follows all f faces (by omega)).bind fun moves far faces => ?_
    have kept := moves.ahead
    exact (all.operands _ faces (by omega)).weaken (Nat.zero_le _)

theorem expression_follows (faces : Faces s p ts) (enough : 8 * p.ahead + 4 ≤ n + 1) :
    Follows s 1 (expression (n + 1)) p (Parser.expression s (n + 1) ts) := by
  rw [expression, Parser.expression]
  refine (all.term faces (by omega)).bind fun moves far faces => ?_
  have kept := moves.ahead
  exact all.sums _ faces (by omega)

theorem term_follows (faces : Faces s p ts) (enough : 8 * p.ahead + 3 ≤ n + 1) :
    Follows s 1 (term (n + 1)) p (Parser.term s (n + 1) ts) := by
  rw [term, Parser.term]
  refine (all.factor faces (by omega)).bind fun moves far faces => ?_
  have kept := moves.ahead
  exact all.products _ faces (by omega)

theorem factor_follows (faces : Faces s p ts) (enough : 8 * p.ahead + 2 ≤ n + 1) :
    Follows s 1 (factor (n + 1)) p (Parser.factor s (n + 1) ts) := by
  rw [factor, Parser.factor]
  apply Follows.look
  dsimp only
  rw [faces.kind, faces.span]
  cases kind : p.tok.kind with
  | number | plus | minus => exact number_follows faces
  | lparen =>
    have proper : p.tok.kind ≠ .eof := by simp [kind]
    have less := ahead_pass proper
    have inside := all.expression (faces.pass proper) (by omega)
    refine (Follows.advance proper (inside.bind fun {e q us} _ _ faces => .look ?_)).weaken (by omega)
    rw [faces.kind, faces.span]
    split
    · next closes =>
      have proper : q.tok.kind ≠ .eof := by simp [eq_of_beq closes]
      exact (Follows.advance proper (.pure e (faces.pass proper))).weaken (Nat.zero_le _)
    · exact .failed ..
  | identifier => exact (all.function faces (by omega)).bind fun _ _ faces => .pure _ faces
  | _ => exact .failed 1 ..

theorem sums_follows (e : Node) (faces : Faces s p ts) (enough : 8 * p.ahead + 1 ≤ n + 1) :
    Follows s 0 (sums (n + 1) e) p (Parser.sumFrom s (n + 1) e ts) := by
  rw [sums, Parser.sumFrom]
  refine chain_follows (fun k => k == .plus || k == .minus) e rfl faces (fun proper => ?_)
    fun e q us moves far faces => ?_
  · have less := ahead_pass proper
    exact all.term (faces.pass proper) (by omega)
  · have kept := moves.ahead
    exact all.sums e faces (by omega)

theorem products_follows (e : Node) (faces : Faces s p ts) (enough : 8 * p.ahead + 1 ≤ n + 1) :
    Follows s 0 (products (n + 1) e) p (Parser.productFrom s (n + 1) e ts) := by
  rw [products, Parser.productFrom]
  refine chain_follows (fun k => k == .star || k == .slash) e rfl faces (fun proper => ?_)
    fun e q us moves far faces => ?_
  · have less := ahead_pass proper
    exact all.factor (faces.pass proper) (by omega)
  · have kept := moves.ahead
    exact all.products e faces (by omega)

end Deeper

theorem followed (s : Setting) (n : Nat) : Followed s n := by
  induction n with
  -- no procedure may be called with nothing left
  | zero => constructor <;> intros <;> omega
  | succ n all =>
    exact {
      function := function_follows all
      parameters := parameters_follows all
      operands := operands_follows all
      expression := expression_follows all
      sums := sums_follows all
      term := term_follows all
      products := products_follows all
      factor := factor_follows all }

theorem document_follows (d : Document) (faces : Faces s p ts) (enough : 8 * p.ahead + 2 ≤ n) :
    Follows s 1 (document n d) p (Parser.documentFrom s n d ts) := by
  induction n generalizing d p ts with
  | zero => omega
  | succ n ih =>
    rw [document, Parser.documentFrom]
    have first : Follows s 1 (piece (function n) d) p
        ((Parser.function s n ts).andThen fun f us => Outcome.done (d.add f) us) :=
      ((followed s n).function faces (by omega)).bind fun _ _ faces => .pure _ faces
    have rest : ∀ d {q us}, Moves p q → p.pos + 1 ≤ q.pos → Faces s q us →
        Follows s 0 (do if (← look).kind == .eof then return d else document n d) q
          (if (s.peek us).kind == .eof then Outcome.done d us
          else Parser.documentFrom s n d us) := by
      intro d q us moves far faces
      apply Follows.look
      rw [faces.kind]
      split
      · exact .pure d faces
      · have kept := moves.ahead
        exact (ih d faces (by omega)).weaken (Nat.zero_le _)
    have whole := first.bind fun {d q us} => rest d
    simpa only [Parser.andThen_assoc, Parser.andThen_done] using whole

end Procedures

def Advances {α : Type} (m : Step α) : Prop := ∀ p a q, m p = some (.ok a, q) → p.pos < q.pos

section Rounds

theorem advances_of {α : Type} {m : Nat → Step α} (deeper : ∀ n, Below (m n) (m (n + 1)))
    {cost : Machine → Nat}
    (follows : ∀ p n, cost p ≤ n → ∃ s o, Follows s 1 (m n) p o) (n : Nat) : Advances (m n) := by
  intro p a q run
  have ends := Below.ge deeper (Nat.le_max_left n (cost p)) p _ run
  obtain ⟨s, o, follows⟩ := follows p _ (Nat.le_max_right n (cost p))
  cases follows with
  | fail failed =>
    rw [failed] at ends
    cases ends
  | done returned _ _ _ _ far =>
    rw [returned] at ends
    cases ends
    exact far

theorem Advances.map {α β : Type} {m : Step α} (advances : Advances m) (f : α → β) :
    Advances (do return f (← m)) := by
  intro p b q run
  rcases ran : m p with - | ⟨c | a, q'⟩
  · rw [bind_none ran] at run
    cases run
  · rw [bind_error ran] at run
    cases run
  · rw [bind_ok ran] at run
    cases run
    exact advances p a q ran

theorem Advances.joined {item : Step Node} (advances : Advances item) (e : Node) :
    Advances (joined item e) := by
  intro p b q run
  have far := advances.map (Parser.operator p.tok e) p.advanced b q run
  have next : p.advanced.pos = p.pos + 1 := rfl
  omega

variable (n : Nat)

theorem function_advances : Advances (function n) :=
  advances_of (fun n => (deepens n).function)
    (fun p n enough => ⟨_, _, (followed _ n).function (.self p) enough⟩) n

theorem term_advances : Advances (term n) :=
  advances_of (fun n => (deepens n).term)
    (fun p n enough => ⟨_, _, (followed _ n).term (.self p) enough⟩) n

theorem factor_advances : Advances (factor n) :=
  advances_of (fun n => (deepens n).factor)
    (fun p n enough => ⟨_, _, (followed _ n).factor (.self p) enough⟩) n

theorem parameter_advances (f : Function) : Advances (parameter (expression n) f) :=
  advances_of (fun n => parameter_below (deepens n).expression f)
    (fun p n enough => ⟨_, _, parameter_follows (followed _ n) f (.self p) (Nat.le_add_right_of_le enough)⟩)
    n

theorem operand_advances (f : Function) : Advances (operand (expression n) f) :=
  advances_of (fun n => operand_below (deepens n).expression f)
    (fun p n enough => ⟨_, _, operand_follows (followed _ n) f (.self p) enough⟩) n

end Rounds

section Parsing

variable {p q : Machine}

theorem parse_run (n : Nat) (p : Machine) : parse n p = document n ⟨[], .none⟩ p.started := rfl

/-- The machine agrees with the parser on whatever looks the same. -/
theorem parse_follows {us : List Token}
    (same : sight (finishOf p.tokens) p.tokens = sight (finishOf us) us) :
    ∃ r q, Ends parse p r q ∧ Moves p.started q ∧ parseTokens p.strict us = ⟨q.warnings, r⟩ := by
  have view : p.started.view = sight (finishOf us) us :=
    (sight_advanced { p with pos := 0, warnings := [] }).trans same
  have faces : Faces ⟨p.strict, finishOf us⟩ p.started us := ⟨view, rfl, rfl⟩
  have few : p.started.ahead ≤ us.length := by
    rw [ahead, view, sight_tokens]
    exact (List.takeWhile_prefix _).length_le
  have follows := document_follows (n := 8 * (us.length + 1)) ⟨[], .none⟩ faces (by omega)
  rw [parseTokens]
  cases follows with
  | fail run moves warnings result =>
    exact ⟨_, _, .of_run parse_below ((parse_run _ p).trans run), moves, by rw [warnings, result]; rfl⟩
  | done run moves warnings result =>
    exact ⟨_, _, .of_run parse_below ((parse_run _ p).trans run), moves, by rw [warnings, result]; rfl⟩

theorem parseTokens_sight (strict : Bool) {us vs : List Token}
    (same : sight (finishOf us) us = sight (finishOf vs) vs) :
    parseTokens strict us = parseTokens strict vs := by
  have start (ts : List Token) := @parse_follows ⟨us, strict, finishOf us, 0, []⟩ ts
  obtain ⟨r, q, ends, -, first⟩ := start us rfl
  obtain ⟨r', q', ends', -, second⟩ := start vs same
  obtain ⟨rfl, rfl⟩ := ends.unique ends'
  exact first.trans second.symm

theorem started_again (moves : Moves p.started q) : q.started = p.started := by
  have tokens : q.tokens = p.tokens := moves.tokens
  have strict : q.strict = p.strict := moves.strict
  rw [started, started, advanced, advanced, tokens, strict]

theorem Ends.again {r : Except Complaint Document} (ends : Ends parse p r q)
    (moves : Moves p.started q) : Ends parse q r q := by
  obtain ⟨n, runs⟩ := ends
  refine ⟨n, fun k more => ?_⟩
  rw [parse_run, started_again moves, ← parse_run]
  exact runs k more

theorem started_pos (moves : Moves p.started q) :
    q.pos ≤ (p.tokens.takeWhile fun t => t.kind != .eof).length + 1 := by
  have kept := moves.ahead
  have first : p.started.pos = 1 := rfl
  have all : p.started.ahead = (p.tokens.takeWhile fun t => t.kind != .eof).length := by
    rw [ahead, ← sight_tokens (finishOf p.tokens)]
    exact congrArg (·.1.length) (sight_advanced { p with pos := 0, warnings := [] })
  omega

end Parsing

theorem sight_append_eof {finish finish' e : Token} {us vs ws : List Token} (last : e.kind = .eof) :
    sight finish (us ++ e :: vs) = sight finish' (us ++ e :: ws) := by
  induction us with
  | nil => rw [List.nil_append, List.nil_append, sight_eof last, sight_eof last]
  | cons u us ih =>
    by_cases is : u.kind = .eof
    · rw [List.cons_append, List.cons_append, sight_eof is, sight_eof is]
    · rw [List.cons_append, List.cons_append, sight_cons is, sight_cons is, ih]

theorem sight_append_finish {finish finish' e : Token} {us : List Token} (last : e.kind = .eof)
    (place : e.span = finish'.span) : sight finish (us ++ [e]) = sight finish' us := by
  induction us with
  | nil => rw [List.nil_append, sight_eof last, place, sight]
  | cons u us ih =>
    by_cases is : u.kind = .eof
    · rw [List.cons_append, sight_eof is, sight_eof is]
    · rw [List.cons_append, sight_cons is, sight_cons is, ih]

/-- The parser ends on every list of tokens, wherever it has been left, and gives what the one on lists
gives. It passes tokens before the first end of input only, hence advances at most once for each token and
once more, and when it is run again it ends in the same way. Each round of its loops that does not fail
goes forward. Tokens behind an end of input do not matter, nor does an end of input behind the last. -/
theorem parse_halts (p : Machine) :
    (∃ r q, Ends parse p r q ∧ parseTokens p.strict p.tokens = ⟨q.warnings, r⟩ ∧
      (∀ t ∈ p.tokens.take (q.pos - 1), t.kind ≠ .eof) ∧ q.pos ≤ p.tokens.length + 1 ∧
      Ends parse q r q) ∧
    (∀ n, (∀ d, Advances (piece (function n) d)) ∧ (∀ f, Advances (parameter (expression n) f)) ∧
      (∀ f, Advances (operand (expression n) f)) ∧ (∀ e, Advances (joined (term n) e)) ∧
      ∀ e, Advances (joined (factor n) e)) ∧
    (∀ us value span vs ws, parseTokens p.strict (us ++ ⟨.eof, value, span⟩ :: vs) =
      parseTokens p.strict (us ++ ⟨.eof, value, span⟩ :: ws)) ∧
    ∀ us value, let finish := (us.getLast?.map fun t => t.span.max).getD 0
      parseTokens p.strict (us ++ [⟨.eof, value, ⟨finish, finish⟩⟩]) = parseTokens p.strict us := by
  refine ⟨?_, fun n => ⟨fun d => (function_advances n).map d.add, parameter_advances n,
    operand_advances n, (term_advances n).joined, (factor_advances n).joined⟩, fun us value span vs ws => ?_,
    fun us value => ?_⟩
  · obtain ⟨r, q, ends, moves, agrees⟩ := @parse_follows p _ rfl
    have far := started_pos moves
    -- what has been passed is a part of what stands before the first end of input
    obtain ⟨rest, split⟩ := List.takeWhile_prefix (l := p.tokens) fun t => t.kind != .eof
    refine ⟨r, q, ends, agrees, fun t passed => ?_, ?_, ends.again moves⟩
    · rw [← split, List.take_append_of_le_length (by omega)] at passed
      simpa using List.all_eq_true.mp List.all_takeWhile t (List.mem_of_mem_take passed)
    · have whole := congrArg List.length split
      rw [List.length_append] at whole
      omega
  · exact parseTokens_sight _ (sight_append_eof rfl)
  · refine parseTokens_sight _ (sight_append_finish rfl ?_)
    rw [finishOf]
    cases us.getLast? <;> rfl

/-- A name, an end of input, and an operator that is never looked at. -/
def cut : List Token :=
  [⟨.identifier, [97], ⟨0, 1⟩⟩, ⟨.eof, [], ⟨4, 4⟩⟩, ⟨.star, [42], ⟨7, 8⟩⟩]

theorem cut_halts : let d : Document := ⟨[.mk [97] [] [] ⟨0, 1⟩], ⟨0, 1⟩⟩
    ∃ q, Ends parse ⟨cut, true, finishOf [], 7, []⟩ (.ok d) q ∧ q.pos ≤ 2 ∧
      Ends parse q (.ok d) q := by
  obtain ⟨⟨r, q, run, agrees, before, -, again⟩, -⟩ := parse_halts ⟨cut, true, finishOf [], 7, []⟩
  have result : r = .ok _ := (congrArg Parsed.result agrees).symm
  subst result
  refine ⟨q, run, ?_, again⟩
  by_contra beyond
  refine before ⟨.eof, [], ⟨4, 4⟩⟩ (List.mem_take_iff_getElem.mpr ⟨1, ?_, rfl⟩) rfl
  show 1 < min (q.pos - 1) 3
  omega

end Machine

end DistanceField
