import DistanceField.Proofs.Lists
import DistanceField.Proofs.Source.Places

/-! What the parentheses of an accepted text are for. Each pair is the parameter list of a function,
or groups an operand or a part of a value, and which of them it is shows in the token before it. -/
namespace DistanceField

namespace Grammar

/-- Tokens in which every parenthesis has its partner. -/
inductive Matched : List Token → Prop where
  | none : Matched []
  | other {t : Token} {ts : List Token} (plain : t.kind ∉ [Kind.lparen, .rparen])
      (rest : Matched ts) : Matched (t :: ts)
  | pair {l r : Token} {ts us : List Token} (opens : l.kind = .lparen) (inner : Matched ts)
      (closes : r.kind = .rparen) (rest : Matched us) : Matched (l :: (ts ++ r :: us))

def weight (t : Token) : Int :=
  if t.kind = .lparen then 1 else if t.kind = .rparen then -1 else 0

/-- How many more parentheses are opened than closed. -/
def depth (ts : List Token) : Int := (ts.map weight).sum

section Matching

variable {t l r s : Token} {ts us vs : List Token}

theorem weight_open (opens : l.kind = .lparen) : weight l = 1 := by simp [weight, opens]

theorem weight_close (closes : r.kind = .rparen) : weight r = -1 := by simp [weight, closes]

theorem weight_other (plain : t.kind ∉ [Kind.lparen, .rparen]) : weight t = 0 := by
  simp only [List.mem_cons, List.not_mem_nil, or_false, not_or] at plain
  simp [weight, plain]

@[simp] theorem depth_nil : depth [] = 0 := rfl

@[simp] theorem depth_cons (t : Token) (ts : List Token) : depth (t :: ts) = weight t + depth ts := by
  simp [depth]

@[simp] theorem depth_append (ts us : List Token) : depth (ts ++ us) = depth ts + depth us := by
  simp [depth]

theorem Matched.append (first : Matched ts) (second : Matched us) : Matched (ts ++ us) := by
  induction first with
  | none => exact second
  | other plain _ ih => exact .other plain ih
  | pair opens inner closes _ _ ih =>
    rw [List.cons_append, List.append_assoc, List.cons_append]
    exact .pair opens inner closes ih

theorem matched_single (plain : t.kind ∉ [Kind.lparen, .rparen]) : Matched [t] := .other plain .none

theorem Matched.wrapped (inner : Matched ts) (opens : l.kind = .lparen) (closes : r.kind = .rparen) :
    Matched (l :: (ts ++ [r])) := .pair opens inner closes .none

theorem Matched.depth_eq (matched : Matched ts) : depth ts = 0 := by
  induction matched with
  | none => rfl
  | other plain _ ih => rw [depth_cons, weight_other plain, ih, Int.zero_add]
  | pair opens _ closes _ ihi ihr =>
    rw [depth_cons, depth_append, depth_cons, weight_open opens, weight_close closes, ihi, ihr]
    rfl

/-- No front of matched tokens closes more than it opens. -/
theorem Matched.depth_front (matched : Matched (us ++ vs)) : 0 ≤ depth us := by
  generalize whole : us ++ vs = ts at matched
  induction matched generalizing us vs with
  | none =>
    rw [(List.append_eq_nil_iff.mp whole).1]
    exact le_rfl
  | other plain _ ih =>
    cases us with
    | nil => exact le_rfl
    | cons t us =>
      obtain ⟨rfl, rest⟩ := List.cons.inj whole
      rw [depth_cons, weight_other plain, Int.zero_add]
      exact ih rest
  | @pair l r inner us' opens matched closes _ ihi ihr =>
    cases us with
    | nil => exact le_rfl
    | cons t us =>
      obtain ⟨rfl, rest⟩ := List.cons.inj whole
      rw [depth_cons, weight_open opens]
      rcases split_append rest with ⟨more, rfl, later⟩ | ⟨more, within, -⟩
      · rw [depth_append, matched.depth_eq, depth_cons, weight_close closes]
        have := ihr later.symm
        omega
      · have := ihi within.symm
        omega

theorem Matched.open_behind (matched : Matched (us ++ t :: vs)) (front : Matched us) :
    t.kind ≠ .rparen := by
  intro closes
  rw [List.append_cons] at matched
  have low := matched.depth_front
  rw [depth_append, front.depth_eq, depth_cons, weight_close closes, depth_nil] at low
  omega

theorem Matched.closed_behind (matched : Matched (us ++ t :: vs)) (opens : t.kind = .lparen) :
    depth vs < 0 := by
  have whole := matched.depth_eq
  have front := matched.depth_front
  rw [depth_append, depth_cons, weight_open opens] at whole
  omega

theorem Matched.partner {ts' us' : List Token} (first : Matched ts) (second : Matched ts')
    (closes : r.kind = .rparen) (also : s.kind = .rparen) (same : ts ++ r :: us = ts' ++ s :: us') :
    ts = ts' := by
  rcases split_twice same with ⟨more, rfl, -⟩ | ⟨same, -⟩ | ⟨more, rfl, -⟩
  · exact absurd also (first.open_behind second)
  · exact same
  · exact absurd closes (second.open_behind first)

theorem Matched.cut (matched : Matched (us ++ vs)) :
    Matched us ∨ ∃ (before : List Token) (l : Token) (inner behind : List Token) (r : Token)
      (after : List Token), us = before ++ l :: inner ∧ vs = behind ++ r :: after ∧
      l.kind = .lparen ∧ r.kind = .rparen ∧ Matched inner ∧ Matched (inner ++ behind) := by
  generalize whole : us ++ vs = ts at matched
  induction matched generalizing us vs with
  | none =>
    rw [(List.append_eq_nil_iff.mp whole).1]
    exact .inl .none
  | other plain _ ih =>
    cases us with
    | nil => exact .inl .none
    | cons t us =>
      obtain ⟨rfl, rest⟩ := List.cons.inj whole
      rcases ih rest with front | ⟨before, l, inner, behind, r, after, rfl, rfl, pair⟩
      · exact .inl (.other plain front)
      · exact .inr ⟨t :: before, l, inner, behind, r, after, rfl, rfl, pair⟩
  | @pair l r ts' us' opens matched closes _ ihi ihr =>
    cases us with
    | nil => exact .inl .none
    | cons t us =>
      obtain ⟨rfl, rest⟩ := List.cons.inj whole
      -- The cut is behind the pair, or in it: then the pair is the one unless there is a deeper one.
      rcases split_append rest with ⟨more, rfl, later⟩ | ⟨more, rfl, rfl⟩
      · rcases ihr later.symm with front | ⟨before, l, inner, behind, r', after, rfl, rfl, pair⟩
        · exact .inl (.pair opens matched closes front)
        · exact .inr ⟨t :: (ts' ++ r :: before), l, inner, behind, r', after, by simp, rfl, pair⟩
      · rcases ihi rfl with front | ⟨before, l, inner, behind, r', after, rfl, rfl, pair⟩
        · exact .inr ⟨[], t, us, more, r, us', rfl, rfl, opens, closes, front, matched⟩
        · exact .inr ⟨t :: before, l, inner, behind, r', after ++ r :: us', rfl, by simp, pair⟩

end Matching

section Derivations

variable {strict : Bool} {part : Part} {next : Kind} {level : Level} {ts : List Token} {e : Node}
  {fs : List Function}

theorem Formula.matched (value : Formula level ts e) : Matched ts := by
  induction value with
  | number digits => exact matched_single (by rw [digits]; decide)
  | positive sign digits | negative sign digits =>
    exact .other (by rw [sign]; decide) (matched_single (by rw [digits]; decide))
  | group opens _ closes ih => exact ih.wrapped opens closes
  | factor _ ih | term _ ih => exact ih
  | product _ sign _ ihl ihr | sum _ sign _ ihl ihr =>
    refine ihl.append (.other ?_ ihr)
    rcases sign with is | is <;> rw [is] <;> decide

theorem Assign.matched {a : Bytes × Node} (assign : Assign ts a) : Matched ts := by
  cases assign with
  | mk named given value =>
    exact .other (by rw [named]; decide) (.other (by rw [given]; decide) value.matched)

theorem Assigns.matched {as : List (Bytes × Node)} (list : Assigns ts as) : Matched ts := by
  induction list with
  | none => exact .none
  | last assign => exact assign.matched
  | more assign comma _ ih => exact assign.matched.append (.other (by rw [comma]; decide) ih)

theorem Head.matched {name : Bytes} {ps : List (Bytes × Node)} (head : Head strict next ts name ps) :
    Matched ts := by
  cases head with
  | bare named _ => exact matched_single (by rw [named]; decide)
  | called named opens list closes _ =>
    exact .other (by rw [named]; decide) (list.matched.wrapped opens closes)

theorem Solid.matched (solid : Solid strict part next ts fs) : Matched ts := by
  induction solid with
  | plain head => exact head.matched
  | block head opens _ closes ih =>
    have inner := ih.append (matched_single (by rw [closes]; decide))
    exact head.matched.append (.other (by rw [opens]; decide) inner)
  | child _ ih => exact ih
  | group opens _ closes ih => exact ih.wrapped opens closes
  | none => exact .none
  | more _ _ ihf ihr => exact ihf.append ihr

theorem Text.matched (text : Text strict ts fs) : Matched ts := by
  induction text with
  | last function => exact function.matched
  | more function _ ih => exact function.matched.append ih

end Derivations

/-- What stands before a token of kind `k` does not end with a number, nor with a name when that token
opens a parenthesis. -/
def Fits (before : List Token) (k : Kind) : Prop :=
  ∀ t ∈ before.getLast?, t.kind ≠ .number ∧ (t.kind = .identifier → k ≠ .lparen)

/-- What the parentheses around some tokens are for, behind others. -/
inductive Use (strict : Bool) : (before inner : List Token) → Prop where
  | list {front inner : List Token} {name : Token} {as : List (Bytes × Node)}
      (named : name.kind = .identifier) (fits : Fits front .identifier) (list : Assigns inner as) :
      Use strict (front ++ [name]) inner
  | operand {before inner : List Token} {fs : List Function} (fits : Fits before .lparen)
      (solid : Solid strict .child .rparen inner fs) : Use strict before inner
  | value {before inner : List Token} {e : Node} (fits : Fits before .lparen)
      (formula : Formula .sum inner e) : Use strict before inner

/-- Every parenthesis that is opened in some tokens has its partner there, and a use. -/
def Used (strict : Bool) (before ts : List Token) : Prop :=
  ∀ front l rest, ts = front ++ l :: rest → l.kind = .lparen →
    ∃ inner r after, rest = inner ++ r :: after ∧ r.kind = .rparen ∧ Matched inner ∧
      Use strict (before ++ front) inner

section Uses

variable {strict : Bool} {before ts us : List Token} {t l r : Token} {k : Kind}

theorem ahead_cons (t : Token) (ts : List Token) (next : Kind) : ahead (t :: ts) next = t.kind := rfl

theorem fits_nil : Fits [] k := by
  rintro t ⟨⟩

theorem fits_concat {next : Kind} (is : t.kind = k) (proper : k ∉ [Kind.number, .identifier]) :
    Fits (ts ++ [t]) next := by
  intro u last
  obtain rfl : t = u := by simpa using last
  simp only [List.mem_cons, List.not_mem_nil, or_false, not_or] at proper
  rw [is]
  exact ⟨proper.1, fun named => absurd named proper.2⟩

theorem Fits.name (fits : Fits ts k) : Fits ts .identifier :=
  fun t last => ⟨(fits t last).1, fun _ => by decide⟩

theorem used_nil : Used strict before [] := by
  intro front l rest whole
  simp at whole

theorem Used.append (first : Used strict before ts) (second : Used strict (before ++ ts) us) :
    Used strict before (ts ++ us) := by
  intro front l rest whole opens
  rcases split_append whole with ⟨more, rfl, rfl⟩ | ⟨more, rfl, behind⟩
  · obtain ⟨inner, r, after, rfl, pair⟩ := first front l more rfl opens
    exact ⟨inner, r, after ++ us, by simp, pair⟩
  · rw [← List.append_assoc]
    exact second more l rest behind opens

theorem Used.cons (rest : Used strict (before ++ [t]) ts) (is : t.kind = k) (other : k ≠ .lparen) :
    Used strict before (t :: ts) := by
  intro front l more whole opens
  cases front with
  | nil =>
    obtain ⟨rfl, rfl⟩ := List.cons.inj whole
    exact absurd (is.symm.trans opens) other
  | cons u front =>
    obtain ⟨rfl, behind⟩ := List.cons.inj whole
    rw [List.append_cons]
    exact rest front l more behind opens

theorem used_single (is : t.kind = k) (other : k ≠ .lparen) : Used strict before [t] :=
  used_nil.cons is other

theorem Used.wrapped (inner : Used strict (before ++ [l]) ts) (matched : Matched ts)
    (use : Use strict before ts) (closes : r.kind = .rparen) :
    Used strict before (l :: (ts ++ [r])) := by
  intro front m more whole opens
  cases front with
  | nil =>
    obtain ⟨rfl, rfl⟩ := List.cons.inj whole
    rw [List.append_nil]
    exact ⟨ts, r, [], rfl, closes, matched, use⟩
  | cons u front =>
    obtain ⟨rfl, behind⟩ := List.cons.inj whole
    rw [List.append_cons]
    exact inner.append (used_single closes (by decide)) front m more behind opens

theorem Formula.used {level : Level} {e : Node} (value : Formula level ts e)
    (fits : Fits before .lparen) : Used strict before ts := by
  induction value generalizing before with
  | number digits => exact used_single digits (by decide)
  | positive sign digits | negative sign digits =>
    exact (used_single digits (by decide)).cons sign (by decide)
  | group opens inner closes ih =>
    exact (ih (fits_concat opens (by decide))).wrapped inner.matched (.value fits inner) closes
  | factor _ ih | term _ ih => exact ih fits
  | product _ sign _ ihl ihr | sum _ sign _ ihl ihr =>
    rcases sign with is | is
    · exact (ihl fits).append ((ihr (fits_concat is (by decide))).cons is (by decide))
    · exact (ihl fits).append ((ihr (fits_concat is (by decide))).cons is (by decide))

theorem Assign.used {a : Bytes × Node} (assign : Assign ts a) : Used strict before ts := by
  cases assign with
  | @mk name eq ts e named given value =>
    have formula : Used strict (before ++ [name] ++ [eq]) ts :=
      value.used (fits_concat given (by decide))
    exact (formula.cons given (by decide)).cons named (by decide)

theorem Assigns.used {as : List (Bytes × Node)} (list : Assigns ts as) : Used strict before ts := by
  induction list generalizing before with
  | none => exact used_nil
  | last assign => exact assign.used
  | more assign comma _ ih => exact assign.used.append (ih.cons comma (by decide))

variable {next : Kind}

theorem Head.used {name : Bytes} {ps : List (Bytes × Node)} (head : Head strict next ts name ps)
    (fits : Fits before (ahead ts next)) : Used strict before ts ∧ Fits (before ++ ts) next := by
  cases head with
  | @bare name named alone =>
    refine ⟨used_single named (by decide), ?_⟩
    intro t last
    obtain rfl : name = t := by simpa using last
    rw [named]
    exact ⟨by decide, fun _ => alone⟩
  | @called name l r us as named opens list closes _ =>
    refine ⟨?_, ?_⟩
    · exact (list.used.wrapped list.matched (.list named fits.name list) closes).cons named (by decide)
    · rw [← List.cons_append, ← List.cons_append, ← List.append_assoc]
      exact fits_concat closes (by decide)

/-- In a derivation each parenthesis has its use, and what comes behind fits. -/
theorem Solid.used {part : Part} {fs : List Function} (solid : Solid strict part next ts fs)
    (fits : Fits before (ahead ts next)) : Used strict before ts ∧ Fits (before ++ ts) next := by
  induction solid generalizing before with
  | plain head => exact head.used fits
  | @block next ts us l r name ps fs head opens inner closes ih =>
    rw [Parser.ahead_append, ahead_cons, opens] at fits
    have own := head.used fits
    have body : Used strict (before ++ ts ++ [l]) us ∧ _ := ih (fits_concat opens (by decide))
    refine ⟨own.1.append ((body.1.append (used_single closes (by decide))).cons opens (by decide)), ?_⟩
    rw [← List.cons_append, ← List.append_assoc, ← List.append_assoc]
    exact fits_concat closes (by decide)
  | child _ ih => exact ih fits
  | @group next ts l r fs opens inner closes ih =>
    have body : Used strict (before ++ [l]) ts ∧ _ := ih (fits_concat opens (by decide))
    refine ⟨body.1.wrapped inner.matched (.operand (opens ▸ fits) inner) closes, ?_⟩
    rw [← List.cons_append, ← List.append_assoc]
    exact fits_concat closes (by decide)
  | none =>
    rw [List.append_nil]
    exact ⟨used_nil, fits⟩
  | more _ _ ihf ihr =>
    rw [Parser.ahead_append] at fits
    have first := ihf fits
    have rest := ihr first.2
    rw [List.append_assoc] at rest
    exact ⟨first.1.append rest.1, rest.2⟩

theorem Text.used {fs : List Function} (text : Text strict ts fs) (fits : Fits before (ahead ts .eof)) :
    Used strict before ts := by
  induction text generalizing before with
  | last function => exact (function.used fits).1
  | more function _ ih =>
    rw [Parser.ahead_append] at fits
    have first := function.used fits
    exact first.1.append (ih first.2)

end Uses

section Kinds

variable {strict : Bool} {front before inner ts : List Token} {name : Token}

theorem Formula.kinds {level : Level} {e : Node} (value : Formula level ts e) :
    ∀ t ∈ ts, t.kind ∈ [Kind.number, .plus, .minus, .star, .slash, .lparen, .rparen] := by
  induction value with
  | number digits => simp [digits]
  | positive sign digits | negative sign digits => simp [sign, digits]
  | group opens _ closes ih =>
    rw [← List.cons_append, List.forall_mem_append, List.forall_mem_cons]
    exact ⟨⟨by simp [opens], ih⟩, by simp [closes]⟩
  | factor _ ih | term _ ih => exact ih
  | product _ sign _ ihl ihr | sum _ sign _ ihl ihr =>
    rw [List.forall_mem_append, List.forall_mem_cons]
    refine ⟨ihl, ?_, ihr⟩
    rcases sign with is | is <;> simp [is]

theorem Assign.kinds {a : Bytes × Node} (assign : Assign ts a) :
    ∀ t ∈ ts, t.kind ∉ [Kind.comma, .lbrace, .rbrace] := by
  cases assign with
  | mk named given value =>
    rw [List.forall_mem_cons, List.forall_mem_cons]
    refine ⟨by simp [named], by simp [given], fun t found => ?_⟩
    have kind := value.kinds t found
    generalize t.kind = k at kind
    revert k
    decide

theorem Assigns.braceless {as : List (Bytes × Node)} (list : Assigns ts as) :
    ∀ t ∈ ts, t.kind ∉ [Kind.lbrace, .rbrace] := by
  have one {us : List Token} {a : Bytes × Node} (assign : Assign us a) :
      ∀ t ∈ us, t.kind ∉ [Kind.lbrace, .rbrace] :=
    fun t found brace => assign.kinds t found (List.mem_cons_of_mem _ brace)
  induction list with
  | none => simp
  | last assign => exact one assign
  | more assign comma _ ih =>
    rw [List.forall_mem_append, List.forall_mem_cons]
    exact ⟨one assign, by simp [comma], ih⟩

def Divides (k : Kind) : Prop := k ∈ [Kind.identifier, .assign, .comma]

theorem Formula.undivided {level : Level} {e : Node} {t : Token} (value : Formula level ts e)
    (found : t ∈ ts) : ¬ Divides t.kind := by
  have kind := value.kinds t found
  generalize t.kind = k at kind
  revert k
  unfold Divides
  decide

theorem Assign.outside {a : Bytes × Node} {t : Token} {us vs : List Token} (assign : Assign ts a)
    (whole : ts = us ++ t :: vs) (divides : Divides t.kind) : Matched us := by
  cases assign with
  | mk named given value =>
    cases us with
    | nil => exact .none
    | cons u us =>
      obtain ⟨rfl, later⟩ := List.cons.inj whole
      cases us with
      | nil => exact matched_single (by rw [named]; decide)
      | cons v us =>
        obtain ⟨-, rfl⟩ := List.cons.inj later
        exact absurd divides (value.undivided (List.mem_append_right us (List.mem_cons_self ..)))

/-- What divides a list stands outside of parentheses. -/
theorem Assigns.outside {as : List (Bytes × Node)} {t : Token} {us vs : List Token} (list : Assigns ts as)
    (whole : ts = us ++ t :: vs) (divides : Divides t.kind) : Matched us := by
  induction list generalizing us with
  | none => simp at whole
  | last assign => exact assign.outside whole divides
  | more assign sep list ih =>
    rcases split_twice whole with ⟨more, early, -⟩ | ⟨rfl, -⟩ | ⟨more, rfl, later⟩
    · exact assign.outside early divides
    · exact assign.matched
    · exact assign.matched.append (.other (by rw [sep]; decide) (ih later))

theorem Assigns.behind {as : List (Bytes × Node)} {t : Token} {us vs : List Token} (list : Assigns ts as)
    (whole : ts = us ++ t :: vs) (comma : t.kind = .comma) : ∃ bs, Assigns vs bs := by
  have none {ws : List Token} {a : Bytes × Node} (assign : Assign ws a) : t ∉ ws :=
    fun found => assign.kinds t found (by simp [comma])
  induction list generalizing us with
  | none => simp at whole
  | last assign => exact absurd (by simp [whole]) (none assign)
  | more assign sep list ih =>
    rcases split_twice whole with ⟨more, early, -⟩ | ⟨-, -, rfl⟩ | ⟨more, -, later⟩
    · exact absurd (by simp [early]) (none assign)
    · exact ⟨_, list⟩
    · exact ih later

theorem Head.starts {next : Kind} {name : Bytes} {ps : List (Bytes × Node)}
    (head : Head strict next ts name ps) : ∃ t rest, ts = t :: rest ∧ ahead rest .lbrace ≠ .assign := by
  cases head with
  | bare => exact ⟨_, _, rfl, by decide⟩
  | called _ opens => exact ⟨_, _, rfl, by rw [ahead_cons, opens]; decide⟩

theorem Solid.not_assigns {next : Kind} {fs : List Function} {as : List (Bytes × Node)}
    (solid : Solid strict .child next ts fs) (list : Assigns ts as) : False := by
  have starts : ∃ t rest, ts = t :: rest ∧ (t.kind = .lparen ∨ ahead rest .lbrace ≠ .assign) := by
    cases solid with
    | child function =>
      cases function with
      | plain head =>
        obtain ⟨t, rest, split, other⟩ := head.starts
        exact ⟨t, rest, split, .inr other⟩
      | block head opens _ _ =>
        obtain ⟨t, rest, rfl, other⟩ := head.starts
        refine ⟨t, _, rfl, .inr ?_⟩
        rw [List.append_eq, Parser.ahead_append, ahead_cons, opens]
        exact other
    | group opens => exact ⟨_, _, rfl, .inl opens⟩
  obtain ⟨t, rest, rfl, other⟩ := starts
  rcases list.starts with ⟨none, -⟩ | ⟨name, eq, more, same, named, given⟩
  · cases none
  · obtain ⟨rfl, rfl⟩ := List.cons.inj same
    rw [named, ahead_cons, given] at other
    simp at other

theorem Solid.named {part : Part} {next : Kind} {fs : List Function}
    (solid : Solid strict part next ts fs) (some : part ≠ .children) :
    ∃ t ∈ ts, t.kind = .identifier := by
  have named {ts : List Token} {next : Kind} {name : Bytes} {ps : List (Bytes × Node)}
      (head : Head strict next ts name ps) : ∃ t ∈ ts, t.kind = .identifier := by
    cases head with
    | bare named | called named => exact ⟨_, List.mem_cons_self .., named⟩
  induction solid with
  | plain head => exact named head
  | block head =>
    obtain ⟨t, found, is⟩ := named head
    exact ⟨t, List.mem_append_left _ found, is⟩
  | child _ ih => exact ih (by simp)
  | group _ _ _ ih =>
    obtain ⟨t, found, is⟩ := ih (by simp)
    exact ⟨t, by simp [found], is⟩
  | none | more => exact absurd rfl some

theorem Use.of_name (use : Use strict (front ++ [name]) inner) (named : name.kind = .identifier) :
    Fits front .identifier ∧ ∃ as, Assigns inner as := by
  generalize same : front ++ [name] = before at use
  cases use with
  | list _ fits list =>
    obtain ⟨rfl, -⟩ := List.append_inj' same rfl
    exact ⟨fits, _, list⟩
  | operand fits _ | value fits _ =>
    have last := (fits name (by rw [← same]; simp)).2 named
    exact absurd rfl last

theorem Use.of_solid {fs : List Function} (use : Use strict before inner)
    (solid : Solid strict .child .rparen inner fs) : Fits before .lparen := by
  cases use with
  | list _ _ list => exact (solid.not_assigns list).elim
  | operand fits _ | value fits _ => exact fits

theorem Use.of_formula {e : Node} (use : Use strict before inner) (value : Formula .sum inner e) :
    Fits before .lparen := by
  cases use with
  | list _ _ list =>
    rcases list.starts with ⟨rfl, -⟩ | ⟨name, eq, rest, rfl, named, -⟩
    · exact absurd value.filled (by decide)
    · exact absurd (by simp [Divides, named]) (value.undivided (List.mem_cons_self ..))
  | operand fits _ | value fits _ => exact fits

end Kinds

end Grammar

end DistanceField
