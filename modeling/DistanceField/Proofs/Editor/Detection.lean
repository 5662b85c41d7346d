import DistanceField.Proofs.Editor.Search
import DistanceField.Proofs.Source.Enclosing

/-! The call that the editor detects at a cursor, against the innermost pair of parentheses that the
parser has around it. -/
namespace DistanceField

namespace Pair

variable {ts : List Token}

def commas (p : Pair ts) (c : Int) : List Token := (p.passed c).filter Editor.isComma

/-- The tokens of the argument at the cursor that stand before it. -/
def argument (p : Pair ts) (c : Int) : List Token := (p.passed c).rtakeWhile fun t => !Editor.isComma t

/-- The cursor stands behind the equals sign of its argument. -/
def inValue (p : Pair ts) (c : Int) : Bool := (p.argument c).any fun t => t.kind == .assign

/-- The name of the argument at the cursor, or its text so far when that is not behind the name. -/
def param (p : Pair ts) (source : Bytes) (c : Int) : Bytes :=
  if p.inValue c then ((p.argument c).head?.map Token.value).getD []
  else Letter.trim (Interval.text ⟨Parser.reach p.left.span.max (p.commas c), c⟩ source)

end Pair

namespace Editor

open Grammar Lexer

variable {source : Bytes} {c : Nat}

theorem clampCursor_inside (within : c ≤ source.length) : clampCursor source c = c := by
  simp only [clampCursor]
  omega

theorem callAt?_none (within : c ≤ source.length)
    (found : beforeOpen? 0 (source.take c).reverse = none) : callAt? source c = none := by
  rw [callAt?, clampCursor_inside within]
  simp [found]

theorem callAt?_nameless {text : Bytes} (within : c ≤ source.length)
    (found : beforeOpen? 0 (source.take c).reverse = some text.reverse)
    (nameless : nameBefore text = []) : callAt? source c = none := by
  rw [callAt?, clampCursor_inside within]
  simp [found, nameless]

theorem callAt?_some {text inside arg : Bytes} {index : Nat} (within : c ≤ source.length)
    (whole : source.take c = text ++ 40 :: inside)
    (found : beforeOpen? 0 (source.take c).reverse = some text.reverse)
    (named : nameBefore text ≠ []) (last : lastArgument 0 0 [] inside = (index, arg.reverse)) :
    callAt? source c = some ⟨nameBefore text, Letter.trim (arg.takeWhile (· != 61)), index,
      (arg.takeWhile (· != 61)).length < arg.length⟩ := by
  rw [callAt?, clampCursor_inside within]
  have behind : (source.take c).drop (text.length + 1) = inside := by
    rw [whole]
    simp
  simp [found, named, behind, last]

theorem last_comma (us : List Token) :
    (us.rtakeWhile (fun t => !isComma t) = us ∨ ∃ before t, isComma t = true ∧
      us = before ++ t :: us.rtakeWhile fun t => !isComma t) ∧
    ∀ t ∈ us.rtakeWhile (fun t => !isComma t), isComma t = false := by
  induction us using List.reverseRecOn with
  | nil => simp
  | append_singleton us t ih =>
    obtain ⟨split, none⟩ := ih
    cases is : isComma t with
    | true =>
      rw [List.rtakeWhile_concat_neg _ us t (by simp [is])]
      exact ⟨.inr ⟨us, t, is, rfl⟩, by simp⟩
    | false =>
      rw [List.rtakeWhile_concat_pos _ us t (by simp [is])]
      refine ⟨?_, List.forall_mem_append.mpr ⟨none, List.forall_mem_singleton.mpr is⟩⟩
      rcases split with all | ⟨before, u, comma, split⟩
      · exact .inl (by rw [all])
      · refine .inr ⟨before, u, comma, ?_⟩
        rw [← List.cons_append, ← List.append_assoc, ← split]

section Detecting

variable {ts : List Token} {part inside own : Bytes} {p : Pair ts} {pos lead : Nat}

/-- The argument at a cursor in a parameter list, as the editor cuts it out of the text. -/
structure Current (p : Pair ts) (c : Nat) (inside part own : Bytes) (lead : Nat) : Prop where
  found : lastArgument 0 0 [] (inside ++ part) = ((p.commas c).length, (own ++ part).reverse)
  text : ∃ before, inside = before ++ own ∧ p.left.span.max + before.length = lead
  front : Front lead own (p.argument c)
  start : Parser.reach p.left.span.max (p.commas c) = lead

theorem lastArgument_own (spelled : Front pos own (p.argument c))
    (plain : ∀ b ∈ part, Kind.ofByte? b = none) (index : Nat) :
    lastArgument 0 index [] (own ++ part) = (index, (own ++ part).reverse) := by
  have quiet : (44 : UInt8) ∉ part := by
    intro found
    have := plain 44 found
    cases this
  have avoids : (44 : UInt8) ∉ own := by
    refine spelled.avoids (j := .comma) rfl fun t found => ?_
    simpa [isComma] using (last_comma (p.passed c)).2 t found
  rw [lastArgument_flat (by simp [avoids, quiet]), List.append_nil]

theorem lastArgument_behind {as : List (Bytes × Node)} {before after : List Token} {t : Token}
    {text gap : Bytes} (outer : Front pos text before) (list : Assigns (before ++ t :: after) as)
    (comma : t.kind = .comma) (blanks : ∀ b ∈ gap, Bytes.isBlank b = true) (rest : Bytes) :
    lastArgument 0 0 [] (text ++ (gap ++ 44 :: rest)) =
      lastArgument 0 ((before.filter isComma).length + 1) [] rest := by
  have outside : ∀ us s vs, before = us ++ s :: vs → s.kind = .comma → 0 + depth us = 0 := by
    rintro us s vs rfl also
    rw [List.append_assoc, List.cons_append] at list
    rw [(list.outside rfl (by rw [also]; simp [Divides])).depth_eq, Int.zero_add]
  have matched := list.outside rfl (by rw [comma]; simp [Divides])
  obtain ⟨last, passes⟩ := lastArgument_front outer outside 0 [] (gap ++ 44 :: rest)
  rw [passes, matched.depth_eq, lastArgument_blanks blanks, Int.zero_add, lastArgument_comma,
    ← List.countP_eq_length_filter, Nat.zero_add]

theorem current {as : List (Bytes × Node)} (spelled : Front pos inside (p.passed c))
    (place : p.left.span.max = pos) (plain : ∀ b ∈ part, Kind.ofByte? b = none)
    {behind : List Token} (list : Assigns (p.passed c ++ behind) as) :
    ∃ own lead, Current p c inside part own lead ∧ ∃ bs, Assigns (p.argument c ++ behind) bs := by
  obtain ⟨split, none⟩ := last_comma (p.passed c)
  have none : ∀ t ∈ p.argument c, isComma t = false := none
  have nothing : (p.argument c).filter isComma = [] := by
    rw [List.filter_eq_nil_iff]
    simpa using none
  rcases split with all | ⟨before, t, comma, split⟩
  · have argument : p.argument c = p.passed c := all
    have commas : p.commas c = [] := by rw [Pair.commas, ← argument, nothing]
    rw [← argument] at spelled list
    refine ⟨inside, pos, ⟨?_, ⟨[], rfl, by simpa using place⟩, spelled, ?_⟩, as, list⟩
    · rw [commas]
      exact lastArgument_own spelled plain 0
    · rw [commas]
      exact place
  · have is : t.kind = .comma := by simpa [isComma] using comma
    have split : p.passed c = before ++ t :: p.argument c := split
    have commas : p.commas c = before.filter isComma ++ [t] := by
      rw [Pair.commas, split, List.filter_append, List.filter_cons_of_pos comma, nothing]
    rw [split] at spelled list
    rw [List.append_assoc, List.cons_append] at list
    have rest := list.behind rfl is
    obtain ⟨text, second, rfl, outer, later⟩ := spelled.append
    obtain ⟨gap, own, rfl, blanks, written, ends, later⟩ := later.cons
    rw [is] at written
    rw [written_single written (b := 44) rfl] at ends later ⊢
    refine ⟨own, pos + text.length + gap.length + 1, ⟨?_, ?_, later, ?_⟩, rest⟩
    · have order : text ++ (gap ++ ([44] ++ own)) ++ part = text ++ (gap ++ 44 :: (own ++ part)) := by
        simp
      rw [order, lastArgument_behind outer list is blanks, lastArgument_own later plain, commas,
        List.length_append]
      rfl
    · exact ⟨text ++ (gap ++ [44]), by simp, by simp [place]; omega⟩
    · rw [commas, Parser.reach_append]
      exact ends

theorem named_argument {bs : List (Bytes × Node)} {us behind : List Token}
    (list : Assigns (us ++ behind) bs) (given : us.any (fun t => t.kind == .assign) = true) :
    ∃ name eq rest, us = name :: eq :: rest ∧ name.kind = .identifier ∧ eq.kind = .assign := by
  rcases list.starts with ⟨none, -⟩ | ⟨name, eq, rest, split, named, equals⟩
  · rw [(List.append_eq_nil_iff.mp none).1] at given
    cases given
  · cases us with
    | nil => cases given
    | cons t us =>
      obtain ⟨rfl, more⟩ := List.cons.inj split
      cases us with
      | nil => simp [named] at given
      | cons u us =>
        obtain ⟨rfl, -⟩ := List.cons.inj more
        exact ⟨t, u, us, rfl, named, equals⟩

theorem Current.inValue {behind : List Token} {bs : List (Bytes × Node)}
    (current : Current p c inside part own lead) (list : Assigns (p.argument c ++ behind) bs)
    (value : p.inValue c = true) (source : Bytes) :
    Letter.trim ((own ++ part).takeWhile (· != 61)) = p.param source c ∧
      ((own ++ part).takeWhile (· != 61)).length < (own ++ part).length := by
  obtain ⟨name, eq, rest, split, named, equals⟩ := named_argument list value
  have spelled := current.front
  rw [split] at spelled
  obtain ⟨before, second, rfl, blanks, word, -, spelled⟩ := spelled.cons
  obtain ⟨gap, third, rfl, spaces, written, -, -⟩ := spelled.cons
  rw [named] at word
  rw [equals] at written
  have param : p.param source c = name.value := by
    rw [Pair.param, if_pos value, split]
    rfl
  have order : before ++ (name.value ++ (gap ++ (eq.value ++ third))) ++ part =
      (before ++ (name.value ++ gap)) ++ 61 :: (third ++ part) := by
    simp [written_single written (b := 61) rfl]
  have free : ∀ b ∈ before ++ (name.value ++ gap), (b != 61) = true := by
    simp only [List.forall_mem_append, bne_iff_ne]
    refine ⟨fun b found => ?_, fun b found => ?_, fun b found => ?_⟩
    · exact blank_avoids (blanks b found) (j := .assign) rfl
    · rintro rfl
      exact written_avoids word (j := .assign) rfl (by decide) found
    · exact blank_avoids (spaces b found) (j := .assign) rfl
  rw [order, List.takeWhile_append_of_pos free, List.takeWhile_cons_of_neg (by simp), List.append_nil,
    trim_word blanks word spaces, param]
  exact ⟨rfl, by simp⟩

theorem Current.inName {text : Bytes} (current : Current p c inside part own lead)
    (whole : source.take c = text ++ 40 :: (inside ++ part))
    (place : p.left.span.max = (text.length + 1 : Nat)) (plain : ∀ b ∈ part, Kind.ofByte? b = none)
    (value : p.inValue c = false) :
    Letter.trim ((own ++ part).takeWhile (· != 61)) = p.param source c ∧
      ¬ ((own ++ part).takeWhile (· != 61)).length < (own ++ part).length := by
  have free : ∀ b ∈ own ++ part, (b != 61) = true := by
    simp only [List.forall_mem_append, bne_iff_ne]
    refine ⟨?_, ?_⟩
    · rintro b found rfl
      refine current.front.avoids (j := .assign) rfl (fun t member => ?_) found
      simpa using List.any_eq_false.mp value t member
    · rintro b found rfl
      have := plain 61 found
      cases this
  have shown : Interval.text ⟨Parser.reach p.left.span.max (p.commas c), c⟩ source = own ++ part := by
    obtain ⟨before, rfl, start⟩ := current.text
    have long : text.length + 1 + before.length = lead := by
      rw [place] at start
      omega
    have reached : lead ≤ c := by
      have := congrArg List.length whole
      rw [List.length_take, List.length_append, List.length_cons] at this
      simp only [List.length_append] at this
      omega
    have filled : Interval.isEmpty ⟨lead, c⟩ = false := by
      simp only [Interval.isEmpty, Bool.or_eq_false_iff, decide_eq_false_iff_not]
      omega
    have order : text ++ 40 :: (before ++ own ++ part) = (text ++ 40 :: before) ++ (own ++ part) := by
      simp
    rw [current.start, Interval.text, filled]
    simp only [Bool.false_eq_true, if_false, Int.toNat_natCast]
    rw [whole, order, List.drop_left' (by simp; omega)]
  rw [List.takeWhile_eq_self_iff.mpr free, Pair.param, value, shown]
  exact ⟨rfl, by simp⟩

variable {pre post : List Token} {front : Bytes} (scanned : scan source = .ok ts)
  (cut : Cut 0 source c pre post front part) (split : ts = pre ++ post)

include cut

theorem beforeOpen?_part : beforeOpen? 0 (source.take c).reverse = beforeOpen? 0 front.reverse := by
  have silent : ∀ b ∈ part.reverse, Silent b :=
    fun b found => silent_of_plain (cut.part b (List.mem_reverse.mp found))
  rw [cut.text, List.reverse_append, beforeOpen?_silent silent]

include scanned split

/-- The search at a cursor in an innermost pair: it ends at the parenthesis that opens, or at a brace
behind it. -/
theorem beforeOpen?_pair (encloses : p.Encloses c) (matched : Matched (p.passed c)) :
    ∃ first gap inside, source.take c = first ++ gap ++ 40 :: (inside ++ part) ∧
      Front 0 first p.before ∧ (∀ b ∈ gap, Bytes.isBlank b = true) ∧
      p.left.span.max = ((first ++ gap).length + 1 : Nat) ∧
      Front ((first ++ gap).length + 1) inside (p.passed c) ∧
      (beforeOpen? 0 (source.take c).reverse = some (first ++ gap).reverse ∨
        (∃ t ∈ p.passed c, t.kind ∈ [Kind.lbrace, .rbrace]) ∧
          beforeOpen? 0 (source.take c).reverse = none) := by
  obtain ⟨first, gap, inside, rfl, outside, blanks, place, spelled⟩ :=
    p.laid_out scanned cut split encloses
  rw [← List.length_append] at place spelled
  have order : source.take c = first ++ gap ++ 40 :: (inside ++ part) := by
    rw [cut.text]
    simp
  have backwards : (first ++ (gap ++ 40 :: inside)).reverse =
      inside.reverse ++ 40 :: (first ++ gap).reverse := by
    simp
  refine ⟨first, gap, inside, order, outside, blanks, place, spelled, ?_⟩
  rw [beforeOpen?_part cut, backwards]
  exact (beforeOpen?_matched spelled matched).imp_left fun passes => passes.trans rfl

variable (within : c ≤ source.length)

include within

omit scanned split in
theorem callAt?_outside (matched : Matched pre) : callAt? source c = none := by
  apply callAt?_none within
  rw [beforeOpen?_part cut, ← List.append_nil front.reverse]
  rcases beforeOpen?_matched cut.front matched with passes | ⟨-, none⟩
  · rw [passes]
    rfl
  · exact none

theorem callAt?_group (encloses : p.Encloses c) (matched : Matched (p.passed c))
    (fits : Fits p.before .lparen) : callAt? source c = none := by
  obtain ⟨first, gap, inside, -, outside, blanks, -, -, found | ⟨-, none⟩⟩ :=
    beforeOpen?_pair scanned cut split encloses matched
  · exact callAt?_nameless within found (nameBefore_none outside blanks fits)
  · exact callAt?_none within none

theorem callAt?_list {us : List Token} {name : Token} {as : List (Bytes × Node)}
    (encloses : p.Encloses c) (matched : Matched (p.passed c)) (before : p.before = us ++ [name])
    (named : name.kind = .identifier) (fits : Fits us .identifier) (list : Assigns p.inner as) :
    callAt? source c = some ⟨name.value, p.param source c, (p.commas c).length, p.inValue c⟩ := by
  obtain ⟨behind, inner, -⟩ := p.divided scanned cut split encloses
  obtain ⟨first, gap, inside, order, outside, blanks, place, spelled, found⟩ :=
    beforeOpen?_pair scanned cut split encloses matched
  have braceless := list.braceless
  rw [inner] at list braceless
  have found : beforeOpen? 0 (source.take c).reverse = some (first ++ gap).reverse := by
    rcases found with found | ⟨⟨t, member, brace⟩, -⟩
    · exact found
    · exact absurd brace (braceless t (List.mem_append_left _ member))
  rw [before] at outside
  have called := nameBefore_name outside blanks named fits
  have word : Written .identifier name.value := named ▸ outside.proper name (by simp)
  obtain ⟨own, lead, current, bs, rest⟩ := current spelled place cut.part list
  rw [callAt?_some within order found (by rw [called]; exact word.1) current.found, called]
  cases value : p.inValue c with
  | true =>
    obtain ⟨param, less⟩ := current.inValue rest value source
    rw [param, decide_eq_true less]
  | false =>
    obtain ⟨param, same⟩ := current.inName order place cut.part value
    rw [param, decide_eq_false same]

theorem callAt?_listOf {strict : Bool} {f : Function} (used : Used strict [] ts) (list : p.ListOf f)
    (encloses : p.Encloses c) (matched : Matched (p.passed c)) :
    callAt? source c = some ⟨f.name, p.param source c, (p.commas c).length, p.inValue c⟩ := by
  obtain ⟨us, name, before, named, called, fits, as, given⟩ := list.given used
  rw [← called]
  exact callAt?_list scanned cut split within encloses matched before named fits given

omit within in
theorem grouped_open {q : Pair ts} (value : q.GroupsValue) (around : q.Encloses c)
    (encloses : p.Encloses c) (given : p.inValue c = true) : ¬ Matched (p.passed c) := by
  obtain ⟨e, value⟩ := value
  obtain ⟨t, found, is⟩ := List.any_eq_true.mp given
  have found : t ∈ p.passed c := (List.rtakeWhile_suffix _ _).subset found
  have is : t.kind = .assign := by simpa using is
  obtain ⟨-, -, before, -⟩ := p.divided scanned cut split encloses
  obtain ⟨behind, inner, before', -⟩ := q.divided scanned cut split around
  have missing : t ∉ q.passed c := by
    intro member
    have member : t ∈ q.inner := inner ▸ List.mem_append_left _ member
    exact value.undivided member (by simp [Divides, is])
  have inside := q.depth_passed scanned cut split around
  intro matched
  -- The equals sign is not in `q`, so `q` opens behind it, and is still open.
  rcases split_twice (before.symm.trans before') with ⟨more, -, later⟩ | ⟨-, -, same⟩ | ⟨more, -, later⟩
  · exact missing (by simp [later, found])
  · exact missing (same ▸ found)
  · rw [later] at matched
    have := matched.closed_behind q.opens
    omega

end Detecting

section Accepted

variable {strict : Bool} {d : Document}

/-- The call at a cursor is that of the parameter list around it. There is none where no pair is
around the cursor, nor where the innermost one groups. -/
theorem call_agrees_with_parse (accepted : (parse strict source).result = .ok d) :
    ∃ ts, scan source = .ok ts ∧
      (∀ p : Pair ts, ((∃ f ∈ d.functions, p.ListOf f) ∧ ∃ as, Assigns p.inner as) ∨
        p.GroupsOperand strict ∨ p.GroupsValue) ∧
      ∀ c : Nat, c ≤ source.length →
        ((∃ p : Pair ts, p.Innermost c) ∨
          (∀ p : Pair ts, ¬ p.Encloses c) ∧ callAt? source c = none) ∧
        ∀ p : Pair ts, p.Innermost c →
          (∀ f ∈ d.functions, p.ListOf f → callAt? source c =
            some ⟨f.name, p.param source c, (p.commas c).length, p.inValue c⟩) ∧
          (p.GroupsOperand strict ∨ p.GroupsValue → callAt? source c = none) := by
  obtain ⟨ts, scanned, read⟩ := parse_ok accepted
  obtain ⟨matched, used⟩ := accepted_pairs scanned read
  refine ⟨ts, scanned, accepted_uses scanned read, fun c within => ?_⟩
  obtain ⟨pre, post, front, part, split, cut⟩ := (lexes_of_scan scanned).cut c
  constructor
  · rcases Pair.exists_innermost scanned cut split matched with closed | innermost
    · exact .inr ⟨fun p => p.not_enclosing scanned cut split closed, callAt?_outside cut within closed⟩
    · exact .inl innermost
  · intro p innermost
    have encloses := innermost.1
    have closed := (p.innermost_iff scanned cut split encloses).mp innermost
    constructor
    · intro f _ list
      exact callAt?_listOf scanned cut split within used list encloses closed
    · intro groups
      apply callAt?_group scanned cut split within encloses closed
      rcases groups with ⟨fs, solid⟩ | ⟨e, value⟩
      · exact (p.use used).of_solid solid
      · exact (p.use used).of_formula value

/-- In `y=3` of the text, behind an argument with parentheses that are closed. -/
theorem call_agrees_with_parse_packed :
    ∃ d ts, (parse false packed).result = .ok d ∧ scan packed = .ok ts ∧
      ∃ p : Pair ts, p.Innermost 15 ∧ ∃ f ∈ d.functions, p.ListOf f ∧ f.name = "a" ∧
        p.param packed 15 = "y" ∧ (p.commas 15).length = 1 ∧ p.inValue 15 = true := by
  have ok : (parse false packed).result.isOk = true := by decide +kernel
  have call : callAt? packed 15 = some ⟨"a", "y", 1, true⟩ := by decide +kernel
  cases accepted : (parse false packed).result with
  | error c =>
    rw [accepted] at ok
    cases ok
  | ok d =>
    obtain ⟨ts, scanned, uses, calls⟩ := call_agrees_with_parse accepted
    obtain ⟨⟨p, innermost⟩ | ⟨-, none⟩, calls⟩ := calls 15 (by decide)
    · obtain ⟨lists, groups⟩ := calls p innermost
      rcases uses p with ⟨⟨f, found, list⟩, -⟩ | grouping
      · have same := call.symm.trans (lists f found list)
        injection same with same
        injection same with name param commas value
        exact ⟨d, ts, rfl, scanned, p, innermost, f, found, list, name.symm, param.symm, commas.symm,
          value.symm⟩
      · cases call.symm.trans (groups grouping)
    · cases call.symm.trans none

/-- Behind the equals sign of an argument nothing is offered, unless parentheses group the part of its
value around the cursor: no call is found there, so the names of shapes are. -/
theorem value_offers_unless_grouped (accepted : (parse strict source).result = .ok d) :
    ∃ ts, scan source = .ok ts ∧
      ∀ p : Pair ts, ∀ f ∈ d.functions, p.ListOf f → ∀ c : Nat, c ≤ source.length → p.Encloses c →
        p.inValue c = true →
        ((∀ q : Pair ts, q.GroupsValue → ¬ q.Encloses c) →
          callAt? source c = some ⟨f.name, p.param source c, (p.commas c).length, true⟩ ∧
            candidates source c = []) ∧
        ((∃ q : Pair ts, q.GroupsValue ∧ q.Encloses c) →
          callAt? source c = none ∧ candidates source c = shapeNames) := by
  obtain ⟨ts, scanned, read⟩ := parse_ok accepted
  obtain ⟨-, used⟩ := accepted_pairs scanned read
  refine ⟨ts, scanned, fun p f _ list c within encloses value => ?_⟩
  obtain ⟨pre, post, front, part, split, cut⟩ := (lexes_of_scan scanned).cut c
  -- What opens in the list before the cursor is closed there, or it groups a part of the value.
  rcases p.deeper scanned cut split encloses with closed | ⟨q, around, closed, more, rest, before, inner⟩
  · have call := callAt?_listOf scanned cut split within used list encloses closed
    rw [value] at call
    constructor
    · intro _
      exact ⟨call, by simp [candidates, call]⟩
    · rintro ⟨q, groups, around⟩
      exact absurd closed (grouped_open scanned cut split groups around encloses value)
  · obtain ⟨-, -, -, -, -, -, as, given⟩ := list.given used
    obtain ⟨fits, groups⟩ := Pair.groups_within used given before inner
    have call := callAt?_group scanned cut split within around closed fits
    constructor
    · intro ungrouped
      exact absurd around (ungrouped q groups)
    · intro _
      exact ⟨call, by simp [candidates, call]⟩

def grouped : Bytes := "box(x=(1+2))"

def groupedTokens : List Token :=
  [⟨.identifier, "box", ⟨0, 3⟩⟩, ⟨.lparen, "(", ⟨3, 4⟩⟩, ⟨.identifier, "x", ⟨4, 5⟩⟩,
    ⟨.assign, "=", ⟨5, 6⟩⟩, ⟨.lparen, "(", ⟨6, 7⟩⟩, ⟨.number, "1", ⟨7, 8⟩⟩, ⟨.plus, "+", ⟨8, 9⟩⟩,
    ⟨.number, "2", ⟨9, 10⟩⟩, ⟨.rparen, ")", ⟨10, 11⟩⟩, ⟨.rparen, ")", ⟨11, 12⟩⟩, .finish 12]

def groupedSum : Pair groupedTokens where
  before := groupedTokens.take 4
  left := ⟨.lparen, "(", ⟨6, 7⟩⟩
  inner := [⟨.number, "1", ⟨7, 8⟩⟩, ⟨.plus, "+", ⟨8, 9⟩⟩, ⟨.number, "2", ⟨9, 10⟩⟩]
  right := ⟨.rparen, ")", ⟨10, 11⟩⟩
  after := groupedTokens.drop 9
  whole := rfl
  opens := rfl
  closes := rfl
  matched := .other (by decide) (.other (by decide) (.other (by decide) .none))

def groupedList : Pair groupedTokens where
  before := groupedTokens.take 1
  left := ⟨.lparen, "(", ⟨3, 4⟩⟩
  inner := ⟨.identifier, "x", ⟨4, 5⟩⟩ :: ⟨.assign, "=", ⟨5, 6⟩⟩ :: groupedSum.left ::
    (groupedSum.inner ++ [groupedSum.right])
  right := ⟨.rparen, ")", ⟨11, 12⟩⟩
  after := [.finish 12]
  whole := rfl
  opens := rfl
  closes := rfl
  matched := .other (by decide) (.other (by decide) (groupedSum.matched.wrapped rfl rfl))

theorem grouped_scanned : scan grouped = .ok groupedTokens := by decide +kernel

theorem grouped_accepted :
    ∃ d, (parse false grouped).result = .ok d ∧ ∃ f ∈ d.functions, groupedList.ListOf f := by
  have ok : (parse false grouped).result.isOk = true := by decide +kernel
  cases accepted : (parse false grouped).result with
  | error c =>
    rw [accepted] at ok
    cases ok
  | ok d =>
    obtain ⟨ts, scanned, read⟩ := parse_ok accepted
    obtain rfl := Except.ok.inj (grouped_scanned.symm.trans scanned)
    have named : groupedList.before = [] ++ [⟨.identifier, "box", ⟨0, 3⟩⟩] := rfl
    exact ⟨d, rfl, accepted_lists scanned read groupedList named rfl⟩

/-- Before the parentheses nothing is offered, behind `(` all shapes are. -/
theorem value_offers_grouped :
    callAt? grouped 6 = some ⟨"box", "x", 0, true⟩ ∧ candidates grouped 6 = [] ∧
      callAt? grouped 7 = none ∧ candidates grouped 7 = shapeNames := by
  obtain ⟨d, accepted, f, found, list⟩ := grouped_accepted
  obtain ⟨ts, scanned, offers⟩ := value_offers_unless_grouped accepted
  obtain rfl := Except.ok.inj (grouped_scanned.symm.trans scanned)
  have sum : groupedSum.GroupsValue :=
    ⟨_, .sum (.term (.factor (.number rfl))) (.inl rfl) (.factor (.number rfl))⟩
  have call : callAt? grouped 6 = some ⟨"box", "x", 0, true⟩ := by decide +kernel
  obtain ⟨outside, inside⟩ :=
    offers groupedList f found list 6 (by decide) ⟨by decide, by decide⟩ (by decide +kernel)
  obtain ⟨-, nothing⟩ := outside fun q groups around => by
    cases call.symm.trans (inside ⟨q, groups, around⟩).1
  obtain ⟨-, inside⟩ :=
    offers groupedList f found list 7 (by decide) ⟨by decide, by decide⟩ (by decide +kernel)
  exact ⟨call, nothing, inside ⟨groupedSum, sum, by decide, by decide⟩⟩

/-- Behind the equals sign of `x`, yet no call is found and names are offered. -/
theorem grouped_value_offered :
    ∃ d ts, (parse false grouped).result = .ok d ∧ scan grouped = .ok ts ∧
      ∃ p : Pair ts, (∃ f ∈ d.functions, p.ListOf f) ∧ p.Encloses 7 ∧ p.inValue 7 = true ∧
        callAt? grouped 7 = none ∧ Bytes.ofString "box" ∈ candidates grouped 7 := by
  obtain ⟨d, accepted, list⟩ := grouped_accepted
  have none : callAt? grouped 7 = none := by decide +kernel
  refine ⟨d, groupedTokens, accepted, grouped_scanned, groupedList, list, ⟨by decide, by decide⟩,
    by decide +kernel, none, ?_⟩
  simp only [candidates, none, shapeNames, Bytes.sorted, List.mem_mergeSort]
  decide

end Accepted

end Editor

end DistanceField
