import DistanceField.Proofs.Source.Fronts
import DistanceField.Proofs.Source.Heads

/-! The pairs of parentheses around a cursor. -/
namespace DistanceField

namespace Pair

open Grammar Lexer

variable {ts : List Token}

/-- The cursor stands between the two parentheses. -/
def Encloses (p : Pair ts) (c : Int) : Prop := p.left.span.max ≤ c ∧ c ≤ p.right.span.min

/-- No pair around the cursor opens later. -/
def Innermost (p : Pair ts) (c : Int) : Prop :=
  p.Encloses c ∧ ∀ q : Pair ts, q.Encloses c → q.left.span.min ≤ p.left.span.min

def passed (p : Pair ts) (c : Int) : List Token := p.inner.filter fun t => t.span.max ≤ c

theorem mem (p : Pair ts) {t : Token}
    (found : t ∈ p.before ++ p.left :: (p.inner ++ p.right :: p.after)) : t ∈ ts := by
  rw [p.whole]
  exact found

section Cursor

variable {source front part : Bytes} {c : Nat} {pre post : List Token} {t : Token} {b : UInt8}
  (scanned : scan source = .ok ts)

include scanned

theorem mark_width (found : t ∈ ts) (mark : Kind.ofByte? b = some t.kind) :
    t.span.max = t.span.min + 1 := by
  obtain ⟨before, after, placed⟩ := (lexes_of_scan scanned).placed [] rfl found (ofByte?_plain mark).1
  have value := written_single placed.written mark
  rw [placed.span, value]
  rfl

theorem left_width (p : Pair ts) : p.left.span.max = p.left.span.min + 1 :=
  mark_width scanned (b := 40) (p.mem (by simp)) (by rw [p.opens]; rfl)

theorem right_width (p : Pair ts) : p.right.span.max = p.right.span.min + 1 :=
  mark_width scanned (b := 41) (p.mem (by simp)) (by rw [p.closes]; rfl)

theorem before_left (p : Pair ts) (found : t ∈ p.before) : t.span.max ≤ p.left.span.min := by
  have laid : ts.Pairwise fun t u => t.span.max ≤ u.span.min :=
    ordered_of_laid (lexes_of_scan scanned).laid
  rw [p.whole, List.pairwise_append] at laid
  exact laid.2.2 t found p.left (List.mem_cons_self ..)

theorem clean (p : Pair ts) : Clean p.inner := by
  obtain ⟨us, finish, split, clean, -⟩ := tokens_of_scan scanned
  have whole : us ++ [finish] = (p.before ++ p.left :: p.inner) ++ p.right :: p.after := by
    simpa using split.symm.trans p.whole
  have front := congrArg List.dropLast whole
  rw [List.dropLast_concat, List.dropLast_append_of_ne_nil (by simp)] at front
  intro t found
  apply clean
  rw [front]
  simp [found]

variable (cut : Cut 0 source c pre post front part)

include cut

theorem passed_eq (p : Pair ts) {us behind : List Token} (inner : p.inner = us ++ behind)
    (before : ∀ t ∈ us, t ∈ pre) (after : ∀ t ∈ behind, t ∈ post) : p.passed c = us := by
  have clean := p.clean scanned
  have passed := cut.passed
  have ahead := cut.ahead
  rw [Nat.zero_add] at passed ahead
  rw [inner] at clean
  have all : us.filter (fun t => t.span.max ≤ (c : Int)) = us := by
    rw [List.filter_eq_self]
    intro t found
    simpa using passed t (before t found)
  have none : behind.filter (fun t => t.span.max ≤ (c : Int)) = [] := by
    rw [List.filter_eq_nil_iff]
    intro t found
    simpa using ahead t (after t found) (clean t (List.mem_append_right _ found))
  rw [Pair.passed, inner, List.filter_append, all, none, List.append_nil]

variable (split : ts = pre ++ post)

include split

theorem divided (p : Pair ts) (encloses : p.Encloses c) :
    ∃ behind, p.inner = p.passed c ++ behind ∧ pre = p.before ++ p.left :: p.passed c ∧
      post = behind ++ p.right :: p.after := by
  have left : p.left ∉ post := by
    intro found
    have := cut.ahead p.left found (by rw [p.opens]; decide)
    have := encloses.1
    omega
  have right : p.right ∉ pre := by
    intro found
    have := cut.passed p.right found
    have := p.right_width scanned
    have := encloses.2
    omega
  rcases split_append (split.symm.trans p.whole) with ⟨more, before, rest⟩ | ⟨more, -, rfl⟩
  · rcases split_append rest.symm with ⟨extra, rfl, -⟩ | ⟨behind, inner, rfl⟩
    · exact absurd (by simp [before]) right
    · have passed := p.passed_eq scanned cut inner (by simp +contextual [before]) (by simp +contextual)
      exact ⟨behind, by rw [passed, inner], by rw [passed, before], rfl⟩
  · exact absurd (by simp) left

theorem enclosing {before inner behind after : List Token} {l r : Token}
    (left : pre = before ++ l :: inner) (right : post = behind ++ r :: after) (opens : l.kind = .lparen)
    (closes : r.kind = .rparen) (matched : Matched (inner ++ behind)) :
    ∃ q : Pair ts, q.Encloses c ∧ q.passed c = inner ∧ q.before = before ∧ q.left = l ∧
      q.inner = inner ++ behind ∧ q.right = r := by
  have whole : ts = before ++ l :: ((inner ++ behind) ++ r :: after) := by
    rw [split, left, right]
    simp
  let q : Pair ts := ⟨before, l, inner ++ behind, r, after, whole, opens, closes, matched⟩
  refine ⟨q, ⟨?_, ?_⟩, ?_, rfl, rfl, rfl, rfl⟩
  · have := cut.passed l (by simp [left])
    change l.span.max ≤ _
    omega
  · have := cut.ahead r (by simp [right]) (by rw [closes]; decide)
    have : r.span.max = r.span.min + 1 := q.right_width scanned
    change _ ≤ r.span.min
    omega
  · exact q.passed_eq scanned cut rfl (by simp +contextual [left]) (by simp +contextual [right])

theorem depth_passed (p : Pair ts) (encloses : p.Encloses c) : 0 ≤ depth (p.passed c) := by
  obtain ⟨behind, inner, -⟩ := p.divided scanned cut split encloses
  exact Matched.depth_front (inner ▸ p.matched)

theorem not_enclosing (p : Pair ts) (matched : Matched pre) : ¬ p.Encloses c := by
  intro encloses
  have inside := p.depth_passed scanned cut split encloses
  obtain ⟨-, -, before, -⟩ := p.divided scanned cut split encloses
  rw [before] at matched
  have := matched.closed_behind p.opens
  omega

theorem innermost_of_matched (p : Pair ts) (encloses : p.Encloses c) (matched : Matched (p.passed c)) :
    p.Innermost c := by
  refine ⟨encloses, fun q also => ?_⟩
  have inside := q.depth_passed scanned cut split also
  obtain ⟨-, -, before, -⟩ := p.divided scanned cut split encloses
  obtain ⟨-, -, before', -⟩ := q.divided scanned cut split also
  rcases split_twice (before.symm.trans before') with ⟨more, front, -⟩ | ⟨-, same, -⟩ | ⟨more, -, later⟩
  · have := p.before_left scanned (t := q.left) (by simp [front])
    have := q.left_width scanned
    omega
  · rw [same]
  · rw [later] at matched
    have := matched.closed_behind q.opens
    omega

theorem deeper (p : Pair ts) (encloses : p.Encloses c) :
    Matched (p.passed c) ∨ ∃ q : Pair ts, q.Encloses c ∧ Matched (q.passed c) ∧
      ∃ more rest, q.before = p.before ++ p.left :: more ∧
        p.inner = more ++ q.left :: (q.inner ++ q.right :: rest) := by
  obtain ⟨behind, inner, left, right⟩ := p.divided scanned cut split encloses
  rcases Matched.cut (inner ▸ p.matched) with closed |
    ⟨more, l, within, rest, r, after, passed, rfl, opens, closes, matched, pair⟩
  · exact .inl closed
  · rw [passed] at left
    rw [List.append_assoc, List.cons_append] at right
    have order : pre = (p.before ++ p.left :: more) ++ l :: within := by
      rw [left]
      simp
    obtain ⟨q, also, same, before, rfl, whole, rfl⟩ :=
      enclosing scanned cut split order right opens closes pair
    refine .inr ⟨q, also, same ▸ matched, more, after, before, ?_⟩
    rw [inner, passed, whole]
    simp

theorem innermost_iff (p : Pair ts) (encloses : p.Encloses c) :
    p.Innermost c ↔ Matched (p.passed c) := by
  constructor
  · rintro ⟨-, least⟩
    rcases p.deeper scanned cut split encloses with matched | ⟨q, also, -, more, rest, before, -⟩
    · exact matched
    · have := q.before_left scanned (t := p.left) (by simp [before])
      have := least q also
      have := p.left_width scanned
      omega
  · exact p.innermost_of_matched scanned cut split encloses

theorem exists_innermost (matched : Matched ts) :
    Matched pre ∨ ∃ p : Pair ts, p.Innermost c := by
  rw [split] at matched
  rcases matched.cut with closed | ⟨before, l, inner, behind, r, after, left, right, opens, closes,
    within, pair⟩
  · exact .inl closed
  · obtain ⟨p, encloses, passed, -⟩ := enclosing scanned cut split left right opens closes pair
    exact .inr ⟨p, p.innermost_of_matched scanned cut split encloses (passed ▸ within)⟩

theorem laid_out (p : Pair ts) (encloses : p.Encloses c) :
    ∃ first gap inside, front = first ++ (gap ++ 40 :: inside) ∧ Front 0 first p.before ∧
      (∀ b ∈ gap, Bytes.isBlank b = true) ∧
      p.left.span.max = (first.length + gap.length + 1 : Nat) ∧
      Front (first.length + gap.length + 1) inside (p.passed c) := by
  obtain ⟨-, -, before, -⟩ := p.divided scanned cut split encloses
  have whole := cut.front
  rw [before] at whole
  obtain ⟨first, second, rfl, outside, rest⟩ := whole.append
  obtain ⟨gap, inside, rfl, blanks, written, ends, behind⟩ := rest.cons
  rw [p.opens] at written
  rw [written_single written (b := 40) rfl] at ends behind ⊢
  rw [Nat.zero_add] at ends behind
  exact ⟨first, gap, inside, rfl, outside, blanks, ends, behind⟩

end Cursor

end Pair

end DistanceField
