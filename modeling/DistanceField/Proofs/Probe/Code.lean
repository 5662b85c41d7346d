import DistanceField.Proofs.Probe.Constant

/-! The expressions that the texts of distances are read as, and their values. -/
namespace DistanceField.Probe

open Shader Decimal

theorem isWord_glyph : ∀ b : UInt8, Definition.isWord b = true →
    (b < 128 ∧ b ≠ 59) ∧ Token.isWord (glyph b) = true := by
  decide +kernel

structure Free (w : Bytes) : Prop where
  word : w.all Definition.isWord = true
  starts : ∃ b rest, w = b :: rest ∧ starting (glyph b) = true
  known : Token.ofWord? w = some (.name w)
  free : Reader.constant? w = none

theorem Free.isWord {w : Bytes} (free : Free w) {b : UInt8} (found : b ∈ w) :
    Definition.isWord b = true := List.all_eq_true.mp free.word b found

theorem Free.name {w : Bytes} (free : Free w) : Name w := by
  refine ⟨fun b found => (isWord_glyph b (free.isWord found)).1, ?_, ?_, free.known⟩
  · obtain ⟨b, rest, rfl, starts⟩ := free.starts
    exact ⟨_, _, rfl, starts⟩
  · intro c found
    obtain ⟨b, member, rfl⟩ := List.mem_map.mp found
    exact (isWord_glyph b (free.isWord member)).2

theorem free_builtin (b : Builtin) : Free b.name := by
  cases b <;> exact ⟨by decide, ⟨_, _, rfl, by decide +kernel⟩, rfl, rfl⟩

theorem free_point : Free point := ⟨by decide, ⟨_, _, rfl, by decide +kernel⟩, rfl, rfl⟩

theorem helperName_eq (i : Nat) : ∃ d ds, Write.helperName i = 102 :: d :: ds ∧
    Bytes.ofNat i = d :: ds ∧ Read.AllDigits (d :: ds) := by
  have all : Read.AllDigits (Bytes.ofNat i) := fun _ => isDigit_of_mem_ofNat
  have some : Bytes.ofNat i ≠ [] := by simp [Bytes.ofNat]
  obtain ⟨d, ds, same⟩ := List.exists_cons_of_ne_nil some
  exact ⟨d, ds, congrArg (102 :: ·) same, same, same ▸ all⟩

theorem helperName_ne_point (i : Nat) : Write.helperName i ≠ point := by
  obtain ⟨d, ds, same, -⟩ := helperName_eq i
  rw [same]
  intro equal
  exact absurd (List.cons.inj equal).1 (by decide)

theorem isWord_of_isDigit : ∀ b : UInt8, Read.isDigit b = true → Definition.isWord b = true := by
  decide +kernel

theorem not_letter {d : UInt8} (digit : Read.isDigit d = true) : (d == 97) = false := by
  rw [beq_eq_false_iff_ne]
  rintro rfl
  exact absurd digit (by decide)

theorem free_helper (i : Nat) : Free (Write.helperName i) := by
  obtain ⟨d, ds, same, -, all⟩ := helperName_eq i
  rw [same]
  refine ⟨?_, ⟨_, _, rfl, by decide +kernel⟩, rfl, ?_⟩
  · refine List.all_eq_true.mpr (List.forall_mem_cons.mpr ⟨rfl, fun b found => ?_⟩)
    exact isWord_of_isDigit b (all b found)
  · -- of the names that are values, only `false` starts like a helper
    have other := not_letter (all d (List.mem_cons_self ..))
    have apart : (102 :: d :: ds == Bytes.ofString "false") = false := by
      show (true && (d == 97 && _)) = false
      rw [other]
      rfl
    rw [Reader.constant?, apart]
    rfl

theorem arguments_spelled {texts : List Bytes} {es : List Expr} (some : texts ≠ [])
    (all : List.Forall₂ Argument texts es) :
    ∃ ts, Spells (Bytes.join "," texts ++ [41]) ts ∧ Listed ts es := by
  induction all with
  | nil => exact absurd rfl some
  | @cons text e texts es first rest ih =>
    obtain ⟨ts, spells, argument⟩ := first
    cases rest with
    | nil =>
      exact ⟨_, spells.append (.mark mark_rparen .nil) (mark_rparen.loose []), .last argument⟩
    | @cons more f texts es second rest =>
      obtain ⟨us, behind, list⟩ := ih nofun
      have joined : Bytes.join "," (text :: more :: texts) ++ [41] =
          text ++ 44 :: (Bytes.join "," (more :: texts) ++ [41]) := by
        rw [Bytes.join, List.append_assoc, List.append_assoc]
        · rfl
        · nofun
      rw [joined]
      exact ⟨_, spells.append (.mark mark_comma behind) (mark_comma.loose _), .more argument list⟩

theorem call_operand {w : Bytes} (free : Free w) {texts : List Bytes} {es : List Expr}
    (some : texts ≠ []) (all : List.Forall₂ Argument texts es) :
    Operand (Write.call w texts) (.call w es) := by
  obtain ⟨ts, spells, list⟩ := arguments_spelled some all
  have text : Write.call w texts = w ++ 40 :: (Bytes.join "," texts ++ [41]) := by
    rw [Write.call, List.append_assoc, List.append_assoc]
    rfl
  rw [text]
  exact ⟨_, (Spells.word free.name).append (.mark mark_lparen spells) (mark_lparen.loose _),
    .call free.free list⟩

theorem Argument.difference {left right : Bytes} {a b : Expr} (first : Operand left a)
    (second : Operand right b) : Argument (left ++ 45 :: right) (.binary .sub a b) := by
  obtain ⟨ts, spells, atom⟩ := first
  obtain ⟨us, more, other⟩ := second
  exact ⟨_, spells.append (.mark mark_minus more) (mark_minus.loose _), .difference atom other⟩

theorem Argument.scaled {left right : Bytes} {a b : Expr} (first : Operand left a)
    (second : Operand right b) : Argument (left ++ 42 :: right) (.binary .mul a b) := by
  obtain ⟨ts, spells, atom⟩ := first
  obtain ⟨us, more, other⟩ := second
  exact ⟨_, spells.append (.mark mark_star more) (mark_star.loose _), .scaled atom other⟩

theorem Argument.group {text : Bytes} {e : Expr} (argument : Argument text e) :
    Operand (40 :: (text ++ [41])) e := by
  obtain ⟨ts, spells, whole⟩ := argument
  exact ⟨_, .mark mark_lparen (spells.append (.mark mark_rparen .nil) (mark_rparen.loose [])),
    .group whole⟩

theorem name_operand {w : Bytes} (free : Free w) : Operand w (.name w) :=
  ⟨_, .word free.name, .name free.free⟩

theorem free_selection {sel : Bytes} (known : sel ∈ [[120], [121], [122], [120, 121]]) :
    Free sel := by
  simp only [List.mem_cons, List.not_mem_nil, or_false] at known
  rcases known with rfl | rfl | rfl | rfl <;>
    exact ⟨by decide, ⟨_, _, rfl, by decide +kernel⟩, rfl, rfl⟩

def part (sel : Bytes) : Expr := .member (.name point) sel

theorem part_operand (sel : Bytes) (known : sel ∈ [[120], [121], [122], [120, 121]]) :
    Operand (point ++ 46 :: sel) (part sel) :=
  ⟨_, .member free_point.name (free_selection known).name, .member free_point.free sel⟩

namespace Code

def number (v : Float) : Expr := .call Builtin.float.name [constant v]

def triple (v : Triple Float) : Expr :=
  .call Builtin.vec3.name [number v.x, number v.y, number v.z]

def row (v : Triple Float) : Expr := .call Builtin.dot.name [.name point, triple v]

def placement : Placement Float → Expr
  | .shift v => .binary .sub (.name point) (triple v)
  | .shrink k => .binary .mul (.name point) (number k)
  | .turn m => .call Builtin.vec3.name [row m.x, row m.y, row m.z]

def between (h : Float) : Expr :=
  .call Builtin.max.name [.negate (part "z"), .binary .sub (part "z") (number h)]

def side (sel : Bytes) (x : Float) : Expr :=
  .binary .sub (.call Builtin.abs.name [part sel]) (number x)

def distance : Distance Float → Expr
  | .empty => .float far
  | .full => .negate (.float far)
  | .min a b => .call Builtin.min.name [distance a, distance b]
  | .max a b => .call Builtin.max.name [distance a, distance b]
  | .neg a => .negate (distance a)
  | .box x y h =>
    .call Builtin.max.name [.call Builtin.max.name [side "x" x, side "y" y], between h]
  | .ball r =>
    .binary .sub
      (.call Builtin.distance.name
        [.name point, .call Builtin.vec3.name [.float 0, .float 0, number r]])
      (number r)
  | .rod r h =>
    .call Builtin.max.name
      [.binary .sub (.call Builtin.length.name [part "xy"]) (number r), between h]
  | .sample i w => .call (Write.helperName i) [placement w]
  | .times a k => .binary .mul (distance a) (number k)

end Code

section Spelling

theorem builtin_operand (b : Builtin) {texts : List Bytes} {es : List Expr} (some : texts ≠ [])
    (all : List.Forall₂ Argument texts es) :
    Operand (Write.call b.name texts) (.call b.name es) :=
  call_operand (free_builtin b) some all

theorem one_operand (b : Builtin) {text : Bytes} {e : Expr} (argument : Argument text e) :
    Operand (Write.call b.name [text]) (.call b.name [e]) :=
  builtin_operand b nofun (.cons argument .nil)

theorem two_operand (b : Builtin) {left right : Bytes} {l r : Expr} (first : Argument left l)
    (second : Argument right r) :
    Operand (Write.call b.name [left, right]) (.call b.name [l, r]) :=
  builtin_operand b nofun (.cons first (.cons second .nil))

theorem vector_operand {x y z : Bytes} {a b c : Expr} (first : Operand x a) (second : Operand y b)
    (third : Operand z c) :
    Operand (Write.vector x y z) (.call Builtin.vec3.name [a, b, c]) :=
  builtin_operand .vec3 nofun
    (.cons first.argument (.cons second.argument (.cons third.argument .nil)))

theorem number_operand (v : Float) : Operand (literal v) (Code.number v) :=
  one_operand .float (constant_operand v).1.argument

theorem triple_operand (v : Triple Float) : Operand (Write.triple literal v) (Code.triple v) :=
  vector_operand (number_operand v.x) (number_operand v.y) (number_operand v.z)

theorem row_operand (v : Triple Float) : Operand (Write.dot literal v) (Code.row v) :=
  two_operand .dot (name_operand free_point).argument (triple_operand v).argument

theorem placement_argument (w : Placement Float) :
    Argument (Write.placement literal w) (Code.placement w) := by
  cases w with
  | shift v => exact .difference (name_operand free_point) (triple_operand v)
  | shrink k => exact .scaled (name_operand free_point) (number_operand k)
  | turn m =>
    exact (vector_operand (row_operand m.x) (row_operand m.y) (row_operand m.z)).argument

theorem between_operand (h : Float) : Operand (Write.between literal h) (Code.between h) := by
  have z := part_operand "z" (by decide)
  exact two_operand .max z.negate.argument (.difference z (number_operand h))

theorem side_argument (sel : Bytes) (known : sel ∈ [[120], [121], [122], [120, 121]])
    (x : Float) :
    Argument (Write.call Builtin.abs.name [point ++ 46 :: sel] ++ 45 :: literal x)
      (Code.side sel x) :=
  .difference (one_operand .abs (part_operand sel known).argument) (number_operand x)

theorem far_operand : Operand "1e9" (.float far) := by
  have one : Read.AllDigits [49] := List.forall_mem_singleton.mpr rfl
  have nine : Read.AllDigits [57] := List.forall_mem_singleton.mpr rfl
  have read : Token.ofNumeral? (glyphs ([49] ++ [] ++ [101, 57])) = some (.float far) := rfl
  have spells := Spells.number one (List.cons_ne_nil _ _) .none (.bare (List.cons_ne_nil _ _) nine)
    read
  exact ⟨_, spells, .float far⟩

theorem zero_operand : Operand "0.0" (.float 0) := by
  have digit : Read.AllDigits [48] := Read.allDigits_zeros 1
  have read : Token.ofNumeral? (glyphs ([48] ++ [46, 48] ++ [])) = some (.float 0) := rfl
  have spells := Spells.number digit (List.cons_ne_nil _ _) (.point digit) .none read
  exact ⟨_, spells, .float 0⟩

theorem sample_operand (i : Nat) (w : Placement Float) :
    Operand (Write.distance literal (.sample i w)) (Code.distance (.sample i w)) :=
  call_operand (free_helper i) (List.cons_ne_nil _ _) (.cons (placement_argument w) .nil)

/-- Every generated distance is read as its code. -/
theorem distance_argument {n : Nat} {d : Distance Float} (grounded : Grounded n d) :
    Argument (Write.distance literal d) (Code.distance d) := by
  induction grounded with
  | empty => exact far_operand.argument
  | full => exact far_operand.negate.argument
  | min _ _ ihl ihr => exact (two_operand .min ihl ihr).argument
  | max _ _ ihl ihr => exact (two_operand .max ihl ihr).argument
  | neg _ ih => exact ih.group.negate.argument
  | box x y h =>
    have sides := two_operand .max (side_argument "x" (by decide) x)
      (side_argument "y" (by decide) y)
    exact (two_operand .max sides.argument (between_operand h).argument).argument
  | ball r =>
    have center := vector_operand zero_operand zero_operand (number_operand r)
    have apart := two_operand .distance (name_operand free_point).argument center.argument
    have text : Write.distance literal (.ball r) = Write.call Builtin.distance.name
        [point, Write.vector "0.0" "0.0" (literal r)] ++ 45 :: literal r := by
      simp only [Write.distance, Write.call, Bytes.join, List.append_assoc]
      rfl
    rw [text]
    exact .difference apart (number_operand r)
  | rod r h =>
    have wide := one_operand .length (part_operand "xy" (by decide)).argument
    have round := Argument.difference wide (number_operand r)
    exact (two_operand .max round (between_operand h).argument).argument
  | sample _ w => exact (sample_operand _ w).argument
  | @times i _ w k =>
    -- the product needs no parentheses, as nothing but a call is scaled
    have text : Write.distance literal (.times (.sample i w) k) =
        Write.distance literal (.sample i w) ++ 42 :: literal k := List.append_assoc ..
    rw [text]
    exact .scaled (sample_operand i w) (number_operand k)

end Spelling

/-- Names that are known: the builtins and the earlier helpers. -/
structure Offers (n : Nat) (functions : List Bytes) : Prop where
  builtin : ∀ b : Builtin, b.name ∈ functions
  helper : ∀ i < n, Write.helperName i ∈ functions

/-- Calls that find the builtins and the earlier helpers. -/
structure Serves (n : Nat) (helper : Nat → Field) (call : Bytes → List Value → Except Stop Value) :
    Prop where
  standard : Standard call
  helper : ∀ i < n, ∀ p : Triple Float,
    call (Write.helperName i) [.vector p.list] = .ok (.float (helper i p))

/-- An expression that is valid over the earlier helpers, with its value at each point. -/
structure Means (n : Nat) (helper : Nat → Field) (e : Expr) (value : Triple Float → Value) :
    Prop where
  known : ∀ functions, Offers n functions → (e.kind? functions).isSome = true
  value : ∀ call, Serves n helper call → ∀ p : Triple Float,
    e.evaluate call (.vector p.list) = .ok (value p)

section Meaning

variable {n : Nat} {helper : Nat → Field}

theorem means_point : Means n helper (.name point) fun p => .vector p.list :=
  ⟨fun _ _ => rfl, fun _ _ _ => rfl⟩

theorem means_float (v : Float) : Means n helper (.float v) fun _ => .float v :=
  ⟨fun _ _ => rfl, fun _ _ _ => rfl⟩

theorem Means.negate {e : Expr} {value : Triple Float → Float}
    (inner : Means n helper e fun p => .float (value p)) :
    Means n helper (.negate e) fun p => .float (-value p) := by
  refine ⟨fun functions offers => ?_, fun call serves p => ?_⟩
  · rw [Expr.kind?, Option.isSome_map]
    exact inner.known functions offers
  · rw [Expr.evaluate, inner.value call serves p]
    exact serves.standard .neg _

theorem means_part {sel : Bytes} {value : Triple Float → Value}
    (selects : ∀ p : Triple Float, Builtin.select p.list sel = .ok (value p)) :
    Means n helper (part sel) value := by
  refine ⟨fun _ _ => rfl, fun call serves p => ?_⟩
  rw [← selects p]
  exact serves.standard .swizzle _

def Operator.builtin : Operator → Builtin
  | .add => .add
  | .sub => .sub
  | .mul => .mul
  | .div => .div

theorem Means.binary (op : Operator) {l r : Expr} {left right value : Triple Float → Value}
    (first : Means n helper l left) (second : Means n helper r right)
    (applies : ∀ p, op.builtin.apply [left p, right p] = .ok (value p)) :
    Means n helper (.binary op l r) value := by
  refine ⟨fun functions offers => ?_, fun call serves p => ?_⟩
  · obtain ⟨a, known⟩ := Option.isSome_iff_exists.mp (first.known functions offers)
    obtain ⟨b, more⟩ := Option.isSome_iff_exists.mp (second.known functions offers)
    rw [Expr.kind?, known, more]
    rfl
  · have same : op.function = op.builtin.name := by cases op <;> rfl
    rw [Expr.evaluate, first.value call serves p, second.value call serves p, ← applies p, same]
    exact serves.standard _ _

theorem allKnown_of_means {es : List Expr} {values : List (Triple Float → Value)}
    (all : List.Forall₂ (Means n helper) es values) {functions : List Bytes}
    (offers : Offers n functions) : Expr.allKnown functions es = true := by
  induction all with
  | nil => rfl
  | cons first _ ih => rw [Expr.allKnown, first.known functions offers, ih]; rfl

theorem evaluateAll_of_means {es : List Expr} {values : List (Triple Float → Value)}
    (all : List.Forall₂ (Means n helper) es values) {call : Bytes → List Value → Except Stop Value}
    (serves : Serves n helper call) (p : Triple Float) :
    Expr.evaluateAll call (.vector p.list) es = .ok (values.map (· p)) := by
  induction all with
  | nil => rfl
  | cons first _ ih => rw [Expr.evaluateAll, first.value call serves p, ih]; rfl

theorem Means.call {f : Bytes} {es : List Expr} {values : List (Triple Float → Value)}
    {value : Triple Float → Value} (other : f ≠ point)
    (offered : ∀ functions, Offers n functions → f ∈ functions)
    (all : List.Forall₂ (Means n helper) es values)
    (applies : ∀ call, Serves n helper call → ∀ p, call f (values.map (· p)) = .ok (value p)) :
    Means n helper (.call f es) value := by
  refine ⟨fun functions offers => ?_, fun call serves p => ?_⟩
  · have listed : functions.contains f = true :=
      List.contains_iff_mem.mpr (offered functions offers)
    have apart : (f != point) = true := bne_iff_ne.mpr other
    rw [Expr.kind?, apart, listed, allKnown_of_means all offers]
    rfl
  · rw [Expr.evaluate, evaluateAll_of_means all serves p]
    exact applies call serves p

theorem Means.builtin (b : Builtin) {es : List Expr} {values : List (Triple Float → Value)}
    {value : Triple Float → Value} (all : List.Forall₂ (Means n helper) es values)
    (applies : ∀ p, b.apply (values.map (· p)) = .ok (value p)) :
    Means n helper (.call b.name es) value := by
  refine .call ?_ (fun _ offers => offers.builtin b) all fun call serves p => ?_
  · cases b <;> decide
  · rw [serves.standard, applies]

theorem means_number (v : Float) :
    Means n helper (Code.number v) fun _ => .float (written v) := by
  have worth := (constant_operand v).2
  obtain ⟨w, scalar, value⟩ := worth.value
  have inner : Means n helper (constant v) fun _ => w :=
    ⟨fun functions _ => worth.known functions, fun call serves _ => value call _ serves.standard⟩
  refine .builtin .float (.cons inner .nil) fun _ => ?_
  show w.scalar.map Value.float = _
  rw [scalar]
  rfl

theorem means_vector {a b c : Expr} {x y z : Field}
    (first : Means n helper a fun p => .float (x p))
    (second : Means n helper b fun p => .float (y p))
    (third : Means n helper c fun p => .float (z p)) :
    Means n helper (.call Builtin.vec3.name [a, b, c]) fun p => .vector [x p, y p, z p] :=
  .builtin .vec3 (.cons first (.cons second (.cons third .nil))) fun _ => rfl

theorem means_triple (v : Triple Float) :
    Means n helper (Code.triple v) fun _ => .vector v.written.list :=
  means_vector (means_number v.x) (means_number v.y) (means_number v.z)

theorem means_row (v : Triple Float) :
    Means n helper (Code.row v) fun p => .float (Builtin.inner p.list v.written.list) :=
  .builtin .dot (.cons means_point (.cons (means_triple v) .nil)) fun _ => rfl

theorem means_placement (w : Placement Float) :
    Means n helper (Code.placement w) fun p => .vector (w.apply p).list := by
  cases w with
  | shift v => exact .binary .sub means_point (means_triple v) fun _ => rfl
  | shrink k => exact .binary .mul means_point (means_number k) fun _ => rfl
  | turn m => exact means_vector (means_row m.x) (means_row m.y) (means_row m.z)

theorem means_between (h : Float) :
    Means n helper (Code.between h) fun p => .float (slab h p) := by
  have z : Means n helper (part "z") fun p => .float p.z := means_part fun _ => rfl
  have above := Means.binary (n := n) .sub z (means_number h) fun _ => rfl
  exact .builtin .max (.cons z.negate (.cons above .nil)) fun _ => rfl

theorem means_side {sel : Bytes} {coordinate : Triple Float → Float}
    (selects : ∀ p : Triple Float, Builtin.select p.list sel = .ok (.float (coordinate p)))
    (x : Float) :
    Means n helper (Code.side sel x) fun p => .float ((coordinate p).abs - written x) := by
  have wide : Means n helper (.call Builtin.abs.name [part sel])
      fun p => .float (coordinate p).abs :=
    .builtin .abs (.cons (means_part selects) .nil) fun _ => rfl
  exact .binary .sub wide (means_number x) fun _ => rfl

theorem means_two (b : Builtin) {f : Float → Float → Float} {l r : Expr} {left right : Field}
    (first : Means n helper l fun p => .float (left p))
    (second : Means n helper r fun p => .float (right p))
    (applies : ∀ x y, b.apply [.float x, .float y] = .ok (.float (f x y))) :
    Means n helper (.call b.name [l, r]) fun p => .float (f (left p) (right p)) :=
  .builtin b (.cons first (.cons second .nil)) fun p => applies (left p) (right p)

theorem means_sample {i : Nat} (earlier : i < n) (w : Placement Float) :
    Means n helper (Code.distance (.sample i w)) fun p => .float (helper i (w.apply p)) := by
  exact .call (helperName_ne_point i) (fun _ offers => offers.helper i earlier)
    (.cons (means_placement w) .nil) fun call serves p => serves.helper i earlier (w.apply p)

theorem means_distance {d : Distance Float} (grounded : Grounded n d) :
    Means n helper (Code.distance d) fun p => .float (d.value helper p) := by
  induction grounded with
  | empty => exact means_float far
  | full => exact (means_float far).negate
  | min _ _ ihl ihr => exact means_two .min ihl ihr fun _ _ => rfl
  | max _ _ ihl ihr => exact means_two .max ihl ihr fun _ _ => rfl
  | neg _ ih => exact ih.negate
  | box x y h =>
    have wide : Means n helper (Code.side "x" x) fun p => .float (p.x.abs - written x) :=
      means_side (fun _ => rfl) x
    have deep : Means n helper (Code.side "y" y) fun p => .float (p.y.abs - written y) :=
      means_side (fun _ => rfl) y
    have sides := means_two .max wide deep fun _ _ => rfl
    exact means_two .max sides (means_between h) fun _ _ => rfl
  | ball r =>
    have center : Means n helper (.call Builtin.vec3.name [.float 0, .float 0, Code.number r])
        fun _ => .vector [0, 0, written r] :=
      means_vector (means_float 0) (means_float 0) (means_number r)
    have apart := Means.builtin .distance (.cons means_point (.cons center .nil)) fun _ => rfl
    exact .binary .sub apart (means_number r) fun _ => rfl
  | rod r h =>
    have flat : Means n helper (part "xy") fun p => .vector [p.x, p.y] := means_part fun _ => rfl
    have long := Means.builtin .length (.cons flat .nil) fun _ => rfl
    have round := Means.binary .sub long (means_number r) fun _ => rfl
    exact means_two .max round (means_between h) fun _ _ => rfl
  | sample earlier w => exact means_sample earlier w
  | times earlier w k => exact .binary .mul (means_sample earlier w) (means_number k) fun _ => rfl

end Meaning

end DistanceField.Probe
