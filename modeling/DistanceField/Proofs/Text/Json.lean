import DistanceField.Proofs.Number.Literal
import DistanceField.Proofs.Text.Decoding
import DistanceField.Text.JsonReader

/-! Objects of numbers and texts are read back from what they are written as. -/
namespace DistanceField.Json.Reader

open Read Decimal

def Closes (rest : Bytes) : Prop := ∀ c ∈ rest.head?, c = 44 ∨ c = 125

def NoDigit (rest : Bytes) : Prop := ∀ c ∈ rest.head?, isDigit c = false

theorem Closes.noDigit {rest : Bytes} (closes : Closes rest) : NoDigit rest := by
  intro c found
  rcases closes c found with rfl | rfl <;> rfl

theorem closes_comma {rest : Bytes} : Closes (44 :: rest) := by
  rintro c ⟨⟩
  exact .inl rfl

theorem closes_brace {rest : Bytes} : Closes (125 :: rest) := by
  rintro c ⟨⟩
  exact .inr rfl

theorem digits_append {ds rest : Bytes} (all : AllDigits ds) (stop : NoDigit rest) :
    digits (ds ++ rest) = (ds, rest) := by
  unfold digits
  rw [List.takeWhile_append_of_pos all, List.dropWhile_append_of_pos all]
  cases rest with
  | nil => simp
  | cons c rest => simp [stop c rfl]

theorem someDigits_append {ds rest : Bytes} (place lead : Bytes) (all : AllDigits ds)
    (filled : ds ≠ []) (stop : NoDigit rest) :
    someDigits place lead (ds ++ rest) = .ok (lead ++ ds, rest) := by
  unfold someDigits
  rw [digits_append all stop]
  cases ds with
  | nil => exact absurd rfl filled
  | cons c ds => rfl

theorem whole_append {w rest : Bytes} (front : Whole w) (stop : NoDigit rest) :
    whole (w ++ rest) = .ok (w, rest) := by
  rcases front.lead with rfl | lead
  · rfl
  · have some := someDigits_append "in numeric literal" [] front.all front.filled stop
    unfold whole
    split
    · next zero =>
      cases w with
      | nil => exact absurd rfl front.filled
      | cons c w =>
        cases zero
        exact absurd rfl (lead 48 rfl)
    · exact some

theorem fraction_append {part rest : Bytes} (all : AllDigits part) (stop : NoDigit rest)
    (free : ∀ c ∈ rest.head?, c ≠ 46) :
    fraction (spelled [] part ++ rest) = .ok (spelled [] part, rest) := by
  cases part with
  | nil =>
    show fraction rest = .ok ([], rest)
    unfold fraction
    split
    · exact absurd rfl (free 46 rfl)
    · rfl
  | cons d part =>
    exact someDigits_append _ [46] all (List.cons_ne_nil _ _) stop

theorem exponent_append {tail rest : Bytes} (power : Power tail) (closes : Closes rest) :
    exponent (tail ++ rest) = .ok (tail, rest) := by
  cases power with
  | absent =>
    cases rest with
    | nil => rfl
    | cons c rest => rcases closes c rfl with rfl | rfl <;> rfl
  | @present sign ds signed all filled =>
    rcases signed with rfl | rfl
    · exact someDigits_append _ [101, 43] all filled closes.noDigit
    · exact someDigits_append _ [101, 45] all filled closes.noDigit

theorem spelled_split (whole part : Bytes) : spelled whole part = whole ++ spelled [] part := by
  cases part with
  | nil => exact (List.append_nil whole).symm
  | cons => rfl

theorem power_head {tail rest : Bytes} (power : Power tail) (closes : Closes rest) :
    NoDigit (tail ++ rest) ∧ ∀ c ∈ (tail ++ rest).head?, c ≠ 46 := by
  cases power with
  | absent =>
    refine ⟨closes.noDigit, fun c found => ?_⟩
    rcases closes c found with rfl | rfl <;> decide
  | present =>
    constructor
    · rintro c ⟨⟩
      rfl
    · rintro c ⟨⟩
      decide

theorem fraction_head {part rest : Bytes} (stop : NoDigit rest) :
    NoDigit (spelled [] part ++ rest) := by
  cases part with
  | nil => exact stop
  | cons =>
    rintro c ⟨⟩
    rfl

/-- A number is read as far as its text goes. -/
theorem number_append (negative : Bool) {text rest : Bytes} (unsigned : Unsigned text)
    (closes : Closes rest) :
    number (signed negative text ++ rest) = .ok (.number (signed negative text), rest) := by
  obtain ⟨c, more, start, digit⟩ := unsigned.head
  have reads : ∃ w f e b₁ b₂, whole (text ++ rest) = .ok (w, b₁) ∧ fraction b₁ = .ok (f, b₂) ∧
      exponent b₂ = .ok (e, rest) ∧ text = w ++ f ++ e := by
    cases unsigned with
    | @intro w part tail front more power =>
      obtain ⟨stop, free⟩ := power_head power closes
      refine ⟨w, spelled [] part, tail, spelled [] part ++ (tail ++ rest), tail ++ rest, ?_,
        fraction_append more stop free, exponent_append power closes, ?_⟩
      · have parts : spelled w part ++ tail ++ rest = w ++ (spelled [] part ++ (tail ++ rest)) := by
          rw [spelled_split, List.append_assoc, List.append_assoc]
        rw [parts]
        exact whole_append front (fraction_head stop)
      · rw [spelled_split]
  obtain ⟨w, f, e, b₁, b₂, front, point, power, parts⟩ := reads
  cases negative with
  | true =>
    have minus : signed true text ++ rest = 45 :: (text ++ rest) := rfl
    rw [minus, number]
    simp only [front, point, power, bind, Except.bind]
    rw [parts]
    rfl
  | false =>
    have plain : signed false text = text := rfl
    have unsigned : ∀ more, text ++ rest ≠ 45 :: more := by
      intro more minus
      rw [start] at minus
      cases minus
      cases digit
    rw [plain, number]
    · simp only [front, point, power, bind, Except.bind]
      rw [parts]
      rfl
    · exact unsigned

/-- Text between quotes that is read as `out`, whatever follows it. The pieces join to whole
characters, so none of them pairs up with a unit behind them. -/
def Spells (text out : Bytes) : Prop :=
  ∃ ps, (∀ rest more behind, pieces rest = .ok (more, behind) →
      pieces (text ++ rest) = .ok (ps ++ more, behind)) ∧
    ∀ more, joinPieces (ps ++ more) = out ++ joinPieces more

theorem Spells.nil : Spells [] [] := ⟨[], fun _ _ _ read => read, fun _ => rfl⟩

theorem Spells.append {s t out more : Bytes} (front : Spells s out) (back : Spells t more) :
    Spells (s ++ t) (out ++ more) := by
  obtain ⟨ps, reads, joins⟩ := front
  obtain ⟨qs, reads', joins'⟩ := back
  refine ⟨ps ++ qs, ?_, ?_⟩
  · intro rest others behind read
    rw [List.append_assoc, List.append_assoc]
    exact reads _ _ _ (reads' _ _ _ read)
  · intro others
    rw [List.append_assoc, joins, joins', List.append_assoc]

theorem Spells.flatMap {α : Type} {f g : α → Bytes} (each : ∀ a, Spells (f a) (g a)) (as : List α) :
    Spells (as.flatMap f) (as.flatMap g) := by
  induction as with
  | nil => exact .nil
  | cons a as ih => exact (each a).append ih

theorem Spells.string {text out : Bytes} (spells : Spells text out) (rest : Bytes) :
    string (text ++ 34 :: rest) = .ok (Utf8.encode (Utf8.chars out), rest) := by
  obtain ⟨ps, reads, joins⟩ := spells
  have read := reads (34 :: rest) [] rest rfl
  have join := joins []
  rw [List.append_nil] at read join
  unfold Reader.string
  rw [read]
  show Except.ok _ = _
  rw [join, joinPieces, List.append_nil]

theorem spells_letter {c e : UInt8} (letter : escaped? c = some e) : Spells [92, c] [e] := by
  refine ⟨[.byte e], ?_, fun _ => rfl⟩
  intro rest more behind read
  have other : c ≠ 117 := by
    rintro rfl
    cases letter
  show pieces (92 :: c :: rest) = _
  rw [pieces, letter]
  · dsimp only
    rw [read]
    rfl
  · rintro a b c d more rfl rfl
    exact other rfl
  · rintro rfl
    exact other rfl

theorem spells_byte {b : UInt8} (shown : 32 ≤ b.toNat) (quote : b ≠ 34) (slash : b ≠ 92) :
    Spells [b] [b] := by
  refine ⟨[.byte b], ?_, fun _ => rfl⟩
  intro rest more behind read
  show pieces (b :: rest) = _
  have visible : ¬ b < 32 := by
    rw [UInt8.lt_iff_toNat_lt]
    exact Nat.not_lt.mpr shown
  rw [pieces]
  · rw [if_neg visible, read]
    rfl
  · exact quote
  · rintro a b c d more rfl -
    exact slash rfl
  · rintro more rfl -
    exact slash rfl
  · rintro c more rfl -
    exact slash rfl
  · rintro rfl -
    exact slash rfl

theorem hexValue_hexDigit : ∀ d < 16, hexValue? (Bytes.hexDigit d) = some d := by
  decide

theorem joinPieces_unit {n : Nat} (whole : isHigh n = false ∧ isLow n = false) (rest : List Piece) :
    joinPieces (.unit n :: rest) = Bytes.ofChar (Char.ofNat n) ++ joinPieces rest := by
  cases rest with
  | nil => simp [joinPieces, whole]
  | cons p rest => cases p <;> simp [joinPieces, whole]

theorem spells_unicode {n : Nat} (small : n < 0xD800) :
    Spells (unicode n) (Bytes.ofChar (Char.ofNat n)) := by
  have value : hex4? (Bytes.hexDigit (n / 16 / 16 / 16 % 16)) (Bytes.hexDigit (n / 16 / 16 % 16))
      (Bytes.hexDigit (n / 16 % 16)) (Bytes.hexDigit (n % 16)) = some n := by
    have digit : ∀ k, hexValue? (Bytes.hexDigit (k % 16)) = some (k % 16) :=
      fun k => hexValue_hexDigit _ (Nat.mod_lt _ (by decide))
    unfold hex4?
    simp only [digit]
    show some _ = some n
    congr 1
    omega
  have whole : isHigh n = false ∧ isLow n = false := by
    simp [isHigh, isLow]
    omega
  refine ⟨[.unit n], ?_, joinPieces_unit whole⟩
  intro rest more behind read
  show pieces (92 :: 117 :: _ :: _ :: _ :: _ :: rest) = _
  rw [pieces, value]
  dsimp only
  rw [read]
  rfl

theorem spells_bytes {bs : Bytes} (each : ∀ b ∈ bs, 32 ≤ b.toNat ∧ b ≠ 34 ∧ b ≠ 92) :
    Spells bs bs := by
  induction bs with
  | nil => exact .nil
  | cons b bs ih =>
    obtain ⟨⟨shown, quote, slash⟩, later⟩ := List.forall_mem_cons.mp each
    exact (spells_byte shown quote slash).append (ih later)

theorem spells_escape (c : Char) : Spells (escape .document c) (Bytes.ofChar c) := by
  have back : Char.ofNat c.toNat = c := c.ofNat_toNat
  have letter : ∀ x e : UInt8, c.toNat = e.toNat → e.toNat < 128 → escaped? x = some e →
      Spells [92, x] (Bytes.ofChar c) := by
    intro x e code single short
    rw [← back, code, Utf8.ofChar_one single]
    exact spells_letter short
  have unit : c.toNat < 0xD800 → Spells (unicode c.toNat) (Bytes.ofChar c) := by
    intro small
    have spells := spells_unicode small
    rwa [back] at spells
  unfold escape
  split
  · next code => exact letter 34 34 code (by decide) rfl
  · next code => exact letter 92 92 code (by decide) rfl
  · next code => exact letter 98 8 code (by decide) rfl
  · next code => exact letter 116 9 code (by decide) rfl
  · next code => exact letter 110 10 code (by decide) rfl
  · next code => exact letter 102 12 code (by decide) rfl
  · next code => exact letter 114 13 code (by decide) rfl
  · next quote slash _ _ _ _ _ =>
    split_ifs with control script
    · apply unit
      simp at control
      omega
    · apply unit
      simp at script
      omega
    · refine spells_bytes fun b found => ?_
      have visible : 32 ≤ c.toNat := by
        simp at control
        omega
      rcases Utf8.byte_ofChar found with ⟨same, -⟩ | high
      · refine ⟨by omega, ?_, ?_⟩
        · rintro rfl
          exact quote same.symm
        · rintro rfl
          exact slash same.symm
      · refine ⟨by omega, ?_, ?_⟩
        · rintro rfl
          exact absurd high (by decide)
        · rintro rfl
          exact absurd high (by decide)

/-- A quoted text is read back, behind its opening quote. -/
theorem string_quote {text : Bytes} (valid : Utf8.isValid text = true) :
    ∃ body, quote text = 34 :: body ∧ ∀ rest, string (body ++ rest) = .ok (text, rest) := by
  obtain ⟨cs, rfl⟩ := Utf8.encode_of_valid valid
  refine ⟨cs.flatMap (escape .document) ++ [34], ?_, fun rest => ?_⟩
  · unfold quote quoteFor
    rw [Utf8.pieces_encode, List.flatMap_map]
    simp
  · have spells : Spells (cs.flatMap (escape .document)) (Utf8.encode cs) :=
      .flatMap spells_escape cs
    have read := spells.string rest
    rw [Utf8.chars_encode] at read
    rwa [List.append_assoc]

theorem skip_cons {c : UInt8} (shown : Bytes.isBlank c = false) (rest : Bytes) :
    skip (c :: rest) = c :: rest := by
  simp [skip, shown]

theorem value_quote (fuel depth : Nat) {b text rest : Bytes} (read : string b = .ok (text, rest)) :
    value (fuel + 1) depth (34 :: b) = .ok (.string text, rest) := by
  show (string b >>= _) = _
  rw [read]
  rfl

theorem value_number (fuel depth : Nat) {c : UInt8} (rest : Bytes)
    (starts : c = 45 ∨ isDigit c = true) :
    value (fuel + 1) depth (c :: rest) = number (c :: rest) := by
  have low : 45 ≤ c.toNat ∧ c.toNat ≤ 57 := by
    rcases starts with rfl | digit
    · decide
    · have bounds := isDigit_bounds digit
      omega
  have other : ∀ x : UInt8, x.toNat < 45 ∨ 57 < x.toNat → ¬ (c == x) = true := by
    intro x far same
    rw [beq_iff_eq] at same
    subst same
    omega
  have shown : Bytes.isBlank c = false := by
    simp [Bytes.isBlank, other]
  unfold value
  rw [skip_cons shown]
  dsimp only
  rw [if_neg (other 34 (by decide)), if_neg (other 91 (by decide)), if_neg (other 123 (by decide)),
    if_neg (other 110 (by decide)), if_neg (other 116 (by decide)), if_neg (other 102 (by decide)),
    if_pos (by simpa using starts)]

/-- A value that is read back from its text, where an object goes on or ends behind it. -/
def Returns (j : Json) : Prop :=
  ∀ fuel depth rest, Closes rest → value (fuel + 1) depth (j.compact ++ rest) = .ok (j, rest)

theorem returns_string {text : Bytes} (valid : Utf8.isValid text = true) :
    Returns (.string text) := by
  intro fuel depth rest closes
  obtain ⟨body, quoted, reads⟩ := string_quote valid
  rw [compact, quoted, List.cons_append]
  exact value_quote fuel depth (reads rest)

theorem returns_number (negative : Bool) {text : Bytes} (unsigned : Unsigned text) :
    Returns (.number (signed negative text)) := by
  intro fuel depth rest closes
  have read := number_append negative unsigned closes
  have starts : ∃ c more, signed negative text = c :: more ∧ (c = 45 ∨ isDigit c = true) := by
    obtain ⟨c, more, start, digit⟩ := unsigned.head
    cases negative with
    | true => exact ⟨45, text, rfl, .inl rfl⟩
    | false => exact ⟨c, more, start, .inr digit⟩
  obtain ⟨c, more, start, starts⟩ := starts
  rw [compact]
  rw [start, List.cons_append] at read ⊢
  rw [value_number fuel depth _ starts, read]

theorem colon_bytes : Bytes.ofString ":" = [58] := rfl

theorem comma_bytes : Bytes.ofString "," = [44] := rfl

theorem members_last {fuel depth : Nat} {b k v rest : Bytes} {j : Json}
    (key : string b = .ok (k, 58 :: v)) (read : value fuel depth v = .ok (j, 125 :: rest)) :
    members (fuel + 1) depth (34 :: b) = .ok ([(k, j)], rest) := by
  show (string b >>= _) = _
  rw [key]
  show (value fuel depth v >>= _) = _
  rw [read]
  rfl

theorem members_next {fuel depth : Nat} {b k v more rest : Bytes} {j : Json}
    {fields : List (Bytes × Json)} (key : string b = .ok (k, 58 :: v))
    (read : value fuel depth v = .ok (j, 44 :: more))
    (others : members fuel depth more = .ok (fields, rest)) :
    members (fuel + 1) depth (34 :: b) = .ok ((k, j) :: fields, rest) := by
  show (string b >>= _) = _
  rw [key]
  show (value fuel depth v >>= _) = _
  rw [read]
  show (members fuel depth more >>= _) = _
  rw [others]
  rfl

/-- A step is taken for each field, and the last one is left for its value. -/
theorem members_compact {fields : List (Bytes × Json)}
    (each : ∀ f ∈ fields, Utf8.isValid f.1 = true ∧ Returns f.2) (some : fields ≠ [])
    (fuel : Nat) (enough : fields.length < fuel) (depth : Nat) (rest : Bytes) :
    members fuel depth (compactFields fields ++ 125 :: rest) = .ok (fields, rest) := by
  induction fields generalizing fuel with
  | nil => exact absurd rfl some
  | cons f fields ih =>
    obtain ⟨k, j⟩ := f
    obtain ⟨⟨valid, returns⟩, later⟩ := List.forall_mem_cons.mp each
    obtain ⟨body, quoted, reads⟩ := string_quote valid
    cases fuel with
    | zero => exact absurd enough (Nat.not_lt_zero _)
    | succ fuel =>
      rw [List.length_cons, Nat.succ_lt_succ_iff] at enough
      obtain ⟨fuel, rfl⟩ := Nat.exists_eq_add_of_lt enough
      cases fields with
      | nil =>
        have text : compactFields [(k, j)] ++ 125 :: rest =
            34 :: (body ++ 58 :: (j.compact ++ 125 :: rest)) := by
          rw [compactFields, quoted, colon_bytes]
          simp
        rw [text]
        exact members_last (reads _) (returns _ _ _ closes_brace)
      | cons f fields =>
        have text : compactFields ((k, j) :: f :: fields) ++ 125 :: rest = 34 :: (body ++
            58 :: (j.compact ++ 44 :: (compactFields (f :: fields) ++ 125 :: rest))) := by
          rw [compactFields, quoted, colon_bytes, comma_bytes]
          · simp
          · simp
        rw [text]
        exact members_next (reads _) (returns _ _ _ closes_comma)
          (ih later (List.cons_ne_nil _ _) _ (by omega))

theorem value_brace {fuel : Nat} {b rest : Bytes} {fields : List (Bytes × Json)}
    (read : members fuel 1 (34 :: b) = .ok (fields, rest)) :
    value (fuel + 1) 0 (123 :: 34 :: b) = .ok (.object fields, rest) := by
  show (members fuel 1 (34 :: b) >>= _) = _
  rw [read]
  rfl

end DistanceField.Json.Reader

namespace DistanceField.Json

open Reader

theorem compactFields_cons (k : Bytes) (j : Json) (fields : List (Bytes × Json)) :
    ∃ b, compactFields ((k, j) :: fields) = 34 :: b ∧ (compactFields fields).length ≤ b.length := by
  obtain ⟨body, quoted⟩ : ∃ body, quote k = 34 :: body := ⟨_, rfl⟩
  cases fields with
  | nil =>
    refine ⟨body ++ ":" ++ j.compact, ?_, Nat.zero_le _⟩
    rw [compactFields, quoted]
    rfl
  | cons f fields =>
    refine ⟨body ++ ":" ++ j.compact ++ "," ++ compactFields (f :: fields), ?_, ?_⟩
    · rw [compactFields, quoted]
      · rfl
      · exact List.cons_ne_nil _ _
    · rw [List.length_append]
      omega

theorem length_compactFields (fields : List (Bytes × Json)) :
    fields.length ≤ (compactFields fields).length := by
  induction fields with
  | nil => exact Nat.zero_le _
  | cons f fields ih =>
    obtain ⟨b, text, more⟩ := compactFields_cons f.1 f.2 fields
    rw [text, List.length_cons, List.length_cons]
    omega

theorem first_object {fields : List (Bytes × Json)}
    (each : ∀ f ∈ fields, Utf8.isValid f.1 = true ∧ Returns f.2) :
    first (object fields).compact = .ok (object fields, []) := by
  have text : (object fields).compact = 123 :: (compactFields fields ++ [125]) := rfl
  have long := length_compactFields fields
  unfold first
  rw [text]
  cases fields with
  | nil => rfl
  | cons f fields =>
    have enough : (f :: fields).length <
        2 * (123 :: (compactFields (f :: fields) ++ [125])).length + 1 := by
      simp only [List.length_cons, List.length_append] at long ⊢
      omega
    have read := members_compact each (List.cons_ne_nil _ _) _ enough 1 []
    obtain ⟨b, start, -⟩ := compactFields_cons f.1 f.2 fields
    rw [start] at read ⊢
    exact value_brace read

theorem read_object {fields : List (Bytes × Json)}
    (each : ∀ f ∈ fields, Utf8.isValid f.1 = true ∧ Returns f.2)
    (range : ∀ f ∈ fields, overflow? f.2 = none) :
    read? (object fields).compact = some (object fields) := by
  have fits : overflowUnder fields = none := by
    clear each
    induction fields with
    | nil => rfl
    | cons f fields ih =>
      obtain ⟨here, later⟩ := List.forall_mem_cons.mp range
      rw [overflowUnder, here, ih later]
      rfl
  unfold read?
  rw [first_object each]
  show (if _ then some _ else none) = _
  rw [overflow?, fits]
  rfl

theorem assign_fresh {fields : List (Bytes × Json)} {k : Bytes} (j : Json)
    (fresh : k ∉ fields.map Prod.fst) : assign fields k j = fields ++ [(k, j)] := by
  unfold assign
  rw [if_neg]
  intro found
  obtain ⟨f, inside, same⟩ := List.any_eq_true.mp found
  exact fresh (List.mem_map.mpr ⟨f, inside, eq_of_beq same⟩)

theorem distinct_of_nodup {fields : List (Bytes × Json)} (keys : (fields.map Prod.fst).Nodup) :
    distinct fields = fields := by
  -- the fields in front have been taken already
  have run : ∀ front, ((front ++ fields).map Prod.fst).Nodup →
      fields.foldl (fun fs f => assign fs f.1 f.2) front = front ++ fields := by
    clear keys
    induction fields with
    | nil => simp
    | cons f fields ih =>
      intro front keys
      have fresh : f.1 ∉ front.map Prod.fst := by
        rw [List.map_append, List.map_cons, List.nodup_append] at keys
        intro found
        exact keys.2.2 _ found _ (List.mem_cons_self ..) rfl
      rw [List.foldl_cons, assign_fresh f.2 fresh, ih]
      · simp
      · simpa using keys
  exact run [] keys

end DistanceField.Json
