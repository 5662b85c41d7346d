import DistanceField.Editor.Word
import DistanceField.Proofs.Lists
import DistanceField.Proofs.Text.Decoding

/-! The word around a cursor. Characters are read backwards and onwards from the cursor, which may stand
inside one, and the bytes may be no valid text. Still a delimiter is always met as the one byte it is,
and nothing else is taken for one, so the word is the longest run of other bytes around the cursor. -/
namespace DistanceField.Editor

theorem delimiter_small : ∀ b : UInt8, isDelimiter b = true → b < 128 := by
  decide +kernel

theorem isBoundary_byte : ∀ b : UInt8, b < 128 →
    isBoundary (Char.ofNat b.toNat) = isDelimiter b := by
  decide +kernel

theorem large_plain {b : UInt8} (large : ¬ b < 128) : isDelimiter b = false := by
  cases delimits : isDelimiter b with
  | false => rfl
  | true => exact absurd (delimiter_small b delimits) large

/-- A reader that takes a delimiter for what it is, and passes over none with another character. -/
structure Honest (read : Bytes → Char × Nat × Bool) : Prop where
  delimiter : ∀ b rest, isDelimiter b = true → isBoundary (read (b :: rest)).1 = true
  plain : ∀ b rest, isDelimiter b = false → isBoundary (read (b :: rest)).1 = false
  some : ∀ b rest, 1 ≤ (read (b :: rest)).2.1
  inside : ∀ b rest, (read (b :: rest)).2.1 ≤ (b :: rest).length
  clear : ∀ b rest, isDelimiter b = false →
    ∀ x ∈ (b :: rest).take (read (b :: rest)).2.1, isDelimiter x = false

theorem Honest.passed {read : Bytes → Char × Nat × Bool} (honest : Honest read) (text : Bytes) :
    passed read text = (text.takeWhile fun b => !isDelimiter b).length := by
  induction text using passed.induct read with
  | case1 => simp [Editor.passed]
  | case2 b rest c n ok found boundary =>
    cases delimits : isDelimiter b with
    | true => simp [Editor.passed, found, boundary, delimits]
    | false =>
      have other := honest.plain b rest delimits
      rw [found, boundary] at other
      cases other
  | case3 b rest c n ok found boundary ih =>
    have delimits : isDelimiter b = false := by
      cases delimits : isDelimiter b with
      | false => rfl
      | true =>
        have other := honest.delimiter b rest delimits
        rw [found] at other
        exact absurd other boundary
    have some := honest.some b rest
    have inside := honest.inside b rest
    have clear := honest.clear b rest delimits
    rw [found] at some inside clear
    dsimp only at some inside clear
    have tail : rest.drop (n - 1) = (b :: rest).drop n := by
      obtain ⟨k, rfl⟩ := Nat.exists_eq_add_of_le' some
      rfl
    have whole : (b :: rest).takeWhile (fun b => !isDelimiter b) =
        (b :: rest).take n ++ ((b :: rest).drop n).takeWhile fun b => !isDelimiter b := by
      conv_lhs => rw [← List.take_append_drop n (b :: rest)]
      apply List.takeWhile_append_of_pos
      simpa using clear
    rw [tail] at ih
    rw [Editor.passed, found, whole, List.length_append, List.length_take, Nat.min_eq_left inside]
    simp [boundary, tail, ih]

theorem ofChar_plain {c : Char} {b : UInt8} (found : b ∈ Bytes.ofChar c) (large : ¬ b < 128) :
    isBoundary c = false ∧ ∀ x ∈ Bytes.ofChar c, isDelimiter x = false := by
  have least : 128 ≤ b.toNat := by simpa [UInt8.lt_iff_toNat_lt] using large
  have wide : 128 ≤ c.toNat := by
    by_contra small
    have byte : c.toNat.toUInt8.toNat = c.toNat := Nat.mod_eq_of_lt (by omega)
    have single : Bytes.ofChar (Char.ofNat c.toNat.toUInt8.toNat) = [c.toNat.toUInt8] :=
      Utf8.ofChar_one (by omega)
    rw [byte, c.ofNat_toNat] at single
    rw [single, List.mem_singleton] at found
    rw [found] at least
    omega
  constructor
  · simp [isBoundary, wide]
  · intro x inside
    apply large_plain
    rcases Utf8.byte_ofChar inside with ⟨-, narrow⟩ | far
    · omega
    · simpa [UInt8.lt_iff_toNat_lt] using far

theorem rune_plain {text : Bytes} {c : Char} {n : Nat} (rune : Utf8.Rune text c n) {b : UInt8}
    (found : b ∈ text.take n) (large : ¬ b < 128) :
    isBoundary c = false ∧ ∀ x ∈ text.take n, isDelimiter x = false := by
  cases rune with
  | valid =>
    rw [List.take_left] at found ⊢
    exact ofChar_plain found large
  | invalid =>
    rw [List.take_succ_cons, List.take_zero, List.mem_singleton] at found
    subst found
    exact ⟨by decide, by simpa using large_plain large⟩

theorem honest_first : Honest Utf8.first := by
  have front : ∀ (b : UInt8) (rest : Bytes), ¬ b < 128 →
      isBoundary (Utf8.first (b :: rest)).1 = false ∧
        ∀ x ∈ (b :: rest).take (Utf8.first (b :: rest)).2.1, isDelimiter x = false := by
    intro b rest large
    have rune := Utf8.rune_first b rest
    refine rune_plain rune ?_ large
    obtain ⟨n, size⟩ := Nat.exists_eq_add_of_le' rune.size.1
    simp [size]
  have single : ∀ (b : UInt8) (rest : Bytes), b < 128 →
      Utf8.first (b :: rest) = (Char.ofNat b.toNat, 1, true) :=
    fun b rest small => if_pos small
  constructor
  · intro b rest delimits
    have small := delimiter_small b delimits
    rw [single b rest small, isBoundary_byte b small, delimits]
  · intro b rest plain
    by_cases small : b < 128
    · rw [single b rest small, isBoundary_byte b small, plain]
    · exact (front b rest small).1
  · exact fun b rest => (Utf8.rune_first b rest).size.1
  · exact fun b rest => (Utf8.rune_first b rest).size.2
  · intro b rest plain
    by_cases small : b < 128
    · rw [single b rest small]
      simpa using plain
    · exact (front b rest small).2

theorem last_large {b : UInt8} (before : Bytes) (large : ¬ b < 128) :
    isBoundary (Utf8.last (b :: before)).1 = false ∧ 1 ≤ (Utf8.last (b :: before)).2.1 ∧
      (Utf8.last (b :: before)).2.1 ≤ (b :: before).length ∧
      ∀ x ∈ (b :: before).take (Utf8.last (b :: before)).2.1, isDelimiter x = false := by
  rw [Utf8.last, if_neg large]
  dsimp only
  generalize ((before.take 3).takeWhile Utf8.isTail).length = k
  generalize seen : ((b :: before).take (k + 2)).reverse = bytes
  have back : (b :: before).take (k + 2) = bytes.reverse := by rw [← seen, List.reverse_reverse]
  have inside : b ∈ bytes := by simp [← seen]
  have short : bytes.length ≤ (b :: before).length := by
    rw [← seen, List.length_reverse]
    exact List.length_take_le' ..
  split
  · next fits =>
    have size : (Utf8.first bytes).2.1 = bytes.length := by simpa using fits
    have rune : Utf8.Rune bytes (Utf8.first bytes).1 (Utf8.first bytes).2.1 := by
      cases bytes with
      | nil => cases inside
      | cons d more => exact Utf8.rune_first d more
    rw [size] at rune ⊢
    obtain ⟨plain, clear⟩ := rune_plain rune (by rwa [List.take_length]) large
    refine ⟨plain, List.length_pos_of_mem inside, short, ?_⟩
    have front : (b :: before).take bytes.length = bytes.reverse := by
      have same := List.prefix_iff_eq_take.mp (List.take_prefix (k + 2) (b :: before))
      rw [back, List.length_reverse] at same
      exact same.symm
    intro x found
    rw [front, List.mem_reverse] at found
    exact clear x (by rwa [List.take_length])
  · refine ⟨by decide, le_rfl, by simp, ?_⟩
    simpa using large_plain large

theorem honest_last : Honest Utf8.last := by
  have single : ∀ (b : UInt8) (before : Bytes), b < 128 →
      Utf8.last (b :: before) = (Char.ofNat b.toNat, 1, true) :=
    fun b before small => if_pos small
  constructor
  · intro b before delimits
    have small := delimiter_small b delimits
    rw [single b before small, isBoundary_byte b small, delimits]
  · intro b before plain
    by_cases small : b < 128
    · rw [single b before small, isBoundary_byte b small, plain]
    · exact (last_large before small).1
  · intro b before
    by_cases small : b < 128
    · rw [single b before small]
    · exact (last_large before small).2.1
  · intro b before
    by_cases small : b < 128
    · rw [single b before small]
      simp
    · exact (last_large before small).2.2.1
  · intro b before plain
    by_cases small : b < 128
    · rw [single b before small]
      simpa using plain
    · exact (last_large before small).2.2.2

/-- Whatever the bytes are, the word is found by looking at them one by one. -/
theorem wordBounds_bytes (input : Bytes) (cursor : Int) : wordBounds input cursor =
    (clampCursor input cursor -
        ((input.take (clampCursor input cursor)).reverse.takeWhile fun b => !isDelimiter b).length,
      clampCursor input cursor +
        ((input.drop (clampCursor input cursor)).takeWhile fun b => !isDelimiter b).length) := by
  rw [wordBounds, honest_last.passed, honest_first.passed]

theorem takeWhile_run {word rest : Bytes} (plain : ∀ b ∈ word, isDelimiter b = false)
    (ends : ∀ b ∈ rest.head?, isDelimiter b = true) :
    (word ++ rest).takeWhile (fun b => !isDelimiter b) = word :=
  (takeWhile_stop (by simpa using plain) (by simpa using ends)).1

section Parts

variable {lead near far rest : Bytes}

theorem wordBounds_of_parts (plain : ∀ b ∈ near ++ far, isDelimiter b = false)
    (starts : ∀ b ∈ lead.getLast?, isDelimiter b = true)
    (ends : ∀ b ∈ rest.head?, isDelimiter b = true) :
    wordBounds (lead ++ near ++ (far ++ rest)) (lead ++ near).length =
      (lead.length, (lead ++ (near ++ far)).length) := by
  obtain ⟨before, behind⟩ := List.forall_mem_append.mp plain
  have stands : clampCursor (lead ++ near ++ (far ++ rest)) (lead ++ near).length =
      (lead ++ near).length := by
    have long : (lead ++ near).length ≤ (lead ++ near ++ (far ++ rest)).length := by simp
    rw [clampCursor]
    omega
  have back : (lead ++ near).reverse.takeWhile (fun b => !isDelimiter b) = near.reverse := by
    rw [List.reverse_append]
    apply takeWhile_run
    · simpa using before
    · simpa using starts
  rw [wordBounds_bytes, stands, List.take_left, List.drop_left, back, takeWhile_run behind ends]
  simp [Nat.add_assoc]

/-- Around every cursor there is such a run. -/
theorem parts_around (input : Bytes) (cursor : Int) : ∃ lead near far rest : Bytes,
    input = lead ++ near ++ (far ++ rest) ∧ (lead ++ near).length = clampCursor input cursor ∧
      (∀ b ∈ near ++ far, isDelimiter b = false) ∧
      (∀ b ∈ lead.getLast?, isDelimiter b = true) ∧ ∀ b ∈ rest.head?, isDelimiter b = true := by
  have short : clampCursor input cursor ≤ input.length := Nat.min_le_right ..
  generalize clampCursor input cursor = c at short
  let plain : UInt8 → Bool := fun b => !isDelimiter b
  have next : ∀ text : Bytes, ∀ b ∈ (text.dropWhile plain).head?, isDelimiter b = true := by
    intro text b found
    have stop := List.head?_dropWhile_not plain text
    rw [Option.mem_def.mp found] at stop
    simpa [plain] using stop
  have run : ∀ text : Bytes, ∀ b ∈ text.takeWhile plain, isDelimiter b = false := by
    intro text b found
    simpa [plain] using List.mem_takeWhile_imp found
  refine ⟨((input.take c).reverse.dropWhile plain).reverse, ((input.take c).reverse.takeWhile plain).reverse,
    (input.drop c).takeWhile plain, (input.drop c).dropWhile plain, ?_, ?_, ?_, ?_, next _⟩
  · rw [← List.reverse_append, List.takeWhile_append_dropWhile, List.reverse_reverse,
      List.takeWhile_append_dropWhile, List.take_append_drop]
  · rw [← List.reverse_append, List.takeWhile_append_dropWhile, List.reverse_reverse, List.length_take,
      Nat.min_eq_left short]
  · refine List.forall_mem_append.mpr ⟨?_, run _⟩
    exact fun b found => run _ b (List.mem_reverse.mp found)
  · rw [List.getLast?_reverse]
    exact next _

end Parts

/-- The word around a cursor is the longest run of bytes around it without a delimiter, and it is the
same word for every cursor in it and at its ends. -/
theorem wordBounds_maximal (input : Bytes) (cursor : Int) : ∃ start stop : Nat,
    wordBounds input cursor = (start, stop) ∧
    (clampCursor input cursor : Int) = min (max cursor 0) input.length ∧
    start ≤ clampCursor input cursor ∧ clampCursor input cursor ≤ stop ∧ stop ≤ input.length ∧
    (∀ b ∈ slice input (start, stop), isDelimiter b = false) ∧
    (start = 0 ∨ ∃ b, input[start - 1]? = some b ∧ isDelimiter b = true) ∧
    (stop = input.length ∨ ∃ b, input[stop]? = some b ∧ isDelimiter b = true) ∧
    ∀ other : Int, start ≤ other → other ≤ stop → wordBounds input other = (start, stop) := by
  obtain ⟨lead, near, far, rest, whole, stands, plain, starts, ends⟩ := parts_around input cursor
  have clamped : (clampCursor input cursor : Int) = min (max cursor 0) input.length := by
    rw [clampCursor]
    omega
  have inside : ∀ other : Int, (lead.length : Int) ≤ other → other ≤ (lead ++ (near ++ far)).length →
      wordBounds input other = (lead.length, (lead ++ (near ++ far)).length) := by
    intro other least most
    -- the same run, cut at the other cursor
    obtain ⟨k, rfl⟩ : ∃ k : Nat, other = (lead.length + k : Nat) := ⟨other.toNat - lead.length, by omega⟩
    have cut : k ≤ (near ++ far).length := by
      rw [List.length_append] at most
      omega
    have found := @wordBounds_of_parts lead ((near ++ far).take k) ((near ++ far).drop k) rest
      (by rwa [List.take_append_drop]) starts ends
    have same : lead ++ (near ++ far).take k ++ ((near ++ far).drop k ++ rest) = input := by
      rw [List.append_assoc, ← List.append_assoc _ _ rest, List.take_append_drop, whole]
      simp
    rw [List.take_append_drop, same, List.length_append, List.length_take, Nat.min_eq_left cut] at found
    exact found
  have here : wordBounds input cursor = (lead.length, (lead ++ (near ++ far)).length) := by
    have found := inside (clampCursor input cursor) (by rw [← stands]; simp) (by rw [← stands]; simp)
    have settled : clampCursor input (clampCursor input cursor) = clampCursor input cursor := by
      simp only [clampCursor]
      omega
    rw [wordBounds_bytes] at found ⊢
    rw [← found, settled]
  refine ⟨_, _, here, clamped, by simp [← stands], by simp [← stands], by simp [whole], ?_, ?_, ?_, inside⟩
  · have word : slice input (lead.length, (lead ++ (near ++ far)).length) = near ++ far := by
      have regroup : lead ++ near ++ (far ++ rest) = lead ++ (near ++ far) ++ rest := by simp
      rw [slice, whole, regroup, List.take_left, List.drop_left]
    rw [word]
    exact plain
  · rcases List.eq_nil_or_concat' lead with rfl | ⟨before, b, rfl⟩
    · exact .inl rfl
    · refine .inr ⟨b, ?_, starts b (by simp)⟩
      simp [whole]
  · cases rest with
    | nil => exact .inl (by simp [whole])
    | cons b rest =>
      refine .inr ⟨b, ?_, ends b rfl⟩
      have regroup : lead ++ near ++ (far ++ b :: rest) = lead ++ (near ++ far) ++ b :: rest := by simp
      rw [whole, regroup, List.getElem?_append_right le_rfl, Nat.sub_self]
      rfl

/-- An accented letter in parentheses, cut in two by a stray byte behind it. -/
def torn : Bytes := [40, 0xC3, 0xA9, 120, 0x80, 41]

theorem torn_maximal :
    wordBounds torn 2 = (1, 5) ∧ wordBounds torn 4 = (1, 5) ∧ slice torn (1, 5) = [0xC3, 0xA9, 120, 0x80] := by
  have inside : wordBounds torn 2 = (1, 5) := by decide +kernel
  obtain ⟨start, stop, found, -, -, -, -, -, -, -, same⟩ := wordBounds_maximal torn 2
  obtain ⟨rfl, rfl⟩ := Prod.mk.inj (found.symm.trans inside)
  exact ⟨inside, same 4 (by decide) (by decide), rfl⟩

end DistanceField.Editor
