import DistanceField.Editor.Background
import DistanceField.Proofs.Editor.Schedule
import DistanceField.Proofs.Editor.Text
import DistanceField.Proofs.Editor.Words

/-! The rows of a buffer hold no line feeds, whatever is typed, loaded or completed, and the word at the
cursor lies in the cursor's row. -/
namespace DistanceField.Editor

namespace Buffer

def Lined (b : Buffer) : Prop := ∀ r ∈ b.rows, '\n' ∉ r

theorem lined_iff (b : Buffer) : b.Lined ↔
    (∀ r ∈ b.above, '\n' ∉ r) ∧ ('\n' ∉ b.left ∧ '\n' ∉ b.right) ∧ ∀ r ∈ b.below, '\n' ∉ r := by
  rw [Lined, rows, List.forall_mem_append, List.forall_mem_cons]
  simp only [line, List.mem_reverse, List.mem_append, not_or]

theorem rows_eq (b : Buffer) : b.rows = b.above.reverse ++ b.line :: b.below := rfl

theorem rows_onLine (width target : Nat) (above : List (List Char)) (row : List Char)
    (below : List (List Char)) (column : Int) :
    (onLine width target above row below column).rows = above.reverse ++ row :: below := by
  rw [rows, line_onLine]
  rfl

theorem rows_setColumn (b : Buffer) (n : Nat) : (b.setColumn n).rows = b.rows := by
  rw [rows, line_setColumn]
  rfl

theorem rows_move (width : Nat) (b : Buffer) {e : Edit} (move : isMove e = true) :
    (b.apply width e).rows = b.rows := by
  cases e with
  | left =>
    simp only [apply]
    unfold moveLeft
    split <;> simp [rows, line, *]
  | right =>
    simp only [apply]
    unfold moveRight
    split <;> simp [rows, line, *]
  | up =>
    rw [rows_eq b]
    simp only [apply]
    unfold moveUp
    dsimp only
    split <;> simp [rows_onLine, *]
  | down =>
    rw [rows_eq b]
    simp only [apply]
    unfold moveDown
    dsimp only
    split
    · split <;> simp [rows_onLine, *]
    · simp [rows_onLine, *]
  | home => exact rows_setColumn ..
  | final => exact rows_setColumn ..
  | _ => cases move

theorem Lined.put {b : Buffer} (lined : b.Lined) (c : Char) : (b.put c).Lined := by
  rw [lined_iff] at lined ⊢
  obtain ⟨above, ⟨left, right⟩, below⟩ := lined
  unfold Buffer.put
  split
  · exact ⟨by simpa using ⟨left, above⟩, ⟨by simp, right⟩, below⟩
  · next other =>
    have apart : '\n' ≠ c := fun same => other (by simp [← same])
    exact ⟨above, ⟨by simp [apart, left], right⟩, below⟩

theorem Lined.insert {b : Buffer} (lined : b.Lined) (cs : List Char) : (b.insert cs).Lined := by
  have puts : ∀ cs : List Char, (cs.foldl Buffer.put b).Lined := by
    intro cs
    induction cs using List.reverseRecOn with
    | nil => exact lined
    | append_singleton cs c ih =>
      rw [List.foldl_append]
      exact ih.put c
  exact puts (cs.flatMap clean)

theorem lined_ofText (t : Bytes) : (ofText t).Lined :=
  Lined.insert (by simp [lined_iff, empty]) _

theorem Lined.backspace {b : Buffer} (lined : b.Lined) : b.backspace.Lined := by
  rw [lined_iff] at lined ⊢
  unfold Buffer.backspace
  split <;> simp_all

theorem Lined.erase {b : Buffer} (lined : b.Lined) (n : Nat) : (b.erase n).Lined := by
  induction n generalizing b with
  | zero => exact lined
  | succ n ih => exact ih lined.backspace

theorem Lined.delete {b : Buffer} (lined : b.Lined) : b.delete.Lined := by
  have shorter : '\n' ∉ b.right → '\n' ∉ b.right.drop 1 := mt List.mem_of_mem_drop
  rw [lined_iff] at lined ⊢
  unfold Buffer.delete join
  split <;> simp_all

theorem Lined.apply {b : Buffer} (lined : b.Lined) (width : Nat) (e : Edit) :
    (b.apply width e).Lined := by
  cases e with
  | enter =>
    rw [lined_iff] at lined ⊢
    simp_all [Buffer.apply, enter]
  | backspace => exact lined.backspace
  | delete => exact lined.delete
  | insert cs => exact lined.insert cs
  | _ =>
    rw [Lined, rows_move width b rfl]
    exact lined

end Buffer

section Bounds

theorem ofChar_small {c : Char} {b : UInt8} (found : b ∈ Bytes.ofChar c) (small : b < 128) :
    Bytes.ofChar c = [b] := by
  have less : b.toNat < 128 := UInt8.lt_iff_toNat_lt.mp small
  rcases Utf8.byte_ofChar found with ⟨same, -⟩ | large
  · rw [← c.ofNat_toNat, ← same]
    exact Utf8.ofChar_one less
  · omega

theorem mem_encode_feed {cs : List Char} : 10 ∈ Utf8.encode cs ↔ '\n' ∈ cs := by
  constructor
  · intro found
    obtain ⟨c, inside, found⟩ := List.mem_flatMap.mp found
    rcases Utf8.byte_ofChar found with ⟨same, -⟩ | large
    · have feed : c = '\n' := by
        rw [← c.ofNat_toNat, ← same]
        rfl
      exact feed ▸ inside
    · exact absurd large (by decide)
  · intro found
    exact List.mem_flatMap.mpr ⟨'\n', found, by decide⟩

theorem char_cases (c : Char) : (∀ b ∈ Bytes.ofChar c, (!isDelimiter b) = true) ∨
    ∃ b, Bytes.ofChar c = [b] ∧ (!isDelimiter b) = false := by
  by_cases none : ∀ b ∈ Bytes.ofChar c, (!isDelimiter b) = true
  · exact .inl none
  · push Not at none
    obtain ⟨b, found, delimiter⟩ := none
    have delimits : isDelimiter b = true := by simpa using delimiter
    exact .inr ⟨b, ofChar_small found (delimiter_small b delimits), by simp [delimits]⟩

theorem no_feed {word : List Char} (plain : ∀ b ∈ Utf8.encode word, (!isDelimiter b) = true) :
    '\n' ∉ word := by
  intro found
  exact absurd (plain 10 (mem_encode_feed.mpr found)) (by decide)

/-- Going on to a delimiter passes over whole characters. -/
theorem takeWhile_encode (cs : List Char) : ∃ word rest, cs = word ++ rest ∧ '\n' ∉ word ∧
    (Utf8.encode cs).takeWhile (fun b => !isDelimiter b) = Utf8.encode word := by
  suffices split : ∃ word rest, cs = word ++ rest ∧
      (Utf8.encode cs).takeWhile (fun b => !isDelimiter b) = Utf8.encode word by
    obtain ⟨word, rest, parts, passed⟩ := split
    refine ⟨word, rest, parts, no_feed fun b found => ?_, passed⟩
    rw [← passed] at found
    exact List.mem_takeWhile_imp (p := fun b => !isDelimiter b) found
  induction cs with
  | nil => exact ⟨[], [], rfl, rfl⟩
  | cons c cs ih =>
    have split : Utf8.encode (c :: cs) = Bytes.ofChar c ++ Utf8.encode cs := rfl
    rcases char_cases c with plain | ⟨b, single, delimiter⟩
    · obtain ⟨word, rest, rfl, passed⟩ := ih
      refine ⟨c :: word, rest, rfl, ?_⟩
      rw [split, List.takeWhile_append_of_pos plain, passed]
      rfl
    · refine ⟨[], c :: cs, rfl, ?_⟩
      rw [split, single]
      simp [delimiter, Utf8.encode]

theorem takeWhile_encode_reverse (cs : List Char) : ∃ lead word, cs = lead ++ word ∧ '\n' ∉ word ∧
    (Utf8.encode cs).reverse.takeWhile (fun b => !isDelimiter b) = (Utf8.encode word).reverse := by
  suffices split : ∃ lead word, cs = lead ++ word ∧
      (Utf8.encode cs).reverse.takeWhile (fun b => !isDelimiter b) = (Utf8.encode word).reverse by
    obtain ⟨lead, word, parts, passed⟩ := split
    refine ⟨lead, word, parts, no_feed fun b found => ?_, passed⟩
    rw [← List.mem_reverse, ← passed] at found
    exact List.mem_takeWhile_imp (p := fun b => !isDelimiter b) found
  induction cs using List.reverseRecOn with
  | nil => exact ⟨[], [], rfl, rfl⟩
  | append_singleton cs c ih =>
    have split : Utf8.encode (cs ++ [c]) = Utf8.encode cs ++ Bytes.ofChar c := by simp [Utf8.encode]
    rcases char_cases c with plain | ⟨b, single, delimiter⟩
    · obtain ⟨lead, word, rfl, passed⟩ := ih
      refine ⟨lead, word ++ [c], by simp, ?_⟩
      have back : ∀ b ∈ (Bytes.ofChar c).reverse, (!isDelimiter b) = true :=
        fun b found => plain b (List.mem_reverse.mp found)
      rw [split, List.reverse_append, List.takeWhile_append_of_pos back, passed]
      simp [Utf8.encode]
    · refine ⟨cs ++ [c], [], by simp, ?_⟩
      rw [split, single]
      simp [delimiter, Utf8.encode]

end Bounds

namespace Buffer

def aboveText (b : Buffer) : List Char := b.above.reverse.flatMap (· ++ ['\n'])

theorem aboveText_cases (b : Buffer) : b.aboveText = [] ∨ ∃ text, b.aboveText = text ++ ['\n'] := by
  cases above : b.above with
  | nil => exact .inl (by simp [aboveText, above])
  | cons r rest => exact .inr ⟨_, by simp [aboveText, above, ← List.append_assoc]; rfl⟩

theorem encode_append (cs ds : List Char) : Utf8.encode (cs ++ ds) = Utf8.encode cs ++ Utf8.encode ds :=
  List.flatMap_append

theorem cursor_eq (b : Buffer) : b.cursor = (Utf8.encode b.front).length := by
  have rowsAbove (above : List (List Char)) :
      (Utf8.encode (above.reverse.flatMap (· ++ ['\n']))).length =
        total (above.map fun r => (Utf8.encode r).length + 1) := by
    have feed : (Utf8.encode ['\n']).length = 1 := by decide
    induction above with
    | nil => rfl
    | cons r above ih =>
      simp only [List.reverse_cons, List.flatMap_append, List.flatMap_singleton, encode_append,
        List.length_append, ih, feed, List.map_cons, total]
      omega
  rw [cursor, front, encode_append, List.length_append, rowsAbove]

theorem value_split (b : Buffer) : b.value = Utf8.encode b.front ++ Utf8.encode b.back := by
  rw [value_eq, encode_append]

theorem near_row {b : Buffer} {before near : List Char} (parts : b.front = before ++ near)
    (flat : '\n' ∉ near) : ∃ lead, b.left.reverse = lead ++ near ∧ before = b.aboveText ++ lead := by
  have whole : b.aboveText ++ b.left.reverse = before ++ near := parts
  rcases List.append_eq_append_iff.mp whole with ⟨lead, split, row⟩ | ⟨more, split, row⟩
  · exact ⟨lead, row, split⟩
  · rcases List.eq_nil_or_concat' more with rfl | ⟨more, c, rfl⟩
    · exact ⟨[], by simpa using row.symm, by simpa using split.symm⟩
    · -- the word would reach back over the line feed of the row above
      rcases b.aboveText_cases with none | ⟨text, last⟩
      · simp [none] at split
      · rw [last, ← List.append_assoc, List.append_singleton_inj] at split
        exact absurd (by simp [row, ← split.2]) flat

theorem far_row {b : Buffer} {far behind : List Char} (parts : b.back = far ++ behind)
    (flat : '\n' ∉ far) : ∃ rest, b.right = far ++ rest := by
  rcases List.append_eq_append_iff.mp parts with ⟨more, split, row⟩ | ⟨rest, split, -⟩
  · cases more with
    | nil => exact ⟨[], by simpa using split.symm⟩
    | cons c more =>
      -- the word would reach over the line feed of the cursor's row
      cases below : b.below with
      | nil => simp [below] at row
      | cons r below =>
        obtain ⟨rfl, -⟩ := List.cons.inj (by simpa [below] using row)
        exact absurd (by simp [split]) flat
  · exact ⟨rest, split⟩

theorem clampCursor_eq (b : Buffer) : clampCursor b.value b.cursor = (Utf8.encode b.front).length := by
  rw [clampCursor, value_split, cursor_eq, List.length_append]
  omega

theorem wordBounds_around (b : Buffer) : (wordBounds b.value b.cursor).1 ≤ b.cursor ∧
    b.cursor ≤ (wordBounds b.value b.cursor).2 ∧ (wordBounds b.value b.cursor).2 ≤ b.value.length := by
  have size : ∀ text : Bytes, (text.takeWhile fun b => !isDelimiter b).length ≤ text.length :=
    fun text => (List.takeWhile_prefix _).length_le
  have behind := size (Utf8.encode b.back)
  rw [wordBounds_bytes, clampCursor_eq, cursor_eq, value_split, List.drop_left, List.length_append]
  omega

/-- The word at the cursor lies in the cursor's row. -/
theorem wordBounds_row (b : Buffer) : ∃ lead word rest, b.line = lead ++ word ++ rest ∧
    wordBounds b.value b.cursor =
      ((Utf8.encode (b.aboveText ++ lead)).length,
        (Utf8.encode (b.aboveText ++ lead ++ word)).length) := by
  obtain ⟨before, near, frontParts, flat, wordFront⟩ := takeWhile_encode_reverse b.front
  obtain ⟨far, behind, backParts, flat', wordBack⟩ := takeWhile_encode b.back
  obtain ⟨lead, left, rfl⟩ := near_row frontParts flat
  obtain ⟨rest, right⟩ := far_row backParts flat'
  refine ⟨lead, near ++ far, rest, by simp [line, left, right], ?_⟩
  have size : (Utf8.encode b.front).length =
      (Utf8.encode (b.aboveText ++ lead)).length + (Utf8.encode near).length := by
    rw [frontParts, encode_append, List.length_append]
  have pass : ∀ cs : List Char, (Utf8.encode (b.aboveText ++ lead ++ (near ++ cs))).length =
      (Utf8.encode b.front).length + (Utf8.encode cs).length := by
    intro cs
    rw [← List.append_assoc, ← frontParts, encode_append, List.length_append]
  rw [wordBounds_bytes, clampCursor_eq, value_split, List.take_left, List.drop_left, wordFront, wordBack,
    List.length_reverse, pass far, size, Nat.add_sub_cancel]

theorem erase_left {b : Buffer} {gone left : List Char} (parts : b.left = gone ++ left)
    (loose : b.sticky = 0) : b.erase gone.length = { b with left := left } := by
  induction gone generalizing b with
  | nil =>
    obtain rfl : b.left = left := parts
    rfl
  | cons c gone ih =>
    have first : b.backspace = { b with left := gone ++ left } := by
      simp [backspace, parts, loose]
    rw [List.length_cons, erase, first]
    exact ih rfl loose

theorem insert_left (b : Buffer) {cs : List Char} (kept : ∀ c ∈ cs, clean c = [c])
    (flat : '\n' ∉ cs) : b.insert cs = { b with left := cs.reverse ++ b.left, sticky := 0 } := by
  have same : cs.flatMap clean = cs := (List.flatMap_congr kept).trans (List.flatMap_singleton' _)
  have puts : ∀ ds : List Char, '\n' ∉ ds →
      ds.foldl put b = { b with left := ds.reverse ++ b.left } := by
    intro ds flat
    induction ds using List.reverseRecOn with
    | nil => rfl
    | append_singleton ds c ih =>
      have other : c ≠ '\n' := by
        rintro rfl
        exact flat (by simp)
      have before : '\n' ∉ ds := fun found => flat (List.mem_append_left _ found)
      simp [List.foldl_append, ih before, put, other]
  rw [insert, same, puts cs flat]

end Buffer

namespace Model

theorem lined_replaceWord {m : Model} (lined : m.buffer.Lined) (name : Bytes) :
    (m.replaceWord name).buffer.Lined := by
  refine Buffer.Lined.insert (Buffer.Lined.erase ?_ _) _
  rw [Buffer.Lined, Buffer.rows_setColumn]
  exact lined

theorem lined_cycle {m : Model} (lined : m.buffer.Lined) (forward : Bool) :
    (m.cycle forward).buffer.Lined := by
  unfold cycle
  split
  · exact lined
  · exact lined_replaceWord lined _
  · dsimp only
    split
    · refine lined_replaceWord ?_ _
      exact lined
    · exact lined

theorem lined_update {m : Model} (lined : m.buffer.Lined) (msg : Message) :
    (m.update msg).1.buffer.Lined := by
  cases msg with
  | key k =>
    cases k with
    | quit =>
      simp only [update, press]
      split <;> exact lined
    | tab =>
      refine lined_cycle ?_ true
      exact lined
    | shiftTab =>
      refine lined_cycle ?_ false
      exact lined
    | edit e =>
      simp only [update, press, (refresh_kept _).2.2]
      exact lined.apply _ e
    | _ => exact lined
  | resized => exact lined
  | tick =>
    simp only [update]
    split <;> exact lined
  | compiled u =>
    rw [update, applyUpdate_eq]
    exact lined
  | saved source failure => cases failure <;> exact lined
  | edited source failure =>
    cases failure with
    | none =>
      simp only [update, (refresh_kept _).2.2]
      exact Buffer.lined_ofText source
    | some why => exact lined

end Model

end DistanceField.Editor
