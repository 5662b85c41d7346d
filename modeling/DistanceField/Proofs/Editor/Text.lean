import DistanceField.Editor.Model
import DistanceField.Proofs.Text.Decoding
import DistanceField.Proofs.Text.Separators

/-! A buffer is one text cut at its cursor. Edits keep it free of what is cleaned away when it is put
in, so that the text of a buffer can be loaded again as it is. -/
namespace DistanceField

namespace Editor.Buffer

def front (b : Buffer) : List Char := b.above.reverse.flatMap (· ++ ['\n']) ++ b.left.reverse

def back (b : Buffer) : List Char := b.right ++ b.below.flatMap ('\n' :: ·)

theorem value_eq (b : Buffer) : b.value = Utf8.encode (b.front ++ b.back) := by
  have feed : Bytes.ofString "\n" = Utf8.encode ['\n'] := by decide
  simp [value, rows, Bytes.join_append, feed, front, back, line, Utf8.encode, List.flatMap_map,
    List.flatMap_assoc, -List.map_reverse]

theorem front_put (b : Buffer) (c : Char) : (b.put c).front = b.front ++ [c] := by
  by_cases feed : c = '\n'
  · simp [put, front, feed]
  · simp [put, front, feed]

theorem back_put (b : Buffer) (c : Char) : (b.put c).back = b.back := by
  unfold put
  split <;> rfl

theorem foldl_put (b : Buffer) (cs : List Char) :
    (cs.foldl put b).front = b.front ++ cs ∧ (cs.foldl put b).back = b.back := by
  induction cs generalizing b with
  | nil => simp
  | cons c cs ih =>
    obtain ⟨front, back⟩ := ih (b.put c)
    simp [front, back, front_put, back_put]

theorem front_insert (b : Buffer) (cs : List Char) :
    (b.insert cs).front = b.front ++ cs.flatMap clean :=
  (foldl_put b _).1

theorem back_insert (b : Buffer) (cs : List Char) : (b.insert cs).back = b.back :=
  (foldl_put b _).2

theorem value_ofText (t : Bytes) : (ofText t).value = Utf8.encode ((Utf8.chars t).flatMap clean) := by
  rw [value_eq, ofText, front_insert, back_insert]
  simp [front, back, empty]

def Clean (b : Buffer) : Prop := ∀ c ∈ b.front ++ b.back, clean c = [c]

theorem clean_of_mem {c d : Char} (found : d ∈ clean c) : clean d = [d] := by
  unfold clean at found
  split at found
  · cases List.mem_singleton.mp found
    decide
  · split at found
    · have blank : d = ' ' := by simpa using found
      cases blank
      decide
    · split at found
      · cases found
      · cases List.mem_singleton.mp found
        rename_i feed tab control
        simp [clean, feed, tab, control]

/-- The text of a clean buffer is loaded as it is. -/
theorem Clean.reload {b : Buffer} (clean : b.Clean) : (ofText b.value).value = b.value := by
  have kept : (b.front ++ b.back).flatMap Buffer.clean = b.front ++ b.back :=
    (List.flatMap_congr clean).trans (List.flatMap_singleton' _)
  rw [value_ofText, value_eq, Utf8.chars_encode, kept]

theorem splitAt_text (width target : Nat) (left right : List Char) (offset : Nat) :
    (splitAt width target left right offset).1.reverse ++
      (splitAt width target left right offset).2 = left.reverse ++ right := by
  induction right generalizing left offset with
  | nil => rfl
  | cons c right ih =>
    unfold splitAt
    split
    · rfl
    · simp [ih]

theorem line_onLine (width target : Nat) (above : List (List Char)) (row : List Char)
    (below : List (List Char)) (column : Int) :
    (onLine width target above row below column).line = row := by
  simp [onLine, line, splitAt_text]

theorem line_setColumn (b : Buffer) (n : Nat) : (b.setColumn n).line = b.line := by
  simp [setColumn, line]

theorem text_eq (b : Buffer) : b.front ++ b.back =
    b.above.reverse.flatMap (· ++ ['\n']) ++ b.line ++ b.below.flatMap ('\n' :: ·) := by
  simp [front, back, line]

theorem text_onLine (width target : Nat) (above : List (List Char)) (row : List Char)
    (below : List (List Char)) (column : Int) :
    (onLine width target above row below column).front ++
      (onLine width target above row below column).back =
        above.reverse.flatMap (· ++ ['\n']) ++ row ++ below.flatMap ('\n' :: ·) := by
  rw [text_eq, line_onLine]
  rfl

theorem text_setColumn (b : Buffer) (n : Nat) :
    (b.setColumn n).front ++ (b.setColumn n).back = b.front ++ b.back := by
  rw [text_eq, text_eq, line_setColumn]
  rfl

def isMove : Edit → Bool
  | .left | .right | .up | .down | .home | .final => true
  | _ => false

theorem text_move (width : Nat) (b : Buffer) {e : Edit} (move : isMove e = true) :
    (b.apply width e).front ++ (b.apply width e).back = b.front ++ b.back := by
  cases e with
  | left =>
    simp only [apply]
    unfold moveLeft
    split <;> simp [front, back, *]
  | right =>
    simp only [apply]
    unfold moveRight
    split <;> simp [front, back, *]
  | up =>
    rw [text_eq b]
    simp only [apply]
    unfold moveUp
    dsimp only
    split
    · simp [text_onLine, *]
    · simp [text_onLine, *]
  | down =>
    rw [text_eq b]
    simp only [apply]
    unfold moveDown
    dsimp only
    split
    · split
      · simp [text_onLine, *]
      · simp [text_onLine, *]
    · simp [text_onLine, *]
  | home => exact text_setColumn ..
  | final => exact text_setColumn ..
  | _ => cases move

theorem front_enter (b : Buffer) : b.enter.front = b.front ++ ['\n'] := by
  simp [enter, front]

theorem back_enter (b : Buffer) : b.enter.back = b.back := rfl

theorem front_backspace (b : Buffer) : b.backspace.front = b.front.dropLast := by
  unfold backspace
  split <;> simp [front, *, ← List.append_assoc]

theorem back_backspace (b : Buffer) : b.backspace.back = b.back := by
  unfold backspace
  split <;> rfl

theorem front_delete (b : Buffer) : b.delete.front = b.front := by
  unfold delete join
  split <;> rfl

theorem back_delete (b : Buffer) : ∀ c ∈ b.delete.back, c ∈ b.back := by
  intro c found
  have fewer : ∀ c ∈ b.right.drop 1, c ∈ b.right := fun c => List.mem_of_mem_drop
  unfold delete join at found
  simp only [back, List.mem_append] at found ⊢
  split at found
  · rename_i r rest none below
    simp only [below, List.flatMap_cons, List.mem_append, List.mem_cons] at found ⊢
    tauto
  · exact found.imp_left (fewer c)

theorem Clean.of_subset {b d : Buffer} (clean : b.Clean)
    (subset : ∀ c ∈ d.front ++ d.back, c ∈ b.front ++ b.back) : d.Clean :=
  fun c found => clean c (subset c found)

theorem Clean.backspace {b : Buffer} (clean : b.Clean) : b.backspace.Clean := by
  refine clean.of_subset fun c found => ?_
  simp only [front_backspace, back_backspace, List.mem_append] at found ⊢
  exact found.imp_left List.mem_of_mem_dropLast

theorem Clean.erase {b : Buffer} (clean : b.Clean) (n : Nat) : (b.erase n).Clean := by
  induction n generalizing b with
  | zero => exact clean
  | succ n ih => exact ih clean.backspace

theorem Clean.insert {b : Buffer} (clean : b.Clean) (cs : List Char) : (b.insert cs).Clean := by
  intro c found
  simp only [front_insert, back_insert, List.mem_append, List.mem_flatMap] at found
  rcases found with (old | ⟨d, -, new⟩) | old
  · exact clean c (List.mem_append_left _ old)
  · exact clean_of_mem new
  · exact clean c (List.mem_append_right _ old)

theorem clean_ofText (t : Bytes) : (ofText t).Clean :=
  Clean.insert (by simp [Clean, front, back, empty]) _

theorem Clean.setColumn {b : Buffer} (clean : b.Clean) (n : Nat) : (b.setColumn n).Clean :=
  clean.of_subset fun c found => by rwa [text_setColumn] at found

theorem Clean.apply {b : Buffer} (clean : b.Clean) (width : Nat) (e : Edit) :
    (b.apply width e).Clean := by
  cases e with
  | enter =>
    intro c found
    simp only [Buffer.apply, front_enter, back_enter, List.mem_append, List.mem_singleton] at found
    rcases found with (old | rfl) | old
    · exact clean c (List.mem_append_left _ old)
    · decide
    · exact clean c (List.mem_append_right _ old)
  | backspace => exact clean.backspace
  | delete =>
    refine clean.of_subset fun c found => ?_
    simp only [Buffer.apply, front_delete, List.mem_append] at found ⊢
    exact found.imp_right (back_delete b c)
  | insert cs => exact clean.insert cs
  | _ => exact clean.of_subset fun c found => by rwa [text_move width b rfl] at found

end Editor.Buffer

end DistanceField
