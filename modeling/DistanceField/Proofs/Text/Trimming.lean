import DistanceField.Proofs.Text.Decoding

/-! Texts are read piece by piece, and cut in two before a byte that starts a character they are read in
two parts. Trimming takes white space from both ends of a text and nothing else. -/
namespace DistanceField

namespace Utf8

theorem isTail_ofChar {c : Char} {b t : UInt8} {bytes : Bytes} (written : Bytes.ofChar c = b :: bytes)
    (found : t ∈ bytes) : isTail t = true := by
  unfold Bytes.ofChar String.utf8EncodeChar at written
  dsimp only at written
  split_ifs at written
  all_goals
    obtain ⟨-, rfl⟩ := List.cons.inj written
    simp only [List.mem_cons, List.not_mem_nil, or_false] at found
  · rw [found]
    exact isTail_written _
  · rcases found with rfl | rfl <;> exact isTail_written _
  · rcases found with rfl | rfl | rfl <;> exact isTail_written _

theorem isTail_lead (c : Char) {b : UInt8} (lead : b ∈ (Bytes.ofChar c).head?) : isTail b = false := by
  obtain ⟨bytes, written⟩ := List.head?_eq_some_iff.mp lead
  have read := first_ofChar c []
  rw [List.append_nil, written] at read
  by_contra tail
  obtain ⟨least, most⟩ := (isTail_iff b).mp (Bool.of_not_eq_false tail)
  have large : ¬ b < 0x80 := by
    simp [UInt8.lt_iff_toNat_lt]
    omega
  have stray : (decide (b < 0xC2) || decide (b > 0xF4)) = true := by
    simp [UInt8.lt_iff_toNat_lt]
    omega
  unfold first at read
  dsimp only at read
  rw [if_neg large, if_pos stray] at read
  simp at read

theorem isTail_encode (cs : List Char) : ∀ b ∈ (encode cs).head?, isTail b = false := by
  intro b lead
  cases cs with
  | nil => cases lead
  | cons c cs =>
    refine isTail_lead c ?_
    have some := length_ofChar_pos c
    have split : encode (c :: cs) = Bytes.ofChar c ++ encode cs := rfl
    rw [split, List.head?_append_of_ne_nil _ (List.ne_nil_of_length_pos some)] at lead
    exact lead

theorem first_append {x : UInt8} {a b : Bytes} (bad : first (x :: a) = (replacement, 1, false))
    (starts : ∀ t ∈ b.head?, isTail t = false) :
    first (x :: (a ++ b)) = (replacement, 1, false) := by
  have none : ∀ c more, x :: a ≠ Bytes.ofChar c ++ more := by
    intro c more same
    rw [same, first_ofChar] at bad
    cases bad
  refine (first_cases x (a ++ b)).resolve_left ?_
  rintro ⟨c, more, split⟩
  rw [← List.cons_append] at split
  rcases List.append_eq_append_iff.mp split with ⟨rest, written, behind⟩ | ⟨rest, same, -⟩
  · cases rest with
    | nil => exact none c [] (by simpa using written.symm)
    | cons t rest =>
      have tail : isTail t = true := isTail_ofChar written (by simp)
      rw [starts t (by simp [behind])] at tail
      cases tail
  · exact none c rest same

theorem pieces_append (a : Bytes) {b : Bytes} (starts : ∀ t ∈ b.head?, isTail t = false) :
    pieces (a ++ b) = pieces a ++ pieces b := by
  induction a using text_induction with
  | nil => simp [pieces]
  | char c rest ih => rw [List.append_assoc, pieces_ofChar, pieces_ofChar, ih, List.cons_append]
  | stray x rest bad ih =>
    rw [List.cons_append, pieces_stray (first_append bad starts), pieces_stray bad, ih,
      List.cons_append]

theorem bytes_pieces (text : Bytes) : (pieces text).flatMap (·.2.1) = text := by
  induction text using text_induction with
  | nil => simp [pieces]
  | char c rest ih => rw [pieces_ofChar, List.flatMap_cons, ih]
  | stray b rest bad ih =>
    rw [pieces_stray bad, List.flatMap_cons, ih]
    rfl

theorem piece_valid {text : Bytes} {p : Char × Bytes × Bool} (found : p ∈ pieces text)
    (valid : p.2.2 = true) : p.2.1 = Bytes.ofChar p.1 := by
  induction text using text_induction with
  | nil => simp [pieces] at found
  | char c rest ih =>
    rw [pieces_ofChar] at found
    rcases List.mem_cons.mp found with rfl | later
    · rfl
    · exact ih later
  | stray b rest bad ih =>
    rw [pieces_stray bad] at found
    rcases List.mem_cons.mp found with rfl | later
    · cases valid
    · exact ih later

end Utf8

namespace Letter

def isBlankPiece (p : Char × Bytes × Bool) : Bool := p.2.2 && isSpace p.1

theorem blanks_written {text : Bytes} {ps : List (Char × Bytes × Bool)}
    (part : ∀ p ∈ ps, p ∈ Utf8.pieces text) (blanks : ∀ p ∈ ps, isBlankPiece p = true) :
    (∀ c ∈ ps.map (·.1), isSpace c = true) ∧
      ps.flatMap (·.2.1) = Utf8.encode (ps.map (·.1)) := by
  constructor
  · intro c found
    obtain ⟨p, inside, rfl⟩ := List.mem_map.mp found
    exact (Bool.and_eq_true_iff.mp (blanks p inside)).2
  · rw [Utf8.encode, List.flatMap_map]
    refine List.flatMap_congr fun p found => ?_
    exact Utf8.piece_valid (part p found) (Bool.and_eq_true_iff.mp (blanks p found)).1

/-- Trimming takes white space from both ends. -/
theorem trim_parts (text : Bytes) :
    ∃ cs ds, (∀ c ∈ cs ++ ds, isSpace c = true) ∧
      text = Utf8.encode cs ++ trim text ++ Utf8.encode ds := by
  let kept := ((Utf8.pieces text).dropWhile isBlankPiece).reverse
  have cutFront : Utf8.pieces text =
      (Utf8.pieces text).takeWhile isBlankPiece ++ kept.reverse := by
    rw [List.reverse_reverse, List.takeWhile_append_dropWhile]
  have cutBack : kept.reverse =
      (kept.dropWhile isBlankPiece).reverse ++ (kept.takeWhile isBlankPiece).reverse := by
    rw [← List.reverse_append, List.takeWhile_append_dropWhile]
  have inFront : ∀ p ∈ (Utf8.pieces text).takeWhile isBlankPiece, p ∈ Utf8.pieces text :=
    fun p found => (List.takeWhile_prefix _).subset found
  have inBack : ∀ p ∈ (kept.takeWhile isBlankPiece).reverse, p ∈ Utf8.pieces text := by
    intro p found
    have inside := (List.takeWhile_prefix _).subset (List.mem_reverse.mp found)
    exact (List.dropWhile_suffix _).subset (List.mem_reverse.mp inside)
  obtain ⟨front, frontBytes⟩ := blanks_written inFront fun p found => List.mem_takeWhile_imp found
  obtain ⟨back, backBytes⟩ :=
    blanks_written inBack fun p found => List.mem_takeWhile_imp (List.mem_reverse.mp found)
  refine ⟨_, _, List.forall_mem_append.mpr ⟨front, back⟩, ?_⟩
  have whole : trim text = (kept.dropWhile isBlankPiece).reverse.flatMap (·.2.1) := rfl
  rw [← frontBytes, ← backBytes, whole, List.append_assoc, ← List.flatMap_append, ← cutBack,
    ← List.flatMap_append, ← cutFront, Utf8.bytes_pieces]

theorem dropWhile_blanks {cs : List Char} (spaces : ∀ c ∈ cs, isSpace c = true)
    (ps : List (Char × Bytes × Bool)) :
    ((cs.map fun c => (c, Bytes.ofChar c, true)) ++ ps).dropWhile isBlankPiece =
      ps.dropWhile isBlankPiece := by
  refine List.dropWhile_append_of_pos fun p found => ?_
  obtain ⟨c, inside, rfl⟩ := List.mem_map.mp found
  exact spaces c inside

theorem trim_padded {cs ds : List Char} (spaces : ∀ c ∈ cs ++ ds, isSpace c = true) {core : Bytes}
    (first : ∃ a rest, core = a :: rest ∧ a < 128 ∧ isSpace (Char.ofNat a.toNat) = false)
    (last : ∃ front z, core = front ++ [z] ∧ z < 128 ∧ isSpace (Char.ofNat z.toNat) = false) :
    trim (Utf8.encode cs ++ core ++ Utf8.encode ds) = core := by
  obtain ⟨before, behind⟩ := List.forall_mem_append.mp spaces
  have read : Utf8.pieces (Utf8.encode cs ++ core ++ Utf8.encode ds) =
      (cs.map fun c => (c, Bytes.ofChar c, true)) ++ (Utf8.pieces core ++
        ds.map fun c => (c, Bytes.ofChar c, true)) := by
    rw [List.append_assoc, Utf8.pieces_encode_append, Utf8.pieces_append _ (Utf8.isTail_encode ds),
      Utf8.pieces_encode]
  have solidFront : ∀ ps, (Utf8.pieces core ++ ps).dropWhile isBlankPiece = Utf8.pieces core ++ ps := by
    obtain ⟨a, rest, rfl, single, solid⟩ := first
    intro ps
    rw [Utf8.pieces_cons single, List.cons_append, List.dropWhile_cons_of_neg (by simp [isBlankPiece, solid])]
  have solidBack : (Utf8.pieces core).reverse.dropWhile isBlankPiece = (Utf8.pieces core).reverse := by
    obtain ⟨front, z, rfl, single, solid⟩ := last
    have alone : Utf8.pieces [z] = [(Char.ofNat z.toNat, [z], true)] := by
      rw [Utf8.pieces_cons single]
      simp [Utf8.pieces]
    have lead : ∀ t ∈ [z].head?, Utf8.isTail t = false := by
      intro t is
      obtain rfl : z = t := by simpa using is
      have small : z.toNat < 128 := UInt8.lt_iff_toNat_lt.mp single
      rw [Bool.eq_false_iff, Ne, Utf8.isTail_iff]
      omega
    rw [Utf8.pieces_append front lead, alone, List.reverse_append, List.reverse_singleton,
      List.singleton_append, List.dropWhile_cons_of_neg (by simp [isBlankPiece, solid])]
  have order : (ds.map fun c => (c, Bytes.ofChar c, true)).reverse =
      ds.reverse.map fun c => (c, Bytes.ofChar c, true) := List.map_reverse.symm
  have shape (text : Bytes) : trim text = (((Utf8.pieces text).dropWhile isBlankPiece).reverse.dropWhile
      isBlankPiece).reverse.flatMap (·.2.1) := rfl
  rw [shape, read, dropWhile_blanks before, solidFront, List.reverse_append, order,
    dropWhile_blanks (fun c found => behind c (List.mem_reverse.mp found)), solidBack,
    List.reverse_reverse, Utf8.bytes_pieces]

theorem not_mem_spaces {b : UInt8} (single : b < 128) (solid : isSpace (Char.ofNat b.toNat) = false)
    {cs : List Char} (spaces : ∀ c ∈ cs, isSpace c = true) : b ∉ Utf8.encode cs := by
  intro found
  obtain ⟨c, inside, found⟩ := List.mem_flatMap.mp found
  have small : b.toNat < 128 := UInt8.lt_iff_toNat_lt.mp single
  rcases Utf8.byte_ofChar found with ⟨same, -⟩ | large
  · rw [same, Char.ofNat_toNat, spaces c inside] at solid
    cases solid
  · omega

theorem count_trim {b : UInt8} (single : b < 128) (solid : isSpace (Char.ofNat b.toNat) = false)
    (text : Bytes) : (trim text).count b = text.count b := by
  obtain ⟨cs, ds, spaces, parts⟩ := trim_parts text
  obtain ⟨front, back⟩ := List.forall_mem_append.mp spaces
  have none {cs : List Char} (spaces : ∀ c ∈ cs, isSpace c = true) : (Utf8.encode cs).count b = 0 :=
    List.count_eq_zero.mpr (not_mem_spaces single solid spaces)
  conv_rhs => rw [parts, List.count_append, List.count_append, none front, none back]
  omega

end Letter

end DistanceField
