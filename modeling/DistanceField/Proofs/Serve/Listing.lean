import DistanceField.Proofs.Lists
import DistanceField.Proofs.Serve.Tag
import DistanceField.Proofs.Text.Trimming

/-! Which tags a header names. The header is a star, which names all, or a list of tags in quotes. The
list is split at each comma, also at those within quotes, so that a star between two commas of a tag is
taken for one that names all. But for such a tag a list names what is in it. -/
namespace DistanceField

namespace Etag

def mark (weak : Bool) : Bytes := if weak then "W/" else []

structure Entry where
  before : Bytes
  weak : Bool
  tag : Bytes
  behind : Bytes
  padded : ∀ b ∈ before ++ behind, Bytes.isBlank b = true
  unquoted : 34 ∉ tag

namespace Entry

def quoted (e : Entry) : Bytes := 34 :: (e.tag ++ [34])

def text (e : Entry) : Bytes := e.before ++ (mark e.weak ++ e.quoted) ++ e.behind

end Entry

/-- A star alone, but for white space and a mark of weakness. -/
def IsStar (part : Bytes) : Prop :=
  ∃ cs weak ds, (∀ c ∈ cs ++ ds, Letter.isSpace c = true) ∧
    part = Utf8.encode cs ++ (mark weak ++ [42]) ++ Utf8.encode ds

/-- A star between two commas of a tag. -/
def HidesStar (tag : Bytes) : Prop :=
  ∃ front part back, tag = front ++ 44 :: (part ++ 44 :: back) ∧ IsStar part

inductive Header where
  | all
  | tags (es : List Entry)

namespace Header

def text : Header → Bytes
  | all => "*"
  | tags es => Bytes.join "," (es.map Entry.text)

/-- Whether the header names a tag; whether the tag is marked as weak does not matter. -/
def Names (etag : Bytes) : Header → Prop
  | all => True
  | tags es => ∃ e ∈ es, e.quoted = etag

def HidesStar : Header → Prop
  | all => False
  | tags es => ∃ e ∈ es, Etag.HidesStar e.tag

end Header

section Bare

/-- White space and a mark of weakness do not matter. -/
theorem bare_padded {cs ds : List Char} (spaces : ∀ c ∈ cs ++ ds, Letter.isSpace c = true)
    (weak : Bool) {core : Bytes} (first : ∃ a rest, core = a :: rest ∧ a ∈ [34, 42])
    (last : ∃ front z, core = front ++ [z] ∧ z ∈ [34, 42]) :
    bare (Utf8.encode cs ++ (mark weak ++ core) ++ Utf8.encode ds) = core := by
  have solid : ∀ b ∈ [(34 : UInt8), 42], b < 128 ∧ Letter.isSpace (Char.ofNat b.toNat) = false := by
    decide +kernel
  obtain ⟨a, rest, start, edge⟩ := first
  have trimmed : Letter.trim (Utf8.encode cs ++ (mark weak ++ core) ++ Utf8.encode ds) =
      mark weak ++ core := by
    refine Letter.trim_padded spaces ?_ ?_
    · cases weak with
      | true => exact ⟨87, 47 :: core, rfl, by decide +kernel⟩
      | false => exact ⟨a, rest, start, solid a edge⟩
    · obtain ⟨front, z, rfl, edge⟩ := last
      exact ⟨mark weak ++ front, z, by simp, solid z edge⟩
  have unmarked : Bytes.after? "W/" core = none := by
    rw [start]
    simp only [List.mem_cons, List.not_mem_nil, or_false] at edge
    rcases edge with rfl | rfl <;> rfl
  unfold bare
  rw [trimmed]
  cases weak with
  | true => rfl
  | false => simp [mark, unmarked]

theorem bare_text (e : Entry) : bare e.text = e.quoted := by
  have plain : ∀ b : UInt8, Bytes.isBlank b = true →
      b < 128 ∧ Letter.isSpace (Char.ofNat b.toNat) = true := by decide +kernel
  have written {gap : Bytes} (blanks : ∀ b ∈ gap, Bytes.isBlank b = true) :
      Utf8.encode (gap.map fun b => Char.ofNat b.toNat) = gap := by
    rw [Utf8.encode, List.flatMap_map]
    refine (List.flatMap_congr fun b found => ?_).trans (List.flatMap_singleton' _)
    exact Utf8.ofChar_one (UInt8.lt_iff_toNat_lt.mp (plain b (blanks b found)).1)
  obtain ⟨before, behind⟩ := List.forall_mem_append.mp e.padded
  have spaces : ∀ c ∈ (e.before.map fun b => Char.ofNat b.toNat) ++
      e.behind.map fun b => Char.ofNat b.toNat, Letter.isSpace c = true := by
    rw [← List.map_append]
    intro c found
    obtain ⟨b, inside, rfl⟩ := List.mem_map.mp found
    exact (plain b (e.padded b inside)).2
  have first : ∃ a rest, e.quoted = a :: rest ∧ a ∈ [34, 42] := ⟨34, _, rfl, by decide⟩
  have last : ∃ front z, e.quoted = front ++ [z] ∧ z ∈ [34, 42] := ⟨34 :: e.tag, 34, rfl, by decide⟩
  have padded := bare_padded spaces e.weak first last
  rwa [written before, written behind] at padded

theorem trim_eq (part : Bytes) : ∃ weak, Letter.trim part = mark weak ++ bare part := by
  unfold bare Bytes.after?
  dsimp only
  split
  · next marked =>
    obtain ⟨rest, split⟩ := List.isPrefixOf_iff_prefix.mp marked
    refine ⟨true, ?_⟩
    rw [Option.getD_some, ← split, List.drop_left]
    rfl
  · exact ⟨false, rfl⟩

theorem bare_eq_star (part : Bytes) : bare part = [42] ↔ IsStar part := by
  constructor
  · intro star
    obtain ⟨cs, ds, spaces, parts⟩ := Letter.trim_parts part
    obtain ⟨weak, core⟩ := trim_eq part
    exact ⟨cs, weak, ds, spaces, by rwa [core, star] at parts⟩
  · rintro ⟨cs, weak, ds, spaces, rfl⟩
    exact bare_padded spaces weak ⟨42, [], rfl, by decide⟩ ⟨[], 42, rfl, by decide⟩

theorem count_bare (part : Bytes) : (bare part).count 34 = part.count 34 := by
  obtain ⟨weak, core⟩ := trim_eq part
  have unmarked : ∀ weak, (mark weak).count 34 = 0 := by decide
  rw [← Letter.count_trim (b := 34) (by decide) (by decide +kernel) part, core, List.count_append,
    unmarked, Nat.zero_add]

end Bare

section Entries

variable (e : Entry)

def Entry.lead : Bytes := e.before ++ mark e.weak ++ [34]

def Entry.trail : Bytes := 34 :: e.behind

theorem text_eq : e.text = e.lead ++ (e.tag ++ e.trail) := by
  simp [Entry.text, Entry.lead, Entry.trail, Entry.quoted]

theorem edges_plain : (44 ∉ e.lead ∧ e.lead.count 34 = 1) ∧ 44 ∉ e.trail ∧ e.trail.count 34 = 1 := by
  have plain : ∀ b : UInt8, Bytes.isBlank b = true → b ≠ 44 ∧ b ≠ 34 := by decide +kernel
  have blank {gap : Bytes} (blanks : ∀ b ∈ gap, Bytes.isBlank b = true) :
      44 ∉ gap ∧ gap.count 34 = 0 :=
    ⟨fun found => (plain _ (blanks _ found)).1 rfl,
      List.count_eq_zero.mpr fun found => (plain _ (blanks _ found)).2 rfl⟩
  have unmarked : ∀ weak, 44 ∉ mark weak ∧ (mark weak).count 34 = 0 := by decide
  obtain ⟨before, behind⟩ := List.forall_mem_append.mp e.padded
  simp [Entry.lead, Entry.trail, blank before, blank behind, unmarked]

theorem last_comma {rest trail part v : Bytes} (none : 44 ∉ trail)
    (around : rest ++ (trail ++ [44]) = part ++ 44 :: v) :
    part = rest ++ trail ∨ ∃ back, rest = part ++ 44 :: back := by
  rcases split_append around with ⟨back, split, -⟩ | ⟨more, split, behind⟩
  · exact .inr ⟨back, split⟩
  · rcases split_append behind with ⟨_, inside, -⟩ | ⟨more, rfl, behind⟩
    · exact absurd (by simp [inside]) none
    · obtain rfl : more = [] := by
        cases more with
        | nil => rfl
        | cons b more => simp at behind
      exact .inl (by simpa using split)

/-- What is split off an entry: all of it, an end of it with one of its quotes, or a part of its tag
between two commas. -/
theorem part_cases {part : Bytes} (found : part ∈ Bytes.split 44 e.text) :
    part = e.text ∨ part.count 34 = 1 ∨
      part.count 34 = 0 ∧ ∃ front back, e.tag = front ++ 44 :: (part ++ 44 :: back) := by
  obtain ⟨⟨noLead, one⟩, noTrail, last⟩ := edges_plain e
  have inside : e.tag.count 34 = 0 := List.count_eq_zero.mpr e.unquoted
  obtain ⟨u, v, around⟩ := Bytes.mem_split found
  have padded : (44 :: e.lead) ++ (e.tag ++ (e.trail ++ [44])) = u ++ 44 :: (part ++ 44 :: v) := by
    rw [← around, text_eq]
    simp
  rcases split_append padded with ⟨more, before, behind⟩ | ⟨front, -, behind⟩
  · -- the first comma is the one put before the text
    obtain rfl : e.lead = more := by
      cases u with
      | nil => exact (List.cons.inj before).2
      | cons b u =>
        rw [List.cons_append, List.cons.injEq] at before
        exact absurd (by simp [before.2]) noLead
    rw [← List.append_assoc] at behind
    rcases last_comma noTrail behind.symm with whole | ⟨back, split⟩
    · exact .inl (by rw [whole, text_eq, List.append_assoc])
    · rcases split_append split with ⟨_, within, -⟩ | ⟨more, rfl, tagged⟩
      · exact absurd (by simp [within]) noLead
      · right; left
        rw [tagged, List.count_append] at inside
        rw [List.count_append, one]
        omega
  · -- the first comma is one of the tag
    rcases split_append behind with ⟨more, split, behind⟩ | ⟨more, -, behind⟩
    · rw [split, List.count_append, List.count_cons] at inside
      rcases last_comma noTrail behind.symm with rfl | ⟨back, rfl⟩
      · right; left
        rw [List.count_append, last]
        omega
      · right; right
        rw [List.count_append] at inside
        exact ⟨by omega, front, back, split⟩
    · -- behind the tag there is no comma but the one put behind the text
      rcases last_comma noTrail ((List.nil_append _).trans behind) with rfl | ⟨back, none⟩
      · simp at behind
      · simp at none

theorem count_etag (r : Result) : r.etag.count 34 = 2 := by
  have other : ∀ k < 36, digit36 k ≠ 34 := by decide
  have none : (base36 r.hash.toNat).count 34 = 0 := by
    refine List.count_eq_zero.mpr fun found => ?_
    obtain ⟨k, small, same⟩ := base36_digits _ _ found
    exact other k small same.symm
  simp [Result.etag_eq, none]

theorem listed_entry (r : Result) :
    (∃ part ∈ Bytes.split 44 e.text, bare part = [42] ∨ bare part = r.etag) ↔
      e.quoted = r.etag ∨ HidesStar e.tag := by
  constructor
  · rintro ⟨part, found, hit⟩
    -- a star has no quotes and a tag has two, so neither comes from an end with one
    have count := count_bare part
    rcases part_cases e found with rfl | one | ⟨none, front, back, split⟩
    · left
      rw [bare_text] at hit
      refine hit.resolve_left ?_
      simp [Entry.quoted]
    · rcases hit with star | same
      · simp [star, one] at count
      · simp [same, one, count_etag] at count
    · right
      rcases hit with star | same
      · exact ⟨front, part, back, split, (bare_eq_star part).mp star⟩
      · simp [same, none, count_etag] at count
  · rintro (same | ⟨front, part, back, split, star⟩)
    · have undivided : Bytes.split 44 e.text = [e.text] := by
        refine Bytes.split_none fun b found is => ?_
        obtain ⟨⟨noLead, -⟩, noTrail, -⟩ := edges_plain e
        rw [is, text_eq, List.mem_append, List.mem_append] at found
        rcases found with lead | tag | trail
        · exact noLead lead
        · refine (r.etag_plain 44 ?_).2 rfl
          rw [← same]
          simp [Entry.quoted, tag]
        · exact noTrail trail
      exact ⟨e.text, by simp [undivided], .inr ((bare_text e).trans same)⟩
    · have whole : 44 ∉ part := by
        obtain ⟨cs, weak, ds, spaces, rfl⟩ := star
        obtain ⟨before, behind⟩ := List.forall_mem_append.mp spaces
        have core : ∀ weak, 44 ∉ mark weak ++ [42] := by decide
        have comma {cs : List Char} (spaces : ∀ c ∈ cs, Letter.isSpace c = true) :
            44 ∉ Utf8.encode cs := Letter.not_mem_spaces (by decide) (by decide +kernel) spaces
        simp only [List.mem_append (s := _ ++ _), List.mem_append (t := mark weak ++ _), not_or]
        exact ⟨⟨comma before, core weak⟩, comma behind⟩
      refine ⟨part, ?_, .inl ((bare_eq_star part).mpr star)⟩
      have order : e.text = (e.lead ++ front) ++ 44 :: (part ++ 44 :: (back ++ e.trail)) := by
        rw [text_eq, split]
        simp
      have undivided : Bytes.split 44 part = [part] :=
        Bytes.split_none fun b found is => whole (is ▸ found)
      rw [order, Bytes.split_append, Bytes.split_append, undivided]
      simp

end Entries

/-- A header lists a tag if it names it, or if a star stands between two commas of one of its tags. -/
theorem isListed_header (h : Header) (r : Result) :
    isListed h.text r.etag = true ↔ h.Names r.etag ∨ h.HidesStar := by
  have listed (text : Bytes) : isListed text r.etag = true ↔
      text ≠ [] ∧ ∃ part ∈ Bytes.split 44 text, bare part = [42] ∨ bare part = r.etag := by
    have star : Bytes.ofString "*" = [42] := by decide
    simp [isListed, star]
  rw [listed]
  cases h with
  | all =>
    have star : IsStar [42] := ⟨[], false, [], by simp, rfl⟩
    refine iff_of_true ⟨by decide, [42], ?_, .inl ((bare_eq_star _).mpr star)⟩ (.inl trivial)
    decide
  | tags es =>
    cases es with
    | nil => simp [Header.text, Bytes.join, Header.Names, Header.HidesStar]
    | cons e es =>
      have comma : Bytes.ofString "," = [44] := by decide
      have filled : (Header.tags (e :: es)).text ≠ [] := by
        simp [Header.text, Bytes.join_cons, Entry.text, Entry.quoted]
      have parts : Bytes.split 44 (Header.tags (e :: es)).text =
          (e :: es).flatMap fun e => Bytes.split 44 e.text := by
        rw [Header.text, comma, List.map_cons, Bytes.split_join, ← List.map_cons, List.flatMap_map]
      rw [parts]
      constructor
      · rintro ⟨-, part, found, hit⟩
        obtain ⟨e, inside, found⟩ := List.mem_flatMap.mp found
        rcases (listed_entry e r).mp ⟨part, found, hit⟩ with same | star
        · exact .inl ⟨e, inside, same⟩
        · exact .inr ⟨e, inside, star⟩
      · intro named
        have entry : ∃ e' ∈ e :: es, e'.quoted = r.etag ∨ Etag.HidesStar e'.tag := by
          rcases named with ⟨e, inside, same⟩ | ⟨e, inside, star⟩
          · exact ⟨e, inside, .inl same⟩
          · exact ⟨e, inside, .inr star⟩
        obtain ⟨e, inside, named⟩ := entry
        obtain ⟨part, found, hit⟩ := (listed_entry e r).mpr named
        exact ⟨filled, part, List.mem_flatMap.mpr ⟨e, inside, found⟩, hit⟩

/-- One tag with a star between commas. -/
def starred : Entry := ⟨[], false, "a,*,b", [], by simp, by decide⟩

/-- It is taken for a star, which lists the tag of any result. -/
theorem starred_listed :
    let r : Result := ⟨⟨[], .none⟩, default, [], [], 0, 0⟩
    isListed (Header.tags [starred]).text r.etag = true ∧ ¬ (Header.tags [starred]).Names r.etag := by
  refine ⟨by decide +kernel, ?_⟩
  rintro ⟨e, found, same⟩
  cases List.mem_singleton.mp found
  exact absurd same (by decide +kernel)

end Etag

end DistanceField
