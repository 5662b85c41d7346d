import DistanceField.Command.Shared
import DistanceField.Proofs.Number.Shortest
import DistanceField.Proofs.Text.Decoding

/-! What a configuration file restores of the flags that it was written for. -/
namespace DistanceField

namespace Log

theorem Level.read?_name : ∀ l ∈ Level.all, Level.read? (Level.name l) = some l := by
  decide +kernel

theorem Format.read?_name (f : Format) : Format.read? f.name = some f := by
  cases f <;> decide +kernel

theorem Level.name_unnamed {l : Level} (unnamed : l ∉ Level.all) :
    Level.name l = 76 :: (Bytes.ofString "evel(" ++ Bytes.ofInt l ++ [41]) := by
  simp only [Level.all, List.mem_cons, List.not_mem_nil, or_false, not_or] at unnamed
  simp only [Level.name, beq_iff_eq, unnamed, if_false]
  rfl

theorem ofNat_single (n : Nat) : ∀ b ∈ Bytes.ofNat n, b < 128 := by
  intro b found
  have digit := Decimal.isDigit_of_mem_ofNat found
  simp only [Read.isDigit, Bool.and_eq_true, decide_eq_true_eq, UInt8.le_iff_toNat_le] at digit
  exact UInt8.lt_iff_toNat_lt.mpr (Nat.lt_of_le_of_lt digit.2 (by decide))

theorem ofInt_single (n : Int) : ∀ b ∈ Bytes.ofInt n, b < 128 := by
  cases n with
  | ofNat n => exact ofNat_single n
  | negSucc n => exact List.forall_mem_cons.mpr ⟨by decide, ofNat_single (n + 1)⟩

theorem chars_unnamed (rest : Bytes) : Utf8.chars (76 :: rest) = 'L' :: Utf8.chars rest := by
  simp [Utf8.chars, Utf8.pieces_cons (show (76 : UInt8) < 128 by decide)]

theorem Level.ofName?_other (rest : Bytes) : Level.ofName? (76 :: rest) = none := by
  have start : Letter.uppered (76 :: rest) = 'L' :: Letter.uppered rest := by
    rw [Letter.uppered, chars_unnamed]
    rfl
  simp [Level.ofName?, start]

theorem Level.read?_unnamed {l : Level} (unnamed : l ∉ Level.all) :
    Level.read? (Level.name l) = none := by
  have single : ∀ b ∈ 76 :: (Bytes.ofString "evel(" ++ Bytes.ofInt l ++ [41]), b < 128 := by
    simp only [List.forall_mem_cons, List.forall_mem_append]
    exact ⟨by decide, ⟨by decide +kernel, ofInt_single l⟩, by decide, by simp⟩
  have trimmed := Letter.trim_marked single (by decide) (by decide)
  rw [Level.name_unnamed unnamed]
  generalize Bytes.ofString "evel(" ++ Bytes.ofInt l ++ [41] = rest at trimmed
  have other : Letter.same (76 :: rest) "trace" = false := by
    have trace : (Utf8.chars "trace").map Letter.fold = ['t', 'r', 'a', 'c', 'e'] := by decide +kernel
    have start : Letter.fold 'L' = 'l' := by decide
    simp [Letter.same, chars_unnamed, trace, start]
  have front : (76 :: rest).takeWhile (fun c => !isSign c) =
      76 :: rest.takeWhile fun c => !isSign c := by
    simp [isSign]
  simp only [Level.read?, trimmed, other, front, Bool.false_eq_true, if_false, Level.ofName?_other]
  split
  · rfl
  · simp

end Log

namespace Command

namespace Line

def said (files : Files) (n : Node) (f : Flag) : Option Config.Value :=
  (files (if n == .root then none else some n.name) f.name).getLast?

section Steps

variable {files : Files} {n : Node} {l : Line} {f : Flag} {v : Config.Value}

theorem resolveFlag_silent (unset : l.get? n f.name = none) (nothing : said files n f = none) :
    resolveFlag files n l f = .ok l := by
  unfold said at nothing
  simp only [resolveFlag, unset, nothing]

theorem resolveFlag_read {g : Given} (unset : l.get? n f.name = none) (found : said files n f = some v)
    (reads : f.read v = .ok g) : resolveFlag files n l f = .ok (l.set n f.name g) := by
  unfold said at found
  simp only [resolveFlag, unset, found, reads]

theorem resolveFlag_unread {why : Bytes} (unset : l.get? n f.name = none)
    (found : said files n f = some v) (fails : f.read v = .error why) :
    resolveFlag files n l f = .error (.badValue f.long why) := by
  unfold said at found
  simp only [resolveFlag, unset, found, fails]

end Steps

/-- The files say nothing about a flag, or what is read as `given`. -/
inductive Restores (files : Files) (n : Node) (f : Flag) : Option Given → Prop where
  | silent (nothing : said files n f = none) : Restores files n f none
  | value {v : Config.Value} {g : Given} (found : said files n f = some v) (reads : f.read v = .ok g) :
      Restores files n f (some g)

theorem get?_set (l : Line) (n : Node) (name : Bytes) (g : Given) :
    (l.set n name g).get? n name = some g := by
  simp [set, get?]

theorem get?_set_of_ne (l : Line) (n : Node) {name other : Bytes} (apart : other ≠ name) (g : Given) :
    (l.set n name g).get? n other = l.get? n other := by
  have key : ((n, other) == (n, name)) = false := by simpa using apart
  simp only [set, get?, List.lookup_cons, key]
  induction l.given with
  | nil => rfl
  | cons x xs ih =>
    obtain ⟨k, h⟩ := x
    by_cases dropped : k = (n, name)
    · simp [dropped, List.lookup_cons, key, ih]
    · simp [dropped, List.lookup_cons, ih]

theorem resolveFlag_restores {files : Files} {n : Node} {l : Line} {f : Flag} {given : Option Given}
    (unset : l.get? n f.name = none) (restores : Restores files n f given) :
    ∃ l', resolveFlag files n l f = .ok l' ∧ l'.get? n f.name = given ∧
      ∀ other ≠ f.name, l'.get? n other = l.get? n other := by
  cases restores with
  | silent nothing =>
    exact ⟨l, resolveFlag_silent unset nothing, unset, fun _ _ => rfl⟩
  | @value v g found reads =>
    exact ⟨l.set n f.name g, resolveFlag_read unset found reads, get?_set ..,
      fun _ apart => get?_set_of_ne _ _ apart _⟩

theorem foldlM_restores {files : Files} {n : Node} {given : Flag → Option Given} {flags : List Flag}
    (distinct : (flags.map Flag.name).Nodup) {l : Line} (unset : ∀ f ∈ flags, l.get? n f.name = none)
    (restores : ∀ f ∈ flags, Restores files n f (given f)) :
    ∃ l', flags.foldlM (resolveFlag files n) l = .ok l' ∧ (∀ f ∈ flags, l'.get? n f.name = given f) ∧
      ∀ other ∉ flags.map Flag.name, l'.get? n other = l.get? n other := by
  induction flags generalizing l with
  | nil => exact ⟨l, rfl, by simp, by simp⟩
  | cons f flags ih =>
    simp only [List.map_cons, List.nodup_cons] at distinct
    obtain ⟨own, rest⟩ := List.forall_mem_cons.mp restores
    obtain ⟨free, others⟩ := List.forall_mem_cons.mp unset
    obtain ⟨next, step, here, same⟩ := resolveFlag_restores free own
    have apart : ∀ g ∈ flags, g.name ≠ f.name := by
      intro g found like
      exact distinct.1 (like ▸ List.mem_map_of_mem found)
    obtain ⟨last, steps, there, untouched⟩ := ih distinct.2
      (fun g found => (same _ (apart g found)).trans (others g found)) rest
    refine ⟨last, ?_, ?_, ?_⟩
    · simp only [List.foldlM_cons, step, bind, Except.bind, steps]
    · exact List.forall_mem_cons.mpr ⟨(untouched _ distinct.1).trans here, there⟩
    · intro other missing
      simp only [List.map_cons, List.mem_cons, not_or] at missing
      rw [untouched other missing.2, same other missing.1]

end Line

section Reading

variable {f : Flag} {b : Bytes}

theorem read_level {l : Log.Level} (takes : f.take = .level) (named : Log.Level.read? b = some l) :
    f.read (.text b) = .ok (.level l) := by
  simp [Flag.read, takes, textValue, named, bind, Except.bind]

theorem read_level_unknown (takes : f.take = .level) (unknown : Log.Level.read? b = none) :
    f.read (.text b) = .error (Log.Level.unknown b) := by
  simp [Flag.read, takes, textValue, unknown, bind, Except.bind]

theorem read_format {k : Log.Format} (takes : f.take = .format) (named : Log.Format.read? b = some k) :
    f.read (.text b) = .ok (.format k) := by
  simp [Flag.read, takes, textValue, named, bind, Except.bind]

end Reading

namespace Shared

open Line

def words (s : Shared) : Line.Files := fun command flag => (Config.resolve s.fields command flag).toList

theorem said_words (s : Shared) (f : Flag) :
    said s.words .root f = Config.resolve s.fields none f.name := by
  simp only [said, words, beq_self_eq_true, if_true]
  cases Config.resolve s.fields none f.name <;> rfl

theorem entry_filled {b : Bytes} (filled : b ≠ []) :
    Config.Value.entry? (.text b) = some (.text b) := by
  simp [ Config.Value.entry?, filled]

theorem entry_blank : Config.Value.entry? (.text []) = none := rfl

theorem entry_switch (on : Bool) : Config.Value.entry? (.bool on) = some (.bool on) := rfl

theorem levelName_filled (l : Log.Level) : Log.Level.name l ≠ [] := by
  by_cases named : l ∈ Log.Level.all
  · revert l
    decide +kernel
  · simp [Log.Level.name_unnamed named]

theorem formatName_filled (f : Log.Format) : f.name ≠ [] := by
  cases f <;> decide +kernel

theorem fields_filled {s : Shared} (filled : s.layout ≠ []) : s.fields = s.values := by
  simp [fields, values, entry_filled, entry_switch, levelName_filled, formatName_filled, filled]

theorem fields_blank {s : Shared} (blank : s.layout = []) : s.fields = s.values.eraseIdx 2 := by
  simp [fields, values, List.filterMap_cons, entry_filled, entry_switch, entry_blank,
    levelName_filled, formatName_filled, blank]

theorem resolve_fields (s : Shared) :
    ∀ p ∈ s.values, Config.resolve s.fields none p.1 = Config.Value.entry? p.2 := by
  by_cases blank : s.layout = []
  · rw [fields_blank blank]
    simp only [values, blank, List.forall_mem_cons, entry_filled (levelName_filled _),
      entry_filled (formatName_filled _), entry_switch, entry_blank]
    exact ⟨rfl, rfl, rfl, rfl, rfl, rfl, by simp⟩
  · rw [fields_filled blank]
    simp only [values, List.forall_mem_cons, entry_filled (levelName_filled _),
      entry_filled (formatName_filled _), entry_filled blank, entry_switch]
    exact ⟨rfl, rfl, rfl, rfl, rfl, rfl, by simp⟩

theorem resolve_help (s : Shared) : Config.resolve s.fields none "help" = none := by
  by_cases blank : s.layout = []
  · rw [fields_blank blank]
    rfl
  · rw [fields_filled blank]
    rfl

/-- What the flags are restored as; an empty layout is not. -/
def given (s : Shared) : List (Bytes × Option Given) :=
  [("log-level", some (.level s.level)), ("log-format", some (.format s.format)),
    ("log-time-layout", if s.layout = [] then none else some (.text s.layout)),
    ("log-caller", some (.switch s.caller)), ("log-pretty", some (.switch s.pretty)),
    ("strict", some (.switch s.strict))]

theorem restores_given {s : Shared} (named : s.level ∈ Log.Level.all) :
    ∀ f ∈ Node.flags .root, Restores s.words .root f (s.given.lookup f.name).join := by
  have said := s.resolve_fields
  simp only [values, List.forall_mem_cons, entry_filled (levelName_filled _),
    entry_filled (formatName_filled _), entry_switch] at said
  obtain ⟨level, format, layout, caller, pretty, strict, -⟩ := said
  simp only [Node.flags, List.forall_mem_cons]
  refine ⟨.silent ((said_words ..).trans s.resolve_help), .value ((said_words ..).trans level) ?_,
    .value ((said_words ..).trans format) ?_, ?_, .value ((said_words ..).trans caller) rfl,
    .value ((said_words ..).trans pretty) rfl, .value ((said_words ..).trans strict) rfl, by simp⟩
  · exact read_level rfl (Log.Level.read?_name _ named)
  · exact read_format rfl (Log.Format.read?_name _)
  · change Restores _ _ _ (if s.layout = [] then none else some (Given.text s.layout))
    by_cases blank : s.layout = []
    · rw [blank, entry_blank] at layout
      rw [if_pos blank]
      exact .silent ((said_words ..).trans layout)
    · rw [entry_filled blank] at layout
      rw [if_neg blank]
      exact .value ((said_words ..).trans layout) rfl

theorem flags_distinct : ((Node.flags .root).map Flag.name).Nodup := by
  decide +kernel

/-- The flags without an empty layout, for which the file holds nothing. -/
def kept (s : Shared) : Shared := { s with layout := if s.layout = [] then "RFC3339" else s.layout }

theorem ofFields_named {s : Shared} (named : s.level ∈ Log.Level.all) :
    ofFields s.fields = .ok s.kept := by
  obtain ⟨l, runs, holds, -⟩ := foldlM_restores flags_distinct (l := {}) (by intros; rfl)
    (restores_given named)
  have resolved : Line.resolve s.words {} = .ok l := by
    simp only [Line.resolve, List.foldlM_cons, List.foldlM_nil, runs, bind, Except.bind]
    rfl
  simp only [Node.flags, List.forall_mem_cons] at holds
  obtain ⟨-, level, format, layout, caller, pretty, strict, -⟩ := holds
  have same : ofLine l = s.kept := by
    have time : l.text .root "log-time-layout" "RFC3339" = s.kept.layout := by
      by_cases blank : s.layout = []
      · have unset : l.get? .root "log-time-layout" = none := layout.trans (if_pos blank)
        simp [Line.text, unset, kept, blank]
      · have set : l.get? .root "log-time-layout" = some (.text s.layout) := layout.trans (if_neg blank)
        simp [Line.text, set, kept, blank]
    simp only [ofLine, Line.level, Line.format, Line.switch, level, format, caller, pretty, strict, time]
    rfl
  unfold words at resolved
  simp only [ofFields, resolved, bind, Except.bind, same]

theorem ofFields_unnamed {s : Shared} (unnamed : s.level ∉ Log.Level.all) :
    ofFields s.fields = .error (.badValue "--log-level" (Log.Level.unknown s.level.name)) := by
  have level : Config.resolve s.fields none "log-level" = some (.text s.level.name) := by
    have said := (List.forall_mem_cons.mp s.resolve_fields).1
    rwa [entry_filled (levelName_filled _)] at said
  have help : resolveFlag s.words .root {} { name := "help", short := "h", take := .switch false } = .ok {} :=
    resolveFlag_silent rfl ((said_words ..).trans s.resolve_help)
  have fails : resolveFlag s.words .root {} { name := "log-level", take := .level } =
      .error (.badValue "--log-level" (Log.Level.unknown s.level.name)) :=
    resolveFlag_unread rfl ((said_words ..).trans level)
      (read_level_unknown rfl (Log.Level.read?_unnamed unnamed))
  unfold words at help fails
  simp only [ofFields, Line.resolve, Node.flags, List.foldlM_cons, help, fails, bind, Except.bind]

/-- A configuration restores the flags that it was written for, except that an empty layout comes
back as the default one and that a level without a name makes every later line fail. -/
theorem restored_but_blank_or_unnamed (s : Shared) :
    (ofFields s.fields =
      if s.level ∈ Log.Level.all then
        .ok { s with layout := if s.layout = [] then ({} : Shared).layout else s.layout }
      else .error (.badValue "--log-level" (Log.Level.unknown s.level.name))) ∧
    (ofFields s.fields = .ok s ↔ s.level ∈ Log.Level.all ∧ s.layout ≠ []) := by
  by_cases named : s.level ∈ Log.Level.all
  · rw [ofFields_named named, if_pos named]
    refine ⟨rfl, ?_⟩
    by_cases blank : s.layout = []
    · have other : s.kept ≠ s := by
        intro same
        have layout := congrArg Shared.layout same
        simp only [kept, blank, if_true] at layout
        exact absurd layout (by decide +kernel)
      simp [named, blank, other]
    · simp [named, blank, kept]
  · rw [ofFields_unnamed named, if_neg named]
    simp [named]

/-- A level that a line may give, two above debug, is not restored, and neither is the layout that
leaves the time out. -/
theorem above_debug_and_blank_lost :
    Log.Level.read? "debug+2" = some (-2) ∧
    ofFields ({ level := -2 : Shared }).fields =
      .error (.badValue "--log-level" "unknown log level \"Level(-2)\"") ∧
    ofFields ({ layout := [] : Shared }).fields = .ok {} := by
  decide +kernel

end Shared

end Command

end DistanceField
