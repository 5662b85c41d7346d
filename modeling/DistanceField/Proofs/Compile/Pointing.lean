import DistanceField.Command.Report
import DistanceField.Proofs.Compile.Latest
import DistanceField.Proofs.Compile.Memory
import DistanceField.Proofs.Source.Blaming
import DistanceField.Proofs.Source.Layout

/-! Where a failed compile points: into the text, and by the same line and column in all reports. -/
namespace DistanceField

/-- One more than the line ends before an offset, and one more than the bytes behind the last of them. -/
def lineAndColumn (source : Bytes) (k : Nat) : Nat × Nat :=
  (1 + (source.take k).count 10, 1 + ((source.take k).reverse.takeWhile (· != 10)).length)

section Offsets

variable {source : Bytes} {i j : Nat}

theorem lineColumn_concat (before : Bytes) (b : UInt8) :
    Interval.lineColumn (before ++ [b]) =
      if b == 10 then ((Interval.lineColumn before).1 + 1, 1)
      else ((Interval.lineColumn before).1, (Interval.lineColumn before).2 + 1) := by
  simp [Interval.lineColumn]

theorem lineColumn_eq (source : Bytes) (k : Nat) :
    Interval.lineColumn (source.take k) = lineAndColumn source k := by
  unfold lineAndColumn
  induction source.take k using List.reverseRecOn with
  | nil => rfl
  | append_singleton before b ih =>
    rw [lineColumn_concat, ih]
    by_cases ends : b = 10
    · simp [ends, Nat.add_comm]
    · simp [ends]
      omega

/-- A step to the right is a step down in the lexicographic order of lines and columns. -/
theorem lineAndColumn_succ (within : i < source.length) :
    Prod.Lex (· < ·) (· < ·) (lineAndColumn source i) (lineAndColumn source (i + 1)) := by
  rw [← lineColumn_eq, ← lineColumn_eq, ← List.take_concat_get' source i within, lineColumn_concat]
  split
  · exact .left _ _ (Nat.lt_succ_self _)
  · exact .right _ (Nat.lt_succ_self _)

theorem lineAndColumn_lt (before : i < j) (within : j ≤ source.length) :
    Prod.Lex (· < ·) (· < ·) (lineAndColumn source i) (lineAndColumn source j) := by
  induction before with
  | refl => exact lineAndColumn_succ within
  | step _ ih => exact Trans.trans (ih (by omega)) (lineAndColumn_succ within)

theorem lineAndColumn_injective (first : i ≤ source.length) (second : j ≤ source.length)
    (same : lineAndColumn source i = lineAndColumn source j) : i = j := by
  rcases lt_trichotomy i j with less | equal | more
  · have := lineAndColumn_lt less second
    rw [same] at this
    exact absurd this (irrefl _)
  · exact equal
  · have := lineAndColumn_lt more first
    rw [same] at this
    exact absurd this (irrefl _)

end Offsets

theorem compile_refused {strict : Bool} {source : Bytes} {c : Complaint}
    (refused : (parse strict source).result = .error c) :
    compile strict source = .error c.fault := by
  cases parsed : parse strict source with
  | mk warnings result =>
    rw [parsed] at refused
    cases refused
    rw [compile, parsed]

/-- Geometry never fails, so that what fails is the reading. -/
theorem compile_error {strict : Bool} {source : Bytes} {f : Fault}
    (failed : compile strict source = .error f) :
    ∃ c : Complaint, f = c.fault ∧ (parse strict source).result = .error c := by
  cases read : (parse strict source).result with
  | ok d =>
    have whole : parse strict source = ⟨(parse strict source).warnings, .ok d⟩ := by rw [← read]
    obtain ⟨tree, -, compiled⟩ := compile_accepted whole
    rw [compiled] at failed
    cases failed
  | error c =>
    rw [compile_refused read] at failed
    cases failed
    exact ⟨c, rfl, rfl⟩

section Reports

variable {source : Bytes} {f : Fault} {line column : Nat} (located : f.isLocated = true)
  (place : f.interval.position source = (line, column))

include located place

theorem position_located :
    f.position source = f.message ++ " (line " ++ Bytes.ofNat line ++ ", column " ++
      Bytes.ofNat column ++ ")" := by
  rw [Fault.position, if_pos located, place]

theorem compileFault_located (own : f.source? = some f) (path : Bytes) :
    Command.compileFault path source f = .command Fault.compiling
      (some (.outer (Command.sourceName path ++ ":" ++ Bytes.ofNat line ++ ":" ++
        Bytes.ofNat column) f))
      [.text "source" (Command.sourceName path), .int "line" line, .int "col" column] := by
  simp only [Command.compileFault, own, located, place, if_true]
  rfl

theorem errorPosition_located (own : f.source? = some f) (seq : Nat) (result : Option Result) :
    State.errorPosition? ⟨seq, source, result, some f⟩ = some (line, column) := by
  simp only [State.errorPosition?, Option.bind_some, own, located, place, if_true]

end Reports

namespace Session

/-- A session without a memory, or with one that tells apart all that it is asked up to a compile of
`source`. -/
def Trusts (s : Session) (source : Bytes) : Prop :=
  ∀ c, s.cache = some c → ∃ limit digest earlier,
    c = (Cache.ofLimit limit digest).after earlier ∧
      (Cache.ofLimit limit digest).Apart
        (Cache.questions (earlier ++ [.compile false s.strict source]))

variable {s : Session} {source : Bytes} {f : Fault}

theorem compile_trusted (trusts : s.Trusts source) :
    (s.compile false source).1 = DistanceField.compile s.strict source := by
  unfold compile
  cases held : s.cache with
  | none => rfl
  | some c =>
    obtain ⟨limit, digest, earlier, rfl, apart⟩ := trusts c held
    exact (Cache.run_answer (Cache.ofLimit_room limit digest) (Cache.keeps_ofLimit limit digest)
      apart List.prefix_rfl).1

theorem submit_error (trusts : s.Trusts source)
    (failed : DistanceField.compile s.strict source = .error f) :
    (s.submit false source).1 = (s.state.finish (s.next + 1) source none (some f)).1 ∧
      (s.submit false source).2.state = (s.state.finish (s.next + 1) source none (some f)).2 := by
  have answer : (s.begin.2.compile false source).1 = .error f :=
    (compile_trusted (s := s.begin.2) trusts).trans failed
  have kept : (s.begin.2.compile false source).2.state = s.state :=
    compile_state s.begin.2 false source
  rw [submit_eq, answer, ← kept]
  exact ⟨rfl, rfl⟩

end Session

/-- A compile that fails points to a part of the text, and all reports name the place where that
part begins by one line and column: the message with its position, the failure of a command with its
lead and attributes, and a session that takes the submission. Lines and columns tell the places of a
text apart, in their order. -/
theorem failure_names_one_place (strict : Bool) (source : Bytes) (f : Fault)
    (failed : compile strict source = .error f) :
    (f.isLocated = true ∧ 0 ≤ f.interval.min ∧ f.interval.min ≤ f.interval.max ∧
      f.interval.max ≤ source.length) ∧
    (∃ line column, (line, column) = lineAndColumn source f.interval.min.toNat ∧
      f.position source = f.message ++ " (line " ++ Bytes.ofNat line ++ ", column " ++
        Bytes.ofNat column ++ ")" ∧
      (∀ path, let name := Command.sourceName path
        Command.compileFault path source f = .command Fault.compiling
          (some (.outer (name ++ ":" ++ Bytes.ofNat line ++ ":" ++ Bytes.ofNat column) f))
          [.text "source" name, .int "line" line, .int "col" column]) ∧
      ∀ s : Session, s.strict = strict → s.Trusts source →
        ((s.submit false source).1.stale = false ↔ s.state.seq ≤ s.next) ∧
        ((s.submit false source).1.stale = false →
          (s.submit false source).2.state.errorPosition? = some (line, column))) ∧
    ∀ i j, i ≤ source.length → j ≤ source.length →
      (lineAndColumn source i = lineAndColumn source j → i = j) ∧
      (i < j → Prod.Lex (· < ·) (· < ·) (lineAndColumn source i) (lineAndColumn source j)) := by
  obtain ⟨c, rfl, refused⟩ := compile_error failed
  obtain ⟨⟨lower, ordered⟩, upper⟩ := parse_blames refused
  have place : c.fault.interval.position source = lineAndColumn source c.span.min.toNat :=
    lineColumn_eq ..
  refine ⟨⟨rfl, lower, ordered, upper⟩, ?_, ?_⟩
  · refine ⟨_, _, rfl, position_located rfl place, compileFault_located rfl place rfl, ?_⟩
    rintro s rfl trusts
    obtain ⟨told, left⟩ := Session.submit_error trusts failed
    rw [told, left, State.finish]
    by_cases old : s.next + 1 ≤ s.state.seq
    · rw [if_pos old]
      constructor
      · simp only [Bool.true_eq_false, false_iff]
        omega
      · simp
    · rw [if_neg old]
      constructor
      · simp only [outcome, true_iff]
        omega
      · intro _
        exact errorPosition_located rfl place rfl ..
  · intro i j first second
    exact ⟨lineAndColumn_injective first second, fun less => lineAndColumn_lt less second⟩

def misplaced : Bytes := "box\n\x7b 1 \x7d"

theorem misplaced_on_second_line :
    ∃ f, compile false misplaced = .error f ∧ f.interval = ⟨6, 7⟩ ∧
      lineAndColumn misplaced 6 = (2, 3) ∧
      f.position misplaced = f.message ++ " (line 2, column 3)" ∧
      ((Session.fresh false none).submit false misplaced).2.state.errorPosition? = some (2, 3) := by
  have complaint : (parse false misplaced).result.map (fun _ => ()) =
      .error ⟨.notGeometry "NUMBER", ⟨6, 7⟩⟩ := by decide +kernel
  have refused : (parse false misplaced).result = .error ⟨.notGeometry "NUMBER", ⟨6, 7⟩⟩ := by
    cases read : (parse false misplaced).result with
    | ok d =>
      rw [read] at complaint
      cases complaint
    | error c =>
      rw [read] at complaint
      rw [Except.error.inj complaint]
  have failed := compile_refused refused
  have second : lineAndColumn misplaced 6 = (2, 3) := by decide
  obtain ⟨-, ⟨line, column, place, report, -, session⟩, -⟩ :=
    failure_names_one_place false misplaced _ failed
  obtain ⟨rfl, rfl⟩ := Prod.mk.inj (place.trans second)
  obtain ⟨taken, told⟩ := session (.fresh false none) rfl (by rintro c ⟨⟩)
  exact ⟨_, failed, rfl, second, report, told (taken.mpr le_rfl)⟩

end DistanceField
