import DistanceField.Proofs.Editor.Schedule
import DistanceField.Proofs.Editor.Text

/-! A tick has the text compiled unless it is the submitted one. A text that is loaded from outside is
compiled without being noted as submitted, so that a return to the text before it goes unnoticed. -/
namespace DistanceField.Editor.Model

def run (m : Model) (ms : List Message) : Model := ms.foldl (fun m msg => (m.update msg).1) m

def asked (m : Model) : List Message → List Bytes
  | [] => []
  | msg :: rest => (m.update msg).2.filterMap Command.source? ++ (m.update msg).1.asked rest

theorem run_append (m : Model) (ms ns : List Message) : m.run (ms ++ ns) = (m.run ms).run ns :=
  List.foldl_append

theorem run_concat (m : Model) (ms : List Message) (msg : Message) :
    m.run (ms ++ [msg]) = ((m.run ms).update msg).1 :=
  m.run_append ms [msg]

theorem asked_append (m : Model) (ms ns : List Message) :
    m.asked (ms ++ ns) = m.asked ms ++ (m.run ms).asked ns := by
  induction ms generalizing m with
  | nil => rfl
  | cons msg ms ih => simp [asked, ih, run]

theorem clean_replaceWord {m : Model} (clean : m.buffer.Clean) (name : Bytes) :
    (m.replaceWord name).buffer.Clean :=
  ((clean.setColumn _).erase _).insert _

theorem clean_cycle {m : Model} (clean : m.buffer.Clean) (forward : Bool) :
    (m.cycle forward).buffer.Clean := by
  unfold cycle
  split
  · exact clean
  · exact clean_replaceWord clean _
  · dsimp only
    split
    · refine clean_replaceWord ?_ _
      exact clean
    · exact clean

theorem clean_press {m : Model} (clean : m.buffer.Clean) (k : Key) : (m.press k).1.buffer.Clean := by
  cases k with
  | quit =>
    simp only [press]
    split <;> exact clean
  | tab =>
    refine clean_cycle ?_ true
    exact clean
  | shiftTab =>
    refine clean_cycle ?_ false
    exact clean
  | edit e =>
    simp only [press, (refresh_kept _).2.2]
    exact clean.apply _ e
  | _ => exact clean

theorem clean_update {m : Model} (clean : m.buffer.Clean) (msg : Message) :
    (m.update msg).1.buffer.Clean := by
  cases msg with
  | key k => exact clean_press clean k
  | resized => exact clean
  | tick =>
    simp only [update]
    split <;> exact clean
  | compiled u =>
    rw [update, applyUpdate_eq]
    exact clean
  | saved source failure => cases failure <;> exact clean
  | edited source failure =>
    cases failure with
    | none =>
      simp only [update, (refresh_kept _).2.2]
      exact Buffer.clean_ofText source
    | some why => exact clean

theorem clean_run {m : Model} (clean : m.buffer.Clean) (ms : List Message) :
    (m.run ms).buffer.Clean := by
  induction ms generalizing m with
  | nil => exact clean
  | cons msg ms ih => exact ih (clean_update clean msg)

theorem press_asks (m : Model) (k : Key) : (m.press k).2.filterMap Command.source? = [] := by
  cases k with
  | quit =>
    simp only [press]
    split <;> rfl
  | _ => rfl

theorem submitted_edited (m : Model) (text : Bytes) :
    (m.update (.edited text none)).1.submitted = m.submitted :=
  (refresh_kept { m with buffer := .ofText text }).2.1

/-- All that a message can do to what is submitted. -/
theorem update_asks (m : Model) (msg : Message) :
    ((m.update msg).2.filterMap Command.source? = [] ∧ (m.update msg).1.submitted = m.submitted) ∨
    (m.update msg).2.filterMap Command.source? = [(m.update msg).1.submitted] ∨
    ∃ text, msg = .edited text none ∧ (m.update msg).2.filterMap Command.source? = [text] ∧
      (m.update msg).1.submitted = m.submitted := by
  cases msg with
  | key k => exact .inl ⟨press_asks m k, (press_kept m k).2⟩
  | resized => exact .inl ⟨rfl, rfl⟩
  | tick =>
    simp only [update]
    split
    · exact .inl ⟨rfl, rfl⟩
    · exact .inr (.inl rfl)
  | compiled u => exact .inl ⟨rfl, by rw [update, applyUpdate_eq]⟩
  | saved source failure => cases failure <;> exact .inl ⟨rfl, rfl⟩
  | edited source failure =>
    cases failure with
    | none => exact .inr (.inr ⟨source, rfl, rfl, submitted_edited m source⟩)
    | some why => exact .inl ⟨rfl, rfl⟩

/-- What was compiled last in a run: nothing, the submitted text, or a text from outside. -/
theorem asked_cases (m : Model) (ms : List Message) :
    (m.asked ms = [] ∧ (m.run ms).submitted = m.submitted) ∨
    (m.asked ms).getLast? = some (m.run ms).submitted ∨
    ∃ before text after, ms = before ++ .edited text none :: after ∧
      (m.run (before ++ [.edited text none])).asked after = [] ∧
      (m.asked ms).getLast? = some text ∧ (m.run ms).submitted = (m.run before).submitted := by
  induction ms using List.reverseRecOn with
  | nil => exact .inl ⟨rfl, rfl⟩
  | append_singleton ms msg ih =>
    have more : m.asked (ms ++ [msg]) =
        m.asked ms ++ ((m.run ms).update msg).2.filterMap Command.source? := by
      simp [asked_append, asked]
    rw [run_concat, more]
    rcases (m.run ms).update_asks msg with ⟨none, same⟩ | one | ⟨text, rfl, one, same⟩
    · rw [none, same, List.append_nil]
      rcases ih with idle | last | ⟨before, text, after, rfl, quiet, last, kept⟩
      · exact .inl idle
      · exact .inr (.inl last)
      · refine .inr (.inr ⟨before, text, after ++ [msg], by simp, ?_, last, kept⟩)
        have here : (m.run (before ++ [.edited text .none])).run after =
            m.run (before ++ .edited text .none :: after) := by
          simp [← run_append]
        simp [asked_append, quiet, here, asked, none]
    · exact .inr (.inl (by simp [one]))
    · exact .inr (.inr ⟨ms, text, [], rfl, rfl, by simp [one], same⟩)

theorem submitted_of_quiet {m : Model} {ms : List Message} (quiet : m.asked ms = []) :
    (m.run ms).submitted = m.submitted := by
  rcases m.asked_cases ms with ⟨-, same⟩ | last | ⟨_, _, _, -, -, last, -⟩
  · exact same
  · simp [quiet] at last
  · simp [quiet] at last

/-- The last text that was compiled came from outside, and the editor is back at the text that was
submitted before. -/
def Returned (m : Model) (ms : List Message) : Prop :=
  ∃ before text after, ms = before ++ .edited text none :: after ∧
    (m.run (before ++ [.edited text none])).asked after = [] ∧
    (m.run ms).value = (m.run before).submitted ∧ (m.run ms).value ≠ text

theorem Returned.last {m : Model} {ms : List Message} (returned : m.Returned ms) :
    (m.run ms).value = (m.run ms).submitted ∧ ∃ text, (m.asked ms).getLast? = some text ∧
      (m.run ms).value ≠ text := by
  obtain ⟨before, text, after, rfl, quiet, same, other⟩ := returned
  have split : before ++ .edited text none :: after = (before ++ [.edited text none]) ++ after := by
    simp
  have loaded : (m.run (before ++ [.edited text none])).submitted = (m.run before).submitted := by
    rw [run_concat, submitted_edited]
  refine ⟨?_, text, ?_, other⟩
  · rw [same, split, run_append, submitted_of_quiet quiet, loaded]
  · rw [split, asked_append, quiet, List.append_nil, asked_append]
    simp [asked, update, Command.source?]

/-- At a submitted text, the last text compiled is that text unless the editor has come back to it. -/
theorem last_compiled_iff (strict : Bool) (path source : Bytes) (ms : List Message)
    (same : ((start strict path source).run ms).value =
      ((start strict path source).run ms).submitted) :
    ((start strict path source).value :: (start strict path source).asked ms).getLast? =
      some ((start strict path source).run ms).value ↔ ¬ (start strict path source).Returned ms := by
  have clean : (start strict path source).buffer.Clean := Buffer.clean_ofText source
  have opened : (start strict path source).value = (Buffer.ofText source).value := rfl
  have first : (start strict path source).submitted = source := rfl
  generalize start strict path source = m at same clean opened first ⊢
  rw [List.getLast?_cons, Option.some_inj]
  constructor
  · intro last returned
    obtain ⟨-, text, some, other⟩ := returned.last
    rw [some] at last
    exact other last.symm
  · intro never
    rcases m.asked_cases ms with ⟨none, kept⟩ | last | ⟨before, text, after, split, quiet, last, kept⟩
    · -- nothing was compiled since the start, which compiled the text as it was loaded
      have reload : (Buffer.ofText (m.run ms).value).value = (m.run ms).value :=
        (clean_run clean ms).reload
      have text : (m.run ms).value = source := by rw [same, kept, first]
      rw [none, opened, text]
      rw [text] at reload
      simp [reload]
    · simp [last, same]
    · rw [last]
      by_contra other
      refine never ⟨before, text, after, split, quiet, same.trans kept, ?_⟩
      intro equal
      exact other equal.symm

theorem tick_same {m : Model} (same : m.value = m.submitted) : m.update .tick = (m, []) := by
  simp [update, same]

theorem tick_new {m : Model} (new : m.value ≠ m.submitted) :
    m.update .tick = ({ m with submitted := m.value }, [.compile m.value]) := by
  simp [update, new]

/-- After a tick the editor's text is noted as submitted. It is the text that was compiled last unless
the editor has come back to it from a text that was loaded from outside. -/
theorem tick_compiles_text_iff (strict : Bool) (path source : Bytes) (ms : List Message) :
    let m := start strict path source
    let after := m.run (ms ++ [.tick])
    let texts := m.init.filterMap Command.source? ++ m.asked (ms ++ [.tick])
    after.submitted = after.value ∧ after.value = (m.run ms).value ∧
      (texts.getLast? = some after.value ↔ ¬ m.Returned ms) := by
  intro m after texts
  have next : after = ((m.run ms).update .tick).1 := m.run_concat ms .tick
  have all : texts = m.value :: (m.asked ms ++
      ((m.run ms).update .tick).2.filterMap Command.source?) := by
    simp [texts, asked_append, asked, init, Command.source?]
  rw [next, all]
  by_cases same : (m.run ms).value = (m.run ms).submitted
  · rw [tick_same same, List.filterMap_nil, List.append_nil]
    exact ⟨same.symm, rfl, last_compiled_iff strict path source ms same⟩
  · rw [tick_new same]
    refine ⟨rfl, rfl, ?_⟩
    have never : ¬ m.Returned ms := fun returned => same returned.last.1
    have last : (m.value :: (m.asked ms ++ [(m.run ms).value])).getLast? =
        some (m.run ms).value := by
      simp [List.getLast?_cons]
    exact iff_of_true last never

def retyped : List Message := [.edited "b" none, .key (.edit .backspace), .key (.edit (.insert ['a']))]

theorem retyped_not_compiled :
    let m := start false [] "a"
    (m.run (retyped ++ [.tick])).value = "a" ∧
    (m.init.filterMap Command.source? ++ m.asked (retyped ++ [.tick])).getLast? =
      some (Bytes.ofString "b") := by
  decide +kernel

end DistanceField.Editor.Model
