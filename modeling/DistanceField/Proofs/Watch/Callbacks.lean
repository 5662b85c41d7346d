import Mathlib.Data.List.InsertIdx
import Mathlib.Data.List.Nodup
import Mathlib.Tactic.Common
import DistanceField.Proofs.Watch.Wakeup

/-! What becomes of the callbacks of a debouncer, whatever order its moves come in. A callback goes from
its trigger to the slot, from there to the timer that takes it, and then it runs. It can be lost from
the slot, and nowhere else. -/
namespace DistanceField.Watch

def Body.taken? {α : Type} : Body α → Option α
  | .running a => some a
  | .looking | .taking => none

namespace Debouncer

variable {α β : Type} {d e : Debouncer α} {m : Move α} {taken ran : Option α}

def Move.callback? : Move α → Option α
  | .trigger a => some a
  | .stop | .expire | .advance _ => none

def triggered (ms : List (Move α)) : List α := ms.filterMap Move.callback?

theorem triggered_cons (m : Move α) (ms : List (Move α)) :
    triggered (m :: ms) = m.callback?.toList ++ triggered ms := by
  cases m <;> rfl

/-- The callbacks that were taken and have not run. -/
def running (d : Debouncer α) : List α := d.bodies.filterMap Body.taken?

def stepTakes? (d : Debouncer α) : Move α → Option α
  | .advance i => d.takes? i
  | .trigger _ | .stop | .expire => none

def takes (d : Debouncer α) : List (Move α) → List α
  | [] => []
  | m :: ms => (d.stepTakes? m).toList ++ takes (d.step m).1 ms

theorem run_append (d : Debouncer α) (ms ns : List (Move α)) :
    d.run (ms ++ ns) = (((d.run ms).1.run ns).1, (d.run ms).2 ++ ((d.run ms).1.run ns).2) := by
  induction ms generalizing d with
  | nil => rfl
  | cons m ms ih => simp [run, ih]

theorem takes_append (d : Debouncer α) (ms ns : List (Move α)) :
    d.takes (ms ++ ns) = d.takes ms ++ (d.run ms).1.takes ns := by
  induction ms generalizing d with
  | nil => rfl
  | cons m ms ih => simp [takes, run, ih]

/-- All that a move can do: what is taken by it and what runs. -/
inductive Step (d : Debouncer α) : Move α → Debouncer α → Option α → Option α → Prop where
  | ignored (a : α) : d.stopped = true → Step d (.trigger a) d none none
  | triggered (a : α) :
      d.stopped = false → Step d (.trigger a) { d with callback := some a, armed := true } none none
  | stopped : Step d .stop d.stop none none
  | unarmed : Step d .expire d none none
  | expired :
      Step d .expire { d with armed := false, bodies := d.bodies ++ [.looking] } none none
  | advanced {e : Debouncer α} {taken ran : Option α} (i : Nat) (advance : Advance d e taken ran) :
      Step d (.advance i) e taken ran

theorem step_cases (d : Debouncer α) (m : Move α) :
    Step d m (d.step m).1 (d.stepTakes? m) (d.step m).2 := by
  cases m with
  | trigger a =>
    simp only [step, trigger, stepTakes?]
    split
    · exact .ignored a ‹_›
    · exact .triggered a ((Bool.not_eq_true _).mp ‹_›)
  | stop => exact .stopped
  | expire =>
    simp only [step, expire, stepTakes?]
    split
    · exact .expired
    · exact .unarmed
  | advance i => exact .advanced i (d.advance_cases i)

section Ledgers

variable [BEq α]

/-- What is taken is running until it has run. -/
theorem Step.running (step : Step d m e taken ran) (a : α) :
    ran.toList.count a + e.running.count a = d.running.count a + taken.toList.count a := by
  cases step with
  | ignored | triggered | stopped | unarmed => simp [Debouncer.running, stop]
  | expired => simp [Debouncer.running, List.filterMap_cons, Body.taken?]
  | advanced i advance =>
    cases advance with
    | none => simp
    | quit before after _ split | look before after _ split | miss before after split =>
      simp [Debouncer.running, split, List.filterMap_cons, Body.taken?]
    | take before after c split | run before after c split =>
      simp [Debouncer.running, split, List.filterMap_cons, Body.taken?, List.count_cons]
      omega

theorem run_running (d : Debouncer α) (ms : List (Move α)) (a : α) :
    (d.run ms).2.count a + (d.run ms).1.running.count a =
      d.running.count a + (d.takes ms).count a := by
  induction ms generalizing d with
  | nil => simp [run, takes]
  | cons m ms ih =>
    have here := (d.step_cases m).running a
    have later := ih (d.step m).1
    simp only [run, takes, List.count_append]
    omega

/-- What is taken was in the slot, and came there by a trigger. -/
theorem Step.slot (step : Step d m e taken ran) (a : α) :
    taken.toList.count a + e.callback.toList.count a ≤
      d.callback.toList.count a + m.callback?.toList.count a := by
  cases step with
  | ignored | triggered | stopped | unarmed | expired => simp [stop, Move.callback?]
  | advanced i advance =>
    cases advance with
    | none | quit | look | miss | run => simp
    | take before after c split slot => simp [slot]

theorem run_slot (d : Debouncer α) (ms : List (Move α)) (a : α) :
    (d.takes ms).count a + (d.run ms).1.callback.toList.count a ≤
      d.callback.toList.count a + (triggered ms).count a := by
  induction ms generalizing d with
  | nil => simp [run, takes, triggered]
  | cons m ms ih =>
    have here := (d.step_cases m).slot a
    have later := ih (d.step m).1
    simp only [run, takes, triggered_cons, List.count_append]
    omega

/-- Without a trigger or a stop nothing is lost from the slot. -/
theorem Step.keeps (step : Step d m e taken ran) (silent : m.callback? = none) (going : m ≠ .stop)
    (a : α) : d.callback.toList.count a ≤
      taken.toList.count a + e.callback.toList.count a := by
  cases step with
  | ignored | triggered => cases silent
  | stopped => exact absurd rfl going
  | unarmed | expired => simp
  | advanced i advance =>
    cases advance with
    | none | quit | look | miss | run => simp
    | take before after c split slot => simp [slot]

theorem run_keeps (d : Debouncer α) {ms : List (Move α)} (silent : triggered ms = [])
    (going : .stop ∉ ms) (a : α) : d.callback.toList.count a ≤
      (d.takes ms).count a + (d.run ms).1.callback.toList.count a := by
  induction ms generalizing d with
  | nil => simp [run, takes]
  | cons m ms ih =>
    rw [List.mem_cons, not_or] at going
    rw [triggered_cons, List.append_eq_nil_iff, Option.toList_eq_nil_iff] at silent
    have first := (d.step_cases m).keeps silent.1 (Ne.symm going.1) a
    have rest := ih (d.step m).1 silent.2 going.2
    simp only [run, takes, List.count_append]
    omega

end Ledgers

structure Halted (d : Debouncer α) : Prop where
  stopped : d.stopped = true
  empty : d.callback = none

theorem halted_stop (d : Debouncer α) : Halted d.stop := ⟨rfl, rfl⟩

theorem Halted.step (halted : Halted d) (step : Step d m e taken ran) :
    Halted e ∧ taken = none ∧ (m.callback? ≠ none → e = d ∧ ran = none) := by
  obtain ⟨stopped, empty⟩ := halted
  cases step with
  | ignored a => exact ⟨⟨stopped, empty⟩, rfl, fun _ => ⟨rfl, rfl⟩⟩
  | triggered a going =>
    rw [stopped] at going
    cases going
  | stopped => exact ⟨d.halted_stop, rfl, fun some => absurd rfl some⟩
  | unarmed | expired => exact ⟨⟨stopped, empty⟩, rfl, fun some => absurd rfl some⟩
  | advanced i advance =>
    refine ⟨?_, ?_, fun some => absurd rfl some⟩
    · cases advance with
      | none | quit | look | miss | run => exact ⟨stopped, empty⟩
      | take => exact ⟨stopped, rfl⟩
    · cases advance with
      | none | quit | look | miss | run => rfl
      | take before after c split slot =>
        rw [empty] at slot
        cases slot

theorem Halted.run (halted : Halted d) (ms : List (Move α)) :
    d.takes ms = [] ∧ d.run ms = d.run (ms.filter (·.callback?.isNone)) := by
  induction ms generalizing d with
  | nil => exact ⟨rfl, rfl⟩
  | cons m ms ih =>
    obtain ⟨next, untaken, ignored⟩ := halted.step (d.step_cases m)
    obtain ⟨nothing, same⟩ := ih next
    constructor
    · rw [takes, untaken, nothing]
      rfl
    · cases silent : m.callback? with
      | none =>
        simp only [List.filter_cons, silent, Option.isNone_none, if_true, Debouncer.run, same]
      | some a =>
        have step : d.step m = (d, none) := Prod.ext_iff.mpr (ignored (by simp [silent]))
        rw [step] at same
        simp only [List.filter_cons, silent, Option.isNone_some, Bool.false_eq_true, if_false,
          Debouncer.run, step, same]
        simp

theorem Tended.run (tended : Tended d) {ms : List (Move α)} (going : .stop ∉ ms) :
    Tended (d.run ms).1 := by
  induction ms generalizing d with
  | nil => exact tended
  | cons m ms ih =>
    rw [List.mem_cons, not_or] at going
    refine ih ?_ going.2
    cases m with
    | trigger a => exact (tended.trigger a).1
    | stop => exact absurd rfl going.1
    | expire => exact tended.expire
    | advance i => exact tended.advance (d.advance_cases i)

section Marks

def Move.map (f : α → β) : Move α → Move β
  | .trigger a => .trigger (f a)
  | .stop => .stop
  | .expire => .expire
  | .advance i => .advance i

def Body.map (f : α → β) : Body α → Body β
  | .looking => .looking
  | .taking => .taking
  | .running a => .running (f a)

def map (f : α → β) (d : Debouncer α) : Debouncer β :=
  ⟨d.stopped, d.callback.map f, d.armed, d.bodies.map (Body.map f)⟩

theorem step_map (f : α → β) (d : Debouncer α) (m : Move α) :
    (d.map f).step (m.map f) = ((d.step m).1.map f, (d.step m).2.map f) := by
  obtain ⟨stopped, callback, armed, bodies⟩ := d
  cases m with
  | trigger a => cases stopped <;> simp [step, trigger, map, Move.map]
  | stop => simp [step, stop, map, Move.map]
  | expire => cases armed <;> simp [step, expire, map, Move.map, Body.map]
  | advance i =>
    simp only [step, advance, map, Move.map, List.getElem?_map, List.eraseIdx_map]
    cases bodies[i]? with
    | none => rfl
    | some b =>
      cases b with
      | looking => cases stopped <;> simp [Body.map, List.map_set]
      | taking => cases callback <;> simp [Body.map, List.map_set]
      | running a => rfl

theorem run_map (f : α → β) (d : Debouncer α) (ms : List (Move α)) :
    (d.map f).run (ms.map (Move.map f)) = ((d.run ms).1.map f, (d.run ms).2.map f) := by
  induction ms generalizing d with
  | nil => rfl
  | cons m ms ih => simp [run, step_map, ih, Option.toList_map]

/-- The moves from the `n`th on, with a mark on each callback: the number of its trigger. -/
def marked (n : Nat) : List (Move α) → List (Move (Nat × α))
  | [] => []
  | m :: ms => m.map (n, ·) :: marked (n + 1) ms

theorem marked_append (n : Nat) (ms ns : List (Move α)) :
    marked n (ms ++ ns) = marked n ms ++ marked (n + ms.length) ns := by
  induction ms generalizing n with
  | nil => rfl
  | cons m ms ih =>
    have next : n + 1 + ms.length = n + (ms.length + 1) := by omega
    simp [marked, ih, next]

theorem unmarked (n : Nat) (ms : List (Move α)) : (marked n ms).map (Move.map Prod.snd) = ms := by
  induction ms generalizing n with
  | nil => rfl
  | cons m ms ih =>
    rw [marked, List.map_cons, ih]
    cases m <;> rfl

theorem map_triggered_marked (n : Nat) (ms : List (Move α)) :
    (triggered (marked n ms)).map Prod.snd = triggered ms := by
  induction ms generalizing n with
  | nil => rfl
  | cons m ms ih =>
    rw [marked, triggered_cons, triggered_cons, List.map_append, ih]
    cases m <;> rfl

theorem stop_mem_marked {n : Nat} {ms : List (Move α)} (found : .stop ∈ marked n ms) : .stop ∈ ms := by
  rw [← unmarked n ms]
  exact List.mem_map_of_mem (f := Move.map Prod.snd) found

theorem le_of_triggered {n : Nat} {ms : List (Move α)} {c : Nat × α}
    (found : c ∈ triggered (marked n ms)) : n ≤ c.1 := by
  induction ms generalizing n with
  | nil => cases found
  | cons m ms ih =>
    rw [marked, triggered_cons, List.mem_append] at found
    rcases found with here | later
    · cases m <;> simp_all [Move.map, Move.callback?]
    · exact Nat.le_of_succ_le (ih later)

theorem nodup_marked (n : Nat) (ms : List (Move α)) : (triggered (marked n ms)).Nodup := by
  induction ms generalizing n with
  | nil => exact List.nodup_nil
  | cons m ms ih =>
    rw [marked, triggered_cons]
    cases m with
    | trigger a =>
      refine List.nodup_cons.mpr ⟨fun later => ?_, ih (n + 1)⟩
      have above : n + 1 ≤ n := le_of_triggered later
      omega
    | stop | expire | advance => exact ih (n + 1)

theorem triggered_at {n : Nat} {ms : List (Move α)} {c : Nat × α}
    (found : c ∈ triggered (marked n ms)) : ms[c.1 - n]? = some (.trigger c.2) := by
  induction ms generalizing n with
  | nil => cases found
  | cons m ms ih =>
    rw [marked, triggered_cons, List.mem_append] at found
    rcases found with here | later
    · cases m <;> simp_all [Move.map, Move.callback?]
    · have above := le_of_triggered later
      obtain ⟨k, next⟩ : ∃ k, c.1 - n = k + 1 := ⟨c.1 - (n + 1), by omega⟩
      have there := ih later
      rw [next, List.getElem?_cons_succ]
      convert there using 2
      omega

/-- A new debouncer after some moves, and the callbacks that ran, each with its mark. -/
def history (ms : List (Move α)) : Debouncer (Nat × α) × List (Nat × α) :=
  ({} : Debouncer (Nat × α)).run (marked 0 ms)

/-- The callbacks that timers took on the way, each with its mark. -/
def fetched (ms : List (Move α)) : List (Nat × α) := ({} : Debouncer (Nat × α)).takes (marked 0 ms)

end Marks

theorem Step.stopped_empty (step : Step d m e taken ran) (empty : d.stopped = true → d.callback = none)
    (stopped : e.stopped = true) : e.callback = none := by
  cases step with
  | ignored | unarmed | expired => exact empty stopped
  | triggered a going =>
    rw [going] at stopped
    cases stopped
  | stopped => rfl
  | advanced i advance =>
    cases advance with
    | none | quit | look | miss | run => exact empty stopped
    | take => rfl

theorem run_stopped_empty (empty : d.stopped = true → d.callback = none) (ms : List (Move α)) :
    (d.run ms).1.stopped = true → (d.run ms).1.callback = none := by
  induction ms generalizing d with
  | nil => exact empty
  | cons m ms ih => exact ih ((d.step_cases m).stopped_empty empty)

section Histories

variable [BEq (Nat × α)] (ms : List (Move α)) (c : Nat × α)

theorem count_ran : (history ms).2.count c + (history ms).1.running.count c = (fetched ms).count c := by
  have ledger := run_running ({} : Debouncer (Nat × α)) (marked 0 ms) c
  simp only [running, List.filterMap_nil, List.count_nil, Nat.zero_add] at ledger
  exact ledger

theorem count_fetched_le : (fetched ms).count c ≤ (triggered (marked 0 ms)).count c := by
  have ledger := run_slot ({} : Debouncer (Nat × α)) (marked 0 ms) c
  simp only [Option.toList_none, List.count_nil] at ledger
  rw [fetched]
  omega

end Histories

theorem ran_triggered {ms : List (Move α)} {c : Nat × α} (ran : c ∈ (history ms).2) :
    ms[c.1]? = some (.trigger c.2) := by
  classical
  have positive := List.count_pos_iff.mpr ran
  have least := count_ran ms c
  have most := count_fetched_le ms c
  exact triggered_at (n := 0) (List.count_pos_iff.mp (by omega))

theorem nodup_ran (ms : List (Move α)) : (history ms).2.Nodup := by
  classical
  rw [List.nodup_iff_count_le_one]
  intro c
  have once := List.nodup_iff_count_le_one.mp (nodup_marked 0 ms) c
  have least := count_ran ms c
  have most := count_fetched_le ms c
  omega

theorem history_append (ms : List (Move α)) (m : Move α) (rest : List (Move α)) :
    (history (ms ++ m :: rest)).1 =
      (((history ms).1.step (m.map (ms.length, ·))).1.run (marked (ms.length + 1) rest)).1 := by
  rw [history, history, marked_append, run_append, Nat.zero_add, marked, run]

theorem fetched_append (ms : List (Move α)) (m : Move α) (rest : List (Move α)) :
    fetched (ms ++ m :: rest) = fetched ms ++
      (((history ms).1.stepTakes? (m.map (ms.length, ·))).toList ++
        ((history ms).1.step (m.map (ms.length, ·))).1.takes (marked (ms.length + 1) rest)) := by
  rw [fetched, fetched, history, marked_append, takes_append, Nat.zero_add, marked, takes]

theorem not_triggered_later {n : Nat} {c : Nat × α} (before : c.1 < n) (ms : List (Move α)) :
    c ∉ triggered (marked n ms) := by
  intro found
  have above := le_of_triggered found
  omega

theorem replaced_not_run {first after : List (Move α)} {b : α} {c : Nat × α}
    (earlier : c.1 < first.length) (untaken : c ∉ fetched first) :
    c ∉ (history (first ++ .trigger b :: after)).2 := by
  classical
  have slot : c ∉ ((history first).1.step (.trigger (first.length, b))).1.callback.toList := by
    have empty : (history first).1.stopped = true → (history first).1.callback = none :=
      run_stopped_empty (d := {}) (fun _ => rfl) (marked 0 first)
    simp only [step, trigger]
    split
    · rename_i stopped
      simp [empty stopped]
    · simp only [Option.toList_some, List.mem_singleton]
      rintro rfl
      exact Nat.lt_irrefl _ earlier
  have later := not_triggered_later (Nat.lt_succ_of_lt earlier) after
  have ledger := run_slot ((history first).1.step (.trigger (first.length, b))).1
    (marked (first.length + 1) after) c
  rw [List.count_eq_zero_of_not_mem slot, List.count_eq_zero_of_not_mem later] at ledger
  have none : (fetched (first ++ .trigger b :: after)).count c = 0 := by
    simp only [fetched_append, Move.map, stepTakes?, Option.toList_none, List.nil_append,
      List.count_append, List.count_eq_zero_of_not_mem untaken]
    omega
  have ran := count_ran (first ++ .trigger b :: after) c
  exact List.count_eq_zero.mp (by omega)

theorem fetched_stop (before after : List (Move α)) :
    fetched (before ++ .stop :: after) = fetched before := by
  have untaken := ((history before).1.halted_stop.run (marked (before.length + 1) after)).1
  simp only [fetched_append, Move.map, stepTakes?, step, untaken, Option.toList_none, List.append_nil]

theorem run_after_stop (d : Debouncer α) (before after : List (Move α)) :
    d.run (before ++ .stop :: after) =
      d.run (before ++ .stop :: after.filter (·.callback?.isNone)) := by
  have same := ((d.run before).1.halted_stop.run after).2
  rw [run_append, run_append, run, run]
  simp only [step, same]

theorem tended_history {ms : List (Move α)} (going : .stop ∉ ms) : Tended (history ms).1 := by
  have new : Tended ({} : Debouncer (Nat × α)) := ⟨rfl, by simp⟩
  exact new.run fun found => going (stop_mem_marked found)

theorem last_ran {before after : List (Move α)} {a : α} (silent : triggered after = [])
    (going : .stop ∉ before ++ .trigger a :: after)
    (unarmed : (history (before ++ .trigger a :: after)).1.armed = false)
    (done : (history (before ++ .trigger a :: after)).1.bodies = []) :
    (before.length, a) ∈ (history (before ++ .trigger a :: after)).2 := by
  classical
  have slot : ((history before).1.step (.trigger (before.length, a))).1.callback =
      some (before.length, a) := by
    have early : .stop ∉ before := fun found => going (List.mem_append_left _ found)
    simp [step, trigger, (tended_history early).going]
  have empty : (history (before ++ .trigger a :: after)).1.callback = none := by
    have fetched := (tended_history going).fetched
    rw [unarmed, done] at fetched
    simpa using fetched
  have quiet : triggered (marked (before.length + 1) after) = [] := by
    rw [← List.map_eq_nil_iff, map_triggered_marked, silent]
  have late : .stop ∉ marked (before.length + 1) after := fun found =>
    going (List.mem_append_right _ (List.mem_cons_of_mem _ (stop_mem_marked found)))
  have kept := run_keeps ((history before).1.step (.trigger (before.length, a))).1 quiet late
    (before.length, a)
  have whole := history_append before (.trigger a) after
  simp only [Move.map] at whole
  rw [slot, ← whole, empty, Option.toList_some, List.count_singleton_self, Option.toList_none,
    List.count_nil] at kept
  have taken : 0 < (fetched (before ++ .trigger a :: after)).count (before.length, a) := by
    simp only [fetched_append, Move.map, stepTakes?, Option.toList_none, List.nil_append,
      List.count_append]
    omega
  have ledger := count_ran (before ++ .trigger a :: after) (before.length, a)
  simp only [running, done, List.filterMap_nil, List.count_nil, Nat.add_zero] at ledger
  exact List.count_pos_iff.mp (ledger ▸ taken)

/-- Whatever order the moves come in: a callback runs at most once; one that is replaced before a timer
has taken it does not run; after a stop none is taken and a trigger changes nothing; and without a
stop, once no timer is armed or under way, the last one has run. -/
theorem callbacks_run (ms : List (Move α)) :
    ({} : Debouncer α).run ms = ((history ms).1.map Prod.snd, (history ms).2.map Prod.snd) ∧
    ((history ms).2.Nodup ∧ ∀ c ∈ (history ms).2, ms[c.1]? = some (.trigger c.2)) ∧
    (∀ before a between b after, ms = before ++ .trigger a :: between ++ .trigger b :: after →
      (before.length, a) ∉ fetched (before ++ .trigger a :: between) →
        (before.length, a) ∉ (history ms).2) ∧
    (∀ before after, ms = before ++ .stop :: after → fetched ms = fetched before ∧
      ({} : Debouncer α).run ms =
        ({} : Debouncer α).run (before ++ .stop :: after.filter (·.callback?.isNone))) ∧
    (.stop ∉ ms → (history ms).1.armed = false → (history ms).1.bodies = [] →
      ∀ before a after, ms = before ++ .trigger a :: after → triggered after = [] →
        (before.length, a) ∈ (history ms).2) := by
  refine ⟨?_, ⟨nodup_ran ms, fun c ran => ran_triggered ran⟩, ?_, ?_, ?_⟩
  · have same := run_map Prod.snd ({} : Debouncer (Nat × α)) (marked 0 ms)
    rw [unmarked] at same
    exact same
  · rintro before a between b after rfl untaken
    exact replaced_not_run (by simp) untaken
  · rintro before after rfl
    exact ⟨fetched_stop before after, run_after_stop {} before after⟩
  · rintro going unarmed done before a after rfl silent
    exact last_ran silent going unarmed done

/-- The first timer takes the callback of the second trigger, and the second timer finds none. -/
def crossed : List (Move Char) :=
  [.trigger 'a', .expire, .advance 0, .trigger 'b', .expire, .advance 0, .advance 1, .advance 1,
    .advance 0]

theorem crossed_runs_second :
    (0, 'a') ∉ fetched (crossed.take 3) ∧ (0, 'a') ∉ (history crossed).2 ∧ .stop ∉ crossed ∧
      (history crossed).1.armed = false ∧ (history crossed).1.bodies = [] ∧
      (3, 'b') ∈ (history crossed).2 ∧
      fetched (crossed.take 5 ++ .stop :: crossed.drop 5) = fetched (crossed.take 5) := by
  obtain ⟨-, -, replaced, -, last⟩ := callbacks_run crossed
  obtain ⟨-, -, -, stops, -⟩ := callbacks_run (crossed.take 5 ++ .stop :: crossed.drop 5)
  exact ⟨by decide, replaced [] 'a' [.expire, .advance 0] 'b' (crossed.drop 4) rfl (by decide),
    by decide, rfl, rfl, last (by decide) rfl rfl (crossed.take 3) 'b' (crossed.drop 4) rfl rfl,
    (stops _ _ rfl).1⟩

end Debouncer

end DistanceField.Watch
