import DistanceField.Proofs.Lists
import DistanceField.Watch.Watcher

/-! No change of a watched file is lost. What the handler is still to be told of waits as an event, as a
callback, as a timer that runs it or as a signal. Each move passes it on or calls the handler, and an
idle loop has nothing that waits. -/
namespace DistanceField.Watch

def Body.isWaiting {α : Type} : Body α → Bool
  | .looking | .taking => true
  | .running _ => false

def Body.isTaking {α : Type} : Body α → Bool
  | .taking => true
  | .looking | .running _ => false

def Body.steps {α : Type} : Body α → Nat
  | .looking => 3
  | .taking => 2
  | .running _ => 1

namespace Debouncer

variable {α : Type} {d e : Debouncer α} {taken ran : Option α}

/-- How many callbacks are still to run. -/
def due (d : Debouncer α) : Nat := d.callback.toList.length + d.bodies.countP (! ·.isWaiting)

/-- A debouncer that was not stopped, with a timer on its way for each callback that is there. -/
structure Tended (d : Debouncer α) : Prop where
  going : d.stopped = false
  fetched : d.callback.isSome → d.armed = true ∨ ∃ b ∈ d.bodies, b.isWaiting = true

/-- The callback that the expired timer at a position takes in its step. -/
def takes? (d : Debouncer α) (i : Nat) : Option α :=
  if d.bodies[i]?.any Body.isTaking then d.callback else none

/-- All that an expired timer can do in a step: what it takes and what it runs. -/
inductive Advance (d : Debouncer α) : Debouncer α → Option α → Option α → Prop where
  | none : Advance d d none none
  | quit (before after : List (Body α)) :
      d.stopped = true → d.bodies = before ++ .looking :: after →
        Advance d { d with bodies := before ++ after } none none
  | look (before after : List (Body α)) :
      d.stopped = false → d.bodies = before ++ .looking :: after →
        Advance d { d with bodies := before ++ .taking :: after } none none
  | miss (before after : List (Body α)) :
      d.bodies = before ++ .taking :: after → d.callback = none →
        Advance d { d with bodies := before ++ after } none none
  | take (before after : List (Body α)) (a : α) :
      d.bodies = before ++ .taking :: after → d.callback = some a →
        Advance d { d with callback := none, bodies := before ++ .running a :: after } (some a) none
  | run (before after : List (Body α)) (a : α) :
      d.bodies = before ++ .running a :: after →
        Advance d { d with bodies := before ++ after } none (some a)

theorem advance_cases (d : Debouncer α) (i : Nat) :
    Advance d (d.advance i).1 (d.takes? i) (d.advance i).2 := by
  obtain ⟨stopped, callback, armed, bodies⟩ := d
  cases found : bodies[i]? with
  | none => simpa [advance, takes?, found] using .none
  | some b =>
    obtain ⟨before, after, split, set, erase⟩ := split_at found
    cases b with
    | looking =>
      cases stopped with
      | false => simpa [advance, takes?, Body.isTaking, found, set] using .look before after rfl split
      | true => simpa [advance, takes?, Body.isTaking, found, erase] using .quit before after rfl split
    | taking =>
      cases callback with
      | none => simpa [advance, takes?, Body.isTaking, found, erase] using .miss before after split rfl
      | some a =>
        simpa [advance, takes?, Body.isTaking, found, set] using .take before after a split rfl
    | running a =>
      simpa [advance, takes?, Body.isTaking, found, erase] using .run before after a split

theorem Advance.due (step : Advance d e taken ran) : e.due + ran.toList.length = d.due := by
  cases step with
  | none => simp
  | quit before after stopped split => simp [Debouncer.due, split, Body.isWaiting]
  | look before after going split => simp [Debouncer.due, split, Body.isWaiting]
  | miss before after split missing => simp [Debouncer.due, split, missing, Body.isWaiting]
  | take before after a split found =>
    simp [Debouncer.due, split, found, Body.isWaiting]
    omega
  | run before after a split =>
    simp [Debouncer.due, split, Body.isWaiting]
    omega

theorem Tended.advance (tended : Tended d) (step : Advance d e taken ran) : Tended e := by
  obtain ⟨going, fetched⟩ := tended
  cases step with
  | none => exact ⟨going, fetched⟩
  | quit before after stopped split =>
    rw [going] at stopped
    cases stopped
  | look before after _ split => exact ⟨going, fun _ => .inr ⟨.taking, by simp, rfl⟩⟩
  | miss before after split missing => exact ⟨going, by simp [missing]⟩
  | take before after a split found => exact ⟨going, by simp⟩
  | run before after a split =>
    refine ⟨going, fun some => (fetched some).imp_right ?_⟩
    rintro ⟨b, found, waits⟩
    refine ⟨b, ?_, waits⟩
    have other : b ≠ .running a := by
      rintro rfl
      cases waits
    simpa [split, other] using found

theorem Tended.expire (tended : Tended d) : Tended d.expire := by
  obtain ⟨going, fetched⟩ := tended
  unfold Debouncer.expire
  split
  · exact ⟨going, fun _ => .inr ⟨.looking, by simp, rfl⟩⟩
  · exact ⟨going, fetched⟩

theorem due_expire (d : Debouncer α) : d.expire.due = d.due := by
  unfold expire
  split <;> simp [due, Body.isWaiting]

theorem Tended.trigger (tended : Tended d) (a : α) :
    Tended (d.trigger a) ∧ 0 < (d.trigger a).due ∧ (d.trigger a).due ≤ d.due + 1 := by
  have next : d.trigger a = { d with callback := some a, armed := true } := by
    simp [Debouncer.trigger, tended.going]
  rw [next]
  refine ⟨⟨tended.going, fun _ => .inl rfl⟩, ?_, ?_⟩
  · simp only [due, Option.toList_some, List.length_singleton]
    omega
  · simp only [due, Option.toList_some, List.length_singleton]
    omega

theorem Tended.due_eq_zero (tended : Tended d) (unarmed : d.armed = false) (none : d.bodies = []) :
    d.due = 0 := by
  have fetched := tended.fetched
  cases callback : d.callback <;> simp_all [due]

def work (d : Debouncer α) : Nat := d.bodies.foldr (fun b n => b.steps + n) 0

theorem bodies_of_work (none : d.work = 0) : d.bodies = [] := by
  cases split : d.bodies with
  | nil => rfl
  | cons b bodies => cases b <;> simp [work, split, Body.steps] at none

theorem work_le (d : Debouncer α) : d.work ≤ 3 * d.bodies.length := by
  unfold work
  induction d.bodies with
  | nil => simp
  | cons b bodies ih =>
    have few : b.steps ≤ 3 := by cases b <;> simp [Body.steps]
    simp only [List.foldr_cons, List.length_cons]
    omega

theorem work_advance (d : Debouncer α) :
    (d.advance 0).1.armed = d.armed ∧ (d.advance 0).1.work ≤ d.work - 1 := by
  obtain ⟨stopped, callback, armed, bodies⟩ := d
  cases bodies with
  | nil => exact ⟨rfl, Nat.zero_le _⟩
  | cons b bodies =>
    cases b with
    | looking => cases stopped <;> simp [advance, work, Body.steps]
    | taking => cases callback <;> simp [advance, work, Body.steps]
    | running a => simp [advance, work, Body.steps]

end Debouncer

namespace Loop

/-- How often the handler may still be called for what has happened so far. -/
def owed (l : Loop) : Nat :=
  l.events.countP (·.isRelevant l.path) + l.debouncer.due + l.signalled.toNat

/-- Whether a file event brings news of the watched file. -/
def Move.isNews (path : Bytes) : Move → Bool
  | .arrive e => e.isRelevant path
  | _ => false

def handled? (l : Loop) : Move → Option Event
  | .look => if l.busy then none else l.events.head?
  | _ => none

/-- What a move makes of what is owed: it grows by news only, and shrinks by calls only. -/
structure Passes (l : Loop) (news : Nat) (next : Loop) (sign : Option Sign) : Prop where
  path : next.path = l.path
  tended : next.debouncer.Tended
  most : sign.toList.count .called + next.owed ≤ l.owed + news
  least : 0 < l.owed → sign = some .called ∨ 0 < next.owed

section Moves

variable {l : Loop} (tended : l.debouncer.Tended)

include tended

theorem passes_same {sign : Option Sign} (uncalled : sign ≠ some .called) : Passes l 0 l sign := by
  refine ⟨rfl, tended, ?_, .inr⟩
  cases sign with
  | none => simp
  | some s =>
    cases s with
    | called => contradiction
    | _ => simp

theorem passes_arrive (e : Event) :
    Passes l (Move.isNews l.path (.arrive e)).toNat (l.step (.arrive e)).1 none := by
  refine ⟨rfl, tended, ?_, fun some => .inr ?_⟩
  · cases news : e.isRelevant l.path
    · simp [step, owed, Move.isNews, news]
    · simp [step, owed, Move.isNews, news]
      omega
  · simp only [step, owed, List.countP_append] at some ⊢
    omega

theorem passes_look : Passes l 0 l.look none := by
  unfold look
  split
  · rename_i e rest idle waiting
    cases news : e.isRelevant l.path with
    | false =>
      refine ⟨rfl, tended, ?_, fun some => .inr ?_⟩
      · simp [owed, waiting, news]
      · simpa [owed, waiting, news] using some
    | true =>
      obtain ⟨next, some, most⟩ := tended.trigger ()
      refine ⟨rfl, next, ?_, fun _ => .inr ?_⟩
      · simp [owed, waiting, news]
        omega
      · simp only [owed, if_true]
        omega
  · exact passes_same tended (by simp)

theorem passes_expire : Passes l 0 { l with debouncer := l.debouncer.expire } none := by
  refine ⟨rfl, tended.expire, ?_, fun some => .inr ?_⟩
  · simp [owed, Debouncer.due_expire]
  · simpa [owed, Debouncer.due_expire] using some

theorem passes_advance (i : Nat) : Passes l 0 (l.advance i) none := by
  have step := Debouncer.advance_cases l.debouncer i
  unfold advance
  generalize l.debouncer.advance i = result at step ⊢
  obtain ⟨next, ran⟩ := result
  have due := step.due
  refine ⟨rfl, tended.advance step, ?_, fun some => .inr ?_⟩
  · -- a callback that runs leaves a signal, unless one waits already
    cases ran <;> cases waits : l.signalled <;> simp [owed, waits] at due ⊢ <;> omega
  · cases ran with
    | none => simpa [owed, ← due] using some
    | some a => simp [owed]

theorem step_passes (m : Move) : Passes l (m.isNews l.path).toNat (l.step m).1 (l.step m).2 := by
  cases m with
  | arrive e => exact passes_arrive tended e
  | look => exact passes_look tended
  | trouble =>
    refine passes_same tended ?_
    simp only [step]
    split <;> simp
  | expire => exact passes_expire tended
  | advance i => exact passes_advance tended i
  | call =>
    simp only [step]
    split
    · rename_i ready
      refine ⟨rfl, tended, ?_, fun _ => .inl rfl⟩
      simp_all [owed]
      omega
    · exact passes_same tended (by simp)
  | finish failed =>
    have uncalled : (if l.busy && failed then some Sign.handlerFailed else none) ≠ some .called := by
      split <;> simp
    have same := passes_same tended uncalled
    exact ⟨same.path, same.tended, same.most, same.least⟩

theorem owed_handled {m : Move} {e : Event} (handled : l.handled? m = some e)
    (news : e.isRelevant l.path = true) : 0 < (l.step m).1.owed := by
  cases m with
  | look =>
    simp only [handled?] at handled
    split at handled
    · cases handled
    · rename_i idle
      obtain ⟨rest, waiting⟩ := List.head?_eq_some_iff.mp handled
      obtain ⟨-, some, -⟩ := tended.trigger ()
      simp only [step, look, idle, waiting, owed, news, if_true]
      omega
  | _ => cases handled

theorem owed_of_idle (idle : l.isIdle = true) : l.owed = 0 := by
  simp only [isIdle, Bool.and_eq_true, Bool.not_eq_true', List.isEmpty_iff] at idle
  obtain ⟨⟨⟨⟨events, unarmed⟩, bodies⟩, unsignalled⟩, -⟩ := idle
  simp [owed, events, unsignalled, tended.due_eq_zero unarmed bodies]

theorem run_keeps (ms : List Move) :
    (l.run ms).1.path = l.path ∧ (l.run ms).1.debouncer.Tended := by
  induction ms generalizing l with
  | nil => exact ⟨rfl, tended⟩
  | cons m ms ih =>
    obtain ⟨path, next, -⟩ := step_passes tended m
    obtain ⟨later, last⟩ := ih next
    exact ⟨later.trans path, last⟩

theorem run_calls_le (ms : List Move) :
    (l.run ms).2.count .called + (l.run ms).1.owed ≤ l.owed + ms.countP (·.isNews l.path) := by
  induction ms generalizing l with
  | nil => simp [run]
  | cons m ms ih =>
    obtain ⟨path, next, most, -⟩ := step_passes tended m
    have rest := ih next
    simp only [run, List.count_append, List.countP_cons, path] at rest ⊢
    cases news : m.isNews l.path <;> simp [news] at most ⊢ <;> omega

/-- What is owed when a run begins has led to a call when it comes to rest. -/
theorem run_called {ms : List Move} (some : 0 < l.owed) (idle : (l.run ms).1.isIdle = true) :
    .called ∈ (l.run ms).2 := by
  induction ms generalizing l with
  | nil =>
    have none := owed_of_idle tended idle
    omega
  | cons m ms ih =>
    obtain ⟨-, next, -, least⟩ := step_passes tended m
    simp only [run, List.mem_append] at idle ⊢
    rcases least some with called | owed
    · exact .inl (by simp [called])
    · exact .inr (ih next owed idle)

end Moves

theorem owed_arrived {l : Loop} {e : Event} (news : e.isRelevant l.path = true) :
    0 < (l.step (.arrive e)).1.owed := by
  simp only [step, owed, List.countP_append, List.countP_singleton, news, if_true]
  omega

theorem run_append (l : Loop) (ms ns : List Move) :
    l.run (ms ++ ns) = (((l.run ms).1.run ns).1, (l.run ms).2 ++ ((l.run ms).1.run ns).2) := by
  induction ms generalizing l with
  | nil => rfl
  | cons m ms ih => simp [run, ih]

theorem run_concat (l : Loop) (ms : List Move) (m : Move) :
    (l.run (ms ++ [m])).1 = ((l.run ms).1.step m).1 := by
  rw [run_append]
  rfl

theorem tended_start (path : Bytes) (initial : Bool) : (start path initial).debouncer.Tended :=
  ⟨rfl, by simp [start]⟩

theorem owed_start (path : Bytes) (initial : Bool) : (start path initial).owed = initial.toNat := by
  simp [start, owed, Debouncer.due]

theorem run_look {l : Loop} (free : l.busy = false) :
    let r := (l.run (.replicate l.events.length .look)).1
    r.events = [] ∧ r.busy = false ∧ r.debouncer.bodies = l.debouncer.bodies := by
  induction split : l.events generalizing l with
  | nil => exact ⟨split, free, rfl⟩
  | cons e rest ih =>
    have next : l.look.events = rest ∧ l.look.busy = false ∧
        l.look.debouncer.bodies = l.debouncer.bodies := by
      simp only [look, free, split, Debouncer.trigger]
      cases e.isRelevant l.path <;> cases l.debouncer.stopped <;> simp
    obtain ⟨fewer, still, bodies⟩ := next
    rw [← bodies]
    exact ih still fewer

theorem run_advance {l : Loop} {n : Nat} (enough : l.debouncer.work ≤ n) :
    let r := (l.run (.replicate n (.advance 0))).1
    r.events = l.events ∧ r.busy = l.busy ∧ r.debouncer.armed = l.debouncer.armed ∧
      r.debouncer.bodies = [] := by
  induction n generalizing l with
  | zero => exact ⟨rfl, rfl, rfl, Debouncer.bodies_of_work (Nat.le_zero.mp enough)⟩
  | succ n ih =>
    obtain ⟨armed, less⟩ := Debouncer.work_advance l.debouncer
    have rest := ih (l := l.advance 0) (by simp only [advance]; omega)
    simpa [List.replicate_succ, run, step, advance, armed] using rest

/-- Once nothing else is under way, a signal that waits is answered. -/
theorem run_answer {l : Loop} (events : l.events = []) (free : l.busy = false)
    (unarmed : l.debouncer.armed = false) (bodies : l.debouncer.bodies = []) :
    (l.run [.call, .finish false]).1.isIdle = true := by
  cases waits : l.signalled <;> simp [run, step, isIdle, waits, events, free, unarmed, bodies]

theorem isIdle_toEnd (l : Loop) : (l.run l.toEnd).1.isIdle = true := by
  -- the loop is freed, then each part of it is emptied, in the order in which it feeds the next
  have freed : (l.run [.finish false, .call, .finish false]).1.busy = false ∧
      (l.run [.finish false, .call, .finish false]).1.events = l.events ∧
      (l.run [.finish false, .call, .finish false]).1.debouncer = l.debouncer := by
    cases waits : l.signalled <;> simp [run, step, waits]
  simp only [toEnd, run_append]
  generalize (l.run [.finish false, .call, .finish false]).1 = a at freed ⊢
  obtain ⟨free, events, debouncer⟩ := freed
  obtain ⟨looked, still, bodies⟩ := run_look free
  rw [events] at looked still bodies
  generalize (a.run (.replicate l.events.length .look)).1 = b at looked still bodies ⊢
  have expired : (b.run [.expire]).1 = { b with debouncer := b.debouncer.expire } := rfl
  rw [expired]
  have unarmed : b.debouncer.expire.armed = false := by
    cases armed : b.debouncer.armed <;> simp [Debouncer.expire, armed]
  have few : b.debouncer.expire.bodies.length ≤ l.debouncer.bodies.length + 1 := by
    cases armed : b.debouncer.armed <;> simp [Debouncer.expire, armed, bodies, debouncer]
  have enough : b.debouncer.expire.work ≤ 3 * (l.debouncer.bodies.length + 1) :=
    Nat.le_trans (Debouncer.work_le _) (Nat.mul_le_mul_left 3 few)
  obtain ⟨same, free, armed, none⟩ :=
    run_advance (l := { b with debouncer := b.debouncer.expire }) enough
  exact run_answer (same.trans looked) (free.trans still) (armed.trans unarmed) none

/-- Whatever the order of events, timers and turns of the loop, and whether or not the handler fails: when
all is at rest, the handler was called after each change of the watched file had arrived, and after it was
handled. There are no more calls than such changes, but for the report at the start. And a loop can
always come to rest. -/
theorem changes_reach_handler (path : Bytes) (initial : Bool) (ms : List Move) :
    let l := start path initial
    ((l.run ms).1.isIdle = true → ∀ before m after e, ms = before ++ m :: after →
      e.isRelevant path = true → m = .arrive e ∨ (l.run before).1.handled? m = some e →
        .called ∈ ((l.run (before ++ [m])).1.run after).2) ∧
    (l.run ms).2.count .called ≤ ms.countP (·.isNews path) + initial.toNat ∧
    (l.run (ms ++ (l.run ms).1.toEnd)).1.isIdle = true := by
  intro l
  have tended : l.debouncer.Tended := tended_start path initial
  refine ⟨?_, ?_, ?_⟩
  · rintro idle before m after e rfl news either
    obtain ⟨same, now⟩ := run_keeps tended before
    have relevant : e.isRelevant (l.run before).1.path = true := same ▸ news
    have owes : 0 < ((l.run before).1.step m).1.owed := by
      rcases either with rfl | handled
      · exact owed_arrived relevant
      · exact owed_handled now handled relevant
    rw [List.append_cons, run_append, run_concat] at idle
    rw [run_concat]
    exact run_called (step_passes now m).tended owes idle
  · have most := run_calls_le tended ms
    have first : l.owed = initial.toNat := owed_start path initial
    have same : l.path = path := rfl
    rw [first, same] at most
    omega
  · rw [run_append]
    exact isIdle_toEnd _

/-- A file is written again when the timer for the first change has expired, and that timer brings the
second change to the handler. The handler fails, and the timer for the second change finds nothing. -/
def rewritten : List Move :=
  let e : Event := ⟨"/m", [.write]⟩
  [.arrive e, .look, .expire, .advance 0, .arrive e, .arrive ⟨"/n", [.write]⟩, .look, .advance 0,
    .advance 0, .look, .call, .expire, .advance 0, .finish true, .trouble, .advance 0]

theorem rewritten_reaches_handler :
    let l := start "/m" false
    (l.run rewritten).1.isIdle = true ∧ (l.run rewritten).2.count .called = 1 ∧
    (l.run rewritten).2.contains .handlerFailed = true ∧
    .called ∈ ((l.run (rewritten.take 7)).1.run (rewritten.drop 7)).2 := by
  intro l
  have idle : (l.run rewritten).1.isIdle = true := by decide +kernel
  refine ⟨idle, by decide +kernel, by decide +kernel, ?_⟩
  exact (changes_reach_handler "/m" false rewritten).1 idle (rewritten.take 6) .look
    (rewritten.drop 7) ⟨"/m", [.write]⟩ rfl (by decide +kernel) (.inr (by decide +kernel))

end Loop

end DistanceField.Watch
