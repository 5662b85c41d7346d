import DistanceField.Proofs.Compile.Mirror
import DistanceField.Proofs.Lists
import DistanceField.Proofs.Serve.Coherence
import DistanceField.Serve.Delivery
import DistanceField.Serve.Server

/-! What the metrics tell of a session. Counters count the updates that were observed, whatever their
order, and gauges show the last of them that was accepted. So counters always agree with what was
finished, but gauges agree with the session only if its last accepted update is also observed last. -/
namespace DistanceField

def Update.number? (u : Update) : Option Nat := if u.stale then none else some u.seq

/-- An update as a session makes it: one that was accepted without an error has a result, and no other
tells of a change. -/
structure Update.Genuine (u : Update) : Prop where
  brings : u.stale = false → u.error = none → u.result.isSome
  changes : u.changed = true → u.stale = false ∧ u.error = none

theorem Update.Genuine.unchanged {u : Update} (genuine : u.Genuine)
    (refused : u.stale = true ∨ u.error.isSome = true) : u.changed = false := by
  by_contra changed
  obtain ⟨fresh, fine⟩ := genuine.changes (by simpa using changed)
  simp [fresh, fine] at refused

theorem State.finish_genuine {s t : State} {n : Notice} {u : Update}
    (finished : (u, t) = s.finish n.seq n.source n.result n.error) : u.Genuine := by
  rcases State.finish_cases finished with
    ⟨-, stale, same, -⟩ | ⟨-, -, -, same, -, failed, -⟩ | ⟨-, -, fresh, fine, r, -, result, -⟩
  · exact ⟨by simp [stale], by simp [same]⟩
  · exact ⟨fun _ fine => by simp [fine] at failed, by simp [same]⟩
  · exact ⟨by simp [result], by simp [fresh, fine]⟩

theorem State.finish_seq {s t : State} {n : Notice} {u : Update}
    (finished : (u, t) = s.finish n.seq n.source n.result n.error) :
    t.seq = u.number?.getD s.seq := by
  by_cases old : n.seq ≤ s.seq
  · simp only [State.finish, old, if_true, Prod.mk.injEq] at finished
    obtain ⟨rfl, rfl⟩ := finished
    rfl
  · simp only [State.finish, old, if_false] at finished
    split at finished <;> cases finished <;> rfl

structure Told (us : List Update) (s : State) : Prop where
  genuine : ∀ u ∈ us, u.Genuine
  seq : s.seq = (us.filterMap Update.number?).getLast?.getD 0
  result : s.result = (us.filterMap Update.brings?).getLast?

theorem told_nil : Told [] {} := ⟨by simp, rfl, rfl⟩

theorem Told.finish {us : List Update} {s t : State} (told : Told us s) {n : Notice} {u : Update}
    (finished : (u, t) = s.finish n.seq n.source n.result n.error) : Told (us ++ [u]) t := by
  obtain ⟨genuine, seq, result⟩ := told
  constructor
  · intro v found
    rcases List.mem_append.mp found with before | last
    · exact genuine v before
    · rw [List.mem_singleton.mp last]
      exact State.finish_genuine finished
  · rw [last_append, State.finish_seq finished, seq]
    cases u.number? <;> rfl
  · rw [last_append, ← result]
    exact State.finish_result finished

namespace Metrics

/-- The counters agree with these updates. -/
structure Counts (m : Metrics) (us : List Update) : Prop where
  stale : m.stales = us.countP (·.stale)
  error : m.errors = us.countP fun u => !u.stale && u.error.isSome
  ok : m.oks = us.countP fun u => !u.stale && u.error.isNone
  all : m.oks + m.errors + m.stales = us.length
  changed : m.changes = us.countP (·.changed)
  timed : m.durations = m.oks

/-- The gauges agree with this state. -/
structure Shows (m : Metrics) (s : State) : Prop where
  seq : m.seq = s.seq
  bytes : m.codeBytes = s.result.elim 0 (·.code.length)
  helpers : m.helpers = s.result.elim 0 Result.helpers

/-- Metrics that have observed these updates, in this order. -/
structure Observed (us : List Update) (m : Metrics) : Prop extends Counts m us where
  seq : m.seq = (us.filterMap Update.number?).getLast?.getD 0
  bytes : m.codeBytes = (us.filterMap Update.brings?).getLast?.elim 0 (·.code.length)
  helpers : m.helpers = (us.filterMap Update.brings?).getLast?.elim 0 Result.helpers

variable {us : List Update} {m : Metrics} {u : Update}

theorem observe_stale (old : u.stale = true) :
    m.observe u = { m with stales := m.stales + 1 } := by
  simp [observe, Update.verdict, old]

theorem observe_error (fresh : u.stale = false) (failed : u.error.isSome = true) :
    m.observe u = { m with errors := m.errors + 1, seq := u.seq } := by
  simp [observe, Update.verdict, fresh, failed]

theorem observe_ok (fresh : u.stale = false) (fine : u.error = none) {r : Result}
    (result : u.result = some r) :
    m.observe u = { m with
      oks := m.oks + 1, seq := u.seq, changes := m.changes + u.changed.toNat
      durations := m.durations + 1, codeBytes := r.code.length, helpers := r.helpers } := by
  cases changed : u.changed <;> simp [observe, Update.verdict, fresh, fine, result, changed]

theorem observed_nil : Observed [] {} := ⟨⟨rfl, rfl, rfl, rfl, rfl, rfl⟩, rfl, rfl, rfl⟩

theorem Observed.observe (seen : Observed us m) (genuine : u.Genuine) :
    Observed (us ++ [u]) (m.observe u) := by
  obtain ⟨⟨stales, errors, oks, all, changes, timed⟩, seq, bytes, helpers⟩ := seen
  cases stale : u.stale with
  | true =>
    have same := genuine.unchanged (.inl stale)
    rw [observe_stale stale]
    constructor
    · constructor <;> simp [*]
      omega
    all_goals simp [Update.number?, Update.brings?, *]
  | false =>
    cases failed : u.error with
    | some e =>
      have same := genuine.unchanged (.inr (by simp [failed]))
      rw [observe_error stale (by simp [failed])]
      constructor
      · constructor <;> simp [*]
        omega
      all_goals simp [Update.number?, Update.brings?, *]
    | none =>
      obtain ⟨r, result⟩ := Option.isSome_iff_exists.mp (genuine.brings stale failed)
      rw [observe_ok stale failed result]
      constructor
      · cases changed : u.changed <;> constructor <;> simp [*] <;> omega
      all_goals simp [Update.number?, Update.brings?, *]

theorem Observed.shows {s : State} (seen : Observed us m) (told : Told us s) : m.Shows s := by
  obtain ⟨-, seq, bytes, helpers⟩ := seen
  exact ⟨seq.trans told.seq.symm, by rw [told.result, bytes], by rw [told.result, helpers]⟩

def gauges (s : State) : List Bytes :=
  [sample "session_seq" [] s.seq, sample "code_bytes" [] (s.result.elim 0 (·.code.length)),
    sample "code_helpers" [] (s.result.elim 0 Result.helpers)]

theorem Shows.gauges {s : State} (shows : m.Shows s) : Metrics.gauges s ⊆ m.lines := by
  obtain ⟨seq, bytes, helpers⟩ := shows
  simp [Metrics.gauges, lines, single, family, seq, bytes, helpers]

end Metrics

def Call.finishes : Call → Bool
  | .begin => false
  | .finish .. | .submit .. => true

namespace Session

def answers (s : Session) : List Call → List Update
  | [] => []
  | c :: rest => (s.call c).1.toList ++ (s.call c).2.answers rest

theorem call_cases (s : Session) (c : Call) :
    (c.finishes = false ∧ (s.call c).1 = none ∧ (s.call c).2.state = s.state) ∨
    ∃ (u : Update) (n : Notice), c.finishes = true ∧ (s.call c).1 = some u ∧
      (u, (s.call c).2.state) = s.state.finish n.seq n.source n.result n.error := by
  cases c with
  | begin => exact .inl ⟨rfl, rfl, rfl⟩
  | finish seq source result error =>
    obtain ⟨n, -, finished⟩ := call_answered (s := s) (c := .finish seq source result error) rfl
    exact .inr ⟨_, n, rfl, rfl, finished⟩
  | submit canceled source =>
    obtain ⟨n, -, finished⟩ := call_answered (s := s) (c := .submit canceled source) rfl
    exact .inr ⟨_, n, rfl, rfl, finished⟩

theorem length_answers (s : Session) (cs : List Call) :
    (s.answers cs).length = cs.countP Call.finishes := by
  induction cs generalizing s with
  | nil => rfl
  | cons c cs ih =>
    rcases s.call_cases c with ⟨silent, none, -⟩ | ⟨u, n, loud, some, -⟩
    · simp [answers, none, silent, ih]
    · simp [answers, some, loud, ih]

end Session

namespace Serve.Server

def opened (strict : Bool) (cache : Option Cache) : Server := { session := .fresh strict cache }

def run (v : Server) (cs : List Call) : Server := cs.foldl call v

theorem run_session (v : Server) (cs : List Call) : (v.run cs).session = v.session.run cs := by
  induction cs generalizing v with
  | nil => rfl
  | cons c cs ih =>
    have later : v.run (c :: cs) = (v.call c).run cs := rfl
    rw [later, ih, call_session]
    rfl

theorem run_observed {v : Server} {us : List Update} (told : Told us v.session.state)
    (seen : v.metrics.Observed us) (cs : List Call) :
    Told (us ++ v.session.answers cs) (v.run cs).session.state ∧
      (v.run cs).metrics.Observed (us ++ v.session.answers cs) := by
  induction cs generalizing v us with
  | nil => simpa [Session.answers] using ⟨told, seen⟩
  | cons c cs ih =>
    rcases v.session.call_cases c with ⟨-, none, same⟩ | ⟨u, n, -, some, finished⟩
    · have next : v.call c = { v with session := (v.session.call c).2 } := by simp [call, none]
      have told' : Told us (v.call c).session.state := by simpa [next, same] using told
      have seen' : (v.call c).metrics.Observed us := by simpa [next] using seen
      simpa [Session.answers, none, call_session, run] using ih told' seen'
    · have next : v.call c =
          { v with session := (v.session.call c).2, metrics := v.metrics.observe u } := by
        simp [call, some, observe]
      have told' : Told (us ++ [u]) (v.call c).session.state := by
        simpa [next] using told.finish finished
      have seen' : (v.call c).metrics.Observed (us ++ [u]) := by
        simpa [next] using seen.observe (State.finish_genuine finished)
      simpa [Session.answers, some, call_session, run] using ih told' seen'

/-- After any calls to a session, one after the other, the counters agree with the updates that it
answered with, one for each submission that was finished, and the gauges agree with its state. They are
shown as floating point numbers. -/
theorem metrics_agree (strict : Bool) (cache : Option Cache) (calls : List Call) :
    let v := (opened strict cache).run calls
    let s := (Session.fresh strict cache).run calls
    let us := (Session.fresh strict cache).answers calls
    v.session = s ∧ us.length = calls.countP Call.finishes ∧ v.metrics.Counts us ∧
      v.metrics.Shows s.state ∧ Metrics.gauges s.state ⊆ v.metrics.lines := by
  intro v s us
  have session : v.session = s := run_session _ calls
  obtain ⟨told, seen⟩ : Told us v.session.state ∧ v.metrics.Observed us :=
    run_observed (v := opened strict cache) told_nil Metrics.observed_nil calls
  rw [session] at told
  have shows := seen.shows told
  exact ⟨session, Session.length_answers _ calls, seen.toCounts, shows, shows.gauges⟩

end Serve.Server

namespace Serve.Delivery

/-- The updates that were made, and those that the metrics have heard of, each in the order of time. -/
structure Log where
  finished : List Update := []
  delivered : List Update := []

def note (d : Delivery) (g : Log) : Move → Log
  | .finish seq source result error =>
    { g with finished := g.finished ++ [(d.state.finish seq source result error).1] }
  | .deliver i => { g with delivered := g.delivered ++ d.waiting[i]?.toList }

def log (d : Delivery) (g : Log) : List Move → Log
  | [] => g
  | m :: ms => (d.step m).log (d.note g m) ms

/-- Every update is delivered or on its way, the state is that of all, and the metrics are those of the
delivered ones. -/
structure Kept (d : Delivery) (g : Log) : Prop where
  waiting : g.finished.Perm (g.delivered ++ d.waiting)
  told : Told g.finished d.state
  seen : d.metrics.Observed g.delivered

theorem Kept.step {d : Delivery} {g : Log} (kept : Kept d g) (m : Move) :
    Kept (d.step m) (d.note g m) := by
  obtain ⟨waiting, told, seen⟩ := kept
  cases m with
  | finish seq source result error =>
    refine ⟨?_, told.finish (n := ⟨seq, source, result, error⟩) rfl, seen⟩
    simpa [Delivery.step, note] using waiting.append_right _
  | deliver i =>
    cases found : d.waiting[i]? with
    | none => simpa [Delivery.step, note, found] using ⟨waiting, told, seen⟩
    | some u =>
      obtain ⟨before, after, split, -, erase⟩ := split_at found
      have genuine : u.Genuine := told.genuine u (waiting.mem_iff.mpr (by simp [split]))
      simp only [Delivery.step, note, found, erase]
      refine ⟨?_, told, seen.observe genuine⟩
      have moved : (before ++ u :: after).Perm (u :: (before ++ after)) := List.perm_middle
      rw [split] at waiting
      simpa using waiting.trans (moved.append_left _)

theorem Kept.run {d : Delivery} {g : Log} (kept : Kept d g) (ms : List Move) :
    Kept (d.run ms) (d.log g ms) := by
  induction ms generalizing d g with
  | nil => exact kept
  | cons m ms ih => exact ih (kept.step m)

/-- What gauges show after these updates: the last number accepted, and the size of the last code. -/
def reading (us : List Update) : Nat × Nat × Nat :=
  let code := (us.filterMap Update.brings?).getLast?
  ((us.filterMap Update.number?).getLast?.getD 0, code.elim 0 (·.code.length),
    code.elim 0 Result.helpers)

theorem filterMap_accepted {α : Type} {f : Update → Option α}
    (nothing : ∀ u, u.stale = true → f u = none) (us : List Update) :
    (us.filter (!·.stale)).filterMap f = us.filterMap f := by
  rw [List.filterMap_filter]
  apply List.filterMap_congr
  intro u _
  cases stale : u.stale with
  | true => simp [nothing u stale]
  | false => simp

/-- Only the accepted updates count for the gauges. -/
theorem reading_accepted (us : List Update) : reading (us.filter (!·.stale)) = reading us := by
  unfold reading
  rw [filterMap_accepted (f := Update.number?), filterMap_accepted (f := Update.brings?)]
  · simp +contextual [Update.brings?]
  · simp +contextual [Update.number?]

theorem shows_iff {fs ds : List Update} {s : State} {m : Metrics} (told : Told fs s)
    (seen : m.Observed ds) : m.Shows s ↔ reading ds = reading fs := by
  obtain ⟨-, seq, bytes, helpers⟩ := seen
  simp only [reading, Prod.mk.injEq, ← seq, ← bytes, ← helpers, ← told.seq, ← told.result]
  exact ⟨fun shows => ⟨shows.seq, shows.bytes, shows.helpers⟩, fun same => ⟨same.1, same.2.1, same.2.2⟩⟩

theorem counts_perm {us vs : List Update} {m : Metrics} (counts : m.Counts us) (same : us.Perm vs) :
    m.Counts vs := by
  obtain ⟨stale, error, ok, all, changed, timed⟩ := counts
  exact ⟨stale.trans (same.countP_eq _), error.trans (same.countP_eq _), ok.trans (same.countP_eq _),
    all.trans same.length_eq, changed.trans (same.countP_eq _), timed⟩

/-- However the updates of a session are overtaken on their way to the metrics, once all have arrived the
counters agree with them. The gauges show what arrived last, and the state what was accepted last. So they
agree exactly when these come to the same, as they do when no accepted update overtakes another. -/
theorem gauges_show_last_delivered (ms : List Move) (settled : (run {} ms).waiting = []) :
    let d := run {} ms
    let g := log {} {} ms
    g.delivered.Perm g.finished ∧ d.metrics.Counts g.finished ∧
    (d.metrics.seq, d.metrics.codeBytes, d.metrics.helpers) = reading g.delivered ∧
    (d.metrics.Shows d.state ↔ reading g.delivered = reading g.finished) ∧
    (g.delivered.filter (!·.stale) = g.finished.filter (!·.stale) → d.metrics.Shows d.state) := by
  intro d g
  obtain ⟨waiting, told, seen⟩ : Kept d g :=
    Kept.run (d := {}) (g := {}) ⟨.refl _, told_nil, Metrics.observed_nil⟩ ms
  have all : g.delivered.Perm g.finished := by simpa [d, settled] using waiting.symm
  have agree := shows_iff told seen
  refine ⟨all, counts_perm seen.toCounts all, ?_, agree, ?_⟩
  · rw [seen.seq, seen.bytes, seen.helpers]
    rfl
  · intro ordered
    rw [agree, ← reading_accepted, ordered, reading_accepted]

/-- Three submissions finish before the metrics hear of any. One is stale and overtakes the other two, and
the last one fails. -/
def overtaking : List Move :=
  [.finish 2 [] (some (resultOf "a")) none, .finish 1 [] (some (resultOf "bb")) none,
    .finish 3 [] none none, .deliver 1, .deliver 0, .deliver 0]

theorem overtaking_shows_state :
    (run {} overtaking).waiting = [] ∧ (run {} overtaking).metrics.oks = 1 ∧
    (run {} overtaking).metrics.Shows (run {} overtaking).state := by
  have settled : (run {} overtaking).waiting = [] := List.length_eq_zero_iff.mp (by decide +kernel)
  obtain ⟨-, -, -, agree, -⟩ := gauges_show_last_delivered overtaking settled
  exact ⟨settled, by decide +kernel, agree.mpr (by decide +kernel)⟩

/-- Two accepted submissions; the metrics hear of the newer one first. -/
def swapped : List Move :=
  [.finish 1 [] (some (resultOf "a")) none, .finish 2 [] (some (resultOf "bb")) none, .deliver 1,
    .deliver 0]

/-- The gauges are left with the older number and the size of the older code. Apart from any overlap, a
number between two floating point numbers is shown as one of these. -/
theorem swapped_shows_older :
    let d := run {} swapped
    let e := run {} [.finish 9007199254740993 [] (some (resultOf "a")) none, .deliver 0]
    d.waiting = [] ∧ d.state.seq = 2 ∧ d.metrics.seq = 1 ∧
    d.state.result.map (·.code.length) = some 2 ∧ d.metrics.codeBytes = 1 ∧
    e.waiting = [] ∧ e.state.seq = 9007199254740993 ∧
    e.metrics.lines.getLast? = some "sdfc_session_seq 9.007199254740992e+15" :=
  ⟨List.length_eq_zero_iff.mp (by decide +kernel), by decide +kernel, by decide +kernel,
    by decide +kernel, by decide +kernel, List.length_eq_zero_iff.mp (by decide +kernel),
    by decide +kernel, by decide +kernel⟩

end Serve.Delivery

end DistanceField
