import DistanceField.Editor.Background
import DistanceField.Proofs.Compile.Latest
import DistanceField.Proofs.Lists

/-! A compile takes its number when it begins, not when it is asked for, and brings its document when it
is delivered, not when it is accepted. Once all have been delivered the editor shows the state of the
compile that began last, beside the document that came last. -/
namespace DistanceField

namespace Editor

namespace Model

theorem applyUpdate_eq (m : Model) (u : Update) :
    m.applyUpdate u = { m with
      state := if u.stale then m.state else m.session.state
      root := (u.brings?.map Result.document).or m.root } := by
  cases stale : u.stale <;> cases failed : u.error <;> cases result : u.result <;>
    simp [applyUpdate, Update.brings?, stale, failed, result]

def learned (m : Model) : Session × State × Option Document := (m.session, m.state, m.root)

theorem refresh_kept (m : Model) :
    m.refresh.learned = m.learned ∧ m.refresh.submitted = m.submitted ∧
      m.refresh.buffer = m.buffer := by
  unfold refresh
  generalize completions m.value m.cursor = found
  exact ⟨rfl, rfl, rfl⟩

theorem cycle_kept (m : Model) (forward : Bool) :
    (m.cycle forward).learned = m.learned ∧ (m.cycle forward).submitted = m.submitted := by
  unfold cycle
  split
  · exact ⟨rfl, rfl⟩
  · exact ⟨rfl, rfl⟩
  · dsimp only
    split <;> exact ⟨rfl, rfl⟩

theorem press_kept (m : Model) (k : Key) :
    (m.press k).1.learned = m.learned ∧ (m.press k).1.submitted = m.submitted := by
  cases k with
  | quit =>
    simp only [press]
    split <;> exact ⟨rfl, rfl⟩
  | tab => exact cycle_kept _ true
  | shiftTab => exact cycle_kept _ false
  | edit e =>
    simp only [press, (refresh_kept _).1, (refresh_kept _).2.1]
    exact ⟨rfl, trivial⟩
  | _ => exact ⟨rfl, rfl⟩

theorem update_learned (m : Model) {msg : Message} (own : ∀ u, msg ≠ .compiled u) :
    (m.update msg).1.learned = m.learned := by
  cases msg with
  | key k => exact (press_kept m k).1
  | compiled u => exact absurd rfl (own u)
  | tick =>
    simp only [update]
    split <;> rfl
  | resized => rfl
  | saved source failure => cases failure <;> rfl
  | edited source failure =>
    cases failure with
    | none =>
      simp only [update, (refresh_kept _).1]
      rfl
    | some why => rfl

end Model

def Command.source? : Command → Option Bytes
  | compile source => some source
  | _ => none

def Job.issued? : Job → Option Bytes
  | issued source => some source
  | _ => none

def Job.finished? : Job → Option Update
  | finished u => some u
  | _ => none

namespace Desk

theorem jobsOf_eq (cs : List Command) : jobsOf cs = (cs.filterMap Command.source?).map .issued := by
  induction cs with
  | nil => rfl
  | cons c cs ih =>
    unfold jobsOf at ih ⊢
    cases c <;> simp [List.filterMap_cons, Command.source?, ih]

structure Log where
  issued : List Bytes
  begun : List Bytes := []
  finished : List Update := []
  delivered : List Update := []

def conclude (s : Session) (seq : Nat) (source : Bytes) : Update × Session :=
  (s.compile false source).2.finishWith seq source (s.compile false source).1

def note (d : Desk) (g : Log) : Move → Log
  | .message m => { g with issued := g.issued ++ (d.model.update m).2.filterMap Command.source? }
  | .begin i =>
    match d.jobs[i]? with
    | some (.issued source) => { g with begun := g.begun ++ [source] }
    | _ => g
  | .finish i =>
    match d.jobs[i]? with
    | some (.begun seq source) =>
      { g with finished := g.finished ++ [(conclude d.model.session seq source).1] }
    | _ => g
  | .deliver i =>
    match d.jobs[i]? with
    | some (.finished u) => { g with delivered := g.delivered ++ [u] }
    | _ => g

def log (d : Desk) (g : Log) : List Move → Log
  | [] => g
  | m :: ms => (d.step m).log (d.note g m) ms

inductive Turn (d : Desk) (g : Log) : Desk → Log → Prop where
  | idle : Turn d g d g
  | ask (model : Model) (texts : List Bytes) :
      model.learned = d.model.learned →
        Turn d g ⟨model, d.jobs ++ texts.map .issued⟩ { g with issued := g.issued ++ texts }
  | begin (before after : List Job) (source : Bytes) :
      d.jobs = before ++ .issued source :: after →
        Turn d g ⟨{ d.model with session := d.model.session.begin.2 },
            before ++ .begun (d.model.session.next + 1) source :: after⟩
          { g with begun := g.begun ++ [source] }
  | finish (before after : List Job) (n : Notice) (u : Update) (s : Session) :
      d.jobs = before ++ .begun n.seq n.source :: after → s.next = d.model.session.next →
      (u, s.state) = d.model.session.state.finish n.seq n.source n.result n.error →
        Turn d g ⟨{ d.model with session := s }, before ++ .finished u :: after⟩
          { g with finished := g.finished ++ [u] }
  | deliver (before after : List Job) (u : Update) :
      d.jobs = before ++ .finished u :: after →
        Turn d g ⟨d.model.applyUpdate u, before ++ after⟩ { g with delivered := g.delivered ++ [u] }

theorem conclude_spec (s : Session) (seq : Nat) (source : Bytes) :
    (conclude s seq source).2.next = s.next ∧
    ∃ n : Notice, n.seq = seq ∧ n.source = source ∧
      ((conclude s seq source).1, (conclude s seq source).2.state) =
        s.state.finish n.seq n.source n.result n.error := by
  have state := s.compile_state false source
  have next : (s.compile false source).2.next = s.next := by
    unfold Session.compile
    split <;> rfl
  unfold conclude
  cases (s.compile false source).1 with
  | ok r =>
    refine ⟨next, ⟨seq, source, some r, none⟩, rfl, rfl, ?_⟩
    rw [← state]
    rfl
  | error e =>
    refine ⟨next, ⟨seq, source, none, some e⟩, rfl, rfl, ?_⟩
    rw [← state]
    rfl

theorem step_turn (d : Desk) (g : Log) {m : Move} (own : ∀ u, m ≠ .message (.compiled u)) :
    Turn d g (d.step m) (d.note g m) := by
  cases m with
  | message msg =>
    have kept : (d.model.update msg).1.learned = d.model.learned :=
      d.model.update_learned fun u same => own u (congrArg Move.message same)
    have next : d.step (.message msg) = ⟨(d.model.update msg).1,
        d.jobs ++ ((d.model.update msg).2.filterMap Command.source?).map .issued⟩ := by
      rw [← jobsOf_eq]
      rfl
    rw [next]
    exact .ask _ _ kept
  | begin i =>
    cases found : d.jobs[i]? with
    | none => simpa [step, begin, note, found] using .idle
    | some job =>
      cases job with
      | issued source =>
        obtain ⟨before, after, split, set, -⟩ := split_at found
        simp only [step, begin, note, found, set]
        exact .begin before after source split
      | _ => simpa [step, begin, note, found] using .idle
  | finish i =>
    cases found : d.jobs[i]? with
    | none => simpa [step, finish, note, found] using .idle
    | some job =>
      cases job with
      | begun seq source =>
        obtain ⟨before, after, split, set, -⟩ := split_at found
        obtain ⟨next, n, rfl, rfl, finished⟩ := conclude_spec d.model.session seq source
        simp only [step, finish, note, found, set]
        exact .finish before after n _ _ split next finished
      | _ => simpa [step, finish, note, found] using .idle
  | deliver i =>
    cases found : d.jobs[i]? with
    | none => simpa [step, deliver, note, found] using .idle
    | some job =>
      cases job with
      | finished u =>
        obtain ⟨before, after, split, -, erase⟩ := split_at found
        simp only [step, deliver, note, found, erase]
        exact .deliver before after u split
      | _ => simpa [step, deliver, note, found] using .idle

/-- `source` began under the number `seq`, counted from one. -/
def Numbered (begun : List Bytes) (seq : Nat) (source : Bytes) : Prop :=
  ∃ k, seq = k + 1 ∧ begun[k]? = some source

theorem Numbered.append {begun : List Bytes} {seq : Nat} {source : Bytes}
    (known : Numbered begun seq source) (later : List Bytes) :
    Numbered (begun ++ later) seq source := by
  obtain ⟨k, rfl, found⟩ := known
  obtain ⟨inside, -⟩ := List.getElem?_eq_some_iff.mp found
  exact ⟨k, rfl, by rw [List.getElem?_append_left inside, found]⟩

theorem Numbered.le {begun : List Bytes} {seq : Nat} {source : Bytes}
    (known : Numbered begun seq source) : seq ≤ begun.length := by
  obtain ⟨k, rfl, found⟩ := known
  obtain ⟨inside, -⟩ := List.getElem?_eq_some_iff.mp found
  exact inside

/-- The numbers of compiles: every one was given out once, and the newest is accepted or under way. -/
structure Counted (d : Desk) (g : Log) : Prop where
  asked : g.issued ≠ []
  issued : g.issued.Perm (g.begun ++ d.jobs.filterMap Job.issued?)
  next : d.model.session.next = g.begun.length
  waiting : ∀ seq source, .begun seq source ∈ d.jobs → Numbered g.begun seq source
  accepted : d.model.session.state.seq = 0 ∨
    Numbered g.begun d.model.session.state.seq d.model.session.state.source
  newest : d.model.session.state.seq = g.begun.length ∨
    ∃ source, .begun g.begun.length source ∈ d.jobs

section Turns

variable {d : Desk} {g : Log} (counted : Counted d g) {before after : List Job}

include counted

theorem Counted.seq_le : d.model.session.state.seq ≤ g.begun.length := by
  rcases counted.accepted with none | known
  · omega
  · exact known.le

theorem Counted.begin {source : Bytes} (split : d.jobs = before ++ .issued source :: after) :
    Counted ⟨{ d.model with session := d.model.session.begin.2 },
        before ++ .begun (d.model.session.next + 1) source :: after⟩
      { g with begun := g.begun ++ [source] } := by
  obtain ⟨asked, issued, next, waiting, accepted, -⟩ := counted
  refine ⟨asked, ?_, ?_, ?_, accepted.imp_right fun known => known.append _, .inr ⟨source, ?_⟩⟩
  · have moved : (before.filterMap Job.issued? ++ source :: after.filterMap Job.issued?).Perm
        (source :: (before.filterMap Job.issued? ++ after.filterMap Job.issued?)) := List.perm_middle
    refine issued.trans ?_
    simpa [split, List.filterMap_cons, Job.issued?] using moved.append_left g.begun
  · simp [Session.begin, next]
  · intro seq other found
    rcases List.mem_append.mp found with front | back
    · exact (waiting seq other (by simp [split, front])).append _
    · rcases List.mem_cons.mp back with same | back
      · cases same
        exact ⟨g.begun.length, by rw [next], by simp⟩
      · exact (waiting seq other (by simp [split, back])).append _
  · simp [next]

theorem Counted.finish {n : Notice} {u : Update} {s : Session}
    (split : d.jobs = before ++ .begun n.seq n.source :: after)
    (same : s.next = d.model.session.next)
    (finished : (u, s.state) = d.model.session.state.finish n.seq n.source n.result n.error) :
    Counted ⟨{ d.model with session := s }, before ++ .finished u :: after⟩
      { g with finished := g.finished ++ [u] } := by
  have most := counted.seq_le
  obtain ⟨asked, issued, next, waiting, accepted, newest⟩ := counted
  have known : Numbered g.begun n.seq n.source := waiting n.seq n.source (by simp [split])
  have bound := known.le
  have others : ∀ seq source, .begun seq source ∈ d.jobs →
      seq = n.seq ∨ .begun seq source ∈ before ++ .finished u :: after := by
    intro seq source found
    simp only [split, List.mem_append, List.mem_cons, Job.begun.injEq] at found ⊢
    tauto
  refine ⟨asked, ?_, same.trans next, ?_, ?_, ?_⟩
  · simpa [split, List.filterMap_cons, Job.issued?] using issued
  · intro seq source found
    refine waiting seq source ?_
    simp only [split, List.mem_append, List.mem_cons] at found ⊢
    tauto
  · rcases State.finish_number finished with ⟨-, -, kept⟩ | ⟨-, -, seq, source⟩
    · simpa [kept] using accepted
    · exact .inr (by simpa [seq, source] using known)
  · -- the newest compile ends here, or is still under way
    rcases newest with current | ⟨source, found⟩
    · rcases State.finish_number finished with ⟨-, -, kept⟩ | ⟨new, -⟩
      · exact .inl (by simp [kept, current])
      · omega
    · rcases others _ _ found with this | other
      · rcases State.finish_number finished with ⟨old, -, kept⟩ | ⟨-, -, seq, -⟩
        · exact .inl (by simp only [kept]; omega)
        · exact .inl (by simp only [seq, this])
      · exact .inr ⟨source, other⟩

theorem Counted.turn {e : Desk} {h : Log} (turn : Turn d g e h) : Counted e h := by
  cases turn with
  | idle => exact counted
  | ask model texts kept =>
    obtain ⟨asked, issued, next, waiting, accepted, newest⟩ := counted
    have session : model.session = d.model.session := congrArg Prod.fst kept
    have added : texts.filterMap (fun text => (Job.issued text).issued?) = texts := List.filterMap_some
    refine ⟨by simp [asked], ?_, ?_, by simpa using waiting, ?_, ?_⟩
    · simpa [added] using issued.append_right texts
    · simpa [session] using next
    · simpa [session] using accepted
    · simpa [session] using newest
  | begin before after source split => exact counted.begin split
  | finish before after n u s split same finished => exact counted.finish split same finished
  | deliver before after u split =>
    obtain ⟨asked, issued, next, waiting, accepted, newest⟩ := counted
    rw [Model.applyUpdate_eq]
    refine ⟨asked, ?_, next, ?_, accepted, by simpa [split] using newest⟩
    · simpa [split, List.filterMap_cons, Job.issued?] using issued
    · intro seq source found
      refine waiting seq source ?_
      simp only [split, List.mem_append, List.mem_cons] at found ⊢
      tauto

end Turns

/-- What the editor has of compiles: the session's state unless an update with it is on its way, and the
document of the last update that had one. -/
structure Shown (d : Desk) (g : Log) : Prop where
  finished : g.finished.Perm (g.delivered ++ d.jobs.filterMap Job.finished?)
  state : d.model.state = d.model.session.state ∨ ∃ u, .finished u ∈ d.jobs ∧ u.stale = false
  result : d.model.session.state.result = (g.finished.filterMap Update.brings?).getLast?
  root : d.model.root = (g.delivered.filterMap Update.brings?).getLast?.map Result.document

theorem Shown.turn {d e : Desk} {g h : Log} (shown : Shown d g) (turn : Turn d g e h) :
    Shown e h := by
  obtain ⟨delivered, state, result, root⟩ := shown
  cases turn with
  | idle => exact ⟨delivered, state, result, root⟩
  | ask model texts kept =>
    simp only [Model.learned, Prod.mk.injEq] at kept
    obtain ⟨session, same, document⟩ := kept
    have none : texts.filterMap (fun text => (Job.issued text).finished?) = [] := by
      simp [Job.finished?]
    refine ⟨by simpa [none] using delivered, ?_, by simpa [session] using result,
      by simpa [document] using root⟩
    simpa [session, same] using state
  | begin before after source split =>
    refine ⟨?_, ?_, result, root⟩
    · simpa [split, List.filterMap_cons, Job.finished?] using delivered
    · simpa [split, Session.begin] using state
  | finish before after n u s split same finished =>
    refine ⟨?_, ?_, ?_, root⟩
    · have all : (u :: g.finished).Perm
          (u :: (g.delivered ++ before.filterMap Job.finished? ++ after.filterMap Job.finished?)) := by
        simpa [split, List.filterMap_cons, Job.finished?] using delivered
      have moved := all.trans List.perm_middle.symm
      refine (List.perm_append_singleton u g.finished).trans ?_
      simpa [List.filterMap_cons, Job.finished?] using moved
    · rcases State.finish_number finished with ⟨-, -, kept⟩ | ⟨-, fresh, -⟩
      · simp only [kept]
        refine state.imp_right ?_
        rintro ⟨v, found, fresh⟩
        refine ⟨v, ?_, fresh⟩
        simp only [split, List.mem_append, List.mem_cons, reduceCtorEq, false_or] at found ⊢
        exact found.imp_right .inr
      · exact .inr ⟨u, by simp, fresh⟩
    · rw [last_append, ← result]
      exact State.finish_result finished
  | deliver before after u split =>
    rw [Model.applyUpdate_eq]
    refine ⟨?_, ?_, ?_, ?_⟩
    · have moved : (before.filterMap Job.finished? ++ u :: after.filterMap Job.finished?).Perm
          (u :: (before.filterMap Job.finished? ++ after.filterMap Job.finished?)) := List.perm_middle
      refine delivered.trans ?_
      simpa [split, List.filterMap_cons, Job.finished?] using moved.append_left g.delivered
    · cases stale : u.stale with
      | false => exact .inl (by simp)
      | true =>
        simp only [if_true]
        refine state.imp_right ?_
        rintro ⟨v, found, fresh⟩
        refine ⟨v, ?_, fresh⟩
        have other : v ≠ u := by
          rintro rfl
          simp [stale] at fresh
        simpa [split, other] using found
    · exact result
    · rw [last_append, root]
      cases u.brings? <;> rfl

theorem counted_start (strict : Bool) (path source : Bytes) :
    Counted (start strict path source) { issued := [(start strict path source).model.value] } :=
  ⟨by simp, .refl _, rfl, by simp [start, jobsOf_eq], .inl rfl, .inl rfl⟩

theorem shown_start (strict : Bool) (path source : Bytes) :
    Shown (start strict path source) { issued := [(start strict path source).model.value] } :=
  ⟨.refl _, .inl rfl, rfl, rfl⟩

theorem run_invariants {d : Desk} {g : Log} (counted : Counted d g) (shown : Shown d g)
    {ms : List Move} (own : ∀ u, .message (.compiled u) ∉ ms) :
    Counted (d.run ms) (d.log g ms) ∧ Shown (d.run ms) (d.log g ms) := by
  induction ms generalizing d g with
  | nil => exact ⟨counted, shown⟩
  | cons m ms ih =>
    have turn : Turn d g (d.step m) (d.note g m) :=
      step_turn d g fun u same => own u (by simp [same])
    exact ih (counted.turn turn) (shown.turn turn) fun u found => own u (List.mem_cons_of_mem m found)

/-- Without a job left, the accepted text is the one that began last. -/
theorem Counted.last {d : Desk} {g : Log} (counted : Counted d g) (settled : d.jobs = []) :
    g.begun.getLast? = some d.model.session.state.source := by
  obtain ⟨asked, issued, -, -, accepted, newest⟩ := counted
  simp only [settled, List.filterMap_nil, List.append_nil, List.not_mem_nil, exists_false,
    or_false] at issued newest
  have positive : 0 < g.begun.length := by
    rw [← issued.length_eq]
    exact List.length_pos_iff.mpr asked
  rcases accepted with zero | ⟨k, seq, found⟩
  · omega
  · rw [List.getLast?_eq_getElem?, ← newest, seq]
    exact found

/-- Whatever the order in which the compiles of a run begin, finish and are delivered, with the last of
them delivered the editor has the session's state. Its text began last, its result was accepted last,
and the document beside it was delivered last. So the text is the one asked for last exactly when that
one began last, and the document is that of the result exactly when it was accepted last. -/
theorem settled_shows_last_begun (strict : Bool) (path source : Bytes) (ms : List Move)
    (own : ∀ u, .message (.compiled u) ∉ ms)
    (settled : ((start strict path source).run ms).jobs = []) :
    let m := ((start strict path source).run ms).model
    let g := (start strict path source).log { issued := [(start strict path source).model.value] } ms
    let accepted := (g.finished.filterMap Update.brings?).getLast?
    let arrived := (g.delivered.filterMap Update.brings?).getLast?
    g.begun.Perm g.issued ∧ g.delivered.Perm g.finished ∧ m.state = m.session.state ∧
    g.begun.getLast? = some m.state.source ∧ m.state.result = accepted ∧
    m.root = arrived.map Result.document ∧
    (g.issued.getLast? = some m.state.source ↔ g.issued.getLast? = g.begun.getLast?) ∧
    (m.root = m.state.result.map Result.document ↔
      arrived.map Result.document = accepted.map Result.document) := by
  intro m g accepted arrived
  obtain ⟨counted, shown⟩ : Counted _ g ∧ Shown _ g :=
    run_invariants (counted_start strict path source) (shown_start strict path source) own
  have began : g.begun.getLast? = some m.session.state.source := counted.last settled
  have state : m.state = m.session.state := by simpa [settled] using shown.state
  have result : m.state.result = accepted := by rw [state, shown.result]
  have root : m.root = arrived.map Result.document := shown.root
  refine ⟨?_, ?_, state, by rw [state, began], result, root, by rw [state, began], by rw [root, result]⟩
  · simpa [settled] using counted.issued.symm
  · simpa [settled] using shown.finished.symm

/-- Another text is loaded before the first compile begins; the newer compile is done first. -/
def overtaken : List Move :=
  [.message (.edited "b" none), .begin 0, .begin 1, .finish 1, .finish 0, .deliver 1, .deliver 0]

theorem overtaken_shows_newer :
    ((start false [] "a").run overtaken).jobs = [] ∧
    ((start false [] "a").log { issued := ["a"] } overtaken).issued.getLast? =
      some ((start false [] "a").run overtaken).model.state.source := by
  have own : ∀ u, .message (.compiled u) ∉ overtaken := by simp [overtaken]
  have settled : ((start false [] "a").run overtaken).jobs = [] :=
    List.length_eq_zero_iff.mp (by decide +kernel)
  have text : (start false [] "a").model.value = "a" := by decide +kernel
  have all := settled_shows_last_begun false [] "a" overtaken own settled
  rw [text] at all
  exact ⟨settled, all.2.2.2.2.2.2.1.mpr (by decide +kernel)⟩

/-- As before, but the newer compile has ended when the older one begins. -/
def crossed : List Move :=
  [.message (.edited "b" none), .begin 1, .finish 1, .begin 0, .finish 0, .deliver 0, .deliver 0]

/-- The editor is left with the older text, and with the document of the newer one. -/
theorem crossed_shows_older :
    let m := ((start false [] "a").run crossed).model
    let g := (start false [] "a").log { issued := [(start false [] "a").model.value] } crossed
    ((start false [] "a").run crossed).jobs = [] ∧ g.issued.getLast? = some (Bytes.ofString "b") ∧
    m.state.source = "a" ∧ m.root ≠ m.state.result.map Result.document := by
  refine ⟨List.length_eq_zero_iff.mp (by decide +kernel), by decide +kernel, by decide +kernel, ?_⟩
  intro same
  have names := congrArg (Option.map fun d => d.operands.map Function.name) same
  revert names
  decide +kernel

end Desk

end Editor

end DistanceField
