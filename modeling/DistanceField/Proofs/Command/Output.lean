import DistanceField.Command.Recompile
import DistanceField.Proofs.Compile.Mirror

/-! New code is handed over to be written, and the session goes on whether or not that succeeds. So the
output holds the current code unless the last write failed: a later compile to the same code is no
change, and is not handed over again. -/
namespace DistanceField

def Recompiled.news : Recompiled → List Bytes
  | .changed _ r => [r.code]
  | .failed _ | .unchanged _ => []

namespace Session

theorem call_changed {s : Session} {c : Call} {u : Update} (answer : (s.call c).1 = some u)
    (changed : u.changed = true) : u.stale = false ∧ u.error = none ∧ u.result.isSome := by
  obtain ⟨n, -, finished⟩ := call_answered answer
  rcases State.finish_cases finished with
    ⟨-, -, same, -⟩ | ⟨-, -, -, same, -⟩ | ⟨-, -, current, fine, r, -, brings, -⟩
  · simp [same] at changed
  · simp [same] at changed
  · simp [current, fine, brings]

def recompileCalls : Except Fault Bytes → List Call
  | .ok source => [.submit false source]
  | .error _ => []

theorem recompile_session (s : Session) (path : Bytes) (read : Except Fault Bytes) :
    (s.recompile path read).2.2 = s.run (recompileCalls read) := by
  cases read <;> rfl

/-- A recompile tells of the codes that a consumer of its updates takes. -/
theorem recompile_news (s : Session) (path : Bytes) (read : Except Fault Bytes) :
    (s.recompile path read).2.1.news = s.taken (recompileCalls read) := by
  cases read with
  | error e => rfl
  | ok source =>
    have answer : (s.call (.submit false source)).1 = some (s.submit false source).1 := rfl
    have known := call_changed answer
    simp only [recompile, recompileCalls, taken, answer]
    generalize (s.submit false source).1 = u at known
    cases changed : u.changed with
    | false =>
      cases failed : u.error <;> cases result : u.result <;>
        simp [Update.news?, changed, Recompiled.news]
    | true =>
      obtain ⟨stale, fine, some⟩ := known changed
      obtain ⟨r, result⟩ := Option.isSome_iff_exists.mp some
      simp [Update.news?, changed, stale, fine, result, Recompiled.news]

end Session

namespace Command

instance {σ : Type} {m : Type → Type} [Host m] : Host (StateT σ m) where
  read path := StateT.lift (Host.read path)
  isDirectory path := StateT.lift (Host.isDirectory path)
  write path content := StateT.lift (Host.write path content)
  append path content := StateT.lift (Host.append path content)
  replace path content := StateT.lift (Host.replace path content)
  makeAll path := StateT.lift (Host.makeAll path)
  input := StateT.lift Host.input
  print b := StateT.lift (Host.print b)
  report b := StateT.lift (Host.report b)
  clock := StateT.lift Host.clock

/-- A code that was handed over, and why it could not be written. -/
structure Handover where
  code : Bytes
  failure : Option Fault

/-- What the output holds: the code that was written last. -/
def content (ledger : List Handover) : Option Bytes :=
  (ledger.filter (·.failure.isNone)).getLast?.map Handover.code

/-- The code handed over last could not be written, and before it the output held another. -/
def Behind (ledger : List Handover) : Prop :=
  ∃ before h, ledger = before ++ [h] ∧ h.failure.isSome ∧ content before ≠ some h.code

theorem content_append (before : List Handover) (h : Handover) :
    content (before ++ [h]) = if h.failure.isNone then some h.code else content before := by
  cases failure : h.failure <;> simp [content, failure]

theorem content_eq_iff (ledger : List Handover) :
    content ledger = ledger.getLast?.map Handover.code ↔ ¬ Behind ledger := by
  induction ledger using List.reverseRecOn with
  | nil => simp [content, Behind]
  | append_singleton before h =>
    have behind : Behind (before ++ [h]) ↔ h.failure.isSome ∧ content before ≠ some h.code := by
      constructor
      · rintro ⟨before', h', same, failed⟩
        obtain ⟨rfl, last⟩ := List.append_inj' same rfl
        cases last
        exact failed
      · intro failed
        exact ⟨before, h, rfl, failed⟩
    rw [behind, content_append]
    cases failure : h.failure <;> simp

abbrev Noted := StateT (List Handover) (StateM Machine)

/-- Enters new code into the ledger, and fails if the code cannot be written. -/
def enter (failure : Option Fault) (_ : Update) (r : Result) : ExceptT Fault Noted Unit := do
  modify (· ++ [⟨r.code, failure⟩])
  if let some e := failure then throw e

/-- What holds of the outcome and the ledger when a task ends, on every machine. -/
def Ends {α : Type} (x : Noted α) (ledger : List Handover) (goal : α → List Handover → Prop) :
    Prop :=
  ∀ w, goal ((x.run ledger).run w).1.1 ((x.run ledger).run w).1.2

section Ends

variable {α β : Type} {ledger : List Handover}

theorem ends_pure {a : α} {goal : α → List Handover → Prop} (holds : goal a ledger) :
    Ends (pure a) ledger goal := fun _ => holds

theorem ends_lift {x : StateM Machine α} {goal : α → List Handover → Prop}
    (holds : ∀ a, goal a ledger) : Ends (StateT.lift x) ledger goal := fun _ => holds _

theorem ends_bind {x : Noted α} {f : α → Noted β} {goal : β → List Handover → Prop}
    (first : Ends x ledger fun a l => Ends (f a) l goal) : Ends (x >>= f) ledger goal :=
  fun w => first w _

theorem ends_log (c : Context) (r : Log.Record) {goal : Unit → List Handover → Prop}
    (holds : goal () ledger) : Ends (c.log r) ledger goal :=
  ends_lift (x := Host.report (c.logger.write c.caller r)) fun _ => holds

theorem ends_each (c : Context) (rs : List Log.Record) {goal : PUnit → List Handover → Prop}
    (holds : goal PUnit.unit ledger) :
    Ends (forIn rs PUnit.unit fun r _ => do
      (c.log r : Noted Unit)
      pure (ForInStep.yield PUnit.unit)) ledger goal := by
  induction rs with
  | nil => exact ends_pure holds
  | cons r rs ih =>
    rw [List.forIn_cons, bind_assoc]
    refine ends_bind (ends_log c r ?_)
    rw [pure_bind]
    exact ih

theorem ends_ask {ε : Type} {x : StateM Machine α} {f : α → ExceptT ε Noted β}
    {goal : Except ε β → List Handover → Prop} (rest : ∀ a, Ends (f a).run ledger goal) :
    Ends (ExceptT.lift (StateT.lift x) >>= f).run ledger goal := fun _ => rest _ _

theorem ends_readSource (c : Context) (path : Bytes)
    {goal : Except Fault Bytes → List Handover → Prop} (holds : ∀ read, goal read ledger) :
    Ends (c.readSource path).run ledger goal := by
  unfold Context.readSource
  extract_lets done
  have rest (source : Bytes) : Ends (done source).run ledger goal :=
    ends_ask (x := Host.report _) fun _ => ends_pure (holds (.ok source))
  split
  · exact ends_ask rest
  · refine ends_ask fun read => ?_
    cases read with
    | ok b => exact rest b
    | error e => exact ends_pure (holds (.error (Context.readFault path e)))

theorem ends_enter (failure : Option Fault) (u : Update) (r : Result)
    {goal : Except Fault Unit → List Handover → Prop}
    (holds : goal (failure.elim (.ok ()) .error) (ledger ++ [⟨r.code, failure⟩])) :
    Ends (enter failure u r).run ledger goal := by
  cases failure with
  | none => exact fun _ => holds
  | some e => exact fun _ => holds

end Ends

def ending (failure : Option Fault) : Recompiled → Except Fault Unit
  | .failed e => .error e
  | .unchanged _ => .ok ()
  | .changed _ _ => failure.elim (.ok ()) .error

/-- The outcome and the ledger when something was read and submitted: new code is entered, and nothing
else is. -/
def Accounts (s : Session) (path : Bytes) (failure : Option Fault) (ledger : List Handover)
    (a : Except Fault Unit × Option Update × Session) (l : List Handover) : Prop :=
  ∃ read, a.1 = ending failure (s.recompile path read).2.1 ∧ a.2.2 = (s.recompile path read).2.2 ∧
    l = ledger ++ (s.recompile path read).2.1.news.map (⟨·, failure⟩)

theorem ends_recompile (c : Context) (s : Session) (path : Bytes) (failure : Option Fault)
    (ledger : List Handover) :
    Ends (recompile c s path (enter failure)) ledger (Accounts s path failure ledger) := by
  unfold recompile
  refine ends_bind (ends_lift fun start => ends_bind (ends_readSource c path fun read => ?_))
  extract_lets submit
  have submitted : Ends (submit ()) ledger (Accounts s path failure ledger) := by
    dsimp -zeta only [submit]
    refine ends_bind (ends_lift fun now => ?_)
    extract_lets elapsed finish
    have finished : Ends (finish ()) ledger (Accounts s path failure ledger) := by
      simp only [finish]
      cases outcome : (s.recompile path read).2.1 with
      | failed e => exact ends_pure ⟨read, by simp [outcome, ending, Recompiled.news]⟩
      | unchanged v =>
        refine ends_bind (ends_log c _ (ends_pure ⟨read, ?_⟩))
        simp [outcome, ending, Recompiled.news]
      | changed v r =>
        refine ends_bind (ends_log c _ (ends_bind (ends_enter failure v r (ends_pure ⟨read, ?_⟩))))
        simp [outcome, ending, Recompiled.news]
    split
    · exact ends_bind (ends_log c _ finished)
    · exact finished
  split
  · split
    · exact ends_bind (ends_each c _ submitted)
    · exact submitted
  · exact submitted

/-- One recompile: the machine that it finds, and why new code cannot be written. -/
structure Round where
  machine : Machine
  failure : Option Fault

structure Account where
  session : Session
  ledger : List Handover := []

namespace Account

variable (c : Context) (path : Bytes)

def round (a : Account) (r : Round) : Except Fault Unit × Account :=
  let ((answer, _, session), ledger) :=
    (((recompile c a.session path (enter r.failure)).run a.ledger).run r.machine).1
  (answer, ⟨session, ledger⟩)

def run (a : Account) (rs : List Round) : Account := rs.foldl (fun a r => (a.round c path r).2) a

/-- A round is at most one submission, whose news are entered. -/
theorem round_calls (a : Account) (r : Round) :
    ∃ cs : List Call, (∀ c ∈ cs, c.Sealed) ∧ (a.round c path r).2.session = a.session.run cs ∧
      (a.round c path r).2.ledger.map Handover.code =
        a.ledger.map Handover.code ++ a.session.taken cs := by
  obtain ⟨read, -, session, ledger⟩ :=
    ends_recompile c a.session path r.failure a.ledger r.machine
  refine ⟨Session.recompileCalls read, ?_, ?_, ?_⟩
  · cases read <;> simp [Session.recompileCalls, Call.Sealed]
  · rw [← Session.recompile_session a.session path read]
    exact session
  · rw [← Session.recompile_news a.session path read]
    have entered : (a.round c path r).2.ledger = _ := ledger
    simp [entered, Function.comp_def]

theorem run_calls (a : Account) (rs : List Round) :
    ∃ cs : List Call, (∀ c ∈ cs, c.Sealed) ∧ (a.run c path rs).session = a.session.run cs ∧
      (a.run c path rs).ledger.map Handover.code =
        a.ledger.map Handover.code ++ a.session.taken cs := by
  induction rs generalizing a with
  | nil => exact ⟨[], by simp, rfl, by simp [run, Session.taken]⟩
  | cons r rs ih =>
    obtain ⟨cs, first, session, ledger⟩ := a.round_calls c path r
    obtain ⟨ds, later, last, entered⟩ := ih (a.round c path r).2
    have next : a.run c path (r :: rs) = (a.round c path r).2.run c path rs := rfl
    refine ⟨cs ++ ds, ?_, ?_, ?_⟩
    · intro call found
      exact (List.mem_append.mp found).elim (first call) (later call)
    · rw [next, last, session, Session.run_append]
    · rw [next, entered, ledger, session, Session.taken_append, List.append_assoc]

/-- After any recompiles, of any sources and with writes that fail at will, the code handed over last is
the current one. So the output holds the current code, unless the last write failed and the output had
held another code. -/
theorem content_current_iff (strict : Bool) (cache : Option Cache)
    (stored : ∀ c, cache = some c → c.Sealed) (rounds : List Round) :
    let a := run c path ⟨.fresh strict cache, []⟩ rounds
    a.ledger.getLast?.map Handover.code = a.session.current.map Result.code ∧
      (content a.ledger = a.session.current.map Result.code ↔ ¬ Behind a.ledger) := by
  intro a
  obtain ⟨cs, own, session, ledger⟩ := run_calls c path ⟨.fresh strict cache, []⟩ rounds
  have last : a.ledger.getLast?.map Handover.code = a.session.current.map Result.code := by
    rw [← List.getLast?_map, ledger, session]
    exact (Session.taken_current stored own).1
  exact ⟨last, by rw [← last, content_eq_iff]⟩

def still : Context :=
  ⟨⟨⟨[], []⟩, [], id, [], [], []⟩, .zero, false⟩

def holding (source : Bytes) : Machine := { disk := Disk.plant {} "m.csg" source }

def full : Fault := .plain "disk full"

/-- A write that failed is made up for when the source goes back to what was written before. -/
theorem content_current_again :
    let rounds : List Round := [⟨holding "a", none⟩, ⟨holding "a a", some full⟩, ⟨holding "a", none⟩]
    let a := run still "m.csg" ⟨.fresh false none, []⟩ rounds
    a.ledger.length = 3 ∧ content a.ledger = a.session.current.map Result.code := by
  intro rounds a
  have known : a.ledger.length = 3 ∧ (a.ledger.getLast?.bind Handover.failure).isNone := by
    decide +kernel
  refine ⟨known.1, (content_current_iff still "m.csg" false none (by simp) rounds).2.mpr ?_⟩
  rintro ⟨before, h, split, failed, -⟩
  have written := known.2
  rw [split] at written
  simp_all

/-- A write that failed is not made up for when the same source is compiled again: the recompile ends
well, and nothing was ever written. -/
theorem failed_write_forgotten :
    let a := run still "m.csg" ⟨.fresh false none, []⟩ [⟨holding "a", some full⟩]
    let next := a.round still "m.csg" ⟨holding "a", none⟩
    next.1.isOk = true ∧ content next.2.ledger ≠ next.2.session.current.map Result.code := by
  decide +kernel

end Account

end Command

end DistanceField
