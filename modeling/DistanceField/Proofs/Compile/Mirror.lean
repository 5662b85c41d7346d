import DistanceField.Proofs.Compile.Sealed

/-! A consumer that takes the code of exactly those updates that report a change always has the current
code, and never takes the same text twice in a row. -/
namespace DistanceField

open Notice

/-- Between sealed results the hash decides nothing. -/
theorem differs_iff {old : Option Result} {new : Result} (before : ∀ r, old = some r → r.Sealed)
    (after : new.Sealed) : differs old new = true ↔ old.map Result.code ≠ some new.code := by
  cases old with
  | none => simp [differs]
  | some r =>
    have hashes : r.code = new.code → r.hash = new.hash := by
      intro same
      rw [before r rfl, after, same]
    by_cases same : r.code = new.code
    · simp [differs, same, hashes same]
    · simp [differs, same]

/-- What a consumer takes from an update: its code, if that has changed. -/
def Update.news? (u : Update) : Option Bytes := if u.changed then u.result.map Result.code else none

namespace Session

/-- The codes that a consumer takes in a run. It keeps the last of them. -/
def taken (s : Session) : List Call → List Bytes
  | [] => []
  | c :: rest => ((s.call c).1.bind Update.news?).toList ++ (s.call c).2.taken rest

theorem run_append (s : Session) (cs ds : List Call) : s.run (cs ++ ds) = (s.run cs).run ds :=
  List.foldl_append

theorem taken_append (s : Session) (cs ds : List Call) :
    s.taken (cs ++ ds) = s.taken cs ++ (s.run cs).taken ds := by
  induction cs generalizing s with
  | nil => rfl
  | cons c cs ih => simp [taken, ih, run]

theorem call_answered {s : Session} {c : Call} {u : Update} (answer : (s.call c).1 = some u) :
    ∃ n, s.notice? c = some n ∧
      (u, (s.call c).2.state) = s.state.finish n.seq n.source n.result n.error := by
  cases told : s.notice? c with
  | some n =>
    obtain ⟨v, also, finished⟩ := call_notice told
    cases answer.symm.trans also
    exact ⟨n, rfl, finished⟩
  | none =>
    cases c with
    | begin => cases answer
    | finish => cases told
    | submit canceled source =>
      simp only [notice?] at told
      split at told <;> cases told

theorem call_unanswered {s : Session} {c : Call} (silent : (s.call c).1 = none) :
    (s.call c).2.current = s.current := by
  cases c with
  | begin => rfl
  | finish => cases silent
  | submit => cases silent

/-- An answer leaves the current result alone, or brings a new one. -/
theorem answer_cases {s : Session} {c : Call} {u : Update} (answer : (s.call c).1 = some u) :
    (u.changed = false ∧ (s.call c).2.current = s.current) ∨
    ∃ n r, s.notice? c = some n ∧ n.success? = some r ∧ u.result = some r ∧
      u.changed = differs s.current r ∧ (s.call c).2.current = some r := by
  obtain ⟨n, told, finished⟩ := call_answered answer
  rcases State.finish_cases finished with
    ⟨-, -, same, kept⟩ | ⟨-, -, -, same, -, -, kept⟩ | ⟨-, -, -, -, r, success, brings, changed, new⟩
  · exact .inl ⟨same, congrArg State.result kept⟩
  · exact .inl ⟨same, kept⟩
  · exact .inr ⟨n, r, told, success, brings, changed, new⟩

structure Trusted (s : Session) : Prop where
  stored : s.Sealed
  held : ∀ r, s.current = some r → r.Sealed

theorem Trusted.call {s : Session} (trusted : s.Trusted) {c : Call} (own : c.Sealed) :
    (s.call c).2.Trusted := by
  obtain ⟨stored, good⟩ := trusted.stored.call own
  refine ⟨stored, ?_⟩
  cases answer : (s.call c).1 with
  | none => simpa [call_unanswered answer] using trusted.held
  | some u =>
    rcases answer_cases answer with ⟨-, kept⟩ | ⟨n, r, told, success, -, -, new⟩
    · simpa [kept] using trusted.held
    · simpa [new] using good n told r success

/-- A call reports a change exactly when it changes the current code, and then it brings that code. -/
theorem Trusted.changed_iff {s : Session} (trusted : s.Trusted) {c : Call} (own : c.Sealed)
    {u : Update} (answer : (s.call c).1 = some u) :
    (u.changed = true ↔ (s.call c).2.current.map Result.code ≠ s.current.map Result.code) ∧
      (u.changed = true → ∃ r, u.result = some r ∧ (s.call c).2.current = some r) := by
  rcases answer_cases answer with ⟨same, kept⟩ | ⟨n, r, told, success, brings, changed, new⟩
  · simp [same, kept]
  · have closed := (trusted.stored.call own).2 n told r success
    refine ⟨?_, fun _ => ⟨r, brings, new⟩⟩
    rw [changed, differs_iff trusted.held closed, new]
    exact ne_comm

/-- What a consumer takes in a call, if anything, is the new code; otherwise the code stays. -/
theorem Trusted.news {s : Session} (trusted : s.Trusted) {c : Call} (own : c.Sealed) :
    ((s.call c).1.bind Update.news? = none ∧
      (s.call c).2.current.map Result.code = s.current.map Result.code) ∨
    ∃ code, (s.call c).1.bind Update.news? = some code ∧
      (s.call c).2.current.map Result.code = some code ∧ s.current.map Result.code ≠ some code := by
  cases answer : (s.call c).1 with
  | none => exact .inl ⟨rfl, by rw [call_unanswered answer]⟩
  | some u =>
    obtain ⟨differs, brings⟩ := trusted.changed_iff own answer
    cases changed : u.changed with
    | false => exact .inl ⟨by simp [Update.news?, changed], by simpa [changed] using differs⟩
    | true =>
      obtain ⟨r, result, current⟩ := brings changed
      refine .inr ⟨r.code, by simp [Update.news?, changed, result], by simp [current], ?_⟩
      have other := differs.mp changed
      simpa [current, eq_comm] using other

theorem Trusted.run {s : Session} (trusted : s.Trusted) {cs : List Call}
    (own : ∀ c ∈ cs, c.Sealed) : (s.run cs).Trusted := by
  induction cs generalizing s with
  | nil => exact trusted
  | cons c cs ih =>
    obtain ⟨here, later⟩ := List.forall_mem_cons.mp own
    exact ih (trusted.call here) later

theorem trusted_fresh (strict : Bool) {cache : Option Cache}
    (stored : ∀ c, cache = some c → c.Sealed) : (fresh strict cache).Trusted :=
  ⟨stored, by rintro _ ⟨⟩⟩

/-- What was taken last is the current code, and no two texts taken one after the other are the same. -/
theorem taken_current {strict : Bool} {cache : Option Cache}
    (stored : ∀ c, cache = some c → c.Sealed) {cs : List Call} (own : ∀ c ∈ cs, c.Sealed) :
    ((fresh strict cache).taken cs).getLast? =
      ((fresh strict cache).run cs).current.map Result.code ∧
    ((fresh strict cache).taken cs).IsChain (· ≠ ·) := by
  -- from the end: the last call either leaves both sides alone or sets them to the same code
  induction cs using List.reverseRecOn with
  | nil => exact ⟨rfl, .nil⟩
  | append_singleton cs c ih =>
    have before : ∀ c ∈ cs, c.Sealed := fun c found => own c (List.mem_append_left _ found)
    obtain ⟨last, chain⟩ := ih before
    have trusted := (trusted_fresh strict stored).run before
    have next : (fresh strict cache).run (cs ++ [c]) =
        (((fresh strict cache).run cs).call c).2 := run_append _ cs [c]
    have more : (fresh strict cache).taken (cs ++ [c]) = (fresh strict cache).taken cs ++
        ((((fresh strict cache).run cs).call c).1.bind Update.news?).toList := by
      simp [taken_append, taken]
    rw [next, more]
    rcases trusted.news (own c (by simp)) with ⟨none, kept⟩ | ⟨code, some, current, other⟩
    · rw [none, kept]
      simpa using ⟨last, chain⟩
    · rw [some, current]
      rw [← last] at other
      refine ⟨by simp, List.isChain_append.mpr ⟨chain, .singleton _, ?_⟩⟩
      rintro a found b ⟨⟩ rfl
      exact other found

/-- Over any calls with compiled results, a consumer that starts with nothing and takes the code of
each update that reports a change has the current code after every call. A change is reported exactly
when the current code has become another one, so that no text is taken twice in a row. -/
theorem changes_carry_code (strict : Bool) (cache : Option Cache) (calls : List Call)
    (stored : ∀ c, cache = some c → c.Sealed) (reported : ∀ c ∈ calls, c.Sealed) :
    let s := (fresh strict cache).run calls
    let texts := (fresh strict cache).taken calls
    texts.getLast? = s.current.map Result.code ∧ texts.IsChain (· ≠ ·) ∧
    ∀ c u, c.Sealed → (s.call c).1 = some u →
      (u.changed = true ↔ (s.call c).2.current.map Result.code ≠ s.current.map Result.code) ∧
      (u.changed = true → ∃ r, u.result = some r ∧ s.current.map Result.code ≠ some r.code) := by
  intro s texts
  have trusted : s.Trusted := (trusted_fresh strict stored).run reported
  obtain ⟨last, chain⟩ := taken_current stored reported
  refine ⟨last, chain, ?_⟩
  intro c u own answer
  obtain ⟨differs, brings⟩ := trusted.changed_iff own answer
  refine ⟨differs, ?_⟩
  intro changed
  obtain ⟨r, result, current⟩ := brings changed
  have other := differs.mp changed
  rw [current] at other
  exact ⟨r, result, other.symm⟩

/-- A failure, the same code again, a call that is called off and a late notice between two codes. -/
def restless : List Call :=
  [.submit false "a", .submit false "(", .submit false "b", .begin, .submit false "a a",
    .finish 4 "b" none none, .finish 6 "b" none none]

theorem restless_followed :
    (∀ c ∈ restless, c.Sealed) ∧ ((fresh false none).taken restless).length = 2 ∧
    ((fresh false none).taken restless).getLast? =
      ((fresh false none).run restless).current.map Result.code ∧
    ((fresh false none).run restless).state.ok = false := by
  have reported : ∀ c ∈ restless, c.Sealed := by
    simp [restless, Call.Sealed]
  have all := changes_carry_code false none restless (by simp) reported
  exact ⟨reported, by decide +kernel, all.1, by decide +kernel⟩

end Session

end DistanceField
