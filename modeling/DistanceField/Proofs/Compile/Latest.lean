import Mathlib
import DistanceField.Compile.Session

/-! The state of a session is a function of the outcomes reported to it: the newest one wins. -/
namespace DistanceField

structure Notice where
  seq : Nat
  source : Bytes
  result : Option Result
  error : Option Fault

namespace Notice

/-- An error wins over a result; with neither of them the compile was called off. -/
def failure? (n : Notice) : Option Fault :=
  match n.error, n.result with
  | some e, _ => some e
  | none, some _ => none
  | none, none => some (Fault.ofSource Fault.canceled)

def success? (n : Notice) : Option Result := if n.error.isSome then none else n.result

/-- The largest number presented, at least zero. -/
def top (h : List Notice) : Nat := (h.map seq).foldl max 0

/-- The first to present the largest number; none while that is zero. -/
def newest? (h : List Notice) : Option Notice :=
  if top h = 0 then none else h.find? (fun n => n.seq == top h)

/-- The notices with a larger number than all before them. -/
def accepted (h : List Notice) : List Notice :=
  (List.range h.length).filterMap fun i => h[i]?.filter fun n => top (h.take i) < n.seq

theorem top_append (h : List Notice) (n : Notice) : top (h ++ [n]) = max (top h) n.seq := by
  simp [top]

theorem le_top {h : List Notice} {n : Notice} (found : n ∈ h) : n.seq ≤ top h := by
  induction h using List.reverseRecOn with
  | nil => cases found
  | append_singleton h last ih =>
    rw [top_append]
    rcases List.mem_append.mp found with earlier | same
    · exact (ih earlier).trans (le_max_left ..)
    · rw [List.mem_singleton.mp same]
      exact le_max_right ..

theorem top_presented {h : List Notice} (positive : top h ≠ 0) : ∃ n ∈ h, n.seq = top h := by
  induction h using List.reverseRecOn with
  | nil => exact absurd rfl positive
  | append_singleton h last ih =>
    rw [top_append] at positive ⊢
    rcases Nat.le_total last.seq (top h) with old | new
    · rw [max_eq_left old] at positive ⊢
      obtain ⟨n, found, same⟩ := ih positive
      exact ⟨n, List.mem_append_left _ found, same⟩
    · exact ⟨last, List.mem_append_right _ (List.mem_singleton_self _), (max_eq_right new).symm⟩

theorem newest?_append (h : List Notice) (n : Notice) :
    newest? (h ++ [n]) = if top h < n.seq then some n else newest? h := by
  unfold newest?
  rw [top_append]
  by_cases new : top h < n.seq
  · have none : h.find? (fun m => m.seq == n.seq) = none := by
      rw [List.find?_eq_none]
      intro m found same
      have := le_top found
      simp only [beq_iff_eq] at same
      omega
    rw [max_eq_right new.le, if_neg (by omega), if_pos new, List.find?_append, none]
    simp
  · rw [max_eq_left (not_lt.mp new), if_neg new]
    split
    · rfl
    · rename_i positive
      obtain ⟨m, found, same⟩ := top_presented positive
      have some : (h.find? (fun m => m.seq == top h)).isSome := by
        rw [List.find?_isSome]
        exact ⟨m, found, by simpa using same⟩
      rw [List.find?_append, Option.or_of_isSome some]

theorem accepted_append (h : List Notice) (n : Notice) :
    accepted (h ++ [n]) = accepted h ++ (if top h < n.seq then [n] else []) := by
  have before : ∀ i ∈ List.range h.length,
      ((h ++ [n])[i]?.filter fun m => top ((h ++ [n]).take i) < m.seq) =
        h[i]?.filter fun m => top (h.take i) < m.seq := by
    intro i inside
    have less := List.mem_range.mp inside
    rw [List.getElem?_append_left less, List.take_append_of_le_length less.le]
  unfold accepted
  rw [List.length_append, List.length_singleton, List.range_succ, List.filterMap_append,
    List.filterMap_congr before]
  congr 1
  rw [List.filterMap_cons, List.filterMap_nil, List.getElem?_concat_length, List.take_left' rfl]
  by_cases new : top h < n.seq
  · simp [Option.filter, new]
  · simp [Option.filter, new]

theorem accepted_last (h : List Notice) : (accepted h).getLast? = newest? h := by
  induction h using List.reverseRecOn with
  | nil => rfl
  | append_singleton h n ih =>
    rw [accepted_append, newest?_append]
    split
    · rw [List.getLast?_concat]
    · rw [List.append_nil, ih]

theorem success?_eq_none_iff (n : Notice) : n.success? = none ↔ n.failure?.isSome = true := by
  unfold success? failure?
  cases n.error <;> cases n.result <;> simp

end Notice

open Notice

structure Reflects (h : List Notice) (s : State) : Prop where
  seq : s.seq = top h
  source : s.source = (newest? h).elim [] Notice.source
  error : s.error = (newest? h).bind failure?
  result : s.result = ((accepted h).filterMap success?).getLast?
  ok : s.ok = true ↔ ∃ n, (accepted h).getLast? = some n ∧ n.success?.isSome

def State.notice (s : State) (n : Notice) : State := (s.finish n.seq n.source n.result n.error).2

theorem State.notice_old {s : State} {n : Notice} (old : n.seq ≤ s.seq) : s.notice n = s := by
  rw [State.notice, State.finish, if_pos old]

theorem State.notice_new {s : State} {n : Notice} (new : s.seq < n.seq) :
    s.notice n = ⟨n.seq, n.source, n.success?.or s.result, n.failure?⟩ := by
  obtain ⟨seq, source, result, error⟩ := n
  rw [State.notice, State.finish, if_neg (not_le.mpr new)]
  cases error <;> cases result <;> rfl

theorem State.finish_cases {s t : State} {n : Notice} {u : Update}
    (finished : (u, t) = s.finish n.seq n.source n.result n.error) :
    (n.seq ≤ s.seq ∧ u.stale = true ∧ u.changed = false ∧ t = s) ∨
    (s.seq < n.seq ∧ (t.seq = n.seq ∧ t.source = n.source) ∧ u.stale = false ∧ u.changed = false ∧
      n.success? = none ∧ u.error.isSome ∧ t.result = s.result) ∨
    (s.seq < n.seq ∧ (t.seq = n.seq ∧ t.source = n.source) ∧ u.stale = false ∧ u.error = none ∧
      ∃ r, n.success? = some r ∧ u.result = some r ∧ u.changed = differs s.result r ∧
        t.result = some r) := by
  obtain ⟨seq, source, result, error⟩ := n
  by_cases old : seq ≤ s.seq
  · rw [State.finish, if_pos old] at finished
    cases finished
    exact .inl ⟨old, rfl, rfl, rfl⟩
  · have new := not_le.mp old
    rw [State.finish, if_neg old] at finished
    cases error with
    | some e =>
      cases finished
      exact .inr (.inl ⟨new, ⟨rfl, rfl⟩, rfl, rfl, rfl, rfl, rfl⟩)
    | none =>
      cases result with
      | none =>
        cases finished
        exact .inr (.inl ⟨new, ⟨rfl, rfl⟩, rfl, rfl, rfl, rfl, rfl⟩)
      | some r =>
        cases finished
        exact .inr (.inr ⟨new, ⟨rfl, rfl⟩, rfl, rfl, r, rfl, rfl, rfl, rfl⟩)

def Update.brings? (u : Update) : Option Result :=
  if u.stale || u.error.isSome then none else u.result

theorem State.finish_number {s t : State} {n : Notice} {u : Update}
    (finished : (u, t) = s.finish n.seq n.source n.result n.error) :
    (n.seq ≤ s.seq ∧ u.stale = true ∧ t = s) ∨
    (s.seq < n.seq ∧ u.stale = false ∧ t.seq = n.seq ∧ t.source = n.source) := by
  rcases State.finish_cases finished with
    ⟨old, stale, -, same⟩ | ⟨new, told, fresh, -⟩ | ⟨new, told, fresh, -⟩
  · exact .inl ⟨old, stale, same⟩
  · exact .inr ⟨new, fresh, told⟩
  · exact .inr ⟨new, fresh, told⟩

theorem State.finish_result {s t : State} {n : Notice} {u : Update}
    (finished : (u, t) = s.finish n.seq n.source n.result n.error) :
    t.result = u.brings?.or s.result := by
  rcases State.finish_cases finished with
    ⟨-, stale, -, same⟩ | ⟨-, -, -, -, -, failed, kept⟩ | ⟨-, -, fresh, fine, r, -, result, -, new⟩
  · simp [Update.brings?, stale, same]
  · simp [Update.brings?, failed, kept]
  · simp [Update.brings?, fresh, fine, result, new]

theorem reflects_nil : Reflects [] {} :=
  ⟨rfl, rfl, rfl, rfl, by simp [State.ok, accepted]⟩

theorem Reflects.step {h : List Notice} {s : State} (so : Reflects h s) (n : Notice) :
    Reflects (h ++ [n]) (s.notice n) := by
  by_cases new : top h < n.seq
  · have next := State.notice_new (so.seq ▸ new : s.seq < n.seq)
    have last : (accepted (h ++ [n])).getLast? = some n := by
      rw [accepted_last, newest?_append, if_pos new]
    rw [next]
    refine ⟨?_, ?_, ?_, ?_, ?_⟩
    · rw [top_append, max_eq_right new.le]
    · rw [newest?_append, if_pos new]
      rfl
    · rw [newest?_append, if_pos new]
      rfl
    · rw [accepted_append, if_pos new, List.filterMap_append, so.result]
      cases good : n.success? with
      | none => simp [good]
      | some r => simp [good]
    · rw [last]
      have either := success?_eq_none_iff n
      cases good : n.success? with
      | none =>
        have bad : n.failure?.isSome = true := either.mp good
        obtain ⟨e, failed⟩ := Option.isSome_iff_exists.mp bad
        simp [State.ok, failed, good]
      | some r =>
        have fine : n.failure? = none := by
          cases failed : n.failure? with
          | none => rfl
          | some e =>
            have := either.mpr (by rw [failed]; rfl)
            rw [good] at this
            cases this
        simp [State.ok, fine, good]
  · have same := State.notice_old (so.seq ▸ not_lt.mp new : n.seq ≤ s.seq)
    rw [same]
    have kept : accepted (h ++ [n]) = accepted h := by
      rw [accepted_append, if_neg new, List.append_nil]
    have first : newest? (h ++ [n]) = newest? h := by
      rw [newest?_append, if_neg new]
    refine ⟨?_, ?_, ?_, ?_, ?_⟩
    · rw [top_append, max_eq_left (not_lt.mp new), so.seq]
    · rw [first, so.source]
    · rw [first, so.error]
    · rw [kept, so.result]
    · rw [kept, so.ok]

theorem reflects_run (h : List Notice) : Reflects h (h.foldl State.notice {}) := by
  -- from the end, as the state is that after the last notice
  induction h using List.reverseRecOn with
  | nil => exact reflects_nil
  | append_singleton h n ih =>
    rw [List.foldl_append]
    exact ih.step n

theorem find?_seq {h : List Notice} (distinct : (h.map Notice.seq).Nodup) {n : Notice}
    (found : n ∈ h) {seq : Nat} (presents : n.seq = seq) :
    h.find? (fun m => m.seq == seq) = some n := by
  cases first : h.find? (fun m => m.seq == seq) with
  | none =>
    have none := List.find?_eq_none.mp first n found
    exact absurd (by simpa using presents) none
  | some m =>
    have here := List.mem_of_find?_eq_some first
    have equal : m.seq = seq := by simpa using List.find?_some first
    rw [List.inj_on_of_nodup_map distinct here found (equal.trans presents.symm)]

section Order

variable {h k : List Notice} (same : k.Perm h)

include same

theorem top_perm : top k = top h := by
  apply le_antisymm
  · by_cases positive : top k = 0
    · omega
    · obtain ⟨n, found, seq⟩ := top_presented positive
      exact seq ▸ le_top (same.subset found)
  · by_cases positive : top h = 0
    · omega
    · obtain ⟨n, found, seq⟩ := top_presented positive
      exact seq ▸ le_top (same.symm.subset found)

variable (distinct : (h.map Notice.seq).Nodup)

include distinct

/-- Among notices with distinct numbers the newest does not depend on their order. -/
theorem newest?_perm : newest? k = newest? h := by
  unfold newest?
  rw [top_perm same]
  split
  · rfl
  · rename_i positive
    obtain ⟨n, found, seq⟩ := top_presented positive
    have again : (k.map Notice.seq).Nodup := (same.map _).nodup_iff.mpr distinct
    rw [find?_seq distinct found seq, find?_seq again (same.symm.subset found) seq]

end Order

theorem Reflects.result_of_newest {h : List Notice} {s : State} (so : Reflects h s) {n : Notice}
    {r : Result} (newest : newest? h = some n) (good : n.success? = some r) : s.result = some r := by
  have last : (accepted h).getLast? = some n := (accepted_last h).trans newest
  obtain ⟨before, split⟩ := List.getLast?_eq_some_iff.mp last
  rw [so.result, split, List.filterMap_append]
  simp [good]

theorem Reflects.result_of_nothing {h : List Notice} {s : State} (so : Reflects h s)
    (nothing : newest? h = none) : s.result = none := by
  rw [← accepted_last, List.getLast?_eq_none_iff] at nothing
  rw [so.result, nothing]
  rfl

theorem Reflects.result_of_perm {h k : List Notice} {s t : State} (so : Reflects h s)
    (other : Reflects k t) (perm : k.Perm h) (distinct : (h.map Notice.seq).Nodup) {n : Notice}
    (found : n ∈ h) (largest : ∀ m ∈ h, m.seq ≤ n.seq) (good : n.success?.isSome) :
    t.result = s.result := by
  have same := newest?_perm perm distinct
  obtain ⟨r, good⟩ := Option.isSome_iff_exists.mp good
  by_cases zero : top h = 0
  · have nothing : newest? h = none := by rw [newest?, if_pos zero]
    rw [so.result_of_nothing nothing, other.result_of_nothing (same.trans nothing)]
  · obtain ⟨m, here, most⟩ := top_presented zero
    have seq : n.seq = top h := le_antisymm (le_top found) (most ▸ largest m here)
    have newest : newest? h = some n := by
      rw [newest?, if_neg zero]
      exact find?_seq distinct found seq
    rw [so.result_of_newest newest good, other.result_of_newest (same.trans newest) good]

inductive Call where
  | begin
  | finish (seq : Nat) (source : Bytes) (res : Option Result) (err : Option Fault)
  | submit (canceled : Bool) (source : Bytes)

namespace Session

def fresh (strict : Bool) (cache : Option Cache) : Session := { strict := strict, cache := cache }

/-- The answer to a call, if it has one, and the session after it. -/
def call (s : Session) : Call → Option Update × Session
  | .begin => (none, s.begin.2)
  | .finish seq source res err => (s.finish seq source res err).map some id
  | .submit canceled source => (s.submit canceled source).map some id

/-- What the session is told of in a call: a submitted source is compiled under the next number. -/
def notice? (s : Session) : Call → Option Notice
  | .begin => none
  | .finish seq source res err => some ⟨seq, source, res, err⟩
  | .submit canceled source =>
    match (s.begin.2.compile canceled source).1 with
    | .ok r => some ⟨s.next + 1, source, some r, none⟩
    | .error e => some ⟨s.next + 1, source, none, some e⟩

def run (s : Session) (calls : List Call) : Session := calls.foldl (fun s c => (s.call c).2) s

def history (s : Session) : List Call → List Notice
  | [] => []
  | c :: rest => (s.notice? c).toList ++ (s.call c).2.history rest

theorem compile_state (s : Session) (canceled : Bool) (source : Bytes) :
    (s.compile canceled source).2.state = s.state := by
  unfold compile
  split <;> rfl

theorem submit_eq (s : Session) (canceled : Bool) (source : Bytes) :
    s.submit canceled source = (s.begin.2.compile canceled source).2.finishWith (s.next + 1) source
      (s.begin.2.compile canceled source).1 := rfl

theorem call_notice {s : Session} {c : Call} {n : Notice} (told : s.notice? c = some n) :
    ∃ u, (s.call c).1 = some u ∧
      (u, (s.call c).2.state) = s.state.finish n.seq n.source n.result n.error := by
  cases c with
  | begin => cases told
  | finish seq source res err =>
    cases told
    exact ⟨_, rfl, rfl⟩
  | submit canceled source =>
    have kept : (s.begin.2.compile canceled source).2.state = s.state :=
      compile_state s.begin.2 canceled source
    simp only [notice?] at told
    split at told
    · rename_i r compiled
      cases told
      simp only [call, submit_eq, compiled, finishWith]
      exact ⟨_, rfl, by rw [← kept]; rfl⟩
    · rename_i e compiled
      cases told
      simp only [call, submit_eq, compiled, finishWith]
      exact ⟨_, rfl, by rw [← kept]; rfl⟩

theorem call_quiet {s : Session} {c : Call} (quiet : s.notice? c = none) :
    (s.call c).2.state = s.state := by
  cases c with
  | begin => rfl
  | finish seq source res err => cases quiet
  | submit canceled source =>
    simp only [notice?] at quiet
    split at quiet <;> cases quiet

theorem run_state (s : Session) (calls : List Call) :
    (s.run calls).state = (s.history calls).foldl State.notice s.state := by
  induction calls generalizing s with
  | nil => rfl
  | cons c rest ih =>
    have later : (s.run (c :: rest)).state = ((s.call c).2.run rest).state := rfl
    rw [later, ih, history]
    cases told : s.notice? c with
    | none =>
      rw [call_quiet told]
      rfl
    | some n =>
      obtain ⟨u, -, finished⟩ := call_notice told
      have next : (s.call c).2.state = s.state.notice n := congrArg Prod.snd finished
      rw [next]
      rfl

/-- After every run the state reflects what the session was told of. -/
theorem run_reflects (strict : Bool) (cache : Option Cache) (calls : List Call) :
    Reflects ((fresh strict cache).history calls) ((fresh strict cache).run calls).state := by
  rw [run_state]
  exact reflects_run _

theorem call_stale {s : Session} {c : Call} {n : Notice} (told : s.notice? c = some n) :
    ∃ u, (s.call c).1 = some u ∧ (u.stale = true ↔ n.seq ≤ s.state.seq) ∧
      (n.seq ≤ s.state.seq → (s.call c).2.state = s.state) := by
  obtain ⟨u, answer, finished⟩ := call_notice told
  refine ⟨u, answer, ?_, ?_⟩
  · have first : u = (s.state.finish n.seq n.source n.result n.error).1 := congrArg Prod.fst finished
    rw [first, State.finish]
    by_cases old : n.seq ≤ s.state.seq
    · simp [old]
    · rw [if_neg old]
      split <;> simp [old]
  · intro old
    have second : (s.call c).2.state = s.state.notice n := congrArg Prod.snd finished
    rw [second, State.notice_old old]

/-- Over any calls the state is that of the newest notice, with the last good result: an old notice
is stale and changes nothing, and the order in which distinct numbers arrive does not matter, but
for the result under a newest failure. -/
theorem latest_wins (strict : Bool) (cache : Option Cache) (calls : List Call) :
    let s := (fresh strict cache).run calls
    let h := (fresh strict cache).history calls
    Reflects h s.state ∧
    (∀ c n, s.notice? c = some n →
      ∃ u, (s.call c).1 = some u ∧ (u.stale = true ↔ n.seq ≤ s.state.seq) ∧
        (n.seq ≤ s.state.seq → (s.call c).2.state = s.state)) ∧
    ∀ others, ((fresh strict cache).history others).Perm h → (h.map Notice.seq).Nodup →
      let t := ((fresh strict cache).run others).state
      t.seq = s.state.seq ∧ t.source = s.state.source ∧ t.error = s.state.error ∧
        ((∃ n ∈ h, (∀ m ∈ h, m.seq ≤ n.seq) ∧ n.success?.isSome) →
          t.result = s.state.result) := by
  intro s h
  have so : Reflects h s.state := run_reflects strict cache calls
  refine ⟨so, fun c n told => call_stale told, ?_⟩
  intro others perm distinct t
  have other : Reflects _ t := run_reflects strict cache others
  have same := newest?_perm perm distinct
  refine ⟨?_, ?_, ?_, ?_⟩
  · rw [other.seq, so.seq, top_perm perm]
  · rw [other.source, so.source, same]
  · rw [other.error, so.error, same]
  · rintro ⟨n, found, largest, good⟩
    exact so.result_of_perm other perm distinct found largest good

def blank : Result := ⟨⟨[], .none⟩, default, [], [], 0, 0⟩

theorem latest_wins_late_cancel :
    let good := Call.finish 2 [97] (some blank) none
    let late := Call.finish 1 [98] none none
    ((fresh false none).run [good, late]).state.result = some blank ∧
      ((fresh false none).run [late, good]).state.result =
        ((fresh false none).run [good, late]).state.result :=
  ⟨rfl, ((latest_wins false none
      [.finish 2 [97] (some blank) none, .finish 1 [98] none none]).2.2
        [.finish 1 [98] none none, .finish 2 [97] (some blank) none]
        (List.Perm.swap ..) (by decide)).2.2.2
      ⟨⟨2, [97], some blank, none⟩, List.mem_cons_self, by decide, rfl⟩⟩

end Session

end DistanceField
