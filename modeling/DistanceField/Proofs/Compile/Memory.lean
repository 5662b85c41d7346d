import Mathlib.Data.List.Nodup
import Mathlib.Tactic.Common
import DistanceField.Compile.Cache

/-! What a memory of compiles shows. Its answers are those of compiling anew, whatever was asked
before, as long as different questions have different keys; its size stays within the limit, and what
is asked again comes from the same compile until the memory is emptied. -/
namespace DistanceField.Cache

inductive Request where
  | compile (canceled strict : Bool) (source : Bytes)
  | clear
deriving DecidableEq

def serve (c : Cache) : Request → Cache
  | .compile canceled strict source => (c.compile canceled strict source).2
  | .clear => c.clear

def after (c : Cache) (rs : List Request) : Cache := rs.foldl serve c

def Request.question? : Request → Option (Bool × Bytes)
  | .compile false strict source => some (strict, source)
  | .compile true .. | .clear => none

def questions (rs : List Request) : List (Bool × Bytes) := rs.filterMap Request.question?

def empties (c : Cache) : Request → Bool
  | .compile canceled strict source =>
    !canceled && (c.get? strict source).isNone && decide (c.limit ≤ c.size)
  | .clear => true

def Lasts (c : Cache) : List Request → Prop
  | [] => True
  | r :: rs => c.empties r = false ∧ (c.serve r).Lasts rs

variable {c : Cache} {made : List (Bool × Bytes)} {strict : Bool} {source : Bytes}

@[simp] theorem serve_clear (c : Cache) : c.serve .clear = c.clear := rfl

@[simp] theorem serve_canceled (c : Cache) (strict : Bool) (source : Bytes) :
    c.serve (.compile true strict source) = c := rfl

@[simp] theorem serve_live (c : Cache) (strict : Bool) (source : Bytes) :
    c.serve (.compile false strict source) = (c.lookup strict source).2 := rfl

@[simp] theorem after_nil (c : Cache) : c.after [] = c := rfl

@[simp] theorem after_cons (c : Cache) (r : Request) (rs : List Request) :
    c.after (r :: rs) = (c.serve r).after rs := rfl

theorem after_append (c : Cache) (rs qs : List Request) :
    c.after (rs ++ qs) = (c.after rs).after qs := List.foldl_append

theorem questions_append (rs qs : List Request) :
    questions (rs ++ qs) = questions rs ++ questions qs := List.filterMap_append

theorem questions_cons (r : Request) (rs : List Request) :
    questions (r :: rs) = r.question?.toList ++ questions rs := questions_append [r] rs

theorem makeRoom_cases (c : Cache) :
    (c.limit ≤ c.size ∧ c.makeRoom = c.clear) ∨ (c.size < c.limit ∧ c.makeRoom = c) := by
  unfold makeRoom
  split
  · exact .inl ⟨by assumption, rfl⟩
  · exact .inr ⟨by omega, rfl⟩

@[simp] theorem makeRoom_limit (c : Cache) : c.makeRoom.limit = c.limit := by
  rcases makeRoom_cases c with ⟨-, same⟩ | ⟨-, same⟩ <;> rw [same]; rfl

@[simp] theorem makeRoom_digest (c : Cache) : c.makeRoom.digest = c.digest := by
  rcases makeRoom_cases c with ⟨-, same⟩ | ⟨-, same⟩ <;> rw [same]; rfl

@[simp] theorem makeRoom_hits (c : Cache) : c.makeRoom.hits = c.hits := by
  rcases makeRoom_cases c with ⟨-, same⟩ | ⟨-, same⟩ <;> rw [same]; rfl

@[simp] theorem makeRoom_misses (c : Cache) : c.makeRoom.misses = c.misses := by
  rcases makeRoom_cases c with ⟨-, same⟩ | ⟨-, same⟩ <;> rw [same]; rfl

@[simp] theorem makeRoom_key (c : Cache) : c.makeRoom.key = c.key := by
  funext strict source
  simp [key]

theorem lookup_hit {e : Nat × Except Fault Result} (found : c.get? strict source = some e) :
    c.lookup strict source = (e, { c with hits := c.hits + 1 }) := by
  rw [lookup, found]

theorem lookup_miss (missing : c.get? strict source = none) :
    c.lookup strict source =
      ((c.misses, DistanceField.compile strict source), { c.makeRoom with
        entries := (c.key strict source, (c.misses, DistanceField.compile strict source)) ::
          c.makeRoom.entries
        size := c.makeRoom.size + 1, misses := c.misses + 1 }) := by
  simp [lookup, missing]

theorem get?_miss (missing : c.get? strict source = none) (strict' : Bool) (source' : Bytes) :
    (c.lookup strict source).2.get? strict' source' =
      if c.key strict' source' = c.key strict source then
        some (c.misses, DistanceField.compile strict source)
      else c.makeRoom.get? strict' source' := by
  rw [lookup_miss missing]
  simp only [get?, key, List.lookup_cons, makeRoom_digest]
  split <;> simp_all

theorem get?_mem {e : Nat × Except Fault Result} (found : c.get? strict source = some e) :
    (c.key strict source, e) ∈ c.entries := by
  obtain ⟨before, behind, split, -⟩ := List.lookup_eq_some_iff.mp found
  simp [split]

theorem get?_none (missing : c.get? strict source = none) :
    c.key strict source ∉ c.makeRoom.entries.map Prod.fst := by
  rcases makeRoom_cases c with ⟨-, same⟩ | ⟨-, same⟩
  · simp [same, clear]
  · rw [same]
    intro found
    obtain ⟨e, member, like⟩ := List.mem_map.mp found
    have other := List.lookup_eq_none_iff.mp missing e member
    simp [like] at other

/-- The memory is in order. Its misses so far are `made`, and an entry has the outcome of the miss
that it is numbered by. -/
structure Keeps (c : Cache) (made : List (Bool × Bytes)) : Prop where
  counted : c.misses = made.length
  filed : ∀ k n o, (k, (n, o)) ∈ c.entries → ∃ q, made[n]? = some q ∧ k = c.key q.1 q.2 ∧
    o = DistanceField.compile q.1 q.2
  separate : (c.entries.map Prod.fst).Nodup
  sized : c.size = c.entries.length
  bounded : c.size ≤ c.limit

theorem keeps_ofLimit (limit : Int) (digest : Bytes → Bytes) : Keeps (ofLimit limit digest) [] where
  counted := rfl
  filed _ _ _ member := by cases member
  separate := List.nodup_nil
  sized := rfl
  bounded := Nat.zero_le _

theorem Keeps.clear (keeps : Keeps c made) : Keeps c.clear made where
  counted := keeps.counted
  filed _ _ _ member := by cases member
  separate := List.nodup_nil
  sized := rfl
  bounded := Nat.zero_le _

theorem Keeps.makeRoom (keeps : Keeps c made) (room : 0 < c.limit) :
    Keeps c.makeRoom made ∧ c.makeRoom.size < c.makeRoom.limit := by
  rcases makeRoom_cases c with ⟨-, same⟩ | ⟨less, same⟩
  · rw [same]
    exact ⟨keeps.clear, room⟩
  · rw [same]
    exact ⟨keeps, less⟩

/-- One step. A hit is an entry, whose miss had the same key, and a miss makes a new entry. -/
theorem Keeps.lookup (keeps : Keeps c made) (room : 0 < c.limit) (strict : Bool) (source : Bytes) :
    ∃ more, (∀ q ∈ more, q = (strict, source)) ∧ Keeps (c.lookup strict source).2 (made ++ more) ∧
      ∃ q, (made ++ more)[(c.lookup strict source).1.1]? = some q ∧
        c.key strict source = c.key q.1 q.2 ∧
        (c.lookup strict source).1.2 = DistanceField.compile q.1 q.2 := by
  cases found : c.get? strict source with
  | some e =>
    rw [lookup_hit found]
    refine ⟨[], List.forall_mem_nil _, ?_, ?_⟩
    · rw [List.append_nil]
      exact ⟨keeps.counted, keeps.filed, keeps.separate, keeps.sized, keeps.bounded⟩
    · rw [List.append_nil]
      exact keeps.filed _ e.1 e.2 (get?_mem found)
  | none =>
    rw [lookup_miss found]
    obtain ⟨kept, less⟩ := keeps.makeRoom room
    have last : (made ++ [(strict, source)])[c.misses]? = some (strict, source) := by
      simp [keeps.counted]
    refine ⟨[(strict, source)], by simp, ?_, (strict, source), last, rfl, rfl⟩
    constructor
    · simp [keeps.counted]
    · intro k n o member
      rcases List.mem_cons.mp member with same | old
      · cases same
        exact ⟨_, last, by simp [key], rfl⟩
      · obtain ⟨q, at_, called, same⟩ := kept.filed k n o old
        refine ⟨q, ?_, called, same⟩
        exact List.getElem?_append_left (List.getElem?_eq_some_iff.mp at_).1 ▸ at_
    · exact List.nodup_cons.mpr ⟨get?_none found, kept.separate⟩
    · simp [kept.sized]
    · exact less

theorem serve_fixed (c : Cache) (r : Request) :
    (c.serve r).limit = c.limit ∧ (c.serve r).digest = c.digest ∧
      (c.serve r).hits + (c.serve r).misses = c.hits + c.misses + r.question?.toList.length := by
  cases r with
  | clear => exact ⟨rfl, rfl, rfl⟩
  | compile canceled strict source =>
    cases canceled with
    | true => exact ⟨rfl, rfl, rfl⟩
    | false =>
      rw [serve_live]
      cases found : c.get? strict source with
      | some e =>
        rw [lookup_hit found]
        exact ⟨rfl, rfl, Nat.add_right_comm ..⟩
      | none =>
        rw [lookup_miss found]
        simp [Request.question?, Nat.add_assoc]

theorem after_fixed (c : Cache) (rs : List Request) :
    (c.after rs).limit = c.limit ∧ (c.after rs).digest = c.digest ∧
      (c.after rs).hits + (c.after rs).misses = c.hits + c.misses + (questions rs).length := by
  induction rs generalizing c with
  | nil => exact ⟨rfl, rfl, rfl⟩
  | cons r rs ih =>
    obtain ⟨limit, digest, counts⟩ := serve_fixed c r
    obtain ⟨limits, digests, more⟩ := ih (c.serve r)
    refine ⟨limits.trans limit, digests.trans digest, ?_⟩
    rw [questions_cons, List.length_append]
    exact more.trans (by omega)

theorem Keeps.serve (keeps : Keeps c made) (room : 0 < c.limit) (r : Request) :
    ∃ more, (∀ q ∈ more, r.question? = some q) ∧ Keeps (c.serve r) (made ++ more) := by
  cases r with
  | clear => exact ⟨[], List.forall_mem_nil _, by simpa using keeps.clear⟩
  | compile canceled strict source =>
    cases canceled with
    | true => exact ⟨[], List.forall_mem_nil _, by simpa using keeps⟩
    | false =>
      obtain ⟨more, own, kept, -⟩ := keeps.lookup room strict source
      exact ⟨more, fun q member => by rw [own q member]; rfl, kept⟩

/-- A run keeps the memory in order, and its misses are among what it asks. -/
theorem Keeps.after (keeps : Keeps c made) (room : 0 < c.limit) (rs : List Request) :
    ∃ more, (∀ q ∈ more, q ∈ questions rs) ∧ Keeps (c.after rs) (made ++ more) := by
  induction rs generalizing c made with
  | nil => exact ⟨[], List.forall_mem_nil _, by simpa using keeps⟩
  | cons r rs ih =>
    obtain ⟨first, own, kept⟩ := keeps.serve room r
    obtain ⟨more, within, last⟩ := ih kept (by rw [(serve_fixed c r).1]; exact room)
    rw [List.append_assoc] at last
    refine ⟨first ++ more, ?_, last⟩
    intro q member
    rw [questions_cons]
    rcases List.mem_append.mp member with now | later
    · exact List.mem_append_left _ (by simp [own q now])
    · exact List.mem_append_right _ (within q later)

/-- What is stored stays until the memory is emptied. -/
theorem get?_serve {e : Nat × Except Fault Result} {r : Request} (stays : c.empties r = false)
    (found : c.get? strict source = some e) : (c.serve r).get? strict source = some e := by
  cases r with
  | clear => cases stays
  | compile canceled strict' source' =>
    cases canceled with
    | true => exact found
    | false =>
      rw [serve_live]
      cases other : c.get? strict' source' with
      | some e' =>
        rw [lookup_hit other]
        exact found
      | none =>
        have room : c.size < c.limit := by simpa [empties, other] using stays
        have same : c.makeRoom = c := by rw [makeRoom, if_neg (by omega)]
        have differ : c.key strict source ≠ c.key strict' source' := by
          intro like
          rw [get?, like, ← get?, other] at found
          cases found
        rw [get?_miss other, if_neg differ, same]
        exact found

theorem get?_after {e : Nat × Except Fault Result} {rs : List Request} (lasts : c.Lasts rs)
    (found : c.get? strict source = some e) : (c.after rs).get? strict source = some e := by
  induction rs generalizing c with
  | nil => exact found
  | cons r rs ih => exact ih lasts.2 (get?_serve lasts.1 found)

theorem get?_lookup (c : Cache) (strict : Bool) (source : Bytes) :
    (c.lookup strict source).2.get? strict source = some (c.lookup strict source).1 := by
  cases found : c.get? strict source with
  | some e =>
    rw [lookup_hit found]
    exact found
  | none => rw [get?_miss found, if_pos rfl, lookup_miss found]

theorem compile_live (c : Cache) (strict : Bool) (source : Bytes) :
    c.compile false strict source = ((some (c.lookup strict source).1.1,
      (c.lookup strict source).1.2), (c.lookup strict source).2) := rfl

/-- What is asked again comes from the same compile. -/
theorem compile_again {rs : List Request} (lasts : (c.compile false strict source).2.Lasts rs) :
    (((c.compile false strict source).2.after rs).compile false strict source).1 =
      (c.compile false strict source).1 := by
  have stored := get?_after lasts (get?_lookup c strict source)
  rw [compile_live, lookup_hit stored]
  rfl

theorem ofLimit_limit (limit : Int) (digest : Bytes → Bytes) :
    ((ofLimit limit digest).limit : Int) = if limit < 1 then 256 else limit := by
  simp only [ofLimit]
  split
  · rfl
  · omega

theorem ofLimit_room (limit : Int) (digest : Bytes → Bytes) : 0 < (ofLimit limit digest).limit := by
  simp only [ofLimit]
  split <;> omega

def Apart (c : Cache) (qs : List (Bool × Bytes)) : Prop :=
  ∀ q ∈ qs, ∀ p ∈ qs, c.key q.1 q.2 = c.key p.1 p.2 → q = p

/-- The answer to a question is that of its own compile. -/
theorem Keeps.answer {qs : List (Bool × Bytes)} (keeps : Keeps c made) (room : 0 < c.limit)
    (apart : c.Apart qs) (within : ∀ q ∈ made, q ∈ qs) (asked : (strict, source) ∈ qs) :
    (c.lookup strict source).1.2 = DistanceField.compile strict source ∧
      ∃ more, (∀ q ∈ more, q = (strict, source)) ∧
        Keeps (c.lookup strict source).2 (made ++ more) ∧
        (made ++ more)[(c.lookup strict source).1.1]? = some (strict, source) := by
  obtain ⟨more, own, kept, q, numbered, called, outcome⟩ := keeps.lookup room strict source
  have known : q ∈ qs := by
    rcases List.mem_append.mp (List.mem_of_getElem? numbered) with old | new
    · exact within q old
    · rw [own q new]
      exact asked
  obtain rfl := apart (strict, source) asked q known called
  exact ⟨outcome, more, own, kept, numbered⟩

theorem Apart.after {qs : List (Bool × Bytes)} (apart : c.Apart qs) (rs : List Request) :
    (c.after rs).Apart qs := by
  intro q asked p also same
  rw [key, key, (after_fixed c rs).2.1] at same
  exact apart q asked p also same

theorem mem_questions {before rs : List Request}
    (here : before ++ [.compile false strict source] <+: rs) :
    (strict, source) ∈ questions rs ∧ ∀ q ∈ questions before, q ∈ questions rs := by
  obtain ⟨later, rfl⟩ := here
  rw [questions_append, questions_append]
  refine ⟨?_, ?_⟩
  · apply List.mem_append_left
    apply List.mem_append_right
    exact List.mem_singleton_self _
  · intro q asked
    exact List.mem_append_left _ (List.mem_append_left _ asked)

section Runs

variable {rs before between : List Request} (room : 0 < c.limit) (keeps : Keeps c [])
  (apart : c.Apart (questions rs))

include room keeps apart

/-- At each question of a run: its answer, the order of the memory, and the number of the answer. -/
theorem run_answer (here : before ++ [.compile false strict source] <+: rs) :
    ((c.after before).lookup strict source).1.2 = DistanceField.compile strict source ∧
      ∃ made, (∀ q ∈ made, q ∈ questions rs) ∧
        Keeps ((c.after before).lookup strict source).2 made ∧
        made[((c.after before).lookup strict source).1.1]? = some (strict, source) := by
  obtain ⟨asked, earlier⟩ := mem_questions here
  obtain ⟨made, within, kept⟩ := keeps.after room before
  have known (q : Bool × Bytes) (member : q ∈ made) : q ∈ questions rs :=
    earlier q (within q member)
  obtain ⟨outcome, more, own, last, numbered⟩ :=
    kept.answer (by rw [(after_fixed c before).1]; exact room) (apart.after before) known asked
  refine ⟨outcome, made ++ more, ?_, last, numbered⟩
  intro q member
  rcases List.mem_append.mp member with old | new
  · exact known q old
  · rw [own q new]
    exact asked

/-- Two questions with the same number in their answers are the same. -/
theorem run_same_number {strict' : Bool} {source' : Bytes}
    (here : before ++ .compile false strict source :: between ++
      [.compile false strict' source'] <+: rs)
    (same : ((c.after before).lookup strict source).1.1 =
      ((((c.after before).lookup strict source).2.after between).lookup strict' source').1.1) :
    (strict, source) = (strict', source') := by
  have first : before ++ [.compile false strict source] <+: rs := by
    refine List.IsPrefix.trans ?_ here
    exact ⟨between ++ [.compile false strict' source'], by simp⟩
  obtain ⟨asked, earlier⟩ := mem_questions here
  obtain ⟨-, made, within, kept, numbered⟩ := run_answer room keeps apart first
  have still := after_fixed c (before ++ [.compile false strict source])
  rw [after_append, after_cons, after_nil, serve_live] at still
  obtain ⟨more, new, last⟩ := kept.after (by rw [still.1]; exact room) between
  have known (q : Bool × Bytes) (member : q ∈ made ++ more) : q ∈ questions rs := by
    rcases List.mem_append.mp member with old | recent
    · exact within q old
    · apply earlier
      rw [questions_append, questions_cons]
      exact List.mem_append_right _ (List.mem_append_right _ (new q recent))
  have again := apart.after (before ++ .compile false strict source :: between)
  rw [after_append, after_cons, serve_live] at again
  have limits := after_fixed ((c.after before).lookup strict source).2 between
  obtain ⟨-, added, -, -, later⟩ :=
    last.answer (by rw [limits.1, still.1]; exact room) again known asked
  rw [← same, List.append_assoc,
    List.getElem?_append_left (List.getElem?_eq_some_iff.mp numbered).1, numbered] at later
  exact Option.some.inj later

end Runs

/-- A memory shows what compiling anew would show, whatever was asked of it before, as long as
different questions have different keys. A call that is called off changes nothing; a question asked
again is answered from the same compile until the memory is emptied, and no other question is; and
the size and the counts agree with what is stored and asked. -/
theorem answers_as_compiled (limit : Int) (digest : Bytes → Bytes) (rs : List Request)
    (apart : (ofLimit limit digest).Apart (questions rs)) :
    (∀ before canceled strict source, before ++ [.compile canceled strict source] <+: rs →
      let c := (ofLimit limit digest).after before
      (c.compile canceled strict source).1.2 = compileUnless canceled strict source ∧
      (canceled = true → (c.compile canceled strict source).2 = c ∧
        ∃ f, (c.compile canceled strict source).1.2 = .error f ∧
          f.isSource Fault.canceled = true)) ∧
    (∀ before between strict source strict' source', before ++ .compile false strict source ::
        between ++ [.compile false strict' source'] <+: rs →
      let first := ((ofLimit limit digest).after before).compile false strict source
      let second := (first.2.after between).compile false strict' source'
      ((strict, source) = (strict', source') → first.2.Lasts between →
        first.1 = second.1 ∧ first.1.1.isSome = true) ∧
      (first.1.1 = second.1.1 → (strict, source) = (strict', source'))) ∧
    ∀ before, before <+: rs →
      let c := (ofLimit limit digest).after before
      c.length = c.entries.length ∧ (c.entries.map Prod.fst).Nodup ∧
        (c.length : Int) ≤ (if limit < 1 then 256 else limit) ∧
        c.hits + c.misses = (questions before).length := by
  have room := ofLimit_room limit digest
  have keeps := keeps_ofLimit limit digest
  refine ⟨?_, ?_, ?_⟩
  · intro before canceled strict source here c
    cases canceled with
    | true => exact ⟨rfl, fun _ => ⟨rfl, calledOff, rfl, by decide⟩⟩
    | false => exact ⟨(run_answer room keeps apart here).1, by rintro ⟨⟩⟩
  · intro before between strict source strict' source' here first second
    refine ⟨?_, ?_⟩
    · rintro ⟨⟩ lasts
      exact ⟨(compile_again lasts).symm, rfl⟩
    · intro same
      exact run_same_number room keeps apart here (Option.some.inj same)
  · intro before here c
    obtain ⟨made, -, kept⟩ := keeps.after room before
    obtain ⟨limits, -, counts⟩ := after_fixed (ofLimit limit digest) before
    refine ⟨kept.sized, kept.separate, ?_, counts.trans (Nat.zero_add _)⟩
    rw [← ofLimit_limit limit digest, ← limits]
    exact Int.ofNat_le.mpr kept.bounded

def small : Cache := ofLimit 2 (·.take 3)

def visits : List Request :=
  [.compile false false "a", .compile true false "b", .compile false true "a",
    .compile false false "a", .compile false false "b"]

theorem small_answers :
    small.Apart (questions visits) ∧
    ((small.after (visits.take 3)).compile false false "a").1 =
      (small.compile false false "a").1 ∧
    (small.after (visits.take 4)).length = 2 ∧
    ((small.after (visits.take 4)).compile false false "b").1.2 = DistanceField.compile false "b" ∧
    (small.after visits).length = 1 ∧
    (small.after visits).hits + (small.after visits).misses = 4 := by
  have apart : small.Apart (questions visits) := by
    unfold Apart
    decide
  obtain ⟨answers, repeated, stored⟩ := answers_as_compiled 2 (·.take 3) visits apart
  refine ⟨apart, ?_, by decide +kernel, ?_, by decide +kernel, ?_⟩
  · have lasts : (small.compile false false "a").2.Lasts
        [.compile true false "b", .compile false true "a"] := ⟨by decide, by decide, trivial⟩
    exact ((repeated [] _ false "a" false "a" (by decide)).1 rfl lasts).1.symm
  · exact (answers (visits.take 4) false false "b" (by decide)).1
  · exact (stored visits (List.prefix_refl _)).2.2.2

end DistanceField.Cache
