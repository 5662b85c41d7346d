import DistanceField.Proofs.Compile.Latest
import DistanceField.Proofs.Compile.Memory

/-! The hash of a compiled result is that of its code, and so it stays in a memory and in all that a
session is told of. -/
namespace DistanceField

def Result.Sealed (r : Result) : Prop := r.hash = Hash.hash r.code

def Cache.Sealed (c : Cache) : Prop := ∀ k n r, (k, (n, .ok r)) ∈ c.entries → r.Sealed

/-- The results that a caller reports are sealed, as compiled ones are. -/
def Call.Sealed : Call → Prop
  | .finish _ _ (some r) _ => r.Sealed
  | .finish _ _ none _ | .begin | .submit .. => True

def Session.Sealed (s : Session) : Prop := ∀ c, s.cache = some c → c.Sealed

theorem compile_sealed {strict : Bool} {source : Bytes} {r : Result}
    (compiled : DistanceField.compile strict source = .ok r) : r.Sealed := by
  unfold DistanceField.compile at compiled
  split at compiled
  · cases compiled
  · unfold Result.ofDocument at compiled
    split at compiled
    · cases compiled
    · cases compiled
      rfl

namespace Cache

theorem sealed_ofLimit (limit : Int) (digest : Bytes → Bytes) : (ofLimit limit digest).Sealed := by
  intro k n r member
  cases member

theorem Sealed.lookup {c : Cache} (closed : c.Sealed) (strict : Bool) (source : Bytes) :
    (c.lookup strict source).2.Sealed ∧
      ∀ r, (c.lookup strict source).1.2 = .ok r → r.Sealed := by
  cases found : c.get? strict source with
  | some e =>
    rw [lookup_hit found]
    refine ⟨closed, ?_⟩
    intro r same
    obtain ⟨n, o⟩ := e
    cases same
    exact closed _ n r (get?_mem found)
  | none =>
    rw [lookup_miss found]
    refine ⟨?_, fun r compiled => compile_sealed compiled⟩
    intro k n r member
    rcases List.mem_cons.mp member with new | old
    · exact compile_sealed (congrArg (·.2.2) new).symm
    · rcases makeRoom_cases c with ⟨-, same⟩ | ⟨-, same⟩
      · rw [same] at old
        cases old
      · rw [same] at old
        exact closed k n r old

theorem Sealed.compile {c : Cache} (closed : c.Sealed) (canceled strict : Bool) (source : Bytes) :
    (c.compile canceled strict source).2.Sealed ∧
      ∀ r, (c.compile canceled strict source).1.2 = .ok r → r.Sealed := by
  cases canceled with
  | true => exact ⟨closed, by rintro _ ⟨⟩⟩
  | false => exact closed.lookup strict source

end Cache

namespace Session

theorem Sealed.compile {s : Session} (closed : s.Sealed) (canceled : Bool) (source : Bytes) :
    (s.compile canceled source).2.Sealed ∧
      ∀ r, (s.compile canceled source).1 = .ok r → r.Sealed := by
  unfold Session.compile
  split
  · refine ⟨closed, ?_⟩
    intro r compiled
    cases canceled with
    | true => cases compiled
    | false => exact compile_sealed compiled
  · rename_i c same
    obtain ⟨kept, good⟩ := (closed c same).compile canceled s.strict source
    refine ⟨?_, good⟩
    rintro _ ⟨⟩
    exact kept

theorem Sealed.call {s : Session} (closed : s.Sealed) {c : Call} (own : c.Sealed) :
    (s.call c).2.Sealed ∧ ∀ n, s.notice? c = some n → ∀ r, n.success? = some r → r.Sealed := by
  cases c with
  | begin => exact ⟨closed, by rintro _ ⟨⟩⟩
  | finish seq source res err =>
    refine ⟨closed, ?_⟩
    rintro _ ⟨⟩ r good
    cases err with
    | some e => cases good
    | none =>
      cases good
      exact own
  | submit canceled source =>
    obtain ⟨kept, good⟩ := Sealed.compile (s := s.begin.2) closed canceled source
    constructor
    · have cache : (s.call (.submit canceled source)).2.cache =
          (s.begin.2.compile canceled source).2.cache := by
        simp only [Session.call, submit_eq]
        cases (s.begin.2.compile canceled source).1 <;> rfl
      intro c same
      exact kept c (cache ▸ same)
    · intro n told r success
      simp only [notice?] at told
      split at told
      · rename_i r' compiled
        cases told
        cases success
        exact good r compiled
      · cases told
        cases success

theorem history_append (s : Session) (cs ds : List Call) :
    s.history (cs ++ ds) = s.history cs ++ (s.run cs).history ds := by
  induction cs generalizing s with
  | nil => rfl
  | cons c cs ih =>
    rw [List.cons_append, history, history, ih, List.append_assoc]
    rfl

theorem history_sealed {s : Session} (closed : s.Sealed) {cs : List Call}
    (own : ∀ c ∈ cs, c.Sealed) : ∀ r ∈ (s.history cs).filterMap Notice.success?, r.Sealed := by
  induction cs generalizing s with
  | nil =>
    intro r found
    cases found
  | cons c cs ih =>
    obtain ⟨here, later⟩ := List.forall_mem_cons.mp own
    obtain ⟨kept, good⟩ := closed.call here
    intro r found
    rw [history, List.filterMap_append] at found
    rcases List.mem_append.mp found with now | after
    · obtain ⟨n, told, success⟩ := List.mem_filterMap.mp now
      exact good n (Option.mem_toList.mp told) r success
    · exact ih kept later r after

end Session

end DistanceField
