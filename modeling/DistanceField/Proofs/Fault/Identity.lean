import Mathlib.Logic.Relation
import DistanceField.Proofs.Fault.Sentinels
import DistanceField.Proofs.Growth
import DistanceField.Proofs.Slices

/-! Failures in memory, where copies share their causes and the arrays of their attributes. Whatever is
made later, each failure stays as it was made, and what it counts as is what the failure it stands for
counts as. -/
namespace DistanceField

/-- A failure in memory: its cause is another by number, its attributes are in an array that copies
of it may share. -/
inductive Cell where
  | source (msg : Bytes) (cause : Option Nat) (attrs : Slice) (place : Option Interval)
  | command (msg : Bytes) (cause : Option Nat) (attrs : Slice)
  | plain (text : Bytes)
  | outer (lead : Bytes) (cause : Nat)

namespace Cell

def origin? : Cell → Option Origin
  | source .. => some .source
  | command .. => some .command
  | plain _ | outer .. => none

def own : Cell → Bytes
  | source m .. | command m .. => m
  | plain t => t
  | outer lead _ => lead

def cause? : Cell → Option Nat
  | source _ c .. | command _ c _ => c
  | plain _ => none
  | outer _ c => some c

def attrs : Cell → Slice
  | source _ _ s _ | command _ _ s => s
  | plain _ | outer .. => .empty

/-- Whether a failure says of itself that it is the target: one of its own origin that has no cause
and has its message. -/
def answers (c target : Cell) : Bool :=
  c.origin?.isSome && target.origin? == c.origin? && target.cause?.isNone && target.own != [] &&
    target.own == c.own

def fault? (arrays : List (List Attr)) (look : Nat → Option Fault) : Cell → Option Fault
  | source m c s p => (c.mapM look).map fun c => .source m c (s.read arrays) p
  | command m c s => (c.mapM look).map fun c => .command m c (s.read arrays)
  | plain t => some (.plain t)
  | outer lead c => (look c).map (.outer lead)

def attach? (arrays : List (List Attr)) (as spare : List Attr) :
    Cell → Option (List (List Attr) × Cell)
  | source m c s p =>
    let (arrays, s) := Slice.alloc arrays (s.read arrays ++ as) []
    some (arrays, source m c s p)
  | command m c s =>
    let (arrays, s) := s.clip.append arrays as spare
    some (arrays, command m c s)
  | plain _ | outer .. => none

def place? (i : Interval) : Cell → Option Cell
  | source m c s _ => some (source m c s (some i))
  | command .. | plain _ | outer .. => none

def wrap? (cause : Nat) : Cell → Option Cell
  | source m _ s p => some (source m (some cause) s p)
  | command m _ s => some (command m (some cause) s)
  | plain _ | outer .. => none

end Cell

/-- Failures in memory, the newest first. The number of a failure is how many are older. -/
structure Heap where
  cells : List Cell := []
  arrays : List (List Attr) := []

/-- Goes to a cell by its number, and from there only to older ones. -/
def Cell.walk {β : Type} (f : Nat → Cell → (Nat → β) → β) (missing : β) : List Cell → Nat → β
  | [], _ => missing
  | c :: older, n => if n = older.length then f n c (walk f missing older) else walk f missing older n

def Cell.at? : List Cell → Nat → Option Cell := walk (fun _ c _ => some c) none

def Cell.faultAt? (arrays : List (List Attr)) : List Cell → Nat → Option Fault :=
  walk (fun _ c look => c.fault? arrays look) none

/-- Goes from cause to cause until one is the target itself or says that it is. -/
def Cell.isAt (t : Nat) (target : Cell) : List Cell → Nat → Bool :=
  walk (fun n c look => n == t || c.answers target || c.cause?.elim false look) false

/-- What is done with failures. An array that has to be made may get some room to `spare`. -/
inductive Act where
  | named (o : Origin) (msg : Bytes)
  | plain (text : Bytes)
  | attach (e : Nat) (attrs spare : List Attr)
  | place (e : Nat) (i : Interval)
  | wrap (e cause : Nat)
  | outer (lead : Bytes) (e : Nat)

namespace Heap

def cell? (h : Heap) (n : Nat) : Option Cell := Cell.at? h.cells n

def fault? (h : Heap) (n : Nat) : Option Fault := Cell.faultAt? h.arrays h.cells n

def is (h : Heap) (n t : Nat) : Bool :=
  (h.cell? t).elim false fun target => Cell.isAt t target h.cells n

def push (h : Heap) (c : Cell) : Heap := { h with cells := c :: h.cells }

/-- One more failure. An act is refused when a failure that it names is missing or cannot be
refined so. -/
def act (h : Heap) : Act → Option Heap
  | .named .source msg => some (h.push (.source msg none .empty none))
  | .named .command msg => some (h.push (.command msg none .empty))
  | .plain t => some (h.push (.plain t))
  | .attach e as spare => do
    let c ← h.cell? e
    let (arrays, d) ← c.attach? h.arrays as spare
    some { cells := d :: h.cells, arrays := arrays }
  | .place e i => do
    let c ← h.cell? e
    let d ← c.place? i
    some (h.push d)
  | .wrap e cause => do
    let c ← h.cell? e
    let d ← c.wrap? cause
    if cause < h.cells.length then some (h.push d) else none
  | .outer lead e => if e < h.cells.length then some (h.push (.outer lead e)) else none

def run (h : Heap) (acts : List Act) : Option Heap := acts.foldlM act h

end Heap

def Act.fault? (look : Nat → Option Fault) : Act → Option Fault
  | .named o msg => some (.ofOrigin msg o)
  | .plain t => some (.plain t)
  | .attach e as _ => ((look e).filter (·.origin?.isSome)).map (·.withAttrs as)
  | .place e i => ((look e).filter (·.origin? == some .source)).map (·.locate i)
  | .wrap e cause =>
    (look cause).bind fun c => ((look e).filter (·.origin?.isSome)).map (·.wrap c)
  | .outer lead e => (look e).map (.outer lead)

namespace Act

variable {look other : Nat → Option Fault} {a : Act} {f : Fault} {e : Nat}

theorem attach_iff {as spare : List Attr} : (attach e as spare).fault? look = some f ↔
    ∃ g, look e = some g ∧ g.origin?.isSome = true ∧ g.withAttrs as = f := by
  simp [fault?, Option.filter_eq_some_iff, and_assoc]

theorem place_iff {i : Interval} : (place e i).fault? look = some f ↔
    ∃ g, look e = some g ∧ g.origin? = some .source ∧ g.locate i = f := by
  simp [fault?, Option.filter_eq_some_iff, and_assoc]

theorem wrap_iff {cause : Nat} : (wrap e cause).fault? look = some f ↔
    ∃ g c, look e = some g ∧ look cause = some c ∧ g.origin?.isSome = true ∧ g.wrap c = f := by
  simp only [fault?]
  cases look cause <;> simp [Option.filter_eq_some_iff, and_assoc]

theorem outer_iff {lead : Bytes} : (outer lead e).fault? look = some f ↔
    ∃ g, look e = some g ∧ .outer lead g = f := Option.map_eq_some_iff

theorem fault_mono (more : ∀ e g, look e = some g → other e = some g)
    (made : a.fault? look = some f) : a.fault? other = some f := by
  cases a with
  | named o msg => exact made
  | plain t => exact made
  | attach e as spare =>
    obtain ⟨g, found, made⟩ := attach_iff.mp made
    exact attach_iff.mpr ⟨g, more e g found, made⟩
  | place e i =>
    obtain ⟨g, found, made⟩ := place_iff.mp made
    exact place_iff.mpr ⟨g, more e g found, made⟩
  | wrap e cause =>
    obtain ⟨g, c, found, caused, made⟩ := wrap_iff.mp made
    exact wrap_iff.mpr ⟨g, c, more e g found, more cause c caused, made⟩
  | outer lead e =>
    obtain ⟨g, found, made⟩ := outer_iff.mp made
    exact outer_iff.mpr ⟨g, more e g found, made⟩

end Act

namespace Cell

variable {arrays later : List (List Attr)} {look : Nat → Option Fault} {cells : List Cell} {c : Cell}
  {n : Nat} {f : Fault}

theorem walk_new {β : Type} (g : Nat → Cell → (Nat → β) → β) (missing : β) (c : Cell)
    (older : List Cell) :
    walk g missing (c :: older) older.length = g older.length c (walk g missing older) :=
  if_pos rfl

theorem walk_old {β : Type} (g : Nat → Cell → (Nat → β) → β) (missing : β) (c : Cell)
    {older : List Cell} (old : n < older.length) :
    walk g missing (c :: older) n = walk g missing older n :=
  if_neg (Nat.ne_of_lt old)

theorem walk_missing {β : Type} (g : Nat → Cell → (Nat → β) → β) (missing : β) {cells : List Cell}
    (beyond : cells.length ≤ n) : walk g missing cells n = missing := by
  induction cells with
  | nil => rfl
  | cons c older ih =>
    rw [List.length_cons] at beyond
    exact (if_neg (by omega)).trans (ih (by omega))

theorem at_some (old : n < cells.length) : ∃ c, at? cells n = some c := by
  induction cells with
  | nil => cases old
  | cons c older ih =>
    by_cases new : n = older.length
    · exact ⟨c, new ▸ walk_new _ _ c older⟩
    · have older : n < older.length := by
        rw [List.length_cons] at old
        omega
      obtain ⟨d, found⟩ := ih older
      exact ⟨d, (if_neg new).trans found⟩

/-- The cause is older, and the array is as long as the attributes take. -/
def Fits (arrays : List (List Attr)) (n : Nat) (c : Cell) : Prop :=
  (∀ k, c.cause? = some k → k < n) ∧ c.attrs.Within arrays

def Sound (arrays : List (List Attr)) : List Cell → Prop
  | [] => True
  | c :: older => c.Fits arrays older.length ∧ Sound arrays older

theorem fault_congr {other : Nat → Option Fault} (c : Cell)
    (same : c.attrs.read later = c.attrs.read arrays)
    (causes : ∀ k, c.cause? = some k → other k = look k) :
    c.fault? later other = c.fault? arrays look := by
  cases c with
  | source m k s p | command m k s =>
    have reads : s.read later = s.read arrays := same
    cases k with
    | none => simp only [fault?, reads]; rfl
    | some k => simp only [fault?, Option.mapM_some, causes k rfl, reads]
  | plain t => rfl
  | outer lead k => simp only [fault?, causes k rfl]

theorem fault_shape (shown : c.fault? arrays look = some f) :
    f.origin? = c.origin? ∧ f.own = c.own ∧ c.cause?.mapM look = some f.cause? := by
  cases c with
  | source m k s p | command m k s =>
    obtain ⟨cause, found, rfl⟩ := Option.map_eq_some_iff.mp shown
    exact ⟨rfl, rfl, found⟩
  | plain t =>
    cases shown
    exact ⟨rfl, rfl, rfl⟩
  | outer lead k =>
    obtain ⟨cause, found, rfl⟩ := Option.map_eq_some_iff.mp shown
    exact ⟨rfl, rfl, by simp [cause?, Option.mapM_some, found, Fault.cause?]⟩

theorem fault_some (arrays : List (List Attr)) (c : Cell)
    (causes : ∀ k, c.cause? = some k → ∃ g, look k = some g) :
    ∃ f, c.fault? arrays look = some f := by
  cases c with
  | source m k s p | command m k s =>
    cases k with
    | none => exact ⟨_, rfl⟩
    | some k =>
      obtain ⟨g, found⟩ := causes k rfl
      exact ⟨_, by simp only [fault?, Option.mapM_some, found]; rfl⟩
  | plain t => exact ⟨_, rfl⟩
  | outer lead k =>
    obtain ⟨g, found⟩ := causes k rfl
    exact ⟨_, by simp only [fault?, found]; rfl⟩

theorem answers_eq {s : Sentinel} {target : Cell} (c : Cell) (origin : target.origin? = some s.origin)
    (name : target.own = s.name) (causeless : target.cause? = none) :
    c.answers target = decide (c.origin? = some s.origin ∧ c.own = s.name) := by
  rw [Bool.eq_iff_iff, answers, origin, name, causeless]
  cases c.origin? with
  | none => simp
  | some o =>
    simp only [Option.isSome_some, Bool.true_and, Option.isNone_none, Bool.and_true,
      Bool.and_eq_true, beq_iff_eq, bne_iff_ne, s.named, ne_eq, not_false_eq_true, and_true,
      decide_eq_true_eq]
    exact and_congr eq_comm eq_comm

variable {d : Cell}

theorem attach_spec {as spare : List Attr} (fits : c.Fits arrays n)
    (done : c.attach? arrays as spare = some (later, d)) :
    Slice.Kept arrays later ∧ d.Fits later n ∧ d.fault? later look =
      ((c.fault? arrays look).filter (·.origin?.isSome)).map (·.withAttrs as) := by
  cases c with
  | source m k s p =>
    obtain ⟨keeps, inside, reads⟩ := Slice.alloc_spec arrays (s.read arrays ++ as) []
    simp only [attach?, Option.some.injEq, Prod.mk.injEq] at done
    obtain ⟨rfl, rfl⟩ := done
    refine ⟨keeps, ⟨fits.1, inside⟩, ?_⟩
    simp only [fault?, reads]
    cases k.mapM look <;> rfl
  | command m k s =>
    have own : s.Within arrays := fits.2
    obtain ⟨keeps, inside, reads⟩ := Slice.append_clip own as spare
    simp only [attach?, Option.some.injEq, Prod.mk.injEq] at done
    obtain ⟨rfl, rfl⟩ := done
    refine ⟨keeps, ⟨fits.1, inside⟩, ?_⟩
    simp only [fault?, reads]
    cases k.mapM look <;> rfl
  | plain t | outer lead k => cases done

theorem place_spec {i : Interval} (fits : c.Fits arrays n) (done : c.place? i = some d) :
    d.Fits arrays n ∧ d.fault? arrays look =
      ((c.fault? arrays look).filter (·.origin? == some .source)).map (·.locate i) := by
  cases c with
  | source m k s p =>
    cases done
    refine ⟨fits, ?_⟩
    simp only [fault?]
    cases k.mapM look <;> rfl
  | command m k s | plain t | outer lead k => cases done

/-- The cause that is replaced must have been there, or the copy would show more than the failure. -/
theorem wrap_spec {cause : Nat} {g : Fault} (fits : c.Fits arrays n) (old : cause < n)
    (done : c.wrap? cause = some d) (shown : c.fault? arrays look = some f)
    (caused : look cause = some g) :
    d.Fits arrays n ∧ f.origin?.isSome = true ∧ d.fault? arrays look = some (f.wrap g) := by
  cases c with
  | source m k s p | command m k s =>
    cases done
    obtain ⟨cause, found, rfl⟩ := Option.map_eq_some_iff.mp shown
    refine ⟨⟨?_, fits.2⟩, rfl, ?_⟩
    · rintro k ⟨⟩
      exact old
    · simp only [fault?, Option.mapM_some, caused]
      rfl
  | plain t | outer lead k => cases done

namespace Sound

theorem kept (sound : Sound arrays cells) (keeps : Slice.Kept arrays later) :
    Sound later cells ∧ ∀ n, faultAt? later cells n = faultAt? arrays cells n := by
  induction cells with
  | nil => exact ⟨trivial, fun _ => rfl⟩
  | cons c older ih =>
    obtain ⟨⟨causes, inside⟩, sound⟩ := sound
    obtain ⟨still, same⟩ := ih sound
    obtain ⟨stays, reads⟩ := keeps c.attrs inside
    refine ⟨⟨⟨causes, stays⟩, still⟩, fun n => ?_⟩
    have here := fault_congr c reads fun k _ => same k
    simp only [faultAt?, walk] at here same ⊢
    rw [same n]
    split
    · exact here
    · rfl

theorem at_fits (sound : Sound arrays cells) (found : at? cells n = some c) :
    c.Fits arrays n ∧ n < cells.length ∧
      faultAt? arrays cells n = c.fault? arrays (faultAt? arrays cells) := by
  induction cells with
  | nil => cases found
  | cons d older ih =>
    obtain ⟨fits, sound⟩ := sound
    have later (k : Nat) (old : k < older.length) :
        faultAt? arrays (d :: older) k = faultAt? arrays older k := walk_old _ _ d old
    by_cases new : n = older.length
    · subst new
      obtain rfl : d = c := Option.some.inj ((walk_new _ _ d older).symm.trans found)
      refine ⟨fits, Nat.lt_succ_self _, (walk_new _ _ d older).trans ?_⟩
      exact (fault_congr d rfl fun k caused => later k (fits.1 k caused)).symm
    · obtain ⟨fits, old, shown⟩ := ih sound ((if_neg new).symm.trans found)
      refine ⟨fits, Nat.lt_succ_of_lt old, (later n old).trans (shown.trans ?_)⟩
      exact (fault_congr c rfl fun k caused => later k (Nat.lt_trans (fits.1 k caused) old)).symm

theorem fault_at (sound : Sound arrays cells) (old : n < cells.length) :
    ∃ f, faultAt? arrays cells n = some f := by
  induction n using Nat.strongRecOn with
  | _ n ih =>
    obtain ⟨c, found⟩ := at_some old
    obtain ⟨fits, -, shown⟩ := at_fits sound found
    obtain ⟨f, made⟩ := fault_some arrays c fun k caused =>
      ih k (fits.1 k caused) (Nat.lt_trans (fits.1 k caused) old)
    exact ⟨f, shown.trans made⟩

/-- Going from cause to cause finds what the failure counts as: the target itself, met on the way, is
one that has its own name. -/
theorem is_at {s : Sentinel} {t : Nat} {target : Cell} (sound : Sound arrays cells)
    (met : ∀ c, at? cells t = some c → c = target) (origin : target.origin? = some s.origin)
    (name : target.own = s.name) (causeless : target.cause? = none)
    (shown : faultAt? arrays cells n = some f) : isAt t target cells n = f.is s := by
  induction cells generalizing n f with
  | nil => cases shown
  | cons c older ih =>
    obtain ⟨fits, sound⟩ := sound
    have metOlder (d : Cell) (found : at? older t = some d) : d = target :=
      met d ((walk_old _ _ c (at_fits sound found).2.1).trans found)
    by_cases new : n = older.length
    · subst new
      have shown := (walk_new _ _ c older).symm.trans shown
      obtain ⟨sameOrigin, sameOwn, causes⟩ := fault_shape shown
      have here : (older.length == t || c.answers target) = decide (s.Marks f) := by
        by_cases same : older.length = t
        · obtain rfl : c = target := met c (same ▸ walk_new _ _ c older)
          simp [same, Sentinel.Marks, sameOrigin, sameOwn, origin, name]
        · simp only [beq_eq_false_iff_ne.mpr same, Bool.false_or, Sentinel.Marks, sameOrigin, sameOwn,
            answers_eq c origin name causeless]
      have behind : c.cause?.elim false (isAt t target older) = f.cause?.elim false (·.is s) := by
        cases caused : c.cause? with
        | none =>
          rw [caused] at causes
          rw [← Option.some.inj causes]
          rfl
        | some k =>
          rw [caused] at causes
          obtain ⟨g, found, same⟩ := Option.map_eq_some_iff.mp causes
          rw [← same]
          exact ih sound metOlder found
      rw [Fault.is_step, ← here, ← behind]
      exact walk_new _ _ c older
    · exact (if_neg new).trans (ih sound metOlder ((if_neg new).symm.trans shown))

end Sound

end Cell

namespace Heap

variable {h g : Heap} {a : Act} {acts : List Act} {k : Nat}

def Sound (h : Heap) : Prop := Cell.Sound h.arrays h.cells

theorem fault_some {e : Nat} (sound : h.Sound) (old : e < h.cells.length) :
    ∃ f, h.fault? e = some f := Cell.Sound.fault_at sound old

theorem cell_fits {c : Cell} {e : Nat} (sound : h.Sound) (found : h.cell? e = some c) :
    c.Fits h.arrays h.cells.length ∧ h.fault? e = c.fault? h.arrays h.fault? ∧
      e < h.cells.length := by
  obtain ⟨fits, old, shown⟩ := Cell.Sound.at_fits sound found
  exact ⟨⟨fun k caused => Nat.lt_trans (fits.1 k caused) old, fits.2⟩, shown, old⟩

/-- All that an act does: there is one more failure, which is the one that the act makes of those it
names, and what older ones have in arrays is kept. -/
theorem act_spec (sound : h.Sound) (done : h.act a = some g) :
    ∃ c, g.cells = c :: h.cells ∧ Slice.Kept h.arrays g.arrays ∧
      c.Fits g.arrays h.cells.length ∧ c.fault? g.arrays h.fault? = a.fault? h.fault? := by
  cases a with
  | named o msg =>
    cases o <;> cases done <;>
      exact ⟨_, rfl, .refl _, ⟨by rintro k ⟨⟩, Slice.within_empty _⟩, rfl⟩
  | plain t =>
    cases done
    exact ⟨_, rfl, .refl _, ⟨by rintro k ⟨⟩, Slice.within_empty _⟩, rfl⟩
  | attach e as spare =>
    obtain ⟨c, found, done⟩ := Option.bind_eq_some_iff.mp done
    obtain ⟨⟨arrays, d⟩, copied, done⟩ := Option.bind_eq_some_iff.mp done
    cases done
    obtain ⟨fits, shown, -⟩ := cell_fits sound found
    obtain ⟨keeps, inside, same⟩ := Cell.attach_spec fits copied
    exact ⟨d, rfl, keeps, inside, by rw [same, Act.fault?, shown]⟩
  | place e i =>
    obtain ⟨c, found, done⟩ := Option.bind_eq_some_iff.mp done
    obtain ⟨d, copied, done⟩ := Option.bind_eq_some_iff.mp done
    cases done
    obtain ⟨fits, shown, -⟩ := cell_fits sound found
    obtain ⟨inside, same⟩ := Cell.place_spec fits copied
    exact ⟨d, rfl, .refl _, inside, by rw [Act.fault?, shown]; exact same⟩
  | wrap e cause =>
    obtain ⟨c, found, done⟩ := Option.bind_eq_some_iff.mp done
    obtain ⟨d, copied, done⟩ := Option.bind_eq_some_iff.mp done
    split at done
    · rename_i old
      cases done
      obtain ⟨fits, shown, inside⟩ := cell_fits sound found
      obtain ⟨f, made⟩ := fault_some sound inside
      obtain ⟨g, caused⟩ := fault_some sound old
      obtain ⟨inside, refined, same⟩ := Cell.wrap_spec fits old copied (shown.symm.trans made) caused
      have meant := Act.wrap_iff.mpr ⟨f, g, made, caused, refined, rfl⟩
      exact ⟨d, rfl, .refl _, inside, same.trans meant.symm⟩
    · cases done
  | outer lead e =>
    simp only [act] at done
    split at done
    · rename_i old
      cases done
      refine ⟨_, rfl, .refl _, ⟨?_, Slice.within_empty _⟩, rfl⟩
      rintro k ⟨⟩
      exact old
    · cases done

theorem old_of_fault {e : Nat} {f : Fault} (shown : h.fault? e = some f) : e < h.cells.length := by
  by_contra beyond
  cases (Cell.walk_missing _ _ (Nat.le_of_not_lt beyond)).symm.trans shown

theorem growth : Growth act Sound (·.cells.length) fault? fun look a => Act.fault? look a where
  adds := by
    intro h a g sound done
    obtain ⟨c, cells, keeps, fits, made⟩ := act_spec sound done
    obtain ⟨still, same⟩ := Cell.Sound.kept sound keeps
    have shown (k : Nat) : Cell.faultAt? g.arrays h.cells k = h.fault? k := same k
    unfold Sound fault?
    rw [cells]
    refine ⟨⟨fits, still⟩, List.length_cons, ?_, fun k old => ?_⟩
    · refine (Cell.walk_new _ _ c h.cells).trans (Eq.trans ?_ made)
      exact Cell.fault_congr c rfl fun k _ => shown k
    · exact (Cell.walk_old _ _ c old).trans (shown k)
  known := old_of_fault
  shown := fault_some
  mono := Act.fault_mono

theorem sound_empty : ({} : Heap).Sound := trivial

theorem run_sound (made : ({} : Heap).run acts = some h) :
    h.Sound ∧ h.cells.length = acts.length := by
  obtain ⟨sound, size, -⟩ := growth.run sound_empty made
  exact ⟨sound, size.trans (Nat.zero_add _)⟩

theorem run_fault (made : ({} : Heap).run acts = some h) (here : acts[k]? = some a) :
    ∃ f, h.fault? k = some f ∧ a.fault? h.fault? = some f :=
  growth.made sound_empty rfl made here

/-- The failure with this number is the sentinel, as it was made or with attributes and a place. -/
def Holds (h : Heap) (t : Nat) (s : Sentinel) : Prop :=
  ∃ g, h.fault? t = some g ∧ s.Marks g ∧ g.cause? = none

theorem is_eq {t : Nat} {s : Sentinel} {f : Fault} (sound : h.Sound) (held : h.Holds t s)
    (shown : h.fault? k = some f) : h.is k t = f.is s := by
  obtain ⟨g, target, ⟨origin, name⟩, causeless⟩ := held
  obtain ⟨c, found⟩ := Cell.at_some (old_of_fault target)
  obtain ⟨-, -, made⟩ := Cell.Sound.at_fits sound found
  obtain ⟨sameOrigin, sameOwn, causes⟩ := Cell.fault_shape (made.symm.trans target)
  have alone : c.cause? = none := by
    rw [causeless] at causes
    cases caused : c.cause? with
    | none => rfl
    | some k =>
      rw [caused] at causes
      obtain ⟨f, -, absurd⟩ := Option.map_eq_some_iff.mp causes
      cases absurd
  have met (d : Cell) (same : Cell.at? h.cells t = some d) : d = c :=
    Option.some.inj (same.symm.trans found)
  unfold is cell?
  rw [found]
  exact Cell.Sound.is_at sound met (sameOrigin.symm.trans origin) (sameOwn.symm.trans name) alone
    shown

end Heap

/-- The second failure was made by giving the first attributes or a cause. -/
def Act.Keeps (acts : List Act) (e k : Nat) : Prop :=
  (∃ as spare, acts[k]? = some (.attach e as spare)) ∨ ∃ cause, acts[k]? = some (.wrap e cause)

namespace Heap

variable {h : Heap} {acts : List Act} {k e t : Nat} {s : Sentinel}

theorem is_attach {as spare : List Attr} (made : ({} : Heap).run acts = some h)
    (here : acts[k]? = some (.attach e as spare)) (held : h.Holds t s) : h.is k t = h.is e t := by
  have sound := (run_sound made).1
  obtain ⟨f, shown, built⟩ := run_fault made here
  obtain ⟨g, found, -, rfl⟩ := Act.attach_iff.mp built
  rw [is_eq sound held shown, is_eq sound held found, Fault.is_withAttrs]

theorem is_place {i : Interval} (made : ({} : Heap).run acts = some h)
    (here : acts[k]? = some (.place e i)) (held : h.Holds t s) : h.is k t = h.is e t := by
  have sound := (run_sound made).1
  obtain ⟨f, shown, built⟩ := run_fault made here
  obtain ⟨g, found, -, rfl⟩ := Act.place_iff.mp built
  rw [is_eq sound held shown, is_eq sound held found, Fault.is_locate]

theorem is_wrap {cause : Nat} (made : ({} : Heap).run acts = some h)
    (here : acts[k]? = some (.wrap e cause)) (held : h.Holds t s) :
    h.is k t = true ↔ (∃ f, h.fault? e = some f ∧ s.Marks f) ∨ h.is cause t = true := by
  have sound := (run_sound made).1
  obtain ⟨f, shown, built⟩ := run_fault made here
  obtain ⟨g, c, found, caused, refined, rfl⟩ := Act.wrap_iff.mp built
  rw [is_eq sound held shown, is_eq sound held caused, Fault.is_wrap refined, found]
  simp

theorem place_kept {n : Nat} {i : Interval} (made : ({} : Heap).run acts = some h)
    (here : acts[n]? = some (.place e i)) (later : Relation.ReflTransGen (Act.Keeps acts) n k) :
    ∃ f, h.fault? k = some f ∧ f.isLocated = true ∧ f.interval = i := by
  induction later with
  | refl =>
    obtain ⟨f, shown, built⟩ := run_fault made here
    obtain ⟨g, -, placed, rfl⟩ := Act.place_iff.mp built
    exact ⟨_, shown, Fault.locate_place placed i⟩
  | tail _ last ih =>
    obtain ⟨g, before, located, place⟩ := ih
    rcases last with ⟨as, spare, last⟩ | ⟨cause, last⟩
    · obtain ⟨f, shown, built⟩ := run_fault made last
      obtain ⟨g', found, -, rfl⟩ := Act.attach_iff.mp built
      obtain rfl : g = g' := Option.some.inj (before.symm.trans found)
      obtain ⟨sameLocated, samePlace⟩ := Fault.withAttrs_place g as
      exact ⟨_, shown, sameLocated.trans located, samePlace.trans place⟩
    · obtain ⟨f, shown, built⟩ := run_fault made last
      obtain ⟨g', c, found, -, -, rfl⟩ := Act.wrap_iff.mp built
      obtain rfl : g = g' := Option.some.inj (before.symm.trans found)
      obtain ⟨sameLocated, samePlace⟩ := Fault.wrap_place g c
      exact ⟨_, shown, sameLocated.trans located, samePlace.trans place⟩

/-- For every history of failures: a failure counts as a sentinel just if it or one of its causes is
of the sentinel's origin and has its message; attributes and places do not change what it counts as,
and a cause adds what it counts as itself to the failure's own name; the last place given is kept; and
whatever is made later, each failure is the same and counts as the same. -/
theorem identity_survives (made : ({} : Heap).run acts = some h) :
    (∀ k a, acts[k]? = some a → ∃ f, h.fault? k = some f ∧ a.fault? h.fault? = some f ∧
      ∀ t s, h.Holds t s →
        h.is k t = f.is s ∧ (h.is k t = true ↔ ∃ g, f.Unwraps g ∧ s.Marks g) ∧
          ((∀ g, f.Unwraps g → g.origin? ≠ some s.origin) → h.is k t = false)) ∧
    (∀ k e as spare, acts[k]? = some (.attach e as spare) →
      ∀ t s, h.Holds t s → h.is k t = h.is e t) ∧
    (∀ k e i, acts[k]? = some (.place e i) → ∀ t s, h.Holds t s → h.is k t = h.is e t) ∧
    (∀ k e cause, acts[k]? = some (.wrap e cause) → ∀ t s, h.Holds t s →
      (h.is k t = true ↔ (∃ f, h.fault? e = some f ∧ s.Marks f) ∨ h.is cause t = true)) ∧
    (∀ n e i, acts[n]? = some (.place e i) → ∀ k, Relation.ReflTransGen (Act.Keeps acts) n k →
      ∃ f, h.fault? k = some f ∧ f.isLocated = true ∧ f.interval = i) ∧
    ∀ more g, h.run more = some g → ∀ k < acts.length,
      g.fault? k = h.fault? k ∧ ∀ t s, h.Holds t s → g.Holds t s ∧ g.is k t = h.is k t := by
  obtain ⟨sound, size⟩ := run_sound made
  refine ⟨?_, fun _ _ _ _ here _ _ => is_attach made here, fun _ _ _ here _ _ => is_place made here,
    fun _ _ _ here _ _ => is_wrap made here, fun _ _ _ here _ => place_kept made here, ?_⟩
  · intro k a here
    obtain ⟨f, shown, built⟩ := run_fault made here
    refine ⟨f, shown, built, fun t s held => ?_⟩
    have same := is_eq sound held shown
    refine ⟨same, by rw [same, Fault.is_iff], fun apart => ?_⟩
    rw [same, ← Bool.not_eq_true, Fault.is_iff]
    rintro ⟨g, behind, origin, -⟩
    exact apart g behind origin
  · intro more g ran k inside
    obtain ⟨soundLater, -, kept⟩ := growth.run sound ran
    have old : k < h.cells.length := size ▸ inside
    have same := kept k old
    obtain ⟨f, shown⟩ := fault_some sound old
    refine ⟨same, fun t s held => ?_⟩
    have still : g.Holds t s := by
      obtain ⟨target, found, marked⟩ := held
      exact ⟨target, (kept t (old_of_fault found)).trans found, marked⟩
    exact ⟨still, (is_eq soundLater still (same.trans shown)).trans (is_eq sound held shown).symm⟩

/-- Two sentinels share a message. One is placed, given an attribute and made the cause of a third, and
of the result two copies with further attributes are made. -/
def refined : List Act :=
  [.named .source Fault.parsing, .named .command Fault.parsing, .named .command Fault.compiling,
    .place 0 ⟨3, 5⟩, .attach 3 [.int "n" 1] [], .wrap 2 4, .outer "main" 5,
    .attach 5 [.int "n" 1] [.int "n" 0], .attach 7 [.int "n" 2] [], .attach 7 [.int "n" 3] []]

def ofRefined : Heap := (({} : Heap).run refined).getD {}

theorem refined_survives :
    ({} : Heap).run refined = some ofRefined ∧
      ofRefined.Holds 0 ⟨.source, Fault.parsing, by decide⟩ ∧
      ofRefined.is 6 0 = true ∧ ofRefined.is 6 1 = false ∧ ofRefined.is 6 2 = true ∧
      ofRefined.is 4 0 = ofRefined.is 3 0 ∧
      (∃ f, ofRefined.fault? 4 = some f ∧ f.isLocated = true ∧ f.interval = ⟨3, 5⟩) ∧
      ∀ g, ofRefined.run [.attach 7 [.int "n" 4] []] = some g →
        g.fault? 8 = ofRefined.fault? 8 := by
  have made : ({} : Heap).run refined = some ofRefined := rfl
  have held : ofRefined.Holds 0 ⟨.source, Fault.parsing, by decide⟩ := ⟨_, rfl, ⟨rfl, rfl⟩, rfl⟩
  obtain ⟨-, attached, -, -, placed, kept⟩ := identity_survives made
  exact ⟨made, held, by decide +kernel, by decide +kernel, by decide +kernel,
    attached 4 3 _ _ rfl 0 _ held, placed 3 0 ⟨3, 5⟩ rfl 4 (.single (.inl ⟨_, _, rfl⟩)),
    fun g ran => (kept _ g ran 8 (by decide)).1⟩

end Heap

end DistanceField
