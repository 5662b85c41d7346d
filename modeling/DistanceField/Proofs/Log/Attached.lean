import Mathlib.Data.List.Basic
import DistanceField.Log.Pretty
import DistanceField.Proofs.Growth
import DistanceField.Proofs.Slices
import DistanceField.Proofs.Text.Separators

/-! Attributes attached to a writer of coloured records. They are written as if they stood in the
record, each under the dotted names of the groups that were open when it was attached, and writers
that share what was attached to them do not disturb each other. -/
namespace DistanceField.Log

/-- A value in an attribute, with the names of the groups around it. -/
structure Leaf where
  groups : List Bytes
  key : Bytes
  value : Value

namespace Leaf

/-- What is written of a value where some groups are open already. -/
def field (opened : List Bytes) (l : Leaf) : Bytes × Value :=
  (Bytes.join "." (opened ++ l.groups ++ [l.key]), l.value)

def within (group : Bytes) (l : Leaf) : Leaf :=
  if group = [] then l else { l with groups := group :: l.groups }

mutual

/-- The values in an attribute. A group without a name adds none to the names around its values, and
an attribute with neither name nor value is left out. -/
def ofAttr : Attr → List Leaf
  | .mk k (.group as) => (ofAttrs as).map (within k)
  | .mk k .null => if k = [] then [] else [⟨[], k, .null⟩]
  | .mk k v => [⟨[], k, v⟩]

def ofAttrs : List Attr → List Leaf
  | [] => []
  | a :: rest => ofAttr a ++ ofAttrs rest

end

end Leaf

/-- What attributes show where some groups are open: failures in them are opened into groups. -/
def fields (opened : List Bytes) (as : List Attr) : List (Bytes × Value) :=
  (Leaf.ofAttrs (Attr.openedAll as)).map (Leaf.field opened)

def textField (key text : Bytes) : Bytes × Value := (key, .text text)

def recordFields (stamp : Bytes) (level : Level) (caller : Option Bytes) (msg : Bytes) :
    List (Bytes × Value) :=
  (if stamp = [] then [] else [textField "time" stamp]) ++ [(Bytes.ofString "level", .level level)] ++
    (caller.map (textField "source")).toList ++ [textField "msg" msg]

/-- The number of the colour that a value is shown in, and its text. -/
def shade : Value → Bytes × Bytes
  | .text b => ("36", b)
  | .integer n => ("33", Bytes.ofInt n)
  | .float v => ("33", Decimal.text Decimal.general v)
  | .bool true => ("32", "true")
  | .bool false => ("31", "false")
  | .duration ns => ("35", Duration.rounded ns)
  | .time s => ("34", (Calendar.ofSeconds s).spelled)
  | .level l =>
    (if 8 ≤ l then "31" else if 4 ≤ l then "33" else if 0 ≤ l then "32" else "34", Level.name l)
  | .null => ("90", "null")
  | .fault f => ("36", f.message)
  | .group as => ("36", "[" ++ Attr.displayAll as ++ "]")

def tinted (color text : Bytes) : Bytes := "\x1b[" ++ color ++ "m" ++ text ++ "\x1b[0m"

def entry (mark : Bytes) (x : Bytes × Value) : Bytes :=
  tinted "90" x.1 ++ mark ++ tinted (shade x.2).1 (shade x.2).2

/-- A text that has these fields in it, in this order, with a gap between each two. -/
inductive Lists (each : Bytes × Value → Bytes) (gap : Bytes) :
    List (Bytes × Value) → Bytes → Prop where
  | last (x : Bytes × Value) : Lists each gap [x] (each x)
  | more {x : Bytes × Value} {xs : List (Bytes × Value)} {text : Bytes}
      (rest : Lists each gap xs text) : Lists each gap (x :: xs) (each x ++ gap ++ text)

/-- A record of these fields: a line, or an object of several lines. -/
inductive Spelled : Format → List (Bytes × Value) → Bytes → Prop where
  | line {xs : List (Bytes × Value)} {text : Bytes} (list : Lists (entry "=") " " xs text) :
      Spelled .text xs (text ++ "\n")
  | object {xs : List (Bytes × Value)} {text : Bytes}
      (list : Lists (fun x => "  " ++ entry ": " x) ",\n" xs text) :
      Spelled .json xs ("\x7b\n" ++ text ++ "\n\x7d\n")

inductive Call where
  | attrs (as : List Attr)
  | group (name : Bytes)

namespace Call

/-- A group without a name is not opened. -/
def opens? : Call → Option Bytes
  | group name => if name = [] then none else some name
  | attrs _ => none

def opened (calls : List Call) : List Bytes := calls.filterMap opens?

/-- What the attributes of calls show, each time under the groups that are open then; `before` are
those open before the first call. -/
def attached (before : List Bytes) : List Call → List (Bytes × Value)
  | [] => []
  | attrs as :: rest => fields before as ++ attached before rest
  | group name :: rest => attached (before ++ (group name).opens?.toList) rest

end Call

namespace Pretty

/-- Open groups as a writer keeps them, each name with its dot. -/
def leadOf (opened : List Bytes) : Bytes := opened.flatMap (· ++ ".")

theorem leadOf_snoc (opened : List Bytes) (name : Bytes) :
    leadOf (opened ++ [name]) = leadOf opened ++ name ++ "." := by
  simp [leadOf]

theorem field_eq (opened : List Bytes) (l : Leaf) :
    l.field opened = (leadOf opened ++ leadOf l.groups ++ l.key, l.value) := by
  unfold Leaf.field
  rw [Bytes.join_append]
  simp [leadOf]

theorem within_eq (lead k : Bytes) (l : Leaf) :
    lead ++ leadOf (l.within k).groups ++ (l.within k).key =
      (if k.isEmpty then lead else lead ++ k ++ ".") ++ leadOf l.groups ++ l.key := by
  cases k with
  | nil => rfl
  | cons b k => simp [Leaf.within, leadOf]

theorem within_value (k : Bytes) (l : Leaf) : (l.within k).value = l.value := by
  unfold Leaf.within
  split <;> rfl

theorem flatten_leaves :
    (∀ lead a, flatten lead a =
      (Leaf.ofAttr a).map fun l => (lead ++ leadOf l.groups ++ l.key, l.value)) ∧
    ∀ lead as, flattenAll lead as =
      (Leaf.ofAttrs as).map fun l => (lead ++ leadOf l.groups ++ l.key, l.value) := by
  apply flatten.mutual_induct
  case case1 =>
    intro lead k as inner
    simp only [flatten, Leaf.ofAttr, List.map_map, inner]
    apply List.map_congr_left
    intro l _
    simp only [Function.comp, within_eq, within_value]
  case case2 =>
    intro lead k empty
    simp [flatten, Leaf.ofAttr, List.isEmpty_iff.mp empty]
  case case3 =>
    intro lead k named
    have named : k ≠ [] := fun empty => named (List.isEmpty_iff.mpr empty)
    simp [flatten, Leaf.ofAttr, named, leadOf]
  case case4 =>
    intro lead k v notGroup notNull
    cases v with
    | group as => exact (notGroup as rfl).elim
    | null => exact (notNull rfl).elim
    | _ => simp [flatten, Leaf.ofAttr, leadOf]
  case case5 =>
    intro lead
    rfl
  case case6 =>
    intro lead a rest first others
    simp only [flattenAll, Leaf.ofAttrs, List.map_append, first, others]

theorem flattenAll_eq (opened : List Bytes) (as : List Attr) :
    flattenAll (leadOf opened) (Attr.openedAll as) = fields opened as := by
  rw [flatten_leaves.2]
  exact List.map_congr_left fun l _ => (field_eq opened l).symm

theorem flattenAll_append (lead : Bytes) (as bs : List Attr) :
    flattenAll lead (as ++ bs) = flattenAll lead as ++ flattenAll lead bs := by
  induction as with
  | nil => rfl
  | cons a as ih => simp only [List.cons_append, flattenAll, ih, List.append_assoc]

theorem openedAll_append (as bs : List Attr) :
    Attr.openedAll (as ++ bs) = Attr.openedAll as ++ Attr.openedAll bs := by
  induction as with
  | nil => rfl
  | cons a as ih =>
    cases a
    simp only [List.cons_append, Attr.openedAll, ih]

theorem value_eq (v : Value) : value v = tinted (shade v).1 (shade v).2 := by
  cases v with
  | bool b => cases b <;> rfl
  | level l =>
    rw [value, shade, levelColor, Level.error, Level.warn, Level.info]
    split_ifs <;> rfl
  | _ => rfl

theorem pair_eq (mark : Bytes) (x : Bytes × Value) : pair mark x = entry mark x := by
  rw [pair, value_eq]
  rfl

theorem lists_join (each : Bytes × Value → Bytes) (gap : Bytes) {xs : List (Bytes × Value)}
    (some : xs ≠ []) : Lists each gap xs (Bytes.join gap (xs.map each)) := by
  induction xs with
  | nil => exact absurd rfl some
  | cons x xs ih =>
    cases xs with
    | nil => exact .last x
    | cons y ys => exact .more (ih (List.cons_ne_nil y ys))

theorem write_spelled (f : Format) {xs : List (Bytes × Value)} (some : xs ≠ []) :
    Spelled f xs (write f xs) := by
  cases f with
  | text =>
    rw [write, funext (pair_eq "=")]
    exact .line (lists_join _ _ some)
  | json =>
    rw [write, funext (pair_eq ": ")]
    exact .object (lists_join _ _ some)

theorem flatten_qualify {opened : List Bytes} (named : ∀ name ∈ opened, name ≠ [])
    (as : List Attr) :
    flattenAll [] (Attr.openedAll [qualify (leadOf opened) as]) = fields opened as := by
  rw [← flattenAll_eq]
  rcases List.eq_nil_or_concat' opened with rfl | ⟨front, name, rfl⟩
  · simp [qualify, leadOf, Attr.openedAll, Value.opened, flattenAll, flatten]
  · have dot : Bytes.ofString "." = [46] := by decide
    have some : name ≠ [] := named name (by simp)
    rw [leadOf_snoc, dot]
    simp [qualify, Attr.openedAll, Value.opened, flattenAll, flatten, some, dot]

/-- A writer that shows `fs` of what was attached, with the groups `opened` open. -/
structure Shows (p : Pretty) (f : Format) (stamp : Bytes) (opened : List Bytes)
    (fs : List (Bytes × Value)) : Prop where
  format : p.format = f
  layout : p.layout = stamp
  lead : p.lead = leadOf opened
  named : ∀ name ∈ opened, name ≠ []
  attached : flattenAll [] (Attr.openedAll p.attached) = fs

variable {p : Pretty} {f : Format} {stamp : Bytes} {opened : List Bytes} {fs : List (Bytes × Value)}

theorem fields_append (opened : List Bytes) (as bs : List Attr) :
    fields opened (as ++ bs) = fields opened as ++ fields opened bs := by
  simp only [← flattenAll_eq, openedAll_append, flattenAll_append]

theorem Shows.withAttrs (shows : p.Shows f stamp opened fs) (as : List Attr) :
    (p.withAttrs as).Shows f stamp opened (fs ++ fields opened as) := by
  cases as with
  | nil => exact (List.append_nil fs).symm ▸ shows
  | cons a as =>
    refine ⟨shows.format, shows.layout, shows.lead, shows.named, ?_⟩
    have more : (p.withAttrs (a :: as)).attached = p.attached ++ [qualify p.lead (a :: as)] := rfl
    rw [more, openedAll_append, flattenAll_append, shows.attached, shows.lead,
      flatten_qualify shows.named]

theorem Shows.withGroup (shows : p.Shows f stamp opened fs) (name : Bytes) :
    (p.withGroup name).Shows f stamp (opened ++ (Call.group name).opens?.toList) fs := by
  cases name with
  | nil => exact (List.append_nil opened).symm ▸ shows
  | cons b name =>
    refine ⟨shows.format, shows.layout, ?_, ?_, shows.attached⟩
    · exact (congrArg (· ++ b :: name ++ Bytes.ofString ".") shows.lead).trans
        (leadOf_snoc opened (b :: name)).symm
    · intro other found
      rcases List.mem_append.mp found with old | new
      · exact shows.named other old
      · cases List.mem_singleton.mp new
        exact List.cons_ne_nil b name

theorem Shows.record (shows : p.Shows f stamp opened fs) (level : Level) (caller : Option Bytes)
    (msg : Bytes) (as : List Attr) :
    p.record level caller msg as =
      write f (recordFields stamp level caller msg ++ fs ++ fields opened as) := by
  unfold Pretty.record
  dsimp only
  rw [shows.format, shows.layout, shows.lead, flattenAll_eq, flattenAll_append, shows.attached]
  congr 2
  cases stamp <;> cases caller <;>
    simp [flattenAll, flatten, Attr.text, recordFields, textField]

end Pretty

namespace Call

theorem opened_cons (c : Call) (calls : List Call) :
    opened (c :: calls) = c.opens?.toList ++ opened calls := by
  cases named : c.opens? <;> simp [opened, named]

theorem opened_snoc (calls : List Call) (c : Call) :
    opened (calls ++ [c]) = opened calls ++ c.opens?.toList := by
  cases named : c.opens? <;> simp [opened, named]

theorem attached_snoc (before : List Bytes) (calls : List Call) (c : Call) :
    attached before (calls ++ [c]) =
      attached before calls ++ attached (before ++ opened calls) [c] := by
  induction calls generalizing before with
  | nil => simp [attached, opened]
  | cons d calls ih =>
    rw [opened_cons]
    cases d with
    | attrs as => simp [attached, ih, opens?]
    | group name => simp [attached, ih]

end Call

/-- A writer in memory, where what was attached is in an array that writers made from it may share. -/
structure Writer where
  format : Format
  layout : Bytes
  lead : Bytes := []
  attached : Slice := .empty

namespace Writer

def pretty (arrays : List (List Attr)) (w : Writer) : Pretty :=
  ⟨w.format, w.layout, w.lead, w.attached.read arrays⟩

/-- The writer with further attributes, and the arrays with these. -/
def withAttrs (arrays : List (List Attr)) (w : Writer) (as spare : List Attr) :
    List (List Attr) × Writer :=
  if as.isEmpty then (arrays, w)
  else
    let (arrays, attached) := w.attached.clip.append arrays [Pretty.qualify w.lead as] spare
    (arrays, { w with attached := attached })

def withGroup (w : Writer) (name : Bytes) : Writer :=
  if name.isEmpty then w else { w with lead := w.lead ++ name ++ "." }

theorem withAttrs_spec {arrays : List (List Attr)} {w : Writer} (inside : w.attached.Within arrays)
    (as spare : List Attr) :
    Slice.Kept arrays (w.withAttrs arrays as spare).1 ∧
      (w.withAttrs arrays as spare).2.attached.Within (w.withAttrs arrays as spare).1 ∧
      (w.withAttrs arrays as spare).2.pretty (w.withAttrs arrays as spare).1 =
        (w.pretty arrays).withAttrs as := by
  cases as with
  | nil => exact ⟨.refl arrays, inside, rfl⟩
  | cons a as =>
    obtain ⟨keeps, stays, reads⟩ :=
      Slice.append_clip inside [Pretty.qualify w.lead (a :: as)] spare
    exact ⟨keeps, stays, congrArg (Pretty.mk w.format w.layout w.lead) reads⟩

theorem withGroup_spec (arrays : List (List Attr)) (w : Writer) (name : Bytes) :
    (w.withGroup name).attached = w.attached ∧
      (w.withGroup name).pretty arrays = (w.pretty arrays).withGroup name := by
  cases name <;> exact ⟨rfl, rfl⟩

end Writer

/-- How a writer is made, from others by number. An array that has to be made may get some room to
`spare`. -/
inductive Derivation where
  | start (f : Format) (layout : Bytes)
  | attrs (n : Nat) (as spare : List Attr)
  | group (n : Nat) (name : Bytes)

structure Writers where
  all : List Writer := []
  arrays : List (List Attr) := []

namespace Writers

def add (ws : Writers) (w : Writer) : Writers := { ws with all := ws.all ++ [w] }

/-- One more writer; refused when the one to make it from is missing. -/
def derive (ws : Writers) : Derivation → Option Writers
  | .start f layout => some (ws.add { format := f, layout := layout })
  | .attrs n as spare =>
    ws.all[n]?.map fun w =>
      let (arrays, v) := w.withAttrs ws.arrays as spare
      { all := ws.all ++ [v], arrays := arrays }
  | .group n name => ws.all[n]?.map fun w => ws.add (w.withGroup name)

def run (ws : Writers) (ds : List Derivation) : Option Writers := ds.foldlM derive ws

def pretty? (ws : Writers) (n : Nat) : Option Pretty := ws.all[n]?.map (·.pretty ws.arrays)

def record (ws : Writers) (n : Nat) (level : Level) (caller : Option Bytes) (msg : Bytes)
    (as : List Attr) : Option Bytes :=
  (ws.pretty? n).map fun p => p.record level caller msg as

end Writers

def Derivation.pretty? (look : Nat → Option Pretty) : Derivation → Option Pretty
  | .start f layout => some { format := f, layout := layout }
  | .attrs n as _ => (look n).map (·.withAttrs as)
  | .group n name => (look n).map (·.withGroup name)

namespace Writers

variable {ws vs : Writers} {d : Derivation}

def Sound (ws : Writers) : Prop := ∀ w ∈ ws.all, w.attached.Within ws.arrays

theorem derive_spec (sound : ws.Sound) (done : ws.derive d = some vs) :
    ∃ w, vs.all = ws.all ++ [w] ∧ Slice.Kept ws.arrays vs.arrays ∧ w.attached.Within vs.arrays ∧
      some (w.pretty vs.arrays) = d.pretty? ws.pretty? := by
  cases d with
  | start f layout =>
    cases done
    exact ⟨_, rfl, .refl _, Slice.within_empty _, rfl⟩
  | attrs n as spare =>
    obtain ⟨w, found, rfl⟩ := Option.map_eq_some_iff.mp done
    have shown : ws.pretty? n = some (w.pretty ws.arrays) := congrArg (Option.map _) found
    obtain ⟨keeps, inside, same⟩ :=
      Writer.withAttrs_spec (sound w (List.mem_of_getElem? found)) as spare
    exact ⟨_, rfl, keeps, inside, by rw [Derivation.pretty?, shown, same]; rfl⟩
  | group n name =>
    obtain ⟨w, found, rfl⟩ := Option.map_eq_some_iff.mp done
    have shown : ws.pretty? n = some (w.pretty ws.arrays) := congrArg (Option.map _) found
    obtain ⟨attached, same⟩ := Writer.withGroup_spec ws.arrays w name
    refine ⟨_, rfl, .refl _, attached ▸ sound w (List.mem_of_getElem? found), ?_⟩
    rw [Derivation.pretty?, shown]
    exact congrArg some same

theorem growth : Growth derive Sound (·.all.length) pretty? fun look d => Derivation.pretty? look d where
  adds := by
    intro ws d vs sound done
    obtain ⟨w, all, keeps, inside, made⟩ := derive_spec sound done
    refine ⟨?_, by simp [all], ?_, fun k old => ?_⟩
    · intro v member
      rw [all] at member
      rcases List.mem_append.mp member with old | new
      · exact (keeps _ (sound v old)).1
      · exact List.mem_singleton.mp new ▸ inside
    · simp only [pretty?, all, List.getElem?_concat_length, Option.map_some]
      exact made
    · unfold pretty?
      rw [all, List.getElem?_append_left old]
      cases found : ws.all[k]? with
      | none => rfl
      | some v =>
        have same := (keeps _ (sound v (List.mem_of_getElem? found))).2
        simp only [Option.map_some, Writer.pretty, same]
  known := by
    intro ws k p shown
    obtain ⟨w, found, -⟩ := Option.map_eq_some_iff.mp shown
    exact (List.getElem?_eq_some_iff.mp found).1
  shown := by
    intro ws k _ old
    exact ⟨_, congrArg (Option.map _) (List.getElem?_eq_getElem old)⟩
  mono := by
    intro f g d p more made
    cases d with
    | start => exact made
    | attrs n as spare | group n name =>
      obtain ⟨q, found, rfl⟩ := Option.map_eq_some_iff.mp made
      simp only [Derivation.pretty?, more n q found, Option.map_some]

theorem sound_empty : ({} : Writers).Sound := by
  rintro w ⟨⟩

end Writers

/-- The calls that led to a writer, from one that was made with a format and a time. -/
inductive Derived (ds : List Derivation) (f : Format) (layout : Bytes) : Nat → List Call → Prop where
  | start {k : Nat} (here : ds[k]? = some (.start f layout)) : Derived ds f layout k []
  | attrs {k n : Nat} {as spare : List Attr} {calls : List Call}
      (here : ds[k]? = some (.attrs n as spare)) (before : Derived ds f layout n calls) :
      Derived ds f layout k (calls ++ [.attrs as])
  | group {k n : Nat} {name : Bytes} {calls : List Call} (here : ds[k]? = some (.group n name))
      (before : Derived ds f layout n calls) : Derived ds f layout k (calls ++ [.group name])

namespace Writers

variable {ds : List Derivation} {ws : Writers} {k n : Nat} {f : Format} {layout : Bytes}
  {calls : List Call}

theorem derived_of_run (made : ({} : Writers).run ds = some ws) (inside : k < ds.length) :
    ∃ f layout calls, Derived ds f layout k calls := by
  induction k using Nat.strongRecOn with
  | _ k ih =>
    have here : ds[k]? = some ds[k] := List.getElem?_eq_getElem inside
    obtain ⟨p, early, -, built, older⟩ := growth.made_early sound_empty rfl made here
    cases step : ds[k] with
    | start f layout => exact ⟨f, layout, [], .start (here.trans (congrArg some step))⟩
    | attrs n as spare =>
      rw [step] at here built
      obtain ⟨q, found, -⟩ := Option.map_eq_some_iff.mp built
      have old := (older n q found).1
      obtain ⟨f, layout, calls, before⟩ := ih n old (Nat.lt_trans old inside)
      exact ⟨f, layout, _, .attrs here before⟩
    | group n name =>
      rw [step] at here built
      obtain ⟨q, found, -⟩ := Option.map_eq_some_iff.mp built
      have old := (older n q found).1
      obtain ⟨f, layout, calls, before⟩ := ih n old (Nat.lt_trans old inside)
      exact ⟨f, layout, _, .group here before⟩

theorem shows_derived (made : ({} : Writers).run ds = some ws)
    (derived : Derived ds f layout k calls) :
    ∃ p, ws.pretty? k = some p ∧
      p.Shows f layout (Call.opened calls) (Call.attached [] calls) := by
  induction derived with
  | start here =>
    obtain ⟨p, shown, built⟩ := growth.made sound_empty rfl made here
    cases built
    exact ⟨_, shown, ⟨rfl, rfl, rfl, by simp [Call.opened], rfl⟩⟩
  | @attrs k n as spare calls here before ih =>
    obtain ⟨q, held, shows⟩ := ih
    obtain ⟨p, shown, built⟩ := growth.made sound_empty rfl made here
    obtain ⟨r, found, rfl⟩ := Option.map_eq_some_iff.mp built
    obtain rfl : q = r := Option.some.inj (held.symm.trans found)
    refine ⟨_, shown, ?_⟩
    rw [Call.attached_snoc, Call.opened_snoc]
    simpa [Call.attached, Call.opens?] using shows.withAttrs as
  | @group k n name calls here before ih =>
    obtain ⟨q, held, shows⟩ := ih
    obtain ⟨p, shown, built⟩ := growth.made sound_empty rfl made here
    obtain ⟨r, found, rfl⟩ := Option.map_eq_some_iff.mp built
    obtain rfl : q = r := Option.some.inj (held.symm.trans found)
    refine ⟨_, shown, ?_⟩
    rw [Call.attached_snoc, Call.opened_snoc]
    simpa [Call.attached] using shows.withGroup name

theorem record_attrs {as spare : List Attr} (made : ({} : Writers).run ds = some ws)
    (here : ds[k]? = some (.attrs n as spare)) (level : Level) (caller : Option Bytes) (msg : Bytes)
    (rest : List Attr) :
    ws.record k level caller msg rest = ws.record n level caller msg (as ++ rest) := by
  obtain ⟨p, early, shown, built, older⟩ := growth.made_early sound_empty rfl made here
  obtain ⟨q, found, rfl⟩ := Option.map_eq_some_iff.mp built
  obtain ⟨old, held⟩ := older n q found
  have inside : k < ds.length := (List.getElem?_eq_some_iff.mp here).1
  obtain ⟨f, layout, calls, derived⟩ := derived_of_run made (Nat.lt_trans old inside)
  obtain ⟨r, same, shows⟩ := shows_derived made derived
  obtain rfl : q = r := Option.some.inj (held.symm.trans same)
  unfold record
  rw [shown, held, Option.map_some, Option.map_some, (shows.withAttrs as).record, shows.record,
    Pretty.fields_append]
  simp only [List.append_assoc]

/-- For every way of making writers from each other: a record shows its own fields, then for each time
that attributes were attached these under the groups open then, then its attributes under all groups
open. Attached attributes show as those of the record do, and no writer made later changes what
another one writes. -/
theorem attached_print_alike (made : ({} : Writers).run ds = some ws) :
    (∀ k < ds.length, ∃ f layout calls, Derived ds f layout k calls) ∧
    (∀ k f layout calls, Derived ds f layout k calls → ∀ level caller msg as,
      ∃ text, ws.record k level caller msg as = some text ∧
        Spelled f (recordFields layout level caller msg ++ Call.attached [] calls ++
          fields (Call.opened calls) as) text) ∧
    (∀ k n as spare, ds[k]? = some (.attrs n as spare) → ∀ level caller msg rest,
      ws.record k level caller msg rest = ws.record n level caller msg (as ++ rest)) ∧
    ∀ more vs, ws.run more = some vs → ∀ k < ds.length, ∀ level caller msg as,
      vs.record k level caller msg as = ws.record k level caller msg as := by
  refine ⟨fun k => derived_of_run made, ?_, fun _ _ _ _ => record_attrs made, ?_⟩
  · intro k f layout calls derived level caller msg as
    obtain ⟨p, shown, shows⟩ := shows_derived made derived
    have some : recordFields layout level caller msg ++ Call.attached [] calls ++
        fields (Call.opened calls) as ≠ [] := by simp [recordFields]
    refine ⟨_, ?_, Pretty.write_spelled f some⟩
    unfold record
    rw [shown, Option.map_some, shows.record]
  · intro more vs ran k inside level caller msg as
    obtain ⟨sound, size, -⟩ := growth.run sound_empty made
    have old : k < ws.all.length := by
      rw [size]
      exact Nat.lt_of_lt_of_eq inside (Nat.zero_add _).symm
    obtain ⟨-, -, same⟩ := growth.run sound ran
    unfold record
    rw [same k old]

/-- Two writers are made from one that has room to spare behind what was attached to it, in a group
that has a dot for its name. The last one writes objects. -/
def siblings : List Derivation :=
  [.start .text "now", .attrs 0 [.int "n" 1] [.int "n" 0], .group 1 ".",
    .attrs 2 [.group "" [.int "n" 2], .group "g" []] [], .attrs 2 [.mk "" .null] [],
    .start .json "", .group 5 "g"]

def ofSiblings : Writers := (({} : Writers).run siblings).getD {}

def siblingLine : Bytes :=
  "\x1b[90mtime\x1b[0m=\x1b[36mnow\x1b[0m \x1b[90mlevel\x1b[0m=\x1b[33mwarn\x1b[0m " ++
    "\x1b[90mmsg\x1b[0m=\x1b[36mhi\x1b[0m \x1b[90mn\x1b[0m=\x1b[33m1\x1b[0m " ++
    "\x1b[90m..n\x1b[0m=\x1b[33m2\x1b[0m\n"

def siblingObject : Bytes :=
  "\x7b\n  \x1b[90mlevel\x1b[0m: \x1b[33mwarn\x1b[0m,\n  \x1b[90mmsg\x1b[0m: \x1b[36mhi\x1b[0m,\n" ++
    "  \x1b[90mg.e\x1b[0m: \x1b[90mnull\x1b[0m\n\x7d\n"

theorem siblings_print_alike :
    ({} : Writers).run siblings = some ofSiblings ∧
      ofSiblings.record 3 4 none "hi" [] = some siblingLine ∧
      Spelled .text (recordFields "now" 4 none "hi" ++
        [(Bytes.ofString "n", .integer 1), (Bytes.ofString "..n", .integer 2)]) siblingLine ∧
      ofSiblings.record 6 4 none "hi" [.mk "e" .null] = some siblingObject ∧
      Spelled .json (recordFields "" 4 none "hi" ++ [(Bytes.ofString "g.e", .null)]) siblingObject ∧
      (∀ level caller msg rest, ofSiblings.record 3 level caller msg rest =
        ofSiblings.record 2 level caller msg ([.group "" [.int "n" 2], .group "g" []] ++ rest)) ∧
      ∀ vs, ofSiblings.run [.attrs 2 [.int "n" 3] []] = some vs → ∀ level caller msg as,
        vs.record 3 level caller msg as = ofSiblings.record 3 level caller msg as := by
  have made : ({} : Writers).run siblings = some ofSiblings := rfl
  have first : Derived siblings .text "now" 1 [.attrs [.int "n" 1]] := .attrs rfl (.start rfl)
  have second : Derived siblings .text "now" 2 [.attrs [.int "n" 1], .group "."] :=
    .group rfl first
  have sixth : Derived siblings .json "" 6 [.group "g"] := .group rfl (.start rfl)
  have line : ofSiblings.record 3 4 none "hi" [] = some siblingLine := by decide +kernel
  have object : ofSiblings.record 6 4 none "hi" [.mk "e" .null] = some siblingObject := by
    decide +kernel
  obtain ⟨-, prints, direct, kept⟩ := attached_print_alike made
  obtain ⟨a, written, spelled⟩ := prints 3 _ _ _ (.attrs rfl second) 4 none "hi" []
  obtain ⟨b, also, itemised⟩ := prints 6 _ _ _ sixth 4 none "hi" [.mk "e" .null]
  obtain rfl : a = siblingLine := Option.some.inj (written.symm.trans line)
  obtain rfl : b = siblingObject := Option.some.inj (also.symm.trans object)
  exact ⟨made, line, spelled, object, itemised, direct 3 2 _ _ rfl,
    fun vs ran => kept _ vs ran 3 (by decide)⟩

end Writers

end DistanceField.Log
