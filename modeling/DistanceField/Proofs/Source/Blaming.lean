import DistanceField.Proofs.Source.Scanning

/-! Every complaint about a text is about a part of it, wherever in the scanner or the parser it comes
from. -/
namespace DistanceField

namespace Parser

open Grammar Outcome

/-- All tokens lie in a text of `len` bytes. -/
def Lying (len : Int) (ts : List Token) : Prop := ∀ t ∈ ts, Inside 0 len t.span

def Standing (len : Int) (f : Function) : Prop := Inside 0 len f.span

/-- A tree that can be blamed as a whole, or for the first function in it. -/
structure Blamable (len : Int) (e : Node) : Prop where
  span : Inside 0 len e.span
  function : ∀ f, e.function? = some f → Standing len f

/-- A step that stays in the text: what it complains about lies there, and so do the tokens it leaves. -/
structure Stays {α : Type} (len : Int) (Good : α → Prop) (o : Outcome α) : Prop where
  failed : ∀ c, o.result = .error c → Inside 0 len c.span
  good : ∀ a rest, o.result = .ok (a, rest) → Good a ∧ Lying len rest

section Steps

variable {α β : Type} {len : Int} {Good : α → Prop} {Fine : β → Prop}

theorem stays_fail {trouble : Trouble} {i : Interval} (inside : Inside 0 len i) :
    Stays len Good (fail trouble i) := by
  constructor
  · rintro c ⟨⟩
    exact inside
  · rintro a rest ⟨⟩

theorem stays_done {a : α} {ts : List Token} (fine : Good a) (lying : Lying len ts) :
    Stays len Good (done a ts) := by
  constructor
  · rintro c ⟨⟩
  · rintro b rest ⟨⟩
    exact ⟨fine, lying⟩

theorem Stays.andThen {o : Outcome α} {next : α → List Token → Outcome β} (first : Stays len Good o)
    (second : ∀ a rest, Good a → Lying len rest → Stays len Fine (next a rest)) :
    Stays len Fine (o.andThen next) := by
  unfold Outcome.andThen
  cases result : o.result with
  | error c =>
    constructor
    · rintro d ⟨⟩
      exact first.failed c result
    · rintro b rest ⟨⟩
  | ok p =>
    obtain ⟨a, rest⟩ := p
    obtain ⟨good, lying⟩ := first.good a rest result
    obtain ⟨failed, fine⟩ := second a rest good lying
    exact ⟨failed, fine⟩

theorem Stays.warn {o : Outcome α} (stays : Stays len Good o) (w : Warning) :
    Stays len Good (o.warn w) := ⟨stays.failed, stays.good⟩

theorem Lying.tail {ts : List Token} (lying : Lying len ts) : Lying len ts.tail :=
  fun t found => lying t (List.mem_of_mem_tail found)

theorem blamable_function {f : Function} (inside : Standing len f) :
    Blamable len (.function f) := by
  constructor
  · exact inside
  · rintro g ⟨⟩
    exact inside

theorem stays_asNode {o : Outcome Function} :
    Stays len (Blamable len) (asNode o) ↔ Stays len (Standing len) o := by
  constructor
  · intro stays
    constructor
    · intro c failed
      apply stays.failed
      rw [asNode, Outcome.andThen, failed]
    · intro f rest read
      obtain ⟨blamable, lying⟩ := stays.good _ rest (asNode_result read)
      exact ⟨blamable.span, lying⟩
  · intro stays
    exact stays.andThen fun _ _ inside lying => stays_done (blamable_function inside) lying

end Steps

section Parsing

variable {s : Setting} {len : Int} {n : Nat} (finish : Inside 0 len s.finish.span)

include finish

theorem Lying.peek {ts : List Token} (lying : Lying len ts) : Inside 0 len (s.peek ts).span := by
  cases ts with
  | nil => exact finish
  | cons t ts => exact lying t List.mem_cons_self

theorem number_stays {ts : List Token} (lying : Lying len ts) :
    Stays len (Blamable len) (number s ts) := by
  have read (rest : List Token) (lies : Lying len rest) (v : Float) :
      Stays len (Blamable len) (if (s.peek rest).kind == .number then
          done (.number v ((s.peek ts).span.union (s.peek rest).span)) rest.tail
        else fail (.unexpected (s.peek rest).kind) (s.peek rest).span) := by
    split
    · refine stays_done ⟨(lying.peek finish).union le_rfl (lies.peek finish), ?_⟩ lies.tail
      rintro f ⟨⟩
    · exact stays_fail (lies.peek finish)
  rw [number]
  cases (s.peek ts).kind == .plus || (s.peek ts).kind == .minus with
  | true => exact read ts.tail lying.tail _
  | false => exact read ts lying _

omit finish in
theorem assign_stays {f : Function} {name : Token} {e : Node} {ts : List Token}
    (own : Standing len f) (named : Inside 0 len name.span) (value : Inside 0 len e.span)
    (lying : Lying len ts) : Stays len (Standing len) (assign s f name e ts) := by
  have grown : Standing len ((f.assign name.value e).cover e.span) := by
    rw [Standing, Function.cover, Function.span, assign_span]
    exact own.union le_rfl value
  rw [assign]
  dsimp only
  split
  · split
    · exact stays_fail named
    · exact (stays_done grown lying).warn _
  · exact stays_done grown lying

omit finish in
theorem Standing.cover {f : Function} {i : Interval} (own : Standing len f) (inside : Inside 0 len i) :
    Standing len (f.cover i) := Inside.union le_rfl own inside

omit finish in
theorem blamable_operator {op : Token} {l r : Node} (sign : Inside 0 len op.span)
    (left : Blamable len l) (right : Blamable len r) : Blamable len (operator op l r) := by
  constructor
  · exact (left.span.union le_rfl sign).union le_rfl right.span
  · intro f found
    rcases Option.or_eq_some_iff.mp found with first | ⟨-, second⟩
    · exact left.function f first
    · exact right.function f second

def Task.Sound (len : Int) : Task → Prop
  | .arguments f | .block f | .parameters f | .operands f => Standing len f
  | .chain _ l => Blamable len l
  | .function | .value _ => True

/-- A step with some fuel, on any tokens of the text. -/
def Confined (s : Setting) (len : Int) (n : Nat) (task : Task) : Prop :=
  task.Sound len → ∀ ts, Lying len ts → Stays len (Blamable len) (task.outcome s n ts)

omit finish in
theorem arguments_confined {f : Function} (list : Confined s len n (.parameters f)) :
    Confined s len n (.arguments f) := by
  intro (own : Standing len f) ts lying
  rw [Task.outcome, stays_asNode]
  split
  · exact stays_asNode.mp (list own ts.tail lying.tail)
  · exact stays_done own lying

omit finish in
theorem block_confined {f : Function} (list : Confined s len n (.operands f)) :
    Confined s len n (.block f) := by
  intro (own : Standing len f) ts lying
  rw [Task.outcome, stays_asNode]
  split
  · exact stays_asNode.mp (list own ts.tail lying.tail)
  · exact stays_done own lying

variable (all : ∀ task, Confined s len n task)

include all

theorem function_confined : Confined s len (n + 1) .function := by
  intro _ ts lying
  rw [Task.outcome, stays_asNode, Parser.function]
  dsimp only
  split
  · exact stays_fail (lying.peek finish)
  · have own : Standing len (named (s.peek ts)) := lying.peek finish
    refine (stays_asNode.mp (all (.arguments _) own ts.tail lying.tail)).andThen ?_
    intro f rest own lying
    exact stays_asNode.mp (all (.block f) own rest lying)

theorem parameters_confined (f : Function) : Confined s len (n + 1) (.parameters f) := by
  intro (own : Standing len f) ts lying
  have first := lying.peek finish
  rw [Task.outcome, stays_asNode, Parser.parameters]
  dsimp only
  split
  · exact stays_done (own.cover first) lying.tail
  split
  · exact stays_fail first
  split
  · exact stays_fail (lying.tail.peek finish)
  refine (all (.value .sum) trivial _ lying.tail.tail).andThen ?_
  intro e rest value lying
  split
  · rename_i g found
    exact stays_fail (value.function g found)
  refine (assign_stays own first value.span lying).andThen ?_
  intro g rest own lying
  split
  · exact stays_asNode.mp (all (.parameters g) own rest lying)
  split
  · exact stays_asNode.mp (all (.parameters g) own rest.tail lying.tail)
  · exact stays_fail (lying.peek finish)

theorem operands_confined (f : Function) : Confined s len (n + 1) (.operands f) := by
  intro (own : Standing len f) ts lying
  have first := lying.peek finish
  rw [Task.outcome, stays_asNode, Parser.operands]
  split
  · exact stays_done (own.cover first) lying.tail
  split
  · exact stays_fail first
  refine (all (.value .sum) trivial _ lying).andThen ?_
  intro e rest value lying
  split
  · rename_i g
    split
    · exact stays_fail (lying.peek finish)
    · have grown : Standing len (f.addOperand g) := own
      exact stays_asNode.mp (all (.operands _) (grown.cover value.span) rest lying)
  · exact stays_fail value.span

omit finish in
theorem value_confined {level : Level} (loose : level ≠ .atom) :
    Confined s len (n + 1) (.value level) := by
  intro _ ts lying
  have first := all (.value (tighter level)) trivial ts lying
  have second (e : Node) (rest : List Token) (good : Blamable len e) (lies : Lying len rest) :=
    all (.chain level e) good rest lies
  cases level with
  | sum | product => exact first.andThen second
  | atom => exact absurd rfl loose

theorem chain_confined (level : Level) (l : Node) : Confined s len (n + 1) (.chain level l) := by
  intro (left : Blamable len l) ts lying
  have sign := lying.peek finish
  have right := all (.value (tighter level)) trivial ts.tail lying.tail
  have rest (r : Node) (rest : List Token) (good : Blamable len r) (lies : Lying len rest) :=
    all (.chain level (operator (s.peek ts) l r)) (blamable_operator sign left good) rest lies
  cases level with
  | sum =>
    rw [Task.outcome, sumFrom]
    split
    · exact right.andThen rest
    · exact stays_done left lying
  | product =>
    rw [Task.outcome, productFrom]
    split
    · exact right.andThen rest
    · exact stays_done left lying
  | atom => exact stays_done left lying

theorem factor_confined : Confined s len (n + 1) (.value .atom) := by
  intro _ ts lying
  rw [Task.outcome, factor]
  dsimp only
  split
  · exact number_stays finish lying
  · exact number_stays finish lying
  · exact number_stays finish lying
  · refine (all (.value .sum) trivial ts.tail lying.tail).andThen ?_
    intro e rest good lying
    split
    · exact stays_done good lying.tail
    · exact stays_fail (lying.peek finish)
  · exact all .function trivial ts lying
  · exact stays_fail (lying.peek finish)

end Parsing

section Texts

variable {s : Setting} {len : Int} (finish : Inside 0 len s.finish.span)

include finish

theorem confined_all (n : Nat) (task : Task) : Confined s len n task := by
  -- on the fuel, as what the parser accepts is traced
  induction n generalizing task with
  | zero =>
    have parameters (f : Function) : Confined s len 0 (.parameters f) :=
      fun _ _ lying => stays_asNode.mpr (stays_fail (lying.peek finish))
    have operands (f : Function) : Confined s len 0 (.operands f) :=
      fun _ _ lying => stays_asNode.mpr (stays_fail (lying.peek finish))
    cases task with
    | function => exact fun _ _ lying => stays_asNode.mpr (stays_fail (lying.peek finish))
    | arguments f => exact arguments_confined (parameters f)
    | block f => exact block_confined (operands f)
    | parameters f => exact parameters f
    | operands f => exact operands f
    | value level => cases level <;> exact fun _ _ lying => stays_fail (lying.peek finish)
    | chain level l =>
      cases level with
      | sum | product => exact fun _ _ lying => stays_fail (lying.peek finish)
      | atom => exact fun left _ lying => stays_done left lying
  | succ n ih =>
    cases task with
    | function => exact function_confined finish ih
    | arguments f => exact arguments_confined (parameters_confined finish ih f)
    | block f => exact block_confined (operands_confined finish ih f)
    | parameters f => exact parameters_confined finish ih f
    | operands f => exact operands_confined finish ih f
    | value level =>
      cases level with
      | sum | product => exact value_confined ih (by simp)
      | atom => exact factor_confined finish ih
    | chain level l => exact chain_confined finish ih level l

theorem documentFrom_stays (n : Nat) (d : Document) {ts : List Token} (lying : Lying len ts) :
    Stays len (fun _ => True) (documentFrom s n d ts) := by
  induction n generalizing d ts with
  | zero => exact stays_fail (lying.peek finish)
  | succ n ih =>
    rw [documentFrom]
    refine (stays_asNode.mp (confined_all finish n .function trivial ts lying)).andThen ?_
    intro f rest _ lying
    dsimp only
    split
    · exact stays_done trivial lying
    · exact ih _ lying

end Texts

theorem parseTokens_blames {strict : Bool} {len : Int} {ts : List Token} {c : Complaint}
    (lying : Lying len ts) (low : 0 ≤ len) (failed : (parseTokens strict ts).result = .error c) :
    Inside 0 len c.span := by
  have finish : Inside 0 len (finishOf ts).span := by
    unfold finishOf
    split
    · rename_i t last
      have inside := lying t (List.mem_of_getLast? last)
      exact ⟨⟨inside.low.trans inside.filled, le_rfl⟩, inside.high⟩
    · exact ⟨⟨le_rfl, le_rfl⟩, low⟩
  have stays := documentFrom_stays (s := ⟨strict, finishOf ts⟩) finish (8 * (ts.length + 1))
    ⟨[], .none⟩ lying
  rw [parseTokens] at failed
  apply stays.failed
  cases result : (documentFrom ⟨strict, finishOf ts⟩ (8 * (ts.length + 1)) ⟨[], .none⟩ ts).result with
  | error d =>
    rw [result] at failed
    cases failed
    rfl
  | ok p =>
    rw [result] at failed
    cases failed

end Parser

theorem Lexer.Stuck.inside {pos len : Nat} {text : Bytes} {c : Complaint} (stuck : Stuck pos text c)
    (within : pos + text.length ≤ len) : Parser.Inside 0 len c.span := by
  cases stuck with
  | point =>
    rw [List.length_append, List.length_cons] at within
    exact ⟨⟨by dsimp only; omega, by dsimp only; omega⟩, by dsimp only; omega⟩
  | unknown _ _ rune =>
    have size := rune.size.2
    exact ⟨⟨by dsimp only; omega, by dsimp only; omega⟩, by dsimp only; omega⟩

theorem scan_blames {source : Bytes} {c : Complaint} (failed : scan source = .error c) :
    Parser.Inside 0 source.length c.span := by
  obtain ⟨front, rest, rfl, -, stuck, -⟩ := Lexer.halts_of_scan failed
  refine stuck.inside ?_
  rw [List.length_append, Nat.zero_add]

theorem lying_of_scan {source : Bytes} {ts : List Token} (scanned : scan source = .ok ts) :
    Parser.Lying source.length ts := by
  have lexes := Lexer.lexes_of_scan scanned
  obtain ⟨us, rfl, proper⟩ := lexes.last
  intro t found
  rcases List.mem_append.mp found with inner | last
  · obtain ⟨before, after, placed⟩ := lexes.placed [] rfl found (proper t inner)
    obtain ⟨low, filled, high⟩ := placed.filled
    exact ⟨⟨low, filled.le⟩, high⟩
  · rw [List.mem_singleton.mp last, Nat.zero_add]
    exact ⟨⟨Int.natCast_nonneg _, le_rfl⟩, le_rfl⟩

/-- A complaint is about a part of the text. -/
theorem parse_blames {strict : Bool} {source : Bytes} {c : Complaint}
    (failed : (parse strict source).result = .error c) : Parser.Inside 0 source.length c.span := by
  unfold parse at failed
  cases scanned : scan source with
  | error d =>
    rw [scanned] at failed
    cases failed
    exact scan_blames scanned
  | ok ts =>
    rw [scanned] at failed
    exact Parser.parseTokens_blames (lying_of_scan scanned) (Int.natCast_nonneg _) failed

end DistanceField
