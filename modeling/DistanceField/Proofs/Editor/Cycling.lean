import DistanceField.Proofs.Editor.Rows

/-! Completions in place of a word. The bounds of the word at the cursor are kept as offsets into the
text, and each press of a key counts back from them to columns of the cursor's row. Whatever
completions are tried, the text is the one before with the word replaced. -/
namespace DistanceField.Editor

namespace Model

/-- The cursor's row is `lead`, the word at the noted bounds, and `rest`. -/
structure WordAt (m : Model) (lead word rest : List Char) : Prop where
  line : m.buffer.line = lead ++ word ++ rest
  flat : '\n' ∉ lead ++ word
  first : m.wordStart = (Utf8.encode (m.buffer.aboveText ++ lead)).length
  last : m.wordEnd = (Utf8.encode (m.buffer.aboveText ++ lead ++ word)).length

theorem bounds_refresh (m : Model) : m.refresh.wordStart = (wordBounds m.value m.cursor).1 ∧
    m.refresh.wordEnd = (wordBounds m.value m.cursor).2 := by
  unfold refresh completions
  dsimp only
  split <;> exact ⟨rfl, rfl⟩

theorem around_refresh (m : Model) : m.refresh.wordStart ≤ m.refresh.cursor ∧
    m.refresh.cursor ≤ m.refresh.wordEnd ∧ m.refresh.wordEnd ≤ m.refresh.value.length := by
  obtain ⟨first, last⟩ := m.bounds_refresh
  rw [first, last]
  unfold cursor value
  rw [(refresh_kept m).2.2]
  exact m.buffer.wordBounds_around

theorem wordAt_refresh {m : Model} (lined : m.buffer.Lined) :
    ∃ lead word rest, m.refresh.WordAt lead word rest := by
  obtain ⟨lead, word, rest, line, bounds⟩ := m.buffer.wordBounds_row
  have flat : '\n' ∉ lead ++ word ++ rest := line ▸ lined _ (by simp [Buffer.rows])
  obtain ⟨first, last⟩ := m.bounds_refresh
  unfold cursor value at first last
  rw [bounds] at first last
  have kept : m.refresh.buffer = m.buffer := (refresh_kept m).2.2
  refine ⟨lead, word, rest, ?_, fun found => flat (List.mem_append_left _ found), ?_, ?_⟩
  · rw [kept]
    exact line
  · rw [kept]
    exact first
  · rw [kept]
    exact last

variable {m : Model} {lead word rest : List Char}

theorem WordAt.text (here : m.WordAt lead word rest) : m.value =
    Utf8.encode (m.buffer.aboveText ++ lead) ++ Utf8.encode word ++
      Utf8.encode (rest ++ m.buffer.below.flatMap ('\n' :: ·)) := by
  rw [value, Buffer.value_eq, Buffer.text_eq, here.line, ← Buffer.encode_append,
    ← Buffer.encode_append]
  simp [Buffer.aboveText]

theorem columnOf_row {before behind : List Char}
    (text : m.value = Utf8.encode (m.buffer.aboveText ++ before) ++ Utf8.encode behind)
    (flat : '\n' ∉ before) :
    m.columnOf (Utf8.encode (m.buffer.aboveText ++ before)).length = before.length := by
  have stop : (Utf8.encode m.buffer.aboveText).reverse.takeWhile (· != 10) = [] := by
    have feed : Utf8.encode ['\n'] = [10] := by decide
    rcases m.buffer.aboveText_cases with none | ⟨above, last⟩
    · simp [none, Utf8.encode]
    · simp [last, Buffer.encode_append, feed]
  have other : ∀ b ∈ (Utf8.encode before).reverse, (b != 10) = true := by
    intro b found
    rw [bne_iff_ne]
    rintro rfl
    exact flat (mem_encode_feed.mp (List.mem_reverse.mp found))
  unfold columnOf
  dsimp only
  rw [text, List.take_left, Buffer.encode_append, List.reverse_append,
    List.takeWhile_append_of_pos other, stop, List.append_nil, List.reverse_reverse,
    Utf8.chars_encode]

theorem WordAt.columns (here : m.WordAt lead word rest) :
    m.columnOf m.wordStart = lead.length ∧ m.columnOf m.wordEnd = lead.length + word.length := by
  have flat : '\n' ∉ lead := fun found => here.flat (List.mem_append_left _ found)
  rw [here.first, here.last, List.append_assoc, ← List.length_append]
  constructor
  · exact columnOf_row (by rw [here.text, List.append_assoc, ← Buffer.encode_append]) flat
  · exact columnOf_row (by rw [here.text, ← Buffer.encode_append, List.append_assoc]) here.flat

/-- What may be written in place of a word: characters that stay in their row as they are. -/
def Plain (cs : List Char) : Prop := (∀ c ∈ cs, Buffer.clean c = [c]) ∧ '\n' ∉ cs

/-- A word is replaced in its row, and nothing else changes. -/
theorem WordAt.replace (here : m.WordAt lead word rest) {cs : List Char} (plain : Plain cs) :
    (m.replaceWord (Utf8.encode cs)).buffer =
        ⟨m.buffer.above, (lead ++ cs).reverse, rest, m.buffer.below, 0⟩ ∧
      (m.replaceWord (Utf8.encode cs)).WordAt lead cs rest := by
  obtain ⟨start, stop⟩ := here.columns
  have placed : m.buffer.setColumn (lead.length + word.length) =
      ⟨m.buffer.above, word.reverse ++ lead.reverse, rest, m.buffer.below, 0⟩ := by
    have width : lead.length + word.length = (lead ++ word).length := by simp
    unfold Buffer.setColumn
    rw [here.line, width, List.take_left, List.drop_left, List.reverse_append]
  have buffer : (m.replaceWord (Utf8.encode cs)).buffer =
      ⟨m.buffer.above, (lead ++ cs).reverse, rest, m.buffer.below, 0⟩ := by
    unfold replaceWord
    dsimp only
    rw [start, stop, Nat.add_sub_cancel_left, placed, Utf8.chars_encode, ← List.length_reverse,
      Buffer.erase_left rfl rfl, Buffer.insert_left _ plain.1 plain.2, List.reverse_append]
  have above : (m.replaceWord (Utf8.encode cs)).buffer.aboveText = m.buffer.aboveText := by
    rw [buffer]
    rfl
  refine ⟨buffer, ?_, ?_, ?_, ?_⟩
  · rw [buffer]
    simp [Buffer.line]
  · have flat : '\n' ∉ lead := fun found => here.flat (List.mem_append_left _ found)
    exact List.mem_append.not.mpr (not_or.mpr ⟨flat, plain.2⟩)
  · rw [above]
    exact here.first
  · rw [above, Buffer.encode_append, List.length_append, ← here.first]
    rfl

end Model

section Names

theorem mem_insert {x y : Match} {found : List Match} : x ∈ Fuzzy.insert y found → x = y ∨ x ∈ found := by
  induction found with
  | nil => simp [Fuzzy.insert]
  | cons z found ih =>
    rw [Fuzzy.insert]
    split
    · exact List.mem_cons.mp
    · intro inside
      rcases List.mem_cons.mp inside with rfl | later
      · simp
      · rcases ih later with same | old
        · exact .inl same
        · exact .inr (List.mem_cons_of_mem _ old)

theorem mem_sort {x : Match} (found : List Match) : x ∈ Fuzzy.sort found → x ∈ found := by
  induction found using List.reverseRecOn with
  | nil => exact id
  | append_singleton found y ih =>
    intro inside
    rw [Fuzzy.sort, List.foldl_append] at inside
    rcases mem_insert inside with rfl | old
    · simp
    · exact List.mem_append_left _ (ih old)

theorem name_of_find {word : Bytes} {names : List Bytes} {x : Match} (found : x ∈ Fuzzy.find word names) :
    x.name ∈ names := by
  unfold Fuzzy.find at found
  split at found
  · cases found
  · obtain ⟨⟨name, i⟩, inside, made⟩ := List.mem_filterMap.mp (mem_sort _ found)
    unfold Fuzzy.match? at made
    dsimp only at made
    split at made
    · obtain rfl := Option.some.inj made
      exact List.fst_mem_of_mem_zipIdx inside
    · cases made

theorem name_of_completions {input : Bytes} {cursor : Int} {x : Match}
    (found : x ∈ (completions input cursor).1) : ∃ start, x.name ∈ candidates input start := by
  unfold completions at found
  dsimp only at found
  have listed : x ∈ Fuzzy.find (slice input (wordBounds input cursor))
      (candidates input (wordBounds input cursor).1) := by
    split at found
    · split at found
      · cases found
      · exact found
    · exact found
  exact ⟨_, name_of_find listed⟩

theorem candidates_letters {input : Bytes} {start : Int} {name : Bytes}
    (found : name ∈ candidates input start) : ∀ b ∈ name, 97 ≤ b ∧ b ≤ 122 := by
  have shapes : ∀ name ∈ Shape.names, ∀ b ∈ name, 97 ≤ b ∧ b ≤ 122 := by
    simp [Shape.names, Shape.named, Shape.known, Shape.name, Bytes.ofString, String.utf8EncodeChar]
  have params : ∀ shape, ∀ p ∈ (Schema.ofShape shape).params, ∀ b ∈ p.name, 97 ≤ b ∧ b ≤ 122 := by
    intro shape
    cases shape with
    | other => simp [Schema.ofShape]
    | _ => decide +kernel
  unfold candidates at found
  split at found
  · exact shapes name ((List.mergeSort_perm _ _).mem_iff.mp found)
  · split at found
    · cases found
    · split at found
      · next s known =>
        obtain ⟨p, inside, rfl⟩ := List.mem_map.mp found
        unfold schema? at known
        split at known
        · obtain rfl := Option.some.inj known
          exact params _ p inside
        · cases known
      · cases found

theorem letters_plain {name : Bytes} (letters : ∀ b ∈ name, 97 ≤ b ∧ b ≤ 122) :
    ∃ cs, name = Utf8.encode cs ∧ Model.Plain cs := by
  have small : ∀ n < 123, 97 ≤ n →
      Buffer.clean (Char.ofNat n) = [Char.ofNat n] ∧ '\n' ≠ Char.ofNat n := by decide +kernel
  have each : ∀ b ∈ name, b.toNat < 128 ∧
      Buffer.clean (Char.ofNat b.toNat) = [Char.ofNat b.toNat] ∧ '\n' ≠ Char.ofNat b.toNat := by
    intro b found
    obtain ⟨least, most⟩ := letters b found
    rw [UInt8.le_iff_toNat_le] at least most
    exact ⟨lt_of_le_of_lt most (by decide), small b.toNat (Nat.lt_succ_of_le most) least⟩
  refine ⟨name.map fun b => Char.ofNat b.toNat, ?_, ?_, ?_⟩
  · rw [Utf8.encode, List.flatMap_map]
    refine ((List.flatMap_congr fun b found => ?_).trans (List.flatMap_singleton' _)).symm
    exact Utf8.ofChar_one (each b found).1
  · intro c found
    obtain ⟨b, inside, rfl⟩ := List.mem_map.mp found
    exact (each b inside).2.1
  · intro found
    obtain ⟨b, inside, feed⟩ := List.mem_map.mp found
    exact (each b inside).2.2 feed.symm

end Names

namespace Model

/-- The place of a selection after presses forward and back, which start before the first completion
or at it. -/
def position (turns : List Bool) : Int :=
  (if turns.head? = some true then -1 else 0) + turns.count true - turns.count false

theorem position_concat {turns : List Bool} (started : turns ≠ []) (forward : Bool) :
    position (turns ++ [forward]) = position turns + if forward then 1 else -1 := by
  rw [position, position, List.head?_append_of_ne_nil _ started, List.count_append, List.count_append]
  cases forward <;> simp <;> omega

/-- What has become of an editor `m` after completions were tried. -/
structure Tried (m after : Model) (lead rest : List Char) (turns : List Bool) : Prop where
  matched : after.matched = m.matched
  above : after.buffer.above = m.buffer.above
  below : after.buffer.below = m.buffer.below
  word : ∃ word, after.WordAt lead word rest
  tabbing : after.tabbing = !turns.isEmpty
  chosen : turns ≠ [] → after.selected = position turns % m.matched.length ∧
    ∃ c, m.matched[after.selected.toNat]? = some c ∧
      after.buffer.left = (lead ++ Utf8.chars c.name).reverse ∧ after.buffer.right = rest

variable {m after : Model} {lead rest : List Char} {turns : List Bool}

/-- The next selection is the next place, all around. -/
theorem Tried.next (tried : m.Tried after lead rest turns) (several : 2 ≤ m.matched.length)
    (forward : Bool) :
    after.nextSelection forward = position (turns ++ [forward]) % m.matched.length := by
  have tabbing := tried.tabbing
  unfold nextSelection
  dsimp only
  rw [tried.matched]
  generalize count : (m.matched.length : Int) = n
  have positive : 0 < n := by omega
  by_cases started : turns = []
  · subst started
    cases forward with
    | true => simp [tabbing, position]
    | false =>
      have last : (-1 : Int) % n = n - 1 := by
        rw [← Int.add_emod_right, Int.emod_eq_of_lt (by omega) (by omega)]
        omega
      simp [tabbing, position, last]
  · obtain ⟨selected, -⟩ := tried.chosen started
    rw [count] at selected
    have least := Int.emod_nonneg (position turns) positive.ne'
    have going : after.tabbing = true := by simp [tabbing, started]
    rw [if_pos going, selected, position_concat started, Int.tmod_eq_emod_of_nonneg (by split <;> omega),
      Int.add_emod_right, Int.emod_add_emod]

theorem cycle_several {m : Model} (several : 2 ≤ m.matched.length) (forward : Bool) {c : Match}
    (chosen : m.matched[(m.nextSelection forward).toNat]? = some c) :
    m.cycle forward =
      ({ m with tabbing := true, selected := m.nextSelection forward }.replaceWord c.name) := by
  unfold cycle
  split
  · next none => simp [none] at several
  · next single => simp [single] at several
  · dsimp only
    rw [chosen]

theorem Tried.cycle (tried : m.Tried after lead rest turns) (several : 2 ≤ m.matched.length)
    (plain : ∀ c ∈ m.matched, ∃ cs, c.name = Utf8.encode cs ∧ Plain cs) (forward : Bool) :
    m.Tried (after.cycle forward) lead rest (turns ++ [forward]) := by
  have next := tried.next several forward
  have positive : (0 : Int) < m.matched.length := by omega
  have least : 0 ≤ after.nextSelection forward := next ▸ Int.emod_nonneg _ (by omega)
  have most : (after.nextSelection forward).toNat < m.matched.length := by
    have := Int.emod_lt_of_pos (position (turns ++ [forward])) positive
    omega
  have chosen : m.matched[(after.nextSelection forward).toNat]? =
      some (m.matched[(after.nextSelection forward).toNat]) := List.getElem?_eq_getElem most
  generalize m.matched[(after.nextSelection forward).toNat] = c at chosen
  obtain ⟨cs, name, plain⟩ := plain c (List.mem_of_getElem? chosen)
  obtain ⟨word, here⟩ := tried.word
  let ready := { after with tabbing := true, selected := after.nextSelection forward }
  have here : ready.WordAt lead word rest := ⟨here.line, here.flat, here.first, here.last⟩
  obtain ⟨buffer, moved⟩ := here.replace plain
  have cycled : after.cycle forward = ready.replaceWord (Utf8.encode cs) := by
    rw [← name]
    exact cycle_several (by rwa [tried.matched]) forward (by rwa [tried.matched])
  rw [cycled]
  refine ⟨tried.matched, ?_, ?_, ⟨cs, moved⟩, ?_, fun _ => ⟨next, c, chosen, ?_, ?_⟩⟩
  · rw [buffer]
    exact tried.above
  · rw [buffer]
    exact tried.below
  · simp [ready, replaceWord]
  · rw [buffer, name, Utf8.chars_encode]
  · rw [buffer]

def completing (m : Model) : Buffer × List Match × (Nat × Nat) × Int × Bool :=
  (m.buffer, m.matched, (m.wordStart, m.wordEnd), m.selected, m.tabbing)

theorem Tried.of_same {other : Model} (tried : m.Tried after lead rest turns)
    (same : other.completing = after.completing) : m.Tried other lead rest turns := by
  simp only [completing, Prod.mk.injEq] at same
  obtain ⟨buffer, matched, ⟨first, last⟩, selected, tabbing⟩ := same
  obtain ⟨word, here⟩ := tried.word
  refine ⟨matched ▸ tried.matched, buffer ▸ tried.above, buffer ▸ tried.below, ⟨word, ?_⟩,
    tabbing ▸ tried.tabbing, ?_⟩
  · exact ⟨buffer ▸ here.line, here.flat, by rw [first, buffer, here.first],
      by rw [last, buffer, here.last]⟩
  · rw [selected, buffer]
    exact tried.chosen

structure Fresh (m : Model) (lead word rest : List Char) : Prop where
  word : m.WordAt lead word rest
  idle : m.tabbing = false
  plain : ∀ c ∈ m.matched, ∃ cs, c.name = Utf8.encode cs ∧ Plain cs
  around : m.wordStart ≤ m.cursor ∧ m.cursor ≤ m.wordEnd ∧ m.wordEnd ≤ m.value.length

theorem fresh_refresh {m : Model} (lined : m.buffer.Lined) (idle : m.tabbing = false) :
    ∃ lead word rest, m.refresh.Fresh lead word rest := by
  obtain ⟨lead, word, rest, here⟩ := wordAt_refresh lined
  have kept : m.refresh.tabbing = m.tabbing ∧
      m.refresh.matched = (completions m.value m.cursor).1 := by
    unfold refresh
    generalize completions m.value m.cursor = found
    exact ⟨rfl, rfl⟩
  refine ⟨lead, word, rest, here, kept.1.trans idle, ?_, m.around_refresh⟩
  intro c found
  rw [kept.2] at found
  obtain ⟨start, candidate⟩ := name_of_completions found
  exact letters_plain (candidates_letters candidate)

theorem fresh_edit {m : Model} (lined : m.buffer.Lined) (e : Edit) :
    ∃ lead word rest, (m.update (.key (.edit e))).1.Fresh lead word rest := by
  refine fresh_refresh ?_ rfl
  exact lined.apply _ e

theorem Fresh.tried {word : List Char} (fresh : m.Fresh lead word rest) : m.Tried m lead rest [] :=
  ⟨rfl, rfl, rfl, ⟨word, fresh.word⟩, fresh.idle, fun none => absurd rfl none⟩

/-- The text with the word replaced, and the cursor behind it. -/
theorem Tried.text {word : List Char} (fresh : m.Fresh lead word rest)
    (tried : m.Tried after lead rest turns) (started : turns ≠ []) :
    ∃ c, m.matched[after.selected.toNat]? = some c ∧
      after.value = m.value.take m.wordStart ++ c.name ++ m.value.drop m.wordEnd ∧
      after.cursor = m.wordStart + c.name.length := by
  have here := fresh.word
  obtain ⟨-, c, chosen, left, right⟩ := tried.chosen started
  obtain ⟨cs, name, -⟩ := fresh.plain c (List.mem_of_getElem? chosen)
  have letters : Utf8.encode (Utf8.chars c.name) = c.name := by rw [name, Utf8.chars_encode]
  have front : Utf8.encode after.buffer.front =
      Utf8.encode (m.buffer.aboveText ++ lead) ++ c.name := by
    rw [Buffer.front, left, tried.above, List.reverse_reverse, ← List.append_assoc,
      Buffer.encode_append, letters]
    rfl
  have back : after.buffer.back = rest ++ m.buffer.below.flatMap ('\n' :: ·) := by
    rw [Buffer.back, right, tried.below]
  have kept : m.value.take m.wordStart = Utf8.encode (m.buffer.aboveText ++ lead) := by
    rw [here.first, here.text, List.append_assoc, List.take_left]
  have behind : m.value.drop m.wordEnd =
      Utf8.encode (rest ++ m.buffer.below.flatMap ('\n' :: ·)) := by
    rw [here.last, here.text, ← Buffer.encode_append, List.drop_left]
  refine ⟨c, chosen, ?_, ?_⟩
  · rw [value, Buffer.value_split, front, back, kept, behind]
  · rw [cursor, Buffer.cursor_eq, front, List.length_append, here.first]

end Model

namespace Desk

def Move.turn? : Move → Option Bool
  | .message (.key .tab) => some true
  | .message (.key .shiftTab) => some false
  | _ => none

def Move.isQuiet : Move → Bool
  | .message (.key _) => false
  | .message (.edited _ _) => false
  | _ => true

theorem message_model (d : Desk) (msg : Message) : (d.message msg).model = (d.model.update msg).1 := by
  unfold message
  generalize d.model.update msg = found
  rfl

theorem completing_quiet (d : Desk) {move : Move} (quiet : move.isQuiet = true) :
    (d.step move).model.completing = d.model.completing := by
  cases move with
  | message msg =>
    cases msg with
    | key => cases quiet
    | resized => rfl
    | tick =>
      simp only [step, message, Model.update]
      split <;> rfl
    | compiled u =>
      simp only [step, message, Model.update, Model.applyUpdate_eq]
      rfl
    | saved source failure => cases failure <;> rfl
    | edited => cases quiet
  | begin i =>
    simp only [step, begin]
    split <;> rfl
  | finish i =>
    simp only [step, finish]
    split <;> rfl
  | deliver i =>
    simp only [step, deliver]
    split
    · simp only [Model.update, Model.applyUpdate_eq]
      rfl
    · rfl

theorem lined_step {d : Desk} (lined : d.model.buffer.Lined) (move : Move) :
    (d.step move).model.buffer.Lined := by
  by_cases quiet : move.isQuiet = true
  · rw [(Prod.mk.inj (d.completing_quiet quiet)).1]
    exact lined
  · cases move with
    | message msg => exact Model.lined_update lined msg
    | _ => exact absurd rfl quiet

theorem lined_run {d : Desk} (lined : d.model.buffer.Lined) (moves : List Move) :
    (d.run moves).model.buffer.Lined := by
  induction moves generalizing d with
  | nil => exact lined
  | cons move moves ih => exact ih (lined_step lined move)

section Cycling

variable {m : Model} {lead rest : List Char} {turns : List Bool} {d : Desk}

theorem tried_step (tried : m.Tried d.model lead rest turns) (several : 2 ≤ m.matched.length)
    (plain : ∀ c ∈ m.matched, ∃ cs, c.name = Utf8.encode cs ∧ Model.Plain cs) {move : Move}
    (allowed : move.turn?.isSome = true ∨ move.isQuiet = true) :
    m.Tried (d.step move).model lead rest (turns ++ move.turn?.toList) := by
  have press (forward : Bool) (quit : Bool) :
      m.Tried ({ d.model with message := [], armed := quit }.cycle forward) lead rest
        (turns ++ [forward]) := by
    refine Model.Tried.cycle (tried.of_same ?_) several plain forward
    rfl
  rcases allowed with turn | quiet
  · cases move with
    | message msg =>
      cases msg with
      | key k =>
        cases k with
        | tab => exact press true _
        | shiftTab => exact press false _
        | _ => cases turn
      | _ => cases turn
    | _ => cases turn
  · have none : move.turn? = none := by
      cases move with
      | message msg =>
        cases msg with
        | key => cases quiet
        | _ => rfl
      | _ => rfl
    rw [none]
    simpa using tried.of_same (d.completing_quiet quiet)

theorem tried_run (tried : m.Tried d.model lead rest turns) (several : 2 ≤ m.matched.length)
    (plain : ∀ c ∈ m.matched, ∃ cs, c.name = Utf8.encode cs ∧ Model.Plain cs) {moves : List Move}
    (allowed : ∀ move ∈ moves, move.turn?.isSome = true ∨ move.isQuiet = true) :
    m.Tried (d.run moves).model lead rest (turns ++ moves.filterMap Move.turn?) := by
  induction moves generalizing d turns with
  | nil => simpa [run] using tried
  | cons move moves ih =>
    obtain ⟨here, later⟩ := List.forall_mem_cons.mp allowed
    have next := ih (tried_step tried several plain here) later
    have order : (move :: moves).filterMap Move.turn? =
        move.turn?.toList ++ moves.filterMap Move.turn? := by
      cases turn : move.turn? <;> simp [turn]
    rwa [order, ← List.append_assoc]

end Cycling

/-- After a text key with several completions, whatever presses of Tab and Shift+Tab follow, among
messages that are no keys and compiles beside the editor, the text is the one before with the word
replaced by the selected completion, and the cursor stands behind it. -/
theorem cycling_replaces_word (strict : Bool) (path source : Bytes) (before : List Move) (e : Edit)
    (presses : List Move)
    (allowed : ∀ move ∈ presses, move.turn?.isSome = true ∨ move.isQuiet = true) :
    let d := ((start strict path source).run before).message (.key (.edit e))
    let turns := presses.filterMap Move.turn?
    let m := d.model
    let after := (d.run presses).model
    2 ≤ m.matched.length → turns ≠ [] →
      (m.wordStart ≤ m.cursor ∧ m.cursor ≤ m.wordEnd ∧ m.wordEnd ≤ m.value.length) ∧
      after.matched = m.matched ∧ after.selected = Model.position turns % m.matched.length ∧
      ∃ c, m.matched[after.selected.toNat]? = some c ∧
        after.value = m.value.take m.wordStart ++ c.name ++ m.value.drop m.wordEnd ∧
        after.cursor = m.wordStart + c.name.length := by
  intro d turns m after several started
  have opened : (start strict path source).model.buffer.Lined := Buffer.lined_ofText source
  obtain ⟨lead, word, rest, fresh⟩ := Model.fresh_edit (lined_run opened before) e
  rw [← message_model] at fresh
  have tried : m.Tried after lead rest turns := tried_run fresh.tried several fresh.plain allowed
  exact ⟨fresh.around, tried.matched, (tried.chosen started).1, tried.text fresh started⟩

/-- A word of two letters is typed between characters of two bytes. -/
def typing : Desk :=
  ((start false "m.csg" "é\n r é").run
    [.message (.key (.edit .left)), .message (.key (.edit .left))]).message (.key (.edit (.insert ['o'])))

def tries : List Move := [.message (.key .tab), .message .tick, .begin 0, .message (.key .shiftTab)]

theorem tries_replace_word :
    let m := typing.model
    let after := (typing.run tries).model
    m.matched.map Match.name = ["rot", "arot", "intersection"].map Bytes.ofString ∧
      after.selected = 2 ∧ ∃ c, m.matched[2]? = some c ∧
        after.value = m.value.take m.wordStart ++ c.name ++ m.value.drop m.wordEnd ∧
        after.cursor = m.wordStart + c.name.length := by
  have names : typing.model.matched.map Match.name =
      ["rot", "arot", "intersection"].map Bytes.ofString := by cbv
  have count : typing.model.matched.length = 3 := by simpa using congrArg List.length names
  have allowed : ∀ move ∈ tries, move.turn?.isSome = true ∨ move.isQuiet = true := by
    simp [tries, Move.turn?, Move.isQuiet]
  have several : 2 ≤ typing.model.matched.length := by omega
  obtain ⟨-, -, selected, replaced⟩ := cycling_replaces_word false "m.csg" "é\n r é"
    [.message (.key (.edit .left)), .message (.key (.edit .left))] (.insert ['o']) tries allowed
    several (by simp [tries, Move.turn?])
  have last : (typing.run tries).model.selected = 2 := by
    refine selected.trans ?_
    change Model.position (tries.filterMap Move.turn?) % (typing.model.matched.length : Int) = 2
    rw [count]
    decide
  refine ⟨names, last, ?_⟩
  have two : (typing.run tries).model.selected.toNat = 2 := by rw [last]; rfl
  rw [← two]
  exact replaced

end Desk

end DistanceField.Editor
