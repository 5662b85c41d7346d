import DistanceField.Proofs.Source.Parallel
import DistanceField.Proofs.Source.Repeats
import DistanceField.Fault

/-! What strictness changes. A strict reading of some tokens is known from the lenient one: it fails
where the lenient one warns first, and is the same where there is no warning. The warnings of an
accepted text are the names that stand twice in one parameter list. -/
namespace DistanceField

namespace Parser

open Outcome

/-- What a strict run makes of a lenient one. -/
inductive Settles {α : Type} (same : α → α → Prop) : Outcome α → Outcome α → Prop where
  | calm {a b : α} {ts : List Token} (alike : same a b) :
      Settles same ⟨[], .ok (a, ts)⟩ ⟨[], .ok (b, ts)⟩
  | failed {c : Complaint} : Settles same ⟨[], .error c⟩ ⟨[], .error c⟩
  | warned {w : Warning} {ws : List Warning} {r : Except Complaint (α × List Token)} {c : Complaint}
      (syntactic : c.trouble.isLexical = false) (message : c.trouble.message = w.message)
      (span : c.span = w.span) : Settles same ⟨w :: ws, r⟩ ⟨[], .error c⟩

theorem Settles.andThen {α β : Type} {same : α → α → Prop} {other : β → β → Prop} {o p : Outcome α}
    {next next' : α → List Token → Outcome β} (first : Settles same o p)
    (rest : ∀ {a b ts}, same a b → Settles other (next a ts) (next' b ts)) :
    Settles other (o.andThen next) (p.andThen next') := by
  cases first with
  | calm alike => simpa [Outcome.andThen] using rest alike
  | failed => exact .failed
  | @warned w ws r c syntactic message span =>
    cases r with
    | ok => exact .warned syntactic message span
    | error => exact .warned syntactic message span

/-- A lenient run and a strict one over the same tokens. -/
def sterner (finish : Token) : Bond .exact ⟨false, finish⟩ ⟨true, finish⟩ where
  tokens := Eq
  outcome := Settles
  kind same := by rw [same]; rfl
  value same := by rw [same]; rfl
  span same := by rw [same]; rfl
  tail same _ := by rw [same]
  done alike same := by
    rw [same]
    exact .calm alike
  fail place := by
    cases place
    exact .failed
  andThen first rest := first.andThen fun alike => rest alike rfl
  assign := by
    rintro f _ name name' e _ ts _ rfl value place rfl rfl
    unfold Parser.assign
    dsimp only
    rw [value]
    split
    · exact .warned rfl rfl place.symm
    · exact .calm rfl

end Parser

theorem parseTokens_settles (ts : List Token) :
    match (parseTokens false ts).warnings with
    | [] => parseTokens true ts = parseTokens false ts
    | w :: _ => ∃ c, (parseTokens true ts).result = .error c ∧
        c.fault = .source Fault.parsing (some (.plain w.message)) [] (some w.span) := by
  have blank : Parser.Bond.Documents .exact ⟨[], .none⟩ ⟨[], .none⟩ := ⟨.nil, rfl⟩
  have settles := (Parser.sterner (finishOf ts)).documentFrom_linked (n := 8 * (ts.length + 1))
    blank (rfl : ts = ts)
  unfold parseTokens
  generalize Parser.documentFrom ⟨false, finishOf ts⟩ _ _ ts = o at settles
  generalize Parser.documentFrom ⟨true, finishOf ts⟩ _ _ ts = p at settles
  cases settles with
  | calm like => rw [like.eq]
  | failed => rfl
  | @warned w ws r c syntactic message span =>
    refine ⟨c, rfl, ?_⟩
    rw [Complaint.fault, syntactic, message, span]
    rfl

/-- A strict reading is known from the lenient one. It is the same when that has no warnings, and
otherwise a syntax error at its first warning; of an accepted text, the warnings are the repeated
parameters. -/
theorem strict_known_from_lenient (ts : List Token) :
    (match (parseTokens false ts).warnings with
      | [] => parseTokens true ts = parseTokens false ts
      | w :: _ => ∃ c, (parseTokens true ts).result = .error c ∧
          c.fault = .source Fault.parsing (some (.plain w.message)) [] (some w.span)) ∧
    ∀ d, (parseTokens false ts).result = .ok d →
      (parseTokens false ts).warnings = (repetitions ts).map (remarkAt ts) :=
  ⟨parseTokens_settles ts, fun _ accepted => parseTokens_warnings accepted⟩

def stammer : List Token :=
  (scan "a(x=1,x=2) a(x=3,y=4,x=5)").toOption.getD []

theorem stammer_known_from_lenient :
    repetitions stammer = [6, 20] ∧
    (parseTokens false stammer).warnings = [6, 20].map (remarkAt stammer) ∧
    ∃ c, (parseTokens true stammer).result = .error c ∧
      c.fault = .source Fault.parsing (some (.plain "duplicate parameter \"x\" in a")) []
        (some ⟨6, 7⟩) := by
  have found : repetitions stammer = [6, 20] := by decide +kernel
  have accepted : (parseTokens false stammer).result.isOk = true := by decide +kernel
  have first : remarkAt stammer 6 = ⟨"duplicate parameter \"x\" in a", ⟨6, 7⟩⟩ := by decide +kernel
  obtain ⟨strict, lenient⟩ := strict_known_from_lenient stammer
  generalize read : (parseTokens false stammer).result = o at accepted
  cases o with
  | error c => cases accepted
  | ok d =>
    have warned := lenient d read
    rw [found] at warned
    rw [warned, List.map_cons, first] at strict
    exact ⟨found, warned, strict⟩

end DistanceField
