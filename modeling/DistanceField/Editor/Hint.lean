import DistanceField.Editor.Fuzzy
import DistanceField.Editor.Word
import DistanceField.Text.Width

/-! The line below the text: completions of the word at the cursor, or the signature of the call
around it. -/
namespace DistanceField.Editor

/-- The completions of the word at the cursor, and its bounds. A word that spells its only
completion has none. -/
def completions (input : Bytes) (cursor : Int) : List Match × Nat × Nat :=
  let bounds := wordBounds input cursor
  let word := slice input bounds
  let found := Fuzzy.find word (candidates input bounds.1)
  match found with
  | [m] => (if m.name == word then [] else found, bounds)
  | _ => (found, bounds)

/-- The matches behind the first, `used` columns being taken; dots stand for those that do not
fit. -/
def barFrom (width used : Int) : List Match → Bytes
  | [] => []
  | m :: rest =>
    let entry : Int := m.name.length + 2
    if used + entry + 3 > width then "  ..."
    else "  " ++ m.name ++ barFrom width (used + entry) rest

def candidateBar (matches_ : List Match) (width : Int) : Bytes :=
  match matches_ with
  | [] => []
  | m :: rest => if width ≤ 0 then [] else m.name ++ barFrom width m.name.length rest

def signatureHint (s : Schema) : Bytes :=
  let summary : Bytes := if s.summary.isEmpty then [] else "  " ++ s.summary
  s.signature ++ summary

end DistanceField.Editor
