import DistanceField.Text.Width

/-! Tables as text. -/
namespace DistanceField.Command

structure Table where
  header : List Bytes
  rows : List (List Bytes)

namespace Table

def widths (t : Table) : List Nat :=
  t.rows.foldl (fun ws row => List.zipWith (fun w c => max w (Width.ofText c)) ws row)
    (t.header.map Width.ofText)

def cell (width : Nat) (c : Bytes) : Bytes := " " ++ c ++ Bytes.spaces (width - Width.ofText c + 1)

def ruled (ws : List Nat) (row : List Bytes) : Bytes :=
  "│" ++ Bytes.join "│" (List.zipWith cell ws row) ++ "│\n"

def rule (left middle right : Bytes) (ws : List Nat) : Bytes :=
  left ++ Bytes.join middle (ws.map fun w => Bytes.repeated (w + 2) "─") ++ right ++ "\n"

def boxed (t : Table) : Bytes :=
  let ws := t.widths
  rule "┌" "┬" "┐" ws ++ ruled ws (t.header.map fun h => h.map Bytes.upperByte) ++
    rule "├" "┼" "┤" ws ++ t.rows.flatMap (ruled ws) ++ rule "└" "┴" "┘" ws

def csv (t : Table) : Bytes := (t.header :: t.rows).flatMap fun row => Bytes.join "," row ++ "\n"

def barred (row : List Bytes) : Bytes := "| " ++ Bytes.join " | " row ++ " |\n"

def markdown (t : Table) : Bytes :=
  barred t.header ++ barred (t.header.map fun _ => Bytes.ofString "---") ++ t.rows.flatMap barred

end Table

end DistanceField.Command
