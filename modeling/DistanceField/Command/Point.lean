import DistanceField.Fault
import DistanceField.Number.Read
import DistanceField.Text.Letter

/-! Points on the command line. -/
namespace DistanceField.Command

structure Point where
  x : Float
  y : Float
  z : Float

namespace Point

def fault (text : Bytes) : Fault := (Fault.ofCommand Fault.badPoint).withAttrs [.text "point" text]

def coordinate (text field : Bytes) : Except Fault Float :=
  let trimmed := Letter.trim field
  match Read.double trimmed with
  | ⟨v, none⟩ => .ok v
  | ⟨_, some why⟩ => .error ((fault text).wrap (.plain (why.message trimmed)))

def read (text : Bytes) : Except Fault Point :=
  match Bytes.split 44 text with
  | [x, y, z] => do
    .ok ⟨← coordinate text x, ← coordinate text y, ← coordinate text z⟩
  | _ => .error (fault text)

end Point

end DistanceField.Command
