import DistanceField.Source.Tree

/-! Which functions a cursor stands in. -/
namespace DistanceField

mutual

def Function.at? (cursor : Int) : Function → Option Function
  | .mk name params operands span =>
    if span.contains cursor then
      (Function.firstAt? cursor operands).or (some (.mk name params operands span))
    else none

def Function.firstAt? (cursor : Int) : List Function → Option Function
  | [] => none
  | f :: rest => (Function.at? cursor f).or (Function.firstAt? cursor rest)

end

mutual

/-- The functions around the cursor, the outermost first: at each level the first that contains
it is followed. -/
def Function.path (cursor : Int) : Function → List Function
  | .mk name params operands span =>
    .mk name params operands span :: Function.firstPath cursor operands

def Function.firstPath (cursor : Int) : List Function → List Function
  | [] => []
  | f :: rest => if f.span.contains cursor then f.path cursor else Function.firstPath cursor rest

end

def Document.functionAt? (d : Document) (cursor : Int) : Option Function :=
  Function.firstAt? cursor d.operands

def Document.path (d : Document) (cursor : Int) : List Function :=
  Function.firstPath cursor d.operands

end DistanceField
