import DistanceField.Compile.Result

/-! A bounded memory of compiles. When it is full it is emptied before the next entry. -/
namespace DistanceField

/-- Stored outcomes by key, each with the number of the miss that made it, and a count of them. The
digest of the options and the source, written in one text, is their key. -/
structure Cache where
  limit : Nat
  digest : Bytes → Bytes := id
  entries : List (Bytes × (Nat × Except Fault Result)) := []
  size : Nat := 0
  hits : Nat := 0
  misses : Nat := 0

namespace Cache

/-- A limit below one stands for 256. -/
def ofLimit (n : Int) (digest : Bytes → Bytes := id) : Cache :=
  { limit := if n < 1 then 256 else n.toNat, digest := digest }

def length (c : Cache) : Nat := c.size

def clear (c : Cache) : Cache := { c with entries := [], size := 0 }

/-- The options that matter to an outcome stand before the source. -/
def key (c : Cache) (strict : Bool) (source : Bytes) : Bytes :=
  c.digest ((if strict then 1 else 0) :: source)

def get? (c : Cache) (strict : Bool) (source : Bytes) : Option (Nat × Except Fault Result) :=
  c.entries.lookup (c.key strict source)

def makeRoom (c : Cache) : Cache := if c.limit ≤ c.size then c.clear else c

def lookup (c : Cache) (strict : Bool) (source : Bytes) : (Nat × Except Fault Result) × Cache :=
  match c.get? strict source with
  | some e => (e, { c with hits := c.hits + 1 })
  | none =>
    let c := c.makeRoom
    let e := (c.misses, DistanceField.compile strict source)
    (e, { c with
      entries := (c.key strict source, e) :: c.entries, size := c.size + 1, misses := c.misses + 1 })

/-- A call that was called off neither reads nor changes the memory. -/
def compile (c : Cache) (canceled strict : Bool) (source : Bytes) :
    (Option Nat × Except Fault Result) × Cache :=
  if canceled then ((none, .error calledOff), c)
  else
    let (e, c) := c.lookup strict source
    ((some e.1, e.2), c)

end Cache

end DistanceField
