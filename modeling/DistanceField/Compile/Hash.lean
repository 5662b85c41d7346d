import DistanceField.Text.Bytes

/-! A fast 64-bit hash of byte strings (XXH3, seed zero). Short, medium and long inputs are mixed
in different ways; all of them multiply input words with words of a fixed secret. -/
namespace DistanceField.Hash

def secret : Array UInt8 := #[
  0xb8, 0xfe, 0x6c, 0x39, 0x23, 0xa4, 0x4b, 0xbe, 0x7c, 0x01, 0x81, 0x2c, 0xf7, 0x21, 0xad, 0x1c,
  0xde, 0xd4, 0x6d, 0xe9, 0x83, 0x90, 0x97, 0xdb, 0x72, 0x40, 0xa4, 0xa4, 0xb7, 0xb3, 0x67, 0x1f,
  0xcb, 0x79, 0xe6, 0x4e, 0xcc, 0xc0, 0xe5, 0x78, 0x82, 0x5a, 0xd0, 0x7d, 0xcc, 0xff, 0x72, 0x21,
  0xb8, 0x08, 0x46, 0x74, 0xf7, 0x43, 0x24, 0x8e, 0xe0, 0x35, 0x90, 0xe6, 0x81, 0x3a, 0x26, 0x4c,
  0x3c, 0x28, 0x52, 0xbb, 0x91, 0xc3, 0x00, 0xcb, 0x88, 0xd0, 0x65, 0x8b, 0x1b, 0x53, 0x2e, 0xa3,
  0x71, 0x64, 0x48, 0x97, 0xa2, 0x0d, 0xf9, 0x4e, 0x38, 0x19, 0xef, 0x46, 0xa9, 0xde, 0xac, 0xd8,
  0xa8, 0xfa, 0x76, 0x3f, 0xe3, 0x9c, 0x34, 0x3f, 0xf9, 0xdc, 0xbb, 0xc7, 0xc7, 0x0b, 0x4f, 0x1d,
  0x8a, 0x51, 0xe0, 0x4b, 0xcd, 0xb4, 0x59, 0x31, 0xc8, 0x9f, 0x7e, 0xc9, 0xd9, 0x78, 0x73, 0x64,
  0xea, 0xc5, 0xac, 0x83, 0x34, 0xd3, 0xeb, 0xc3, 0xc5, 0x81, 0xa0, 0xff, 0xfa, 0x13, 0x63, 0xeb,
  0x17, 0x0d, 0xdd, 0x51, 0xb7, 0xf0, 0xda, 0x49, 0xd3, 0x16, 0x55, 0x26, 0x29, 0xd4, 0x68, 0x9e,
  0x2b, 0x16, 0xbe, 0x58, 0x7d, 0x47, 0xa1, 0xfc, 0x8f, 0xf8, 0xb8, 0xd1, 0x7a, 0xd0, 0x31, 0xce,
  0x45, 0xcb, 0x3a, 0x8f, 0x95, 0x16, 0x04, 0x28, 0xaf, 0xd7, 0xfb, 0xca, 0xbb, 0x4b, 0x40, 0x7e]

def word32 (a : Array UInt8) (i : Nat) : UInt64 :=
  (List.range 4).foldr (fun k acc => acc * 256 + (a.getD (i + k) 0).toUInt64) 0

def word (a : Array UInt8) (i : Nat) : UInt64 :=
  (List.range 8).foldr (fun k acc => acc * 256 + (a.getD (i + k) 0).toUInt64) 0

def key (i : Nat) : UInt64 := word secret i

def p32a : UInt64 := 0x9E3779B1
def p32b : UInt64 := 0x85EBCA77
def p32c : UInt64 := 0xC2B2AE3D
def p64a : UInt64 := 0x9E3779B185EBCA87
def p64b : UInt64 := 0xC2B2AE3D27D4EB4F
def p64c : UInt64 := 0x165667B19E3779F9
def p64d : UInt64 := 0x85EBCA77C2B2AE63
def p64e : UInt64 := 0x27D4EB2F165667C5
def mixA : UInt64 := 0x165667919E3779F9
def mixB : UInt64 := 0x9FB21C651E98DF25

/-- The two halves of a 128-bit product, one over the other. -/
def fold (a b : UInt64) : UInt64 :=
  let p := a.toNat * b.toNat
  (p % pow2 64).toUInt64 ^^^ (p / pow2 64).toUInt64

def avalanche (h : UInt64) : UInt64 :=
  let h := (h ^^^ (h >>> 37)) * mixA
  h ^^^ (h >>> 32)

def avalancheShort (h : UInt64) : UInt64 :=
  let h := (h ^^^ (h >>> 33)) * p64b
  let h := (h ^^^ (h >>> 29)) * p64c
  h ^^^ (h >>> 32)

def rotate (h : UInt64) (n : UInt64) : UInt64 := (h <<< n) ||| (h >>> (64 - n))

def swap (h : UInt64) : UInt64 :=
  (List.range 8).foldl (fun (acc : UInt64) k => acc * 256 + (h >>> Nat.toUInt64 (8 * k)) % 256) 0

def upTo3 (a : Array UInt8) : UInt64 :=
  let n := a.size
  let byte i := (a.getD i 0).toUInt64
  let c := (byte 0 <<< 16) ||| (byte (n / 2) <<< 24) ||| byte (n - 1) ||| (n.toUInt64 <<< 8)
  avalancheShort (c ^^^ (word32 secret 0 ^^^ word32 secret 4))

def upTo8 (a : Array UInt8) : UInt64 :=
  let n := a.size
  let input := word32 a (n - 4) + (word32 a 0 <<< 32)
  let h := input ^^^ (key 8 ^^^ key 16)
  let h := (h ^^^ rotate h 49 ^^^ rotate h 24) * mixB
  let h := (h ^^^ ((h >>> 35) + n.toUInt64)) * mixB
  h ^^^ (h >>> 28)

def upTo16 (a : Array UInt8) : UInt64 :=
  let n := a.size
  let lo := word a 0 ^^^ (key 24 ^^^ key 32)
  let hi := word a (n - 8) ^^^ (key 40 ^^^ key 48)
  avalanche (n.toUInt64 + swap lo + hi + fold lo hi)

def mix (a : Array UInt8) (i k : Nat) : UInt64 :=
  fold (word a i ^^^ key k) (word a (i + 8) ^^^ key (k + 8))

/-- Pairs of blocks from both ends. -/
def upTo128 (a : Array UInt8) : UInt64 :=
  let n := a.size
  let pairs := (n - 1) / 32 + 1
  avalanche ((List.range pairs).foldl
    (fun acc i => acc + mix a (16 * i) (32 * i) + mix a (n - 16 * (i + 1)) (32 * i + 16))
    (n.toUInt64 * p64a))

def upTo240 (a : Array UInt8) : UInt64 :=
  let n := a.size
  let first := (List.range 8).foldl (fun acc i => acc + mix a (16 * i) (16 * i))
    (n.toUInt64 * p64a)
  let rest := (List.range (n / 16 - 8)).foldl
    (fun acc i => acc + mix a (16 * (i + 8)) (16 * i + 3)) (avalanche first)
  avalanche (rest + mix a (n - 16) 119)

abbrev Lanes := Array UInt64

def lane (acc : Lanes) (i : Nat) : UInt64 := acc.getD i 0

def lanes : Lanes := #[p32c, p64a, p64b, p64c, p64d, p32b, p64e, p32a]

def accumulate (a : Array UInt8) (acc : Lanes) (i k : Nat) : Lanes :=
  (List.range 8).foldl (fun acc j =>
    let v := word a (i + 8 * j)
    let m := v ^^^ key (k + 8 * j)
    let other := if j % 2 == 0 then j + 1 else j - 1
    let acc := acc.modify other (· + v)
    acc.modify j (· + (m % 4294967296) * (m >>> 32))) acc

def scramble (acc : Lanes) : Lanes :=
  acc.mapIdx fun j (x : UInt64) => ((x ^^^ (x >>> 47)) ^^^ key (128 + 8 * j)) * p32a

def stripes (a : Array UInt8) (acc : Lanes) (start count : Nat) : Lanes :=
  (List.range count).foldl (fun acc n => accumulate a acc (start + 64 * n) (8 * n)) acc

def long (a : Array UInt8) : UInt64 :=
  let n := a.size
  let blocks := (n - 1) / 1024
  let acc := (List.range blocks).foldl (fun acc b => scramble (stripes a acc (1024 * b) 16)) lanes
  let acc := stripes a acc (1024 * blocks) ((n - 1 - 1024 * blocks) / 64)
  let acc := accumulate a acc (n - 64) 121
  avalanche ((List.range 4).foldl
    (fun (h : UInt64) i => h + fold (lane acc (2 * i) ^^^ key (11 + 16 * i))
      (lane acc (2 * i + 1) ^^^ key (19 + 16 * i)))
    (n.toUInt64 * p64a))

def hash (b : Bytes) : UInt64 :=
  let a := b.toArray
  if a.size == 0 then avalancheShort (key 56 ^^^ key 64)
  else if a.size ≤ 3 then upTo3 a
  else if a.size ≤ 8 then upTo8 a
  else if a.size ≤ 16 then upTo16 a
  else if a.size ≤ 128 then upTo128 a
  else if a.size ≤ 240 then upTo240 a
  else long a

end DistanceField.Hash
