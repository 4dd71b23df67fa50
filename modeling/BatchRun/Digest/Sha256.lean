import BatchRun.Text.Utf8

/-!
# SHA-256

**Input.**
A list of bytes.

**Result.**
`sha256` is the digest of 32 bytes that the Secure Hash Standard defines; `hexText` writes bytes
in lower-case hexadecimal digits.
-/

namespace BatchRun
namespace Digest

open Text

/-- The eight working words. -/
structure Words where
  a : UInt32
  b : UInt32
  c : UInt32
  d : UInt32
  e : UInt32
  f : UInt32
  g : UInt32
  h : UInt32

/-- Words before the first block. -/
def Words.initial : Words :=
  ⟨0x6a09e667, 0xbb67ae85, 0x3c6ef372, 0xa54ff53a, 0x510e527f, 0x9b05688c, 0x1f83d9ab,
    0x5be0cd19⟩

/-- Constants of the 64 rounds. -/
def roundConstants : List UInt32 :=
  [
    0x428a2f98, 0x71374491, 0xb5c0fbcf, 0xe9b5dba5, 0x3956c25b, 0x59f111f1,
    0x923f82a4, 0xab1c5ed5, 0xd807aa98, 0x12835b01, 0x243185be, 0x550c7dc3,
    0x72be5d74, 0x80deb1fe, 0x9bdc06a7, 0xc19bf174, 0xe49b69c1, 0xefbe4786,
    0x0fc19dc6, 0x240ca1cc, 0x2de92c6f, 0x4a7484aa, 0x5cb0a9dc, 0x76f988da,
    0x983e5152, 0xa831c66d, 0xb00327c8, 0xbf597fc7, 0xc6e00bf3, 0xd5a79147,
    0x06ca6351, 0x14292967, 0x27b70a85, 0x2e1b2138, 0x4d2c6dfc, 0x53380d13,
    0x650a7354, 0x766a0abb, 0x81c2c92e, 0x92722c85, 0xa2bfe8a1, 0xa81a664b,
    0xc24b8b70, 0xc76c51a3, 0xd192e819, 0xd6990624, 0xf40e3585, 0x106aa070,
    0x19a4c116, 0x1e376c08, 0x2748774c, 0x34b0bcb5, 0x391c0cb3, 0x4ed8aa4a,
    0x5b9cca4f, 0x682e6ff3, 0x748f82ee, 0x78a5636f, 0x84c87814, 0x8cc70208,
    0x90befffa, 0xa4506ceb, 0xbef9a3f7, 0xc67178f2
  ]

/-- Rotation to the right. -/
def rotate (word : UInt32) (count : UInt32) : UInt32 :=
  (word >>> count) ||| (word <<< (32 - count))

/-- One round with its constant and its word of the schedule. -/
def round (w : Words) (input : UInt32 × UInt32) : Words :=
  let s1 := rotate w.e 6 ^^^ rotate w.e 11 ^^^ rotate w.e 25
  let choice := (w.e &&& w.f) ^^^ ((~~~ w.e) &&& w.g)
  let t1 := w.h + s1 + choice + input.1 + input.2
  let s0 := rotate w.a 2 ^^^ rotate w.a 13 ^^^ rotate w.a 22
  let majority := (w.a &&& w.b) ^^^ (w.a &&& w.c) ^^^ (w.b &&& w.c)
  ⟨t1 + (s0 + majority), w.a, w.b, w.c, w.d + t1, w.e, w.f, w.g⟩

/-- Big-endian words of a list of bytes. -/
def wordsOf : Bytes → List UInt32
  | a :: b :: c :: d :: rest =>
    ((a.toUInt32 <<< 24) ||| (b.toUInt32 <<< 16) ||| (c.toUInt32 <<< 8) ||| d.toUInt32)
      :: wordsOf rest
  | _ => []

/-- Further words of the schedule behind the 16 latest ones, which are given in order. -/
def scheduleTail : (count : Nat) → List UInt32 → List UInt32
  | 0, _ => []
  | count + 1, latest =>
    let old := latest.getD 1 0
    let young := latest.getD 14 0
    let s0 := rotate old 7 ^^^ rotate old 18 ^^^ (old >>> 3)
    let s1 := rotate young 17 ^^^ rotate young 19 ^^^ (young >>> 10)
    let next := latest.getD 0 0 + s0 + latest.getD 9 0 + s1
    next :: scheduleTail count (latest.tail ++ [next])

/-- Words after a block. -/
def absorb (w : Words) (block : Bytes) : Words :=
  let start := wordsOf block
  let r := (roundConstants.zip (start ++ scheduleTail 48 start)).foldl round w
  ⟨w.a + r.a, w.b + r.b, w.c + r.c, w.d + r.d, w.e + r.e, w.f + r.f, w.g + r.g, w.h + r.h⟩

/-- Words after as many whole blocks as there are. -/
def absorbBlocks : (blocks : Nat) → Words → Bytes → Words
  | 0, w, _ => w
  | blocks + 1, w, bytes => absorbBlocks blocks (absorb w (bytes.take 64)) (bytes.drop 64)

/-- The lowest `count` bytes of a number, the highest of them first. -/
def bigEndian : (count : Nat) → Nat → Bytes
  | 0, _ => []
  | count + 1, n => (n >>> (8 * count)).toUInt8 :: bigEndian count n

/-- Bytes with the padding that fills the last block. -/
def padded (bytes : Bytes) : Bytes :=
  let zeros := (119 - bytes.length % 64) % 64
  bytes ++ 0x80 :: List.replicate zeros 0 ++ bigEndian 8 (bytes.length * 8)

/-- Digest of a list of bytes. -/
def sha256 (bytes : Bytes) : Bytes :=
  let all := padded bytes
  let w := absorbBlocks (all.length / 64) .initial all
  [w.a, w.b, w.c, w.d, w.e, w.f, w.g, w.h].flatMap (fun word => bigEndian 4 word.toNat)

/-- Two lower-case hexadecimal digits for each byte. -/
def hexText (bytes : Bytes) : String :=
  let digit (n : Nat) : Char := if n < 10 then Char.ofNat (48 + n) else Char.ofNat (87 + n)
  String.ofList (bytes.flatMap (fun byte => [digit (byte.toNat / 16), digit (byte.toNat % 16)]))

end Digest
end BatchRun
