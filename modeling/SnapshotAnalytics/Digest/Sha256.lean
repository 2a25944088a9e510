import SnapshotAnalytics.Number.Power
import SnapshotAnalytics.Text.Bytes
import SnapshotAnalytics.Text.Hexadecimal

/-!
# SHA-256

The message is padded to blocks of sixteen words; each block is expanded to a schedule of 64 words,
one for each round, and the rounds turn the eight registers into the next ones.
-/

namespace SnapshotAnalytics.Digest

/-! ## §1 Constants and registers -/

/-- The eight working words. -/
structure Registers where
  a : UInt32
  b : UInt32
  c : UInt32
  d : UInt32
  e : UInt32
  f : UInt32
  g : UInt32
  h : UInt32

/-- The registers before the first block. -/
def initialRegisters : Registers :=
  ⟨0x6a09e667, 0xbb67ae85, 0x3c6ef372, 0xa54ff53a, 0x510e527f, 0x9b05688c, 0x1f83d9ab, 0x5be0cd19⟩

def roundConstants : List UInt32 :=
  [0x428a2f98, 0x71374491, 0xb5c0fbcf, 0xe9b5dba5, 0x3956c25b, 0x59f111f1, 0x923f82a4, 0xab1c5ed5,
    0xd807aa98, 0x12835b01, 0x243185be, 0x550c7dc3, 0x72be5d74, 0x80deb1fe, 0x9bdc06a7, 0xc19bf174,
    0xe49b69c1, 0xefbe4786, 0x0fc19dc6, 0x240ca1cc, 0x2de92c6f, 0x4a7484aa, 0x5cb0a9dc, 0x76f988da,
    0x983e5152, 0xa831c66d, 0xb00327c8, 0xbf597fc7, 0xc6e00bf3, 0xd5a79147, 0x06ca6351, 0x14292967,
    0x27b70a85, 0x2e1b2138, 0x4d2c6dfc, 0x53380d13, 0x650a7354, 0x766a0abb, 0x81c2c92e, 0x92722c85,
    0xa2bfe8a1, 0xa81a664b, 0xc24b8b70, 0xc76c51a3, 0xd192e819, 0xd6990624, 0xf40e3585, 0x106aa070,
    0x19a4c116, 0x1e376c08, 0x2748774c, 0x34b0bcb5, 0x391c0cb3, 0x4ed8aa4a, 0x5b9cca4f, 0x682e6ff3,
    0x748f82ee, 0x78a5636f, 0x84c87814, 0x8cc70208, 0x90befffa, 0xa4506ceb, 0xbef9a3f7, 0xc67178f2]

/-! ## §2 Padding -/

/-- A number below `2 ^ 64` as eight bytes, the highest first. -/
def lengthBytes (n : Nat) : List UInt8 :=
  (List.range 8).reverse.map fun i => UInt8.ofNat (n / powerOfTwo (8 * i))

/-- The message followed by a one bit, zero bits up to a full block, and its length in bits. -/
def pad (message : List UInt8) : List UInt8 :=
  -- 119 is 128 - 9: the byte of the one bit and the length take nine bytes
  message ++ 0x80 :: List.replicate ((119 - message.length % 64) % 64) 0
    ++ lengthBytes (8 * message.length)

/-- Bytes as words, the highest byte of a word first. -/
def words : List UInt8 → List UInt32
  | a :: b :: c :: d :: rest =>
    ((a.toUInt32 <<< 24) ||| (b.toUInt32 <<< 16) ||| (c.toUInt32 <<< 8) ||| d.toUInt32)
      :: words rest
  | _ => []

/-! ## §3 Blocks -/

/-- Turn a word to the right. -/
def rotate (x n : UInt32) : UInt32 :=
  (x >>> n) ||| (x <<< (32 - n))

/-- The first `n` words of the schedule that starts with the sixteen words of the window. -/
def schedule : Nat → List UInt32 → List UInt32
  | 0, _ => []
  | n + 1, window =>
    let word (i : Nat) : UInt32 := window.getD i 0
    let low := rotate (word 1) 7 ^^^ rotate (word 1) 18 ^^^ (word 1 >>> 3)
    let high := rotate (word 14) 17 ^^^ rotate (word 14) 19 ^^^ (word 14 >>> 10)
    -- the window moves on by one word, so it always holds the sixteen latest ones
    word 0 :: schedule n (window.drop 1 ++ [high + word 9 + low + word 0])

def round (r : Registers) (step : UInt32 × UInt32) : Registers :=
  let choice := (r.e &&& r.f) ^^^ (~~~r.e &&& r.g)
  let majority := (r.a &&& r.b) ^^^ (r.a &&& r.c) ^^^ (r.b &&& r.c)
  let first := r.h + (rotate r.e 6 ^^^ rotate r.e 11 ^^^ rotate r.e 25) + choice + step.2 + step.1
  let second := (rotate r.a 2 ^^^ rotate r.a 13 ^^^ rotate r.a 22) + majority
  ⟨first + second, r.a, r.b, r.c, r.d + first, r.e, r.f, r.g⟩

/-- Take in one block of sixteen words. -/
def compress (r : Registers) (block : List UInt32) : Registers :=
  let s := ((schedule 64 block).zip roundConstants).foldl round r
  ⟨r.a + s.a, r.b + s.b, r.c + s.c, r.d + s.d, r.e + s.e, r.f + s.f, r.g + s.g, r.h + s.h⟩

/-- Take in one word; `block` holds the words of the block at hand so far. -/
def absorb (state : Registers × List UInt32) (word : UInt32) : Registers × List UInt32 :=
  let block := state.2 ++ [word]
  if block.length = 16 then (compress state.1 block, []) else (state.1, block)

/-- A word as four bytes, the highest first. -/
def wordBytes (x : UInt32) : List UInt8 :=
  [(x >>> 24).toUInt8, (x >>> 16).toUInt8, (x >>> 8).toUInt8, x.toUInt8]

/-- The SHA-256 digest of a message, 32 bytes. -/
def sha256 (message : List UInt8) : List UInt8 :=
  let r := ((words (pad message)).foldl absorb (initialRegisters, [])).1
  [r.a, r.b, r.c, r.d, r.e, r.f, r.g, r.h].flatMap wordBytes

/-! ## §4 Digests as text -/

/-- The full digest of a message in hexadecimal digits. -/
def hexDigest (message : List UInt8) : String :=
  String.ofList (Text.hex (sha256 message))

/-- The first eight bytes of the digest of a text in hexadecimal digits. -/
def shortDigest (s : String) : String :=
  String.ofList (Text.hex ((sha256 (Text.bytes s)).take 8))

end SnapshotAnalytics.Digest
