/-!
# SHA-256

The hash of a sequence of bytes, 64 bytes a block: eight words of state, mixed in 64 rounds with a
schedule of words that each block expands to.
-/

namespace ConfigScript.Sha256

def initialState : List UInt32 :=
  [0x6a09e667, 0xbb67ae85, 0x3c6ef372, 0xa54ff53a, 0x510e527f, 0x9b05688c, 0x1f83d9ab, 0x5be0cd19]

def roundConstants : List UInt32 :=
  [0x428a2f98, 0x71374491, 0xb5c0fbcf, 0xe9b5dba5, 0x3956c25b, 0x59f111f1, 0x923f82a4, 0xab1c5ed5,
    0xd807aa98, 0x12835b01, 0x243185be, 0x550c7dc3, 0x72be5d74, 0x80deb1fe, 0x9bdc06a7, 0xc19bf174,
    0xe49b69c1, 0xefbe4786, 0x0fc19dc6, 0x240ca1cc, 0x2de92c6f, 0x4a7484aa, 0x5cb0a9dc, 0x76f988da,
    0x983e5152, 0xa831c66d, 0xb00327c8, 0xbf597fc7, 0xc6e00bf3, 0xd5a79147, 0x06ca6351, 0x14292967,
    0x27b70a85, 0x2e1b2138, 0x4d2c6dfc, 0x53380d13, 0x650a7354, 0x766a0abb, 0x81c2c92e, 0x92722c85,
    0xa2bfe8a1, 0xa81a664b, 0xc24b8b70, 0xc76c51a3, 0xd192e819, 0xd6990624, 0xf40e3585, 0x106aa070,
    0x19a4c116, 0x1e376c08, 0x2748774c, 0x34b0bcb5, 0x391c0cb3, 0x4ed8aa4a, 0x5b9cca4f, 0x682e6ff3,
    0x748f82ee, 0x78a5636f, 0x84c87814, 0x8cc70208, 0x90befffa, 0xa4506ceb, 0xbef9a3f7, 0xc67178f2]

/-- Rotation to the right by fewer than 32 places. -/
def rotate (word : UInt32) (places : UInt32) : UInt32 :=
  (word >>> places) ||| (word <<< (32 - places))

/-- A number as eight bytes, the highest in front. -/
def eightBytes (n : Nat) : List UInt8 :=
  [56, 48, 40, 32, 24, 16, 8, 0].map fun shift : Nat => UInt8.ofNat (n >>> shift)

/-- The message followed by a one bit, zeros, and its length in bits as eight bytes, so that the
whole is a number of blocks. -/
def pad (message : List UInt8) : List UInt8 :=
  let zeros := (119 - message.length % 64) % 64
  message ++ 0x80 :: List.replicate zeros 0 ++ eightBytes (8 * message.length)

/-- Four bytes as one word, the first byte in front. -/
def words : List UInt8 → List UInt32
  | a :: b :: c :: d :: bytes =>
    (a.toUInt32 <<< 24 ||| b.toUInt32 <<< 16 ||| c.toUInt32 <<< 8 ||| d.toUInt32) :: words bytes
  | _ => []

/-- The next word of a schedule from its sixteen latest words, the latest first. -/
def nextWord (latest : List UInt32) : UInt32 :=
  let w2 := latest.getD 1 0
  let w7 := latest.getD 6 0
  let w15 := latest.getD 14 0
  let w16 := latest.getD 15 0
  let s0 := rotate w15 7 ^^^ rotate w15 18 ^^^ (w15 >>> 3)
  let s1 := rotate w2 17 ^^^ rotate w2 19 ^^^ (w2 >>> 10)
  w16 + s0 + w7 + s1

/-- The schedule extended by `count` words; both it and the result list the latest word first. -/
def extend : Nat → List UInt32 → List UInt32
  | 0, schedule => schedule
  | count + 1, schedule => extend count (nextWord schedule :: schedule)

/-- One round, with the sum of a constant and a word of the schedule. -/
def round (state : List UInt32) (input : UInt32) : List UInt32 :=
  match state with
  | [a, b, c, d, e, f, g, h] =>
    let s1 := rotate e 6 ^^^ rotate e 11 ^^^ rotate e 25
    let choice := (e &&& f) ^^^ (~~~e &&& g)
    let t1 := h + s1 + choice + input
    let s0 := rotate a 2 ^^^ rotate a 13 ^^^ rotate a 22
    let majority := (a &&& b) ^^^ (a &&& c) ^^^ (b &&& c)
    [t1 + (s0 + majority), a, b, c, d + t1, e, f, g]
  | other => other

/-- The state behind one block of sixteen words. -/
def compress (state block : List UInt32) : List UInt32 :=
  let schedule := (extend 48 block.reverse).reverse
  let inputs := List.zipWith (· + ·) roundConstants schedule
  List.zipWith (· + ·) state (inputs.foldl round state)

/-- The state behind all blocks of a list of words. -/
def absorb : Nat → List UInt32 → List UInt32 → List UInt32
  | 0, state, _ => state
  | blocks + 1, state, words => absorb blocks (compress state (words.take 16)) (words.drop 16)

/-- The eight words of the hash. -/
def digest (message : List UInt8) : List UInt32 :=
  let padded := words (pad message)
  absorb (padded.length / 16) initialState padded

/-- The hash in lower-case hexadecimal, eight digits a word. -/
def hexDigest (message : List UInt8) : String :=
  String.ofList ((digest message).flatMap hexWord)
where
  hexWord (word : UInt32) : List Char :=
    let digits := Nat.toDigits 16 word.toNat
    List.replicate (8 - digits.length) '0' ++ digits

end ConfigScript.Sha256
