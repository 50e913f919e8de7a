import StageChain.Text.Hex

/-!
# SHA-1 fingerprints

`sha1` is the digest of a list of bytes as five 32-bit words, and `fingerprint` the start of the
digest of a text in hexadecimal. Messages are padded to whole blocks of sixty-four bytes.
-/

namespace StageChain.Text.Sha1

/-- The five words of the chaining state. -/
structure State where
  a : UInt32
  b : UInt32
  c : UInt32
  d : UInt32
  e : UInt32

/-- The state before the first block. -/
def start : State := ⟨0x67452301, 0xEFCDAB89, 0x98BADCFE, 0x10325476, 0xC3D2E1F0⟩

/-- Rotates a word to the left. -/
def rotate (word count : UInt32) : UInt32 := (word <<< count) ||| (word >>> (32 - count))

/-- Reads bytes as big-endian words; a rest of fewer than four bytes is dropped. -/
def wordsOf : List UInt8 → List UInt32
  | a :: b :: c :: d :: rest =>
    (a.toUInt32 <<< 24 ||| b.toUInt32 <<< 16 ||| c.toUInt32 <<< 8 ||| d.toUInt32) :: wordsOf rest
  | _ => []

/-- Extends a schedule, latest word first, by `count` words. -/
def extend : (count : Nat) → List UInt32 → List UInt32
  | 0, words => words
  | count + 1, words =>
    let mixed := words.getD 2 0 ^^^ words.getD 7 0 ^^^ words.getD 13 0 ^^^ words.getD 15 0
    extend count (rotate mixed 1 :: words)

/-- The mixing function of a round. -/
def mix (round : Nat) (b c d : UInt32) : UInt32 :=
  if round < 20 then (b &&& c) ||| ((~~~ b) &&& d)
  else if round < 40 then b ^^^ c ^^^ d
  else if round < 60 then (b &&& c) ||| (b &&& d) ||| (c &&& d)
  else b ^^^ c ^^^ d

/-- The constant of a round. -/
def roundConstant (round : Nat) : UInt32 :=
  if round < 20 then 0x5A827999
  else if round < 40 then 0x6ED9EBA1
  else if round < 60 then 0x8F1BBCDC
  else 0xCA62C1D6

/-- One round with its schedule word. -/
def step (state : State) (round : Nat) (word : UInt32) : State :=
  ⟨rotate state.a 5 + mix round state.b state.c state.d + state.e + roundConstant round + word,
    state.a, rotate state.b 30, state.c, state.d⟩

/-- All rounds of the remaining schedule words. -/
def rounds (state : State) (round : Nat) : List UInt32 → State
  | [] => state
  | word :: rest => rounds (step state round word) (round + 1) rest

/-- Adds one block of sixteen words to the state. -/
def compress (state : State) (block : List UInt32) : State :=
  let mixed := rounds state 0 (extend 64 block.reverse).reverse
  ⟨state.a + mixed.a, state.b + mixed.b, state.c + mixed.c, state.d + mixed.d, state.e + mixed.e⟩

/-- Adds `count` blocks to the state. -/
def absorb : (count : Nat) → State → List UInt32 → State
  | 0, state, _ => state
  | count + 1, state, words => absorb count (compress state (words.take 16)) (words.drop 16)

/-- The last `count` bytes of a number, the highest first. -/
def bigEndian : (count : Nat) → Nat → List UInt8
  | 0, _ => []
  | count + 1, n => bigEndian count (n / 256) ++ [UInt8.ofNat (n % 256)]

/-- The message with a marker, zeros up to a whole block, and its length in bits. -/
def pad (message : List UInt8) : List UInt8 :=
  message ++ 0x80 :: List.replicate ((119 - message.length % 64) % 64) 0 ++
    bigEndian 8 (8 * message.length)

/-- The words of the digest of a message. -/
def sha1 (message : List UInt8) : List UInt32 :=
  let padded := pad message
  let final := absorb (padded.length / 64) start (wordsOf padded)
  [final.a, final.b, final.c, final.d, final.e]

/-- The first twelve hexadecimal digits of the digest of a text. -/
def fingerprint (text : String) : String :=
  let digits := (sha1 text.toUTF8.toList).flatMap fun word => hexFixed 8 word.toNat
  String.ofList (digits.take 12)

end StageChain.Text.Sha1
