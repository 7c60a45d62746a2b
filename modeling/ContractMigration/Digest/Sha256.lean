import ContractMigration.Text.Hexadecimal

/-!
# SHA-256

The digest of a text, in UTF-8, as 64 hexadecimal digits. A message is padded to whole blocks of sixteen words, each
block is stretched to sixty-four words, and sixty-four rounds mix them into a state of eight words. Whoever uses
digests as keys relies on texts with equal digests being equal; nothing here can prove that.
-/

namespace ContractMigration.Sha256

/-- The first thirty-two bits of the fractional parts of the cube roots of the first sixty-four primes. -/
def roundConstants : Array UInt32 := #[
  0x428a2f98, 0x71374491, 0xb5c0fbcf, 0xe9b5dba5, 0x3956c25b, 0x59f111f1, 0x923f82a4, 0xab1c5ed5,
  0xd807aa98, 0x12835b01, 0x243185be, 0x550c7dc3, 0x72be5d74, 0x80deb1fe, 0x9bdc06a7, 0xc19bf174,
  0xe49b69c1, 0xefbe4786, 0x0fc19dc6, 0x240ca1cc, 0x2de92c6f, 0x4a7484aa, 0x5cb0a9dc, 0x76f988da,
  0x983e5152, 0xa831c66d, 0xb00327c8, 0xbf597fc7, 0xc6e00bf3, 0xd5a79147, 0x06ca6351, 0x14292967,
  0x27b70a85, 0x2e1b2138, 0x4d2c6dfc, 0x53380d13, 0x650a7354, 0x766a0abb, 0x81c2c92e, 0x92722c85,
  0xa2bfe8a1, 0xa81a664b, 0xc24b8b70, 0xc76c51a3, 0xd192e819, 0xd6990624, 0xf40e3585, 0x106aa070,
  0x19a4c116, 0x1e376c08, 0x2748774c, 0x34b0bcb5, 0x391c0cb3, 0x4ed8aa4a, 0x5b9cca4f, 0x682e6ff3,
  0x748f82ee, 0x78a5636f, 0x84c87814, 0x8cc70208, 0x90befffa, 0xa4506ceb, 0xbef9a3f7, 0xc67178f2]

/-- The eight words that are mixed. -/
structure State where
  a : UInt32
  b : UInt32
  c : UInt32
  d : UInt32
  e : UInt32
  f : UInt32
  g : UInt32
  h : UInt32
deriving DecidableEq, Repr

/-- The first thirty-two bits of the fractional parts of the square roots of the first eight primes. -/
def State.initial : State :=
  ⟨0x6a09e667, 0xbb67ae85, 0x3c6ef372, 0xa54ff53a, 0x510e527f, 0x9b05688c, 0x1f83d9ab, 0x5be0cd19⟩

/-- Adds two states word by word. -/
def State.add (s t : State) : State :=
  ⟨s.a + t.a, s.b + t.b, s.c + t.c, s.d + t.d, s.e + t.e, s.f + t.f, s.g + t.g, s.h + t.h⟩

/-- The words of a state. -/
def State.words (s : State) : List UInt32 :=
  [s.a, s.b, s.c, s.d, s.e, s.f, s.g, s.h]

/-- Rotates a word to the right. -/
def rotateRight (x : UInt32) (n : UInt32) : UInt32 :=
  (x >>> n) ||| (x <<< (32 - n))

/-- The next word of a schedule. -/
def nextWord (schedule : Array UInt32) : UInt32 :=
  let word := fun back => schedule.getD (schedule.size - back) 0
  let x := word 15
  let y := word 2
  let small0 := rotateRight x 7 ^^^ rotateRight x 18 ^^^ (x >>> 3)
  let small1 := rotateRight y 17 ^^^ rotateRight y 19 ^^^ (y >>> 10)
  word 16 + small0 + word 7 + small1

/-- Adds words to a schedule. -/
def extendSchedule (schedule : Array UInt32) : (count : Nat) → Array UInt32
  | 0 => schedule
  | count + 1 => extendSchedule (schedule.push (nextWord schedule)) count

/-- One round. -/
def round (s : State) (constant word : UInt32) : State :=
  let big1 := rotateRight s.e 6 ^^^ rotateRight s.e 11 ^^^ rotateRight s.e 25
  let choice := (s.e &&& s.f) ^^^ ((~~~ s.e) &&& s.g)
  let t1 := s.h + big1 + choice + constant + word
  let big0 := rotateRight s.a 2 ^^^ rotateRight s.a 13 ^^^ rotateRight s.a 22
  let majority := (s.a &&& s.b) ^^^ (s.a &&& s.c) ^^^ (s.b &&& s.c)
  ⟨t1 + (big0 + majority), s.a, s.b, s.c, s.d + t1, s.e, s.f, s.g⟩

/-- Mixes a block of sixteen words into a state. -/
def compress (s : State) (block : Array UInt32) : State :=
  let schedule := extendSchedule block 48
  s.add ((roundConstants.zip schedule).foldl (fun s pair => round s pair.1 pair.2) s)

/-- The byte at an index as a word; behind the end there are zeros. -/
def byteAt (bytes : ByteArray) (index : Nat) : UInt32 :=
  if h : index < bytes.size then bytes[index].toUInt32 else 0

/-- The word made of four bytes, the first of which counts most. -/
def wordAt (bytes : ByteArray) (index : Nat) : UInt32 :=
  (byteAt bytes index <<< 24) ||| (byteAt bytes (index + 1) <<< 16) ||| (byteAt bytes (index + 2) <<< 8) |||
    byteAt bytes (index + 3)

/-- The message with a one bit, zeros up to whole blocks, and its length in bits in the last eight bytes. -/
def padded (message : ByteArray) : ByteArray :=
  let size := message.size
  let zeros := (119 - size % 64) % 64
  let length := size * 8
  let withZeros := (List.replicate zeros (0 : UInt8)).foldl ByteArray.push (message.push 0x80)
  (List.range 8).foldl (fun bytes n => bytes.push (length >>> (56 - 8 * n)).toUInt8) withZeros

/-- Mixes `count` blocks that begin at byte `index` into a state. -/
def digestFrom (bytes : ByteArray) (s : State) (index : Nat) : (count : Nat) → State
  | 0 => s
  | count + 1 =>
    let block := (Array.range 16).map fun n => wordAt bytes (index + 4 * n)
    digestFrom bytes (compress s block) (index + 64) count

/-- The digest of a message. -/
def digest (message : ByteArray) : State :=
  let bytes := padded message
  digestFrom bytes .initial 0 (bytes.size / 64)

/-- The digest of a text as hexadecimal digits. -/
def hex (text : String) : String :=
  String.ofList ((digest text.toUTF8).words.flatMap fun word => Text.hexPadded 8 word.toNat)

end ContractMigration.Sha256
