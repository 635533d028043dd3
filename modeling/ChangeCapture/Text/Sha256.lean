/-!
# SHA-256

The digest of a byte list and its hexadecimal text.  A message is padded to
blocks of sixteen words.  Each block is extended to sixty-four words, which are
mixed one by one into a state of eight words.
-/

namespace ChangeCapture.Sha256

/-- The eight words of the state. -/
structure State where
  /-- The first word. -/
  a : UInt32
  /-- The second word. -/
  b : UInt32
  /-- The third word. -/
  c : UInt32
  /-- The fourth word. -/
  d : UInt32
  /-- The fifth word. -/
  e : UInt32
  /-- The sixth word. -/
  f : UInt32
  /-- The seventh word. -/
  g : UInt32
  /-- The eighth word. -/
  h : UInt32

/-- The state before the first block. -/
def State.initial : State :=
  ⟨0x6a09e667, 0xbb67ae85, 0x3c6ef372, 0xa54ff53a, 0x510e527f, 0x9b05688c, 0x1f83d9ab, 0x5be0cd19⟩

/-- The constants of the sixty-four rounds. -/
def roundConstants : List UInt32 := [
  0x428a2f98, 0x71374491, 0xb5c0fbcf, 0xe9b5dba5, 0x3956c25b, 0x59f111f1, 0x923f82a4, 0xab1c5ed5,
  0xd807aa98, 0x12835b01, 0x243185be, 0x550c7dc3, 0x72be5d74, 0x80deb1fe, 0x9bdc06a7, 0xc19bf174,
  0xe49b69c1, 0xefbe4786, 0x0fc19dc6, 0x240ca1cc, 0x2de92c6f, 0x4a7484aa, 0x5cb0a9dc, 0x76f988da,
  0x983e5152, 0xa831c66d, 0xb00327c8, 0xbf597fc7, 0xc6e00bf3, 0xd5a79147, 0x06ca6351, 0x14292967,
  0x27b70a85, 0x2e1b2138, 0x4d2c6dfc, 0x53380d13, 0x650a7354, 0x766a0abb, 0x81c2c92e, 0x92722c85,
  0xa2bfe8a1, 0xa81a664b, 0xc24b8b70, 0xc76c51a3, 0xd192e819, 0xd6990624, 0xf40e3585, 0x106aa070,
  0x19a4c116, 0x1e376c08, 0x2748774c, 0x34b0bcb5, 0x391c0cb3, 0x4ed8aa4a, 0x5b9cca4f, 0x682e6ff3,
  0x748f82ee, 0x78a5636f, 0x84c87814, 0x8cc70208, 0x90befffa, 0xa4506ceb, 0xbef9a3f7, 0xc67178f2]

/-- The word with its bits moved round to the right. -/
def rotate (x : UInt32) (n : UInt32) : UInt32 := (x >>> n) ||| (x <<< (32 - n))

/-- Mixes one word into the state. -/
def State.round (s : State) (constant word : UInt32) : State :=
  let s1 := rotate s.e 6 ^^^ rotate s.e 11 ^^^ rotate s.e 25
  let choice := (s.e &&& s.f) ^^^ (~~~ s.e &&& s.g)
  let t1 := s.h + s1 + choice + constant + word
  let s0 := rotate s.a 2 ^^^ rotate s.a 13 ^^^ rotate s.a 22
  let majority := (s.a &&& s.b) ^^^ (s.a &&& s.c) ^^^ (s.b &&& s.c)
  ⟨t1 + (s0 + majority), s.a, s.b, s.c, s.d + t1, s.e, s.f, s.g⟩

/-- The state with another one added word by word. -/
def State.add (s t : State) : State :=
  ⟨s.a + t.a, s.b + t.b, s.c + t.c, s.d + t.d, s.e + t.e, s.f + t.f, s.g + t.g, s.h + t.h⟩

/-- Extends a block, held backwards, by `n` words. -/
def extend (words : List UInt32) : Nat → List UInt32
  | 0 => words
  | n + 1 =>
    let at' (i : Nat) : UInt32 := words.getD i 0
    let x := at' 14
    let y := at' 1
    let s0 := rotate x 7 ^^^ rotate x 18 ^^^ (x >>> 3)
    let s1 := rotate y 17 ^^^ rotate y 19 ^^^ (y >>> 10)
    extend ((at' 15 + s0 + at' 6 + s1) :: words) n

/-- Mixes a block of sixteen words into the state. -/
def State.block (s : State) (words : List UInt32) : State :=
  let schedule := (extend words.reverse 48).reverse
  s.add ((roundConstants.zip schedule).foldl (fun s (k, w) => s.round k w) s)

/-- The low `n` bytes of a number, the highest first. -/
def bytesOf (value : Nat) : Nat → List UInt8
  | 0 => []
  | n + 1 => UInt8.ofNat (value >>> (8 * n)) :: bytesOf value n

/-- The message with its end mark, zeros up to a whole block, and its length in bits. -/
def pad (message : List UInt8) : List UInt8 :=
  let n := message.length
  message ++ 0x80 :: List.replicate ((119 - n % 64) % 64) 0 ++ bytesOf (8 * n) 8

/-- The words of a list of bytes, the highest byte first. -/
def wordsOf : List UInt8 → List UInt32
  | a :: b :: c :: d :: rest =>
    UInt32.ofNat (((a.toNat * 256 + b.toNat) * 256 + c.toNat) * 256 + d.toNat) :: wordsOf rest
  | _ => []

/-- Mixes `n` blocks into the state. -/
def State.blocks (s : State) (words : List UInt32) : Nat → State
  | 0 => s
  | n + 1 => (s.block (words.take 16)).blocks (words.drop 16) n

/-- The digest of a message. -/
def digest (message : List UInt8) : List UInt8 :=
  let words := wordsOf (pad message)
  let s := State.initial.blocks words (words.length / 16)
  [s.a, s.b, s.c, s.d, s.e, s.f, s.g, s.h].flatMap fun w => bytesOf w.toNat 4

/-- The lower-case hexadecimal text of a list of bytes. -/
def hexText (bytes : List UInt8) : String :=
  String.ofList (bytes.flatMap fun x =>
    [(Nat.toDigits 16 (x.toNat / 16)).headD '0', (Nat.toDigits 16 (x.toNat % 16)).headD '0'])

/-- The hexadecimal digest of a text. -/
def hexDigest (s : String) : String := hexText (digest s.toUTF8.toList)

end ChangeCapture.Sha256
