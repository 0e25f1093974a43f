/-! The SHA-256 digest of a text's UTF-8 bytes. The message is padded to whole blocks of sixteen
words, and each block is mixed into eight words of state in sixty-four rounds. -/
namespace Mustache.Hash

structure Digest where
  a : UInt32
  b : UInt32
  c : UInt32
  d : UInt32
  e : UInt32
  f : UInt32
  g : UInt32
  h : UInt32
  deriving DecidableEq, Inhabited

namespace Sha256

def start : Digest :=
  ⟨0x6a09e667, 0xbb67ae85, 0x3c6ef372, 0xa54ff53a, 0x510e527f, 0x9b05688c, 0x1f83d9ab, 0x5be0cd19⟩

def roundConstants : List UInt32 := [
  0x428a2f98, 0x71374491, 0xb5c0fbcf, 0xe9b5dba5, 0x3956c25b, 0x59f111f1, 0x923f82a4, 0xab1c5ed5,
  0xd807aa98, 0x12835b01, 0x243185be, 0x550c7dc3, 0x72be5d74, 0x80deb1fe, 0x9bdc06a7, 0xc19bf174,
  0xe49b69c1, 0xefbe4786, 0x0fc19dc6, 0x240ca1cc, 0x2de92c6f, 0x4a7484aa, 0x5cb0a9dc, 0x76f988da,
  0x983e5152, 0xa831c66d, 0xb00327c8, 0xbf597fc7, 0xc6e00bf3, 0xd5a79147, 0x06ca6351, 0x14292967,
  0x27b70a85, 0x2e1b2138, 0x4d2c6dfc, 0x53380d13, 0x650a7354, 0x766a0abb, 0x81c2c92e, 0x92722c85,
  0xa2bfe8a1, 0xa81a664b, 0xc24b8b70, 0xc76c51a3, 0xd192e819, 0xd6990624, 0xf40e3585, 0x106aa070,
  0x19a4c116, 0x1e376c08, 0x2748774c, 0x34b0bcb5, 0x391c0cb3, 0x4ed8aa4a, 0x5b9cca4f, 0x682e6ff3,
  0x748f82ee, 0x78a5636f, 0x84c87814, 0x8cc70208, 0x90befffa, 0xa4506ceb, 0xbef9a3f7, 0xc67178f2]

def rotate (x n : UInt32) : UInt32 :=
  (x >>> n) ||| (x <<< (32 - n))

def round (s : Digest) (k w : UInt32) : Digest :=
  let mixE := rotate s.e 6 ^^^ rotate s.e 11 ^^^ rotate s.e 25
  let choice := (s.e &&& s.f) ^^^ (~~~s.e &&& s.g)
  let t := s.h + mixE + choice + k + w
  let mixA := rotate s.a 2 ^^^ rotate s.a 13 ^^^ rotate s.a 22
  let majority := (s.a &&& s.b) ^^^ (s.a &&& s.c) ^^^ (s.b &&& s.c)
  ⟨t + (mixA + majority), s.a, s.b, s.c, s.d + t, s.e, s.f, s.g⟩

/-- The word that enters a window of sixteen message words as its first one leaves. -/
def nextWord (window : List UInt32) : UInt32 :=
  let x := window.getD 1 0
  let y := window.getD 14 0
  let early := rotate x 7 ^^^ rotate x 18 ^^^ (x >>> 3)
  let late := rotate y 17 ^^^ rotate y 19 ^^^ (y >>> 10)
  late + window.getD 9 0 + early + window.getD 0 0

def compress (s : Digest) (block : List UInt32) : Digest :=
  let (mixed, _) := roundConstants.foldl
    (fun (t, window) k => (round t k (window.headD 0), window.tail ++ [nextWord window])) (s, block)
  ⟨s.a + mixed.a, s.b + mixed.b, s.c + mixed.c, s.d + mixed.d,
    s.e + mixed.e, s.f + mixed.f, s.g + mixed.g, s.h + mixed.h⟩

/-- A number as eight bytes, the most significant first. -/
def lengthBytes (n : Nat) : List UInt8 :=
  [56, 48, 40, 32, 24, 16, 8, 0].map fun shift => UInt8.ofNat (n >>> shift)

/-- The message, a one bit, the fewest zeros that fill the last block, and its length in bits. -/
def pad (message : List UInt8) : List UInt8 :=
  let zeros := (119 - message.length % 64) % 64
  message ++ 0x80 :: List.replicate zeros 0 ++ lengthBytes (8 * message.length)

def wordsOf : List UInt8 → List UInt32
  | b₀ :: b₁ :: b₂ :: b₃ :: rest =>
    (b₀.toUInt32 <<< 24 ||| b₁.toUInt32 <<< 16 ||| b₂.toUInt32 <<< 8 ||| b₃.toUInt32) :: wordsOf rest
  | _ => []

def absorb : Nat → Digest → List UInt32 → Digest
  | 0, s, _ => s
  | blocks + 1, s, message => absorb blocks (compress s (message.take 16)) (message.drop 16)

def ofBytes (message : List UInt8) : Digest :=
  let message := wordsOf (pad message)
  absorb (message.length / 16) start message

end Sha256

def sha256 (text : String) : Digest :=
  Sha256.ofBytes (text.toList.flatMap String.utf8EncodeChar)

def hexWord (w : UInt32) : List Char :=
  [28, 24, 20, 16, 12, 8, 4, 0].map fun shift => Nat.digitChar ((w.toNat >>> shift) % 16)

/-- Sixty-four lowercase hexadecimal digits. -/
def Digest.hex (d : Digest) : String :=
  .ofList ([d.a, d.b, d.c, d.d, d.e, d.f, d.g, d.h].flatMap hexWord)

end Mustache.Hash
