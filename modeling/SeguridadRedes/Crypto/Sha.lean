import Mathlib.Algebra.Group.Nat.Defs
import SeguridadRedes.C.Hex
import SeguridadRedes.Crypto.StreamingHash

namespace Crypto

open C (Bytes ascii hex02)

/-- The message followed by a one bit, zeros, and its length in bits in `lengthSize` bytes, up to a
    multiple of `blockSize` bytes (FIPS 180-4, section 5.1). -/
def padMessage (blockSize lengthSize : Nat) (message : Bytes) : Bytes :=
  let used := (message.length + 1 + lengthSize) % blockSize
  message ++ [0x80] ++ List.replicate ((blockSize - used) % blockSize) 0 ++
    (List.range lengthSize).map fun i =>
      UInt8.ofNat (8 * message.length / 256 ^ (lengthSize - 1 - i))

def byteAt (block : Bytes) (i : Nat) : Nat := (block.getD i 0).toNat

namespace Sha1

def rotateLeft (x : UInt32) (n : UInt32) : UInt32 := (x <<< n) ||| (x >>> (32 - n))

def wordAt (block : Bytes) (t : Nat) : UInt32 :=
  UInt32.ofNat (((byteAt block (4 * t) * 256 + byteAt block (4 * t + 1)) * 256 +
    byteAt block (4 * t + 2)) * 256 + byteAt block (4 * t + 3))

def schedule (block : Bytes) : Nat → List UInt32
  | 0 => []
  | t + 1 =>
    let words := schedule block t
    if t < 16 then wordAt block t :: words
    else rotateLeft (words.getD 2 0 ^^^ words.getD 7 0 ^^^ words.getD 13 0 ^^^ words.getD 15 0) 1 :: words

structure State where
  a : UInt32
  b : UInt32
  c : UInt32
  d : UInt32
  e : UInt32

def initial : State := ⟨0x67452301, 0xefcdab89, 0x98badcfe, 0x10325476, 0xc3d2e1f0⟩

def mixing (t : Nat) (s : State) : UInt32 :=
  if t < 20 then ((s.b &&& s.c) ||| (~~~s.b &&& s.d)) + 0x5a827999
  else if t < 40 then (s.b ^^^ s.c ^^^ s.d) + 0x6ed9eba1
  else if t < 60 then ((s.b &&& s.c) ||| (s.b &&& s.d) ||| (s.c &&& s.d)) + 0x8f1bbcdc
  else (s.b ^^^ s.c ^^^ s.d) + 0xca62c1d6

def round (s : State) (step : UInt32 × Nat) : State :=
  ⟨rotateLeft s.a 5 + mixing step.2 s + s.e + step.1, s.a, rotateLeft s.b 30, s.c, s.d⟩

def compress (s : State) (block : Bytes) : State :=
  let after := ((schedule block 80).reverse.zipIdx).foldl round s
  ⟨s.a + after.a, s.b + after.b, s.c + after.c, s.d + after.d, s.e + after.e⟩

def output (s : State) : Vector UInt8 20 :=
  Vector.ofFn fun i =>
    UInt8.ofNat (([s.a, s.b, s.c, s.d, s.e].getD (i.val / 4) 0).toNat / 256 ^ (3 - i.val % 4))

def hash (message : Bytes) : Vector UInt8 20 :=
  let padded := padMessage 64 8 message
  output ((List.range (padded.length / 64)).foldl
    (fun s i => compress s ((padded.drop (64 * i)).take 64)) initial)

end Sha1

/-- SHA-1 (FIPS 180-4). -/
def fipsSha1 : StreamingHash 20 := StreamingHash.ofFunction Sha1.hash

example : (fipsSha1.digest (ascii "abc")).flatMap hex02 =
    ascii "a9993e364706816aba3e25717850c26c9cd0d89d" := by decide +kernel

namespace Sha512

def rotateRight (x : UInt64) (n : UInt64) : UInt64 := (x >>> n) ||| (x <<< (64 - n))

def wordAt (block : Bytes) (t : Nat) : UInt64 :=
  UInt64.ofNat ((List.range 8).foldl (fun word i => word * 256 + byteAt block (8 * t + i)) 0)

def smallSigma0 (x : UInt64) : UInt64 := rotateRight x 1 ^^^ rotateRight x 8 ^^^ (x >>> 7)
def smallSigma1 (x : UInt64) : UInt64 := rotateRight x 19 ^^^ rotateRight x 61 ^^^ (x >>> 6)
def bigSigma0 (x : UInt64) : UInt64 := rotateRight x 28 ^^^ rotateRight x 34 ^^^ rotateRight x 39
def bigSigma1 (x : UInt64) : UInt64 := rotateRight x 14 ^^^ rotateRight x 18 ^^^ rotateRight x 41

def schedule (block : Bytes) : Nat → List UInt64
  | 0 => []
  | t + 1 =>
    let words := schedule block t
    if t < 16 then wordAt block t :: words
    else (smallSigma1 (words.getD 1 0) + words.getD 6 0 + smallSigma0 (words.getD 14 0) +
      words.getD 15 0) :: words

structure State where
  a : UInt64
  b : UInt64
  c : UInt64
  d : UInt64
  e : UInt64
  f : UInt64
  g : UInt64
  h : UInt64

def initial : State :=
  ⟨0x6a09e667f3bcc908, 0xbb67ae8584caa73b, 0x3c6ef372fe94f82b, 0xa54ff53a5f1d36f1,
   0x510e527fade682d1, 0x9b05688c2b3e6c1f, 0x1f83d9abfb41bd6b, 0x5be0cd19137e2179⟩

def constants : List UInt64 :=
  [0x428a2f98d728ae22, 0x7137449123ef65cd, 0xb5c0fbcfec4d3b2f, 0xe9b5dba58189dbbc,
   0x3956c25bf348b538, 0x59f111f1b605d019, 0x923f82a4af194f9b, 0xab1c5ed5da6d8118,
   0xd807aa98a3030242, 0x12835b0145706fbe, 0x243185be4ee4b28c, 0x550c7dc3d5ffb4e2,
   0x72be5d74f27b896f, 0x80deb1fe3b1696b1, 0x9bdc06a725c71235, 0xc19bf174cf692694,
   0xe49b69c19ef14ad2, 0xefbe4786384f25e3, 0x0fc19dc68b8cd5b5, 0x240ca1cc77ac9c65,
   0x2de92c6f592b0275, 0x4a7484aa6ea6e483, 0x5cb0a9dcbd41fbd4, 0x76f988da831153b5,
   0x983e5152ee66dfab, 0xa831c66d2db43210, 0xb00327c898fb213f, 0xbf597fc7beef0ee4,
   0xc6e00bf33da88fc2, 0xd5a79147930aa725, 0x06ca6351e003826f, 0x142929670a0e6e70,
   0x27b70a8546d22ffc, 0x2e1b21385c26c926, 0x4d2c6dfc5ac42aed, 0x53380d139d95b3df,
   0x650a73548baf63de, 0x766a0abb3c77b2a8, 0x81c2c92e47edaee6, 0x92722c851482353b,
   0xa2bfe8a14cf10364, 0xa81a664bbc423001, 0xc24b8b70d0f89791, 0xc76c51a30654be30,
   0xd192e819d6ef5218, 0xd69906245565a910, 0xf40e35855771202a, 0x106aa07032bbd1b8,
   0x19a4c116b8d2d0c8, 0x1e376c085141ab53, 0x2748774cdf8eeb99, 0x34b0bcb5e19b48a8,
   0x391c0cb3c5c95a63, 0x4ed8aa4ae3418acb, 0x5b9cca4f7763e373, 0x682e6ff3d6b2b8a3,
   0x748f82ee5defb2fc, 0x78a5636f43172f60, 0x84c87814a1f0ab72, 0x8cc702081a6439ec,
   0x90befffa23631e28, 0xa4506cebde82bde9, 0xbef9a3f7b2c67915, 0xc67178f2e372532b,
   0xca273eceea26619c, 0xd186b8c721c0c207, 0xeada7dd6cde0eb1e, 0xf57d4f7fee6ed178,
   0x06f067aa72176fba, 0x0a637dc5a2c898a6, 0x113f9804bef90dae, 0x1b710b35131c471b,
   0x28db77f523047d84, 0x32caab7b40c72493, 0x3c9ebe0a15c9bebc, 0x431d67c49c100d4c,
   0x4cc5d4becb3e42b6, 0x597f299cfc657e2a, 0x5fcb6fab3ad6faec, 0x6c44198c4a475817]

def round (s : State) (step : UInt64 × UInt64) : State :=
  let choice := (s.e &&& s.f) ^^^ (~~~s.e &&& s.g)
  let majority := (s.a &&& s.b) ^^^ (s.a &&& s.c) ^^^ (s.b &&& s.c)
  let t1 := s.h + bigSigma1 s.e + choice + step.2 + step.1
  ⟨t1 + bigSigma0 s.a + majority, s.a, s.b, s.c, s.d + t1, s.e, s.f, s.g⟩

def compress (s : State) (block : Bytes) : State :=
  let after := ((schedule block 80).reverse.zip constants).foldl round s
  ⟨s.a + after.a, s.b + after.b, s.c + after.c, s.d + after.d,
   s.e + after.e, s.f + after.f, s.g + after.g, s.h + after.h⟩

def output (s : State) : Vector UInt8 64 :=
  Vector.ofFn fun i =>
    UInt8.ofNat (([s.a, s.b, s.c, s.d, s.e, s.f, s.g, s.h].getD (i.val / 8) 0).toNat / 256 ^ (7 - i.val % 8))

def hash (message : Bytes) : Vector UInt8 64 :=
  let padded := padMessage 128 16 message
  output ((List.range (padded.length / 128)).foldl
    (fun s i => compress s ((padded.drop (128 * i)).take 128)) initial)

end Sha512

/-- SHA-512 (FIPS 180-4). -/
def fipsSha512 : StreamingHash 64 := StreamingHash.ofFunction Sha512.hash

example : (fipsSha512.digest (ascii "abc")).flatMap hex02 =
    ascii "ddaf35a193617abacc417349ae20413112e6fa4e89a97ea20a9eeee64b55d39a" ++
      ascii "2192992a274fc1a836ba3c23a3feebbd454d4423643ce80e2a9ac94fa54ca49f" := by decide +kernel

end Crypto
