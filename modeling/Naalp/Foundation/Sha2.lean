import Naalp.Foundation.Bytes

/-! The 64-bit members of the SHA-2 family, as FIPS 180-4 defines them. -/

namespace Naalp.Foundation.Sha2

/-- The eight working variables of one compression. -/
structure Words where
  a : UInt64
  b : UInt64
  c : UInt64
  d : UInt64
  e : UInt64
  f : UInt64
  g : UInt64
  h : UInt64

def Words.ofList (words : List UInt64) : Words :=
  ⟨words.getD 0 0, words.getD 1 0, words.getD 2 0, words.getD 3 0, words.getD 4 0,
    words.getD 5 0, words.getD 6 0, words.getD 7 0⟩

def Words.toList (s : Words) : List UInt64 := [s.a, s.b, s.c, s.d, s.e, s.f, s.g, s.h]

def Words.add (left right : Words) : Words :=
  Words.ofList (List.zipWith (· + ·) left.toList right.toList)

def rotr (word : UInt64) (count : UInt64) : UInt64 :=
  (word >>> count) ||| (word <<< (64 - count))

def roundConstants : List UInt64 :=
  [
    0x428a2f98d728ae22, 0x7137449123ef65cd, 0xb5c0fbcfec4d3b2f, 0xe9b5dba58189dbbc,
    0x3956c25bf348b538, 0x59f111f1b605d019, 0x923f82a4af194f9b, 0xab1c5ed5da6d8118,
    0xd807aa98a3030242, 0x12835b0145706fbe, 0x243185be4ee4b28c, 0x550c7dc3d5ffb4e2,
    0x72be5d74f27b896f, 0x80deb1fe3b1696b1, 0x9bdc06a725c71235, 0xc19bf174cf692694,
    0xe49b69c19ef14ad2, 0xefbe4786384f25e3, 0x0fc19dc68b8cd5b5, 0x240ca1cc77ac9c65,
    0x2de92c6f592b0275, 0x4a7484aa6ea6e483, 0x5cb0a9dcbd41fbd4, 0x76f988da831153b5,
    0x983e5152ee66dfab, 0xa831c66d2db43210, 0xb00327c898fb213f, 0xbf597fc7beef0ee4,
    0xc6e00bf33da88fc2, 0xd5a79147930aa725, 0x06ca6351e003826f, 0x142929670a0e6e70,
    0x27b70a8546d22ffc, 0x2e1b21385c26c926, 0x4d2c6dfc5ac42aed, 0x53380d139d95b3df,
    0x650a73548baf63de, 0x766a0abb3c77b2a8, 0x81c2c92e47edaee6, 0x92722c851482353b,
    0xa2bfe8a14cf10364, 0xa81a664bbc423001, 0xc24b8b70d0f89791, 0xc76c51a30654be30,
    0xd192e819d6ef5218, 0xd69906245565a910, 0xf40e35855771202a, 0x106aa07032bbd1b8,
    0x19a4c116b8d2d0c8, 0x1e376c085141ab53, 0x2748774cdf8eeb99, 0x34b0bcb5e19b48a8,
    0x391c0cb3c5c95a63, 0x4ed8aa4ae3418acb, 0x5b9cca4f7763e373, 0x682e6ff3d6b2b8a3,
    0x748f82ee5defb2fc, 0x78a5636f43172f60, 0x84c87814a1f0ab72, 0x8cc702081a6439ec,
    0x90befffa23631e28, 0xa4506cebde82bde9, 0xbef9a3f7b2c67915, 0xc67178f2e372532b,
    0xca273eceea26619c, 0xd186b8c721c0c207, 0xeada7dd6cde0eb1e, 0xf57d4f7fee6ed178,
    0x06f067aa72176fba, 0x0a637dc5a2c898a6, 0x113f9804bef90dae, 0x1b710b35131c471b,
    0x28db77f523047d84, 0x32caab7b40c72493, 0x3c9ebe0a15c9bebc, 0x431d67c49c100d4c,
    0x4cc5d4becb3e42b6, 0x597f299cfc657e2a, 0x5fcb6fab3ad6faec, 0x6c44198c4a475817
  ]

/-- The message, a single one bit, zeros up to 896 modulo 1024, and the bit length. -/
def pad (message : Bytes) : Bytes :=
  message ++ [0x80] ++ List.replicate ((239 - message.length % 128) % 128) 0
    ++ toBigEndian 16 (8 * message.length)

/-- The 80 message words of a block, each extending the 16 words before it. -/
def schedule (block : Bytes) : List UInt64 :=
  let first := (List.range 16).map
    (fun i => UInt64.ofNat (ofBigEndian ((block.drop (8 * i)).take 8)))
  -- the list is kept newest first, so index j holds the word j + 1 places back
  let extend (words : List UInt64) : List UInt64 :=
    let s0 := let w := words.getD 14 0; rotr w 1 ^^^ rotr w 8 ^^^ (w >>> 7)
    let s1 := let w := words.getD 1 0; rotr w 19 ^^^ rotr w 61 ^^^ (w >>> 6)
    (s1 + words.getD 6 0 + s0 + words.getD 15 0) :: words
  ((List.range 64).foldl (fun words _ => extend words) first.reverse).reverse

def round (s : Words) (constant word : UInt64) : Words :=
  let sum1 := rotr s.e 14 ^^^ rotr s.e 18 ^^^ rotr s.e 41
  let choice := (s.e &&& s.f) ^^^ (~~~ s.e &&& s.g)
  let t1 := s.h + sum1 + choice + constant + word
  let sum0 := rotr s.a 28 ^^^ rotr s.a 34 ^^^ rotr s.a 39
  let majority := (s.a &&& s.b) ^^^ (s.a &&& s.c) ^^^ (s.b &&& s.c)
  ⟨t1 + (sum0 + majority), s.a, s.b, s.c, s.d + t1, s.e, s.f, s.g⟩

def compress (s : Words) (block : Bytes) : Words :=
  s.add ((roundConstants.zip (schedule block)).foldl (fun s kw => round s kw.1 kw.2) s)

def digestWords (start : Words) (message : Bytes) : List UInt64 :=
  let padded := pad message
  ((List.range (padded.length / 128)).foldl
    (fun s i => compress s ((padded.drop (128 * i)).take 128)) start).toList

def start512 : Words :=
  Words.ofList [
    0x6a09e667f3bcc908, 0xbb67ae8584caa73b, 0x3c6ef372fe94f82b, 0xa54ff53a5f1d36f1,
    0x510e527fade682d1, 0x9b05688c2b3e6c1f, 0x1f83d9abfb41bd6b, 0x5be0cd19137e2179
  ]

def start384 : Words :=
  Words.ofList [
    0xcbbb9d5dc1059ed8, 0x629a292a367cd507, 0x9159015a3070dd17, 0x152fecd8f70e5939,
    0x67332667ffc00b31, 0x8eb44a8768581511, 0xdb0c2e0d64f98fa7, 0x47b5481dbefa4fa4
  ]

def wordBytes (word : UInt64) : Bytes := toBigEndian 8 word.toNat

@[irreducible]
def sha512 (message : Bytes) : Bytes := (digestWords start512 message).flatMap wordBytes

@[irreducible]
def sha384 (message : Bytes) : Bytes :=
  ((digestWords start384 message).take 6).flatMap wordBytes

/-- A SHA-384 digest has 48 octets: six of the eight final words are kept. -/
@[simp]
theorem length_sha384 (message : Bytes) : (sha384 message).length = 48 := by
  unfold sha384
  simp [digestWords, Words.toList, wordBytes, List.take]

/-- Two different octet strings of the list have one SHA-384 digest. -/
def DigestsCollide (messages : List Bytes) : Prop :=
  ∃ x ∈ messages, ∃ y ∈ messages, x ≠ y ∧ sha384 x = sha384 y

theorem DigestsCollide.mono {messages more : List Bytes} (collide : DigestsCollide messages)
    (subset : messages ⊆ more) : DigestsCollide more := by
  obtain ⟨x, left, y, right, different⟩ := collide
  exact ⟨x, subset left, y, subset right, different⟩

end Naalp.Foundation.Sha2

/-! SHA-256, the 32-bit member of the SHA-2 family, as FIPS 180-4 defines it. -/

namespace Naalp.Foundation.Sha256

/-- The eight working variables of one compression. -/
structure Words where
  a : UInt32
  b : UInt32
  c : UInt32
  d : UInt32
  e : UInt32
  f : UInt32
  g : UInt32
  h : UInt32

def Words.toList (s : Words) : List UInt32 := [s.a, s.b, s.c, s.d, s.e, s.f, s.g, s.h]

def Words.add (left right : Words) : Words :=
  ⟨left.a + right.a, left.b + right.b, left.c + right.c, left.d + right.d, left.e + right.e,
    left.f + right.f, left.g + right.g, left.h + right.h⟩

def rotr (word : UInt32) (count : UInt32) : UInt32 :=
  (word >>> count) ||| (word <<< (32 - count))

def roundConstants : List UInt32 :=
  [
    0x428a2f98, 0x71374491, 0xb5c0fbcf, 0xe9b5dba5, 0x3956c25b, 0x59f111f1, 0x923f82a4, 0xab1c5ed5,
    0xd807aa98, 0x12835b01, 0x243185be, 0x550c7dc3, 0x72be5d74, 0x80deb1fe, 0x9bdc06a7, 0xc19bf174,
    0xe49b69c1, 0xefbe4786, 0x0fc19dc6, 0x240ca1cc, 0x2de92c6f, 0x4a7484aa, 0x5cb0a9dc, 0x76f988da,
    0x983e5152, 0xa831c66d, 0xb00327c8, 0xbf597fc7, 0xc6e00bf3, 0xd5a79147, 0x06ca6351, 0x14292967,
    0x27b70a85, 0x2e1b2138, 0x4d2c6dfc, 0x53380d13, 0x650a7354, 0x766a0abb, 0x81c2c92e, 0x92722c85,
    0xa2bfe8a1, 0xa81a664b, 0xc24b8b70, 0xc76c51a3, 0xd192e819, 0xd6990624, 0xf40e3585, 0x106aa070,
    0x19a4c116, 0x1e376c08, 0x2748774c, 0x34b0bcb5, 0x391c0cb3, 0x4ed8aa4a, 0x5b9cca4f, 0x682e6ff3,
    0x748f82ee, 0x78a5636f, 0x84c87814, 0x8cc70208, 0x90befffa, 0xa4506ceb, 0xbef9a3f7, 0xc67178f2
  ]

/-- The message, a single one bit, zeros up to 448 modulo 512, and the bit length. -/
def pad (message : Bytes) : Bytes :=
  message ++ [0x80] ++ List.replicate ((119 - message.length % 64) % 64) 0
    ++ toBigEndian 8 (8 * message.length)

def schedule (block : Bytes) : List UInt32 :=
  let first := (List.range 16).map
    (fun i => UInt32.ofNat (ofBigEndian ((block.drop (4 * i)).take 4)))
  -- the list is kept newest first, so index j holds the word j + 1 places back
  let extend (words : List UInt32) : List UInt32 :=
    let s0 := let w := words.getD 14 0; rotr w 7 ^^^ rotr w 18 ^^^ (w >>> 3)
    let s1 := let w := words.getD 1 0; rotr w 17 ^^^ rotr w 19 ^^^ (w >>> 10)
    (s1 + words.getD 6 0 + s0 + words.getD 15 0) :: words
  ((List.range 48).foldl (fun words _ => extend words) first.reverse).reverse

def round (s : Words) (constant word : UInt32) : Words :=
  let sum1 := rotr s.e 6 ^^^ rotr s.e 11 ^^^ rotr s.e 25
  let choice := (s.e &&& s.f) ^^^ (~~~ s.e &&& s.g)
  let t1 := s.h + sum1 + choice + constant + word
  let sum0 := rotr s.a 2 ^^^ rotr s.a 13 ^^^ rotr s.a 22
  let majority := (s.a &&& s.b) ^^^ (s.a &&& s.c) ^^^ (s.b &&& s.c)
  ⟨t1 + (sum0 + majority), s.a, s.b, s.c, s.d + t1, s.e, s.f, s.g⟩

def compress (s : Words) (block : Bytes) : Words :=
  s.add ((roundConstants.zip (schedule block)).foldl (fun s kw => round s kw.1 kw.2) s)

def start : Words :=
  ⟨0x6a09e667, 0xbb67ae85, 0x3c6ef372, 0xa54ff53a, 0x510e527f, 0x9b05688c, 0x1f83d9ab, 0x5be0cd19⟩

@[irreducible]
def sha256 (message : Bytes) : Bytes :=
  let padded := pad message
  let final := (List.range (padded.length / 64)).foldl
    (fun s i => compress s ((padded.drop (64 * i)).take 64)) start
  final.toList.flatMap (fun word => toBigEndian 4 word.toNat)

/-- A digest has 32 octets: the eight final words. -/
@[simp]
theorem length_sha256 (message : Bytes) : (sha256 message).length = 32 := by
  unfold sha256
  simp [Words.toList]

end Naalp.Foundation.Sha256
