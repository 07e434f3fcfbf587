import PostCall.Python.Uuid

/-!
# HMAC-SHA256

`hmac.new(key, message, hashlib.sha256).hexdigest()` for a key given as a text, and
`hmac.compare_digest` of two texts. Words are numbers below `2 ^ 32`, and a message schedule is kept
newest word first.
-/

namespace PostCall.Python

namespace Sha256

/-- The words of the rounds: fractional parts of cube roots of primes. -/
def roundConstants : List ℕ := [
  0x428a2f98, 0x71374491, 0xb5c0fbcf, 0xe9b5dba5, 0x3956c25b, 0x59f111f1, 0x923f82a4, 0xab1c5ed5,
  0xd807aa98, 0x12835b01, 0x243185be, 0x550c7dc3, 0x72be5d74, 0x80deb1fe, 0x9bdc06a7, 0xc19bf174,
  0xe49b69c1, 0xefbe4786, 0x0fc19dc6, 0x240ca1cc, 0x2de92c6f, 0x4a7484aa, 0x5cb0a9dc, 0x76f988da,
  0x983e5152, 0xa831c66d, 0xb00327c8, 0xbf597fc7, 0xc6e00bf3, 0xd5a79147, 0x06ca6351, 0x14292967,
  0x27b70a85, 0x2e1b2138, 0x4d2c6dfc, 0x53380d13, 0x650a7354, 0x766a0abb, 0x81c2c92e, 0x92722c85,
  0xa2bfe8a1, 0xa81a664b, 0xc24b8b70, 0xc76c51a3, 0xd192e819, 0xd6990624, 0xf40e3585, 0x106aa070,
  0x19a4c116, 0x1e376c08, 0x2748774c, 0x34b0bcb5, 0x391c0cb3, 0x4ed8aa4a, 0x5b9cca4f, 0x682e6ff3,
  0x748f82ee, 0x78a5636f, 0x84c87814, 0x8cc70208, 0x90befffa, 0xa4506ceb, 0xbef9a3f7, 0xc67178f2]

/-- The working words `a` to `h`. -/
structure State where
  a : ℕ
  b : ℕ
  c : ℕ
  d : ℕ
  e : ℕ
  f : ℕ
  g : ℕ
  h : ℕ

def initial : State :=
  ⟨0x6a09e667, 0xbb67ae85, 0x3c6ef372, 0xa54ff53a, 0x510e527f, 0x9b05688c, 0x1f83d9ab, 0x5be0cd19⟩

def word (n : ℕ) : ℕ := n % 2 ^ 32

/-- A rotation to the right. -/
def rotr (x n : ℕ) : ℕ := x >>> n ||| word (x <<< (32 - n))

/-- The words of a message schedule after those of the block, newest first. -/
def schedule : ℕ → List ℕ → List ℕ
  | 0, w => w
  | n + 1, w =>
    let x := w.getD 14 0
    let y := w.getD 1 0
    let s0 := rotr x 7 ^^^ rotr x 18 ^^^ (x >>> 3)
    let s1 := rotr y 17 ^^^ rotr y 19 ^^^ (y >>> 10)
    schedule n (word (w.getD 15 0 + s0 + w.getD 6 0 + s1) :: w)

def round (s : State) (k w : ℕ) : State :=
  let s1 := rotr s.e 6 ^^^ rotr s.e 11 ^^^ rotr s.e 25
  let ch := (s.e &&& s.f) ^^^ ((0xffffffff ^^^ s.e) &&& s.g)
  let t1 := s.h + s1 + ch + k + w
  let s0 := rotr s.a 2 ^^^ rotr s.a 13 ^^^ rotr s.a 22
  let maj := (s.a &&& s.b) ^^^ (s.a &&& s.c) ^^^ (s.b &&& s.c)
  ⟨word (t1 + s0 + maj), s.a, s.b, s.c, word (s.d + t1), s.e, s.f, s.g⟩

def rounds : State → List ℕ → List ℕ → State
  | s, k :: ks, w :: ws => rounds (round s k w) ks ws
  | s, _, _ => s

/-- The words of a text of bytes, four bytes each. -/
def words : List ℕ → List ℕ
  | a :: b :: c :: d :: bytes => (((a * 256 + b) * 256 + c) * 256 + d) :: words bytes
  | _ => []

/-- The compression of one block of sixteen words. -/
def compress (s : State) (block : List ℕ) : State :=
  let t := rounds s roundConstants (schedule 48 block.reverse).reverse
  ⟨word (s.a + t.a), word (s.b + t.b), word (s.c + t.c), word (s.d + t.d),
    word (s.e + t.e), word (s.f + t.f), word (s.g + t.g), word (s.h + t.h)⟩

def blocks : ℕ → State → List ℕ → State
  | 0, s, _ => s
  | n + 1, s, w => blocks n (compress s (w.take 16)) (w.drop 16)

/-- The big-endian bytes of a number. -/
def bytes : ℕ → ℕ → List ℕ
  | 0, _ => []
  | w + 1, n => bytes w (n / 256) ++ [n % 256]

/-- The message with its padding: a bit, zeros up to a whole number of blocks, and its length. -/
def pad (message : List ℕ) : List ℕ :=
  message ++ 0x80 :: (List.replicate ((119 - message.length % 64) % 64) 0 ++
    bytes 8 (message.length * 8))

/-- The words of the digest. -/
def digest (message : List ℕ) : List ℕ :=
  let padded := pad message
  let s := blocks (padded.length / 64) initial (words padded)
  [s.a, s.b, s.c, s.d, s.e, s.f, s.g, s.h]

end Sha256

/-- The bytes of a digest. -/
def sha256 (message : List ℕ) : List ℕ := (Sha256.digest message).flatMap (Sha256.bytes 4)

/-- The key of `hmac.new`, filled up to one block. -/
def hmacKey (key : List ℕ) : List ℕ :=
  let key := if 64 < key.length then sha256 key else key
  key ++ List.replicate (64 - key.length) 0

/-- `hmac.new(key.encode("utf-8"), message, hashlib.sha256).hexdigest()`, by its characters. -/
def hmacHexdigest (key : String) (message : List UInt8) : List Char :=
  let key := hmacKey (key.toUTF8.toList.map UInt8.toNat)
  let inner := sha256 (key.map (· ^^^ 0x36) ++ message.map UInt8.toNat)
  (Sha256.digest (key.map (· ^^^ 0x5c) ++ inner)).flatMap (UUID.hexDigits 8)

example : hmacHexdigest "secret" [123, 125] =
    "77325902caca812dc259733aacd046b73817372c777b8d95b402647474516e13".toList := by decide +kernel

/-- `hmac.compare_digest(a, b)` for texts. -/
def compareDigest (a b : List Char) : Except PyError Bool :=
  if (a ++ b).all (·.toNat < 128) then .ok (a = b)
  else .error (.typeError "comparing strings with non-ASCII characters is not supported")

end PostCall.Python
