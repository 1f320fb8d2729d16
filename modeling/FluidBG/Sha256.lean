import Mathlib.Data.List.Basic
/-!
# SHA-256

The digest the generated names are cut from, over bytes as numbers below 256. Words are numbers
below `2 ^ 32`.
-/

set_option autoImplicit false

namespace FluidBG.Sha256

/-- The number of values of a 32-bit word. -/
def wordSize : Nat := 4294967296

def rotateRight (x n : Nat) : Nat :=
  (x >>> n) ||| ((x <<< (32 - n)) % wordSize)

/-- The 64 round constants. -/
def roundConstants : List Nat := [
  0x428a2f98, 0x71374491, 0xb5c0fbcf, 0xe9b5dba5, 0x3956c25b, 0x59f111f1, 0x923f82a4, 0xab1c5ed5,
  0xd807aa98, 0x12835b01, 0x243185be, 0x550c7dc3, 0x72be5d74, 0x80deb1fe, 0x9bdc06a7, 0xc19bf174,
  0xe49b69c1, 0xefbe4786, 0x0fc19dc6, 0x240ca1cc, 0x2de92c6f, 0x4a7484aa, 0x5cb0a9dc, 0x76f988da,
  0x983e5152, 0xa831c66d, 0xb00327c8, 0xbf597fc7, 0xc6e00bf3, 0xd5a79147, 0x06ca6351, 0x14292967,
  0x27b70a85, 0x2e1b2138, 0x4d2c6dfc, 0x53380d13, 0x650a7354, 0x766a0abb, 0x81c2c92e, 0x92722c85,
  0xa2bfe8a1, 0xa81a664b, 0xc24b8b70, 0xc76c51a3, 0xd192e819, 0xd6990624, 0xf40e3585, 0x106aa070,
  0x19a4c116, 0x1e376c08, 0x2748774c, 0x34b0bcb5, 0x391c0cb3, 0x4ed8aa4a, 0x5b9cca4f, 0x682e6ff3,
  0x748f82ee, 0x78a5636f, 0x84c87814, 0x8cc70208, 0x90befffa, 0xa4506ceb, 0xbef9a3f7, 0xc67178f2]

/-- The eight working variables. -/
structure State where
  a : Nat
  b : Nat
  c : Nat
  d : Nat
  e : Nat
  f : Nat
  g : Nat
  h : Nat

/-- The initial hash value. -/
def State.init : State :=
  ⟨0x6a09e667, 0xbb67ae85, 0x3c6ef372, 0xa54ff53a, 0x510e527f, 0x9b05688c, 0x1f83d9ab, 0x5be0cd19⟩

/-- One round with the constant `k` and the schedule word `w`. -/
def round (s : State) (k w : Nat) : State :=
  let s1 := rotateRight s.e 6 ^^^ rotateRight s.e 11 ^^^ rotateRight s.e 25
  let ch := (s.e &&& s.f) ^^^ ((wordSize - 1 - s.e) &&& s.g)
  let t1 := s.h + s1 + ch + k + w
  let s0 := rotateRight s.a 2 ^^^ rotateRight s.a 13 ^^^ rotateRight s.a 22
  let maj := (s.a &&& s.b) ^^^ (s.a &&& s.c) ^^^ (s.b &&& s.c)
  ⟨(t1 + s0 + maj) % wordSize, s.a, s.b, s.c, (s.d + t1) % wordSize, s.e, s.f, s.g⟩

/-- The next word of the message schedule from the words so far, the newest first. -/
def nextWord (ws : List Nat) : Nat :=
  let x := ws.getD 1 0
  let y := ws.getD 14 0
  let s1 := rotateRight x 17 ^^^ rotateRight x 19 ^^^ (x >>> 10)
  let s0 := rotateRight y 7 ^^^ rotateRight y 18 ^^^ (y >>> 3)
  (s1 + ws.getD 6 0 + s0 + ws.getD 15 0) % wordSize

def schedule : Nat → List Nat → List Nat
  | 0, ws => ws
  | n + 1, ws => schedule n (nextWord ws :: ws)

/-- Mix one block of 16 words into the hash value. -/
def compress (s : State) (block : List Nat) : State :=
  let ws := (schedule 48 block.reverse).reverse
  let r := (roundConstants.zip ws).foldl (fun s kw => round s kw.1 kw.2) s
  ⟨(s.a + r.a) % wordSize, (s.b + r.b) % wordSize, (s.c + r.c) % wordSize, (s.d + r.d) % wordSize,
    (s.e + r.e) % wordSize, (s.f + r.f) % wordSize, (s.g + r.g) % wordSize, (s.h + r.h) % wordSize⟩

/-- The message with its end marker, zeros, and its length in bits, a multiple of 64 bytes. -/
def pad (bytes : List Nat) : List Nat :=
  bytes ++ [0x80] ++ List.replicate ((119 - bytes.length % 64) % 64) 0 ++
    (List.range 8).map fun i => ((8 * bytes.length) >>> (8 * (7 - i))) % 256

def toWords : List Nat → List Nat
  | a :: b :: c :: d :: rest => (a * 16777216 + b * 65536 + c * 256 + d) :: toWords rest
  | _ => []

def toBlocks : Nat → List Nat → List (List Nat)
  | 0, _ => []
  | n + 1, ws => ws.take 16 :: toBlocks n (ws.drop 16)

/-- The 32 bytes of the digest. -/
def digest (bytes : List Nat) : List Nat :=
  let ws := toWords (pad bytes)
  let r := (toBlocks (ws.length / 16) ws).foldl compress State.init
  [r.a, r.b, r.c, r.d, r.e, r.f, r.g, r.h].flatMap fun w =>
    [w >>> 24, (w >>> 16) % 256, (w >>> 8) % 256, w % 256]

end FluidBG.Sha256
