import WorkerPool.Lib.PyText

/-!
# SHA-256

The hash function by its standard definition, on lists of bytes and 32-bit words
held as natural numbers, so that digests of concrete texts can be computed.
-/

namespace Sha256

open PyText

def wordBound : Nat := 4294967296

def rotateRight (x n : Nat) : Nat := ((x >>> n) ||| (x <<< (32 - n))) % wordBound

def roundConstants : List Nat := [
  0x428a2f98, 0x71374491, 0xb5c0fbcf, 0xe9b5dba5, 0x3956c25b, 0x59f111f1, 0x923f82a4, 0xab1c5ed5,
  0xd807aa98, 0x12835b01, 0x243185be, 0x550c7dc3, 0x72be5d74, 0x80deb1fe, 0x9bdc06a7, 0xc19bf174,
  0xe49b69c1, 0xefbe4786, 0x0fc19dc6, 0x240ca1cc, 0x2de92c6f, 0x4a7484aa, 0x5cb0a9dc, 0x76f988da,
  0x983e5152, 0xa831c66d, 0xb00327c8, 0xbf597fc7, 0xc6e00bf3, 0xd5a79147, 0x06ca6351, 0x14292967,
  0x27b70a85, 0x2e1b2138, 0x4d2c6dfc, 0x53380d13, 0x650a7354, 0x766a0abb, 0x81c2c92e, 0x92722c85,
  0xa2bfe8a1, 0xa81a664b, 0xc24b8b70, 0xc76c51a3, 0xd192e819, 0xd6990624, 0xf40e3585, 0x106aa070,
  0x19a4c116, 0x1e376c08, 0x2748774c, 0x34b0bcb5, 0x391c0cb3, 0x4ed8aa4a, 0x5b9cca4f, 0x682e6ff3,
  0x748f82ee, 0x78a5636f, 0x84c87814, 0x8cc70208, 0x90befffa, 0xa4506ceb, 0xbef9a3f7, 0xc67178f2]

structure Registers where
  a : Nat
  b : Nat
  c : Nat
  d : Nat
  e : Nat
  f : Nat
  g : Nat
  h : Nat

def Registers.start : Registers :=
  ⟨0x6a09e667, 0xbb67ae85, 0x3c6ef372, 0xa54ff53a, 0x510e527f, 0x9b05688c, 0x1f83d9ab, 0x5be0cd19⟩

def Registers.words (s : Registers) : List Nat := [s.a, s.b, s.c, s.d, s.e, s.f, s.g, s.h]

def Registers.add (s r : Registers) : Registers :=
  ⟨(s.a + r.a) % wordBound, (s.b + r.b) % wordBound, (s.c + r.c) % wordBound,
    (s.d + r.d) % wordBound, (s.e + r.e) % wordBound, (s.f + r.f) % wordBound,
    (s.g + r.g) % wordBound, (s.h + r.h) % wordBound⟩

def round (s : Registers) (wk : Nat × Nat) : Registers :=
  let sum1 := rotateRight s.e 6 ^^^ rotateRight s.e 11 ^^^ rotateRight s.e 25
  let choice := (s.e &&& s.f) ^^^ ((s.e ^^^ (wordBound - 1)) &&& s.g)
  let t1 := s.h + sum1 + choice + wk.2 + wk.1
  let sum0 := rotateRight s.a 2 ^^^ rotateRight s.a 13 ^^^ rotateRight s.a 22
  let majority := (s.a &&& s.b) ^^^ (s.a &&& s.c) ^^^ (s.b &&& s.c)
  ⟨(t1 + sum0 + majority) % wordBound, s.a, s.b, s.c, (s.d + t1) % wordBound, s.e, s.f, s.g⟩

/-- The message schedule, produced from a window of the sixteen latest words. -/
def schedule : Nat → List Nat → List Nat
  | n + 1, w :: rest =>
    let w1 := rest.getD 0 0
    let w14 := rest.getD 13 0
    let sigma0 := rotateRight w1 7 ^^^ rotateRight w1 18 ^^^ (w1 >>> 3)
    let sigma1 := rotateRight w14 17 ^^^ rotateRight w14 19 ^^^ (w14 >>> 10)
    w :: schedule n (rest ++ [(w + sigma0 + rest.getD 8 0 + sigma1) % wordBound])
  | _, _ => []

def compress (s : Registers) (block : List Nat) : Registers :=
  s.add (((schedule 64 block).zip roundConstants).foldl round s)

def chunks (size : Nat) : Nat → List Nat → List (List Nat)
  | 0, _ => []
  | n + 1, l => l.take size :: chunks size n (l.drop size)

def pad (bytes : List Nat) : List Nat :=
  let n := bytes.length
  bytes ++ 0x80 :: List.replicate ((119 - n % 64) % 64) 0 ++
    (List.range 8).map fun i => (n * 8) >>> (8 * (7 - i)) % 256

def bigEndian (l : List Nat) : Nat := l.foldl (fun acc b => acc * 256 + b) 0

def hexDigit (n : Nat) : Char :=
  if n % 16 < 10 then Char.ofNat (48 + n % 16) else Char.ofNat (87 + n % 16)

def wordHex (n : Nat) : List Char := (List.range 8).map fun i => hexDigit (n / 16 ^ (7 - i))

def digest (bytes : List Nat) : Registers :=
  let padded := pad bytes
  let blocks := (chunks 64 (padded.length / 64) padded).map fun b => (chunks 4 16 b).map bigEndian
  blocks.foldl compress Registers.start

/-- `hashlib.sha256(bytes).hexdigest()`. -/
def hexdigestOfBytes (bytes : List UInt8) : String :=
  String.ofList ((digest (bytes.map UInt8.toNat)).words.flatMap wordHex)

/-- `hashlib.sha256(text.encode()).hexdigest()`. -/
def hexdigest (text : String) : String :=
  String.ofList ((digest (text.toUTF8.toList.map UInt8.toNat)).words.flatMap wordHex)

example : hexdigest "abc" =
    "ba7816bf8f01cfea414140de5dae2223b00361a396177a9cb410ff61f20015ad" := by decide +kernel

theorem hexDigit_isLowerHex (n : Nat) : isLowerHex (hexDigit n) = true := by
  have bound : n % 16 < 16 := Nat.mod_lt n (by decide)
  unfold hexDigit
  generalize n % 16 = d at bound ⊢
  revert d
  decide

/-- Every digest is sixty-four lower-case hexadecimal digits. -/
theorem hexdigestOfBytes_hexRun (bytes : List UInt8) : hexRun 64 (hexdigestOfBytes bytes) = true := by
  unfold hexdigestOfBytes hexRun
  generalize digest (bytes.map UInt8.toNat) = r
  have letters : ∀ n, (wordHex n).all isLowerHex = true := by
    intro n
    simp [wordHex, hexDigit_isLowerHex]
  have size : ∀ n, (wordHex n).length = 8 := by
    intro n
    simp [wordHex]
  simp [Registers.words, List.all_append, letters, size]

theorem hexdigest_hexRun (text : String) : hexRun 64 (hexdigest text) = true :=
  hexdigestOfBytes_hexRun text.toUTF8.toList

end Sha256
