import WorkerPool.Lib.Sha256

/-!
# SHA-1

The hash function by its standard definition, over the padding and the words of SHA-256, and
the name that Git gives to the contents of a file.
-/

namespace Sha1

open Sha256 (wordBound pad chunks bigEndian wordHex)

def rotateLeft (x n : Nat) : Nat := ((x <<< n) ||| (x >>> (32 - n))) % wordBound

structure Registers where
  a : Nat
  b : Nat
  c : Nat
  d : Nat
  e : Nat

def Registers.start : Registers :=
  ⟨0x67452301, 0xefcdab89, 0x98badcfe, 0x10325476, 0xc3d2e1f0⟩

def Registers.words (s : Registers) : List Nat := [s.a, s.b, s.c, s.d, s.e]

def Registers.add (s r : Registers) : Registers :=
  ⟨(s.a + r.a) % wordBound, (s.b + r.b) % wordBound, (s.c + r.c) % wordBound,
    (s.d + r.d) % wordBound, (s.e + r.e) % wordBound⟩

/-- The function and the constant of a round. -/
def mix (s : Registers) (i : Nat) : Nat :=
  if i < 20 then ((s.b &&& s.c) ||| ((s.b ^^^ (wordBound - 1)) &&& s.d)) + 0x5a827999
  else if i < 40 then (s.b ^^^ s.c ^^^ s.d) + 0x6ed9eba1
  else if i < 60 then ((s.b &&& s.c) ||| (s.b &&& s.d) ||| (s.c &&& s.d)) + 0x8f1bbcdc
  else (s.b ^^^ s.c ^^^ s.d) + 0xca62c1d6

def round (s : Registers) (iw : Nat × Nat) : Registers :=
  ⟨(rotateLeft s.a 5 + mix s iw.1 + s.e + iw.2) % wordBound, s.a, rotateLeft s.b 30, s.c, s.d⟩

/-- The message schedule, produced from a window of the sixteen latest words. -/
def schedule : Nat → List Nat → List Nat
  | n + 1, w :: rest =>
    let next := w ^^^ rest.getD 1 0 ^^^ rest.getD 7 0 ^^^ rest.getD 12 0
    w :: schedule n (rest ++ [rotateLeft next 1])
  | _, _ => []

def compress (s : Registers) (block : List Nat) : Registers :=
  s.add (((List.range 80).zip (schedule 80 block)).foldl round s)

/-- `hashlib.sha1(bytes).hexdigest()`. -/
def hexdigestOfBytes (bytes : List UInt8) : String :=
  let padded := pad (bytes.map UInt8.toNat)
  let blocks := (chunks 64 (padded.length / 64) padded).map fun b => (chunks 4 16 b).map bigEndian
  String.ofList ((blocks.foldl compress Registers.start).words.flatMap wordHex)

/-- The digest of `b"blob " + str(len(raw)).encode("ascii") + b"\x00" + raw`. -/
def gitBlob (raw : List UInt8) : String :=
  hexdigestOfBytes
    (("blob " ++ toString raw.length).toList.map (fun c => UInt8.ofNat c.toNat) ++ 0 :: raw)

example : gitBlob [] = "e69de29bb2d1d6434b8b29ae775ad8c2e48c5391" := by decide +kernel

end Sha1
