/-! The SHA-256 digest of a byte sequence and its hexadecimal form. Every digest has eight words, so
every hexadecimal form has the same length and a row of them can be cut apart again. -/
namespace RouteForge.Sha256

/-- Eight words: the chaining state, and the digest in the end. -/
structure Words where
  a : UInt32
  b : UInt32
  c : UInt32
  d : UInt32
  e : UInt32
  f : UInt32
  g : UInt32
  h : UInt32
  deriving DecidableEq, Repr

def start : Words :=
  ⟨0x6a09e667, 0xbb67ae85, 0x3c6ef372, 0xa54ff53a, 0x510e527f, 0x9b05688c, 0x1f83d9ab,
    0x5be0cd19⟩

def roundWords : List UInt32 := [
  0x428a2f98, 0x71374491, 0xb5c0fbcf, 0xe9b5dba5, 0x3956c25b, 0x59f111f1,
  0x923f82a4, 0xab1c5ed5, 0xd807aa98, 0x12835b01, 0x243185be, 0x550c7dc3,
  0x72be5d74, 0x80deb1fe, 0x9bdc06a7, 0xc19bf174, 0xe49b69c1, 0xefbe4786,
  0x0fc19dc6, 0x240ca1cc, 0x2de92c6f, 0x4a7484aa, 0x5cb0a9dc, 0x76f988da,
  0x983e5152, 0xa831c66d, 0xb00327c8, 0xbf597fc7, 0xc6e00bf3, 0xd5a79147,
  0x06ca6351, 0x14292967, 0x27b70a85, 0x2e1b2138, 0x4d2c6dfc, 0x53380d13,
  0x650a7354, 0x766a0abb, 0x81c2c92e, 0x92722c85, 0xa2bfe8a1, 0xa81a664b,
  0xc24b8b70, 0xc76c51a3, 0xd192e819, 0xd6990624, 0xf40e3585, 0x106aa070,
  0x19a4c116, 0x1e376c08, 0x2748774c, 0x34b0bcb5, 0x391c0cb3, 0x4ed8aa4a,
  0x5b9cca4f, 0x682e6ff3, 0x748f82ee, 0x78a5636f, 0x84c87814, 0x8cc70208,
  0x90befffa, 0xa4506ceb, 0xbef9a3f7, 0xc67178f2]

def rotate (x count : UInt32) : UInt32 := (x >>> count) ||| (x <<< (32 - count))

def byte (message : ByteArray) (i : Nat) : UInt32 := (message[i]?.getD 0).toUInt32

/-- Four bytes, the most significant first. -/
def word (message : ByteArray) (i : Nat) : UInt32 :=
  byte message i <<< 24 ||| byte message (i + 1) <<< 16 ||| byte message (i + 2) <<< 8 |||
    byte message (i + 3)

/-- The next word of a schedule from the sixteen before it. -/
def nextWord (ws : Array UInt32) : UInt32 :=
  let back (n : Nat) : UInt32 := ws[ws.size - n]?.getD 0
  let x := back 15
  let y := back 2
  let s := rotate x 7 ^^^ rotate x 18 ^^^ (x >>> 3)
  let t := rotate y 17 ^^^ rotate y 19 ^^^ (y >>> 10)
  back 16 + s + back 7 + t

/-- The 64 words of the block at an offset: sixteen of its own and 48 that follow from them. -/
def schedule (message : ByteArray) (offset : Nat) : Array UInt32 :=
  let own := (Array.range 16).map (fun i => word message (offset + 4 * i))
  (List.range 48).foldl (fun ws _ => ws.push (nextWord ws)) own

def round (s : Words) (roundWord scheduled : UInt32) : Words :=
  let t := s.h + (rotate s.e 6 ^^^ rotate s.e 11 ^^^ rotate s.e 25) +
    ((s.e &&& s.f) ^^^ (~~~s.e &&& s.g)) + roundWord + scheduled
  let u := (rotate s.a 2 ^^^ rotate s.a 13 ^^^ rotate s.a 22) +
    ((s.a &&& s.b) ^^^ (s.a &&& s.c) ^^^ (s.b &&& s.c))
  ⟨t + u, s.a, s.b, s.c, s.d + t, s.e, s.f, s.g⟩

def compress (s : Words) (message : ByteArray) (offset : Nat) : Words :=
  let r := (roundWords.zip (schedule message offset).toList).foldl
    (fun r (roundWord, scheduled) => round r roundWord scheduled) s
  ⟨s.a + r.a, s.b + r.b, s.c + r.c, s.d + r.d, s.e + r.e, s.f + r.f, s.g + r.g, s.h + r.h⟩

/-- A one bit, zeros up to the last eight bytes of a block, and there the length in bits. -/
def pad (message : ByteArray) : ByteArray :=
  let zeros := (119 - message.size % 64) % 64
  let length := (List.range 8).map (fun i => ((message.size * 8) >>> (8 * (7 - i))).toUInt8)
  message ++ ⟨(0x80 :: List.replicate zeros 0 ++ length).toArray⟩

def digest (message : ByteArray) : Words :=
  let padded := pad message
  (List.range (padded.size / 64)).foldl (fun s i => compress s padded (64 * i)) start

def hexDigit (n : Nat) : Char := "0123456789abcdef".toList.getD n '0'

/-- Eight digits, the most significant first. -/
def wordHex (w : UInt32) : List Char :=
  [7, 6, 5, 4, 3, 2, 1, 0].map (fun i => hexDigit ((w.toNat >>> (4 * i)) % 16))

def Words.hex (s : Words) : List Char :=
  [s.a, s.b, s.c, s.d, s.e, s.f, s.g, s.h].flatMap wordHex

theorem Words.hex_length (s : Words) : s.hex.length = 64 := rfl

end RouteForge.Sha256
