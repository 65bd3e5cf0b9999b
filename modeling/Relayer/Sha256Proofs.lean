import Mathlib

/-! # SHA-256 and hexadecimal text

    `crypto/sha256.Sum256`, `encoding/hex.EncodeToString` and
    `encoding/hex.Decode` of the Go standard library, over lists of bytes.
    Nothing in the proofs looks inside the compression function; it is spelled
    out so that what is hashed, and in which order digests compare, can be
    evaluated. -/

namespace Sha256

/-- The eight working variables. -/
structure Registers where
  a : UInt32
  b : UInt32
  c : UInt32
  d : UInt32
  e : UInt32
  f : UInt32
  g : UInt32
  h : UInt32
  deriving DecidableEq, Repr

/-- The initial hash value. -/
def initial : Registers :=
  ⟨0x6a09e667, 0xbb67ae85, 0x3c6ef372, 0xa54ff53a,
   0x510e527f, 0x9b05688c, 0x1f83d9ab, 0x5be0cd19⟩

/-- The round constants. -/
def roundConstants : List UInt32 :=
  [0x428a2f98, 0x71374491, 0xb5c0fbcf, 0xe9b5dba5,
   0x3956c25b, 0x59f111f1, 0x923f82a4, 0xab1c5ed5,
   0xd807aa98, 0x12835b01, 0x243185be, 0x550c7dc3,
   0x72be5d74, 0x80deb1fe, 0x9bdc06a7, 0xc19bf174,
   0xe49b69c1, 0xefbe4786, 0x0fc19dc6, 0x240ca1cc,
   0x2de92c6f, 0x4a7484aa, 0x5cb0a9dc, 0x76f988da,
   0x983e5152, 0xa831c66d, 0xb00327c8, 0xbf597fc7,
   0xc6e00bf3, 0xd5a79147, 0x06ca6351, 0x14292967,
   0x27b70a85, 0x2e1b2138, 0x4d2c6dfc, 0x53380d13,
   0x650a7354, 0x766a0abb, 0x81c2c92e, 0x92722c85,
   0xa2bfe8a1, 0xa81a664b, 0xc24b8b70, 0xc76c51a3,
   0xd192e819, 0xd6990624, 0xf40e3585, 0x106aa070,
   0x19a4c116, 0x1e376c08, 0x2748774c, 0x34b0bcb5,
   0x391c0cb3, 0x4ed8aa4a, 0x5b9cca4f, 0x682e6ff3,
   0x748f82ee, 0x78a5636f, 0x84c87814, 0x8cc70208,
   0x90befffa, 0xa4506ceb, 0xbef9a3f7, 0xc67178f2]

/-- Right rotation of a word. -/
def rotr (n : UInt32) (x : UInt32) : UInt32 := (x >>> n) ||| (x <<< (32 - n))

/-- The message schedule: `n` more words on top of a list kept newest
    first. -/
def schedule : ℕ → List UInt32 → List UInt32
  | 0, ws => ws.reverse
  | n + 1, ws =>
      let w15 := ws.getD 14 0
      let w2 := ws.getD 1 0
      let s0 := rotr 7 w15 ^^^ rotr 18 w15 ^^^ (w15 >>> 3)
      let s1 := rotr 17 w2 ^^^ rotr 19 w2 ^^^ (w2 >>> 10)
      schedule n ((ws.getD 15 0 + s0 + ws.getD 6 0 + s1) :: ws)

/-- One round with its constant and its schedule word. -/
def round (r : Registers) (kw : UInt32 × UInt32) : Registers :=
  let s1 := rotr 6 r.e ^^^ rotr 11 r.e ^^^ rotr 25 r.e
  let ch := (r.e &&& r.f) ^^^ (~~~r.e &&& r.g)
  let t1 := r.h + s1 + ch + kw.1 + kw.2
  let s0 := rotr 2 r.a ^^^ rotr 13 r.a ^^^ rotr 22 r.a
  let maj := (r.a &&& r.b) ^^^ (r.a &&& r.c) ^^^ (r.b &&& r.c)
  ⟨t1 + s0 + maj, r.a, r.b, r.c, r.d + t1, r.e, r.f, r.g⟩

/-- The big-endian word of four bytes. -/
def word (bs : List UInt8) : UInt32 :=
  bs.foldl (fun acc b => acc * 256 + b.toUInt32) 0

/-- A list cut into pieces of length `n`, at most `fuel` of them. -/
def chunks (n : ℕ) : ℕ → List UInt8 → List (List UInt8)
  | 0, _ => []
  | fuel + 1, bs =>
      if bs.isEmpty then [] else bs.take n :: chunks n fuel (bs.drop n)

/-- The compression function on one block of 64 bytes. -/
def compress (r : Registers) (block : List UInt8) : Registers :=
  let ws := schedule 48 ((chunks 4 16 block).map word).reverse
  let r' := (roundConstants.zip ws).foldl round r
  ⟨r.a + r'.a, r.b + r'.b, r.c + r'.c, r.d + r'.d,
   r.e + r'.e, r.f + r'.f, r.g + r'.g, r.h + r'.h⟩

/-- The padded message: a one bit, zeros, and the length in bits. -/
def pad (m : List UInt8) : List UInt8 :=
  m ++ (0x80 : UInt8) :: List.replicate ((119 - m.length % 64) % 64) 0
    ++ (List.range 8).map
      (fun i => UInt8.ofNat ((m.length * 8) >>> (8 * (7 - i))))

/-- The bytes of a word, most significant first. -/
def wordBytes (w : UInt32) : List UInt8 :=
  [(w >>> 24).toUInt8, (w >>> 16).toUInt8, (w >>> 8).toUInt8, w.toUInt8]

/-- `sha256.Sum256`. -/
def sum256 (m : List UInt8) : List UInt8 :=
  let r := (chunks 64 (m.length / 64 + 2) (pad m)).foldl compress initial
  wordBytes r.a ++ wordBytes r.b ++ wordBytes r.c ++ wordBytes r.d
    ++ wordBytes r.e ++ wordBytes r.f ++ wordBytes r.g ++ wordBytes r.h

/-- `hex.EncodeToString`. -/
def encodeToString (bs : List UInt8) : String :=
  String.ofList (bs.flatMap (fun b =>
    [Nat.digitChar (b.toNat / 16), Nat.digitChar (b.toNat % 16)]))

/-- The value of a hexadecimal digit, in either case. -/
def hexValue (c : Char) : Option ℕ :=
  if '0' ≤ c ∧ c ≤ '9' then some (c.toNat - '0'.toNat)
  else if 'a' ≤ c ∧ c ≤ 'f' then some (c.toNat - 'a'.toNat + 10)
  else if 'A' ≤ c ∧ c ≤ 'F' then some (c.toNat - 'A'.toNat + 10)
  else none

/-- The bytes of `hex.Decode`, `none` for an odd length or another character. -/
def decodeHex : List Char → Option (List UInt8)
  | [] => some []
  | [_] => none
  | a :: b :: cs => do
      let high ← hexValue a
      let low ← hexValue b
      let bs ← decodeHex cs
      return UInt8.ofNat (high * 16 + low) :: bs

theorem hexValue_digitChar : ∀ d < 16, hexValue (Nat.digitChar d) = some d := by
  decide

/-- **ROUND TRIP**: hexadecimal text is read back. -/
theorem decodeHex_encodeToString (bs : List UInt8) :
    decodeHex (encodeToString bs).toList = some bs := by
  rw [encodeToString, String.toList_ofList]
  induction bs with
  | nil => rfl
  | cons b bs ih =>
      have hb := b.toNat_lt
      have hhigh := hexValue_digitChar (b.toNat / 16) (by omega)
      have hlow := hexValue_digitChar (b.toNat % 16) (by omega)
      have hbyte : UInt8.ofNat (b.toNat / 16 * 16 + b.toNat % 16) = b := by
        rw [Nat.div_add_mod']
        exact UInt8.ofNat_toNat
      simp only [List.flatMap_cons, List.cons_append, List.nil_append,
        decodeHex, hhigh, hlow, ih, Option.bind_eq_bind, Option.bind_some,
        hbyte, Option.pure_def]

/-- Hexadecimal text determines the bytes. -/
theorem encodeToString_inj {as bs : List UInt8}
    (h : encodeToString as = encodeToString bs) : as = bs := by
  have hread := decodeHex_encodeToString as
  rw [h, decodeHex_encodeToString] at hread
  exact (Option.some.inj hread).symm

example : encodeToString (sum256 "abc".toUTF8.toList)
    = "ba7816bf8f01cfea414140de5dae2223b00361a396177a9cb410ff61f20015ad" := by
  decide +kernel

end Sha256
