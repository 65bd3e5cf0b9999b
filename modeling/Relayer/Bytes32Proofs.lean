import Relayer.HexProofs

/-! # Values of 32 bytes as hexadecimal text

    `ToHex` and `FromHex` of `common/bytes32.go`, and `FromHex` of
    `forward/base.go`, which has the same body and the same error.  A Go string
    is its bytes, whatever they are.

    * `fromHex_panics_iff`, `fromHex_ok_iff`: the texts that end the process,
      and the texts that are accepted;
    * **`hex_parsing`**: what `FromHex` does with every string, and that the two
      functions are inverse to each other up to case and prefix;
    * **`long_hex_panics`**: one byte too many is not an error but a panic. -/

namespace RelayerBytes32

open Hex

abbrev Bytes32 := Vector UInt8 32

/-- What `FromHex` returns as its error. -/
inductive Err where
  | hex (err : Hex.Err)
  /-- `ErrHexTooShort`. -/
  | hexTooShort
  deriving DecidableEq

def Err.text : Err → String
  | .hex err => Hex.Err.text err
  | .hexTooShort => "hex string is shorter than bytes32"

/-- How a call ends: with an index out of range in `hex.Decode`, or with the
    bytes that were written and an error. -/
inductive Outcome where
  | panicked
  | returned (b : Bytes32) (err : Option Err)
  deriving DecidableEq

/-- The bytes of `0x`. -/
def zeroX : List UInt8 := [48, 120]

/-- `strings.TrimPrefix`. -/
def trimPrefix (s start : List UInt8) : List UInt8 :=
  if start.isPrefixOf s then s.drop start.length else s

/-- `ToHex`. -/
def toHex (b : Bytes32) : List UInt8 := zeroX ++ encode b.toList

/-- `FromHex`. -/
def fromHex (s : List UInt8) : Outcome :=
  match decode (Vector.replicate 32 0) (trimPrefix s zeroX) with
  | .panicked => .panicked
  | .returned b n none =>
      if n ≠ 32 then .returned b (some .hexTooShort) else .returned b none
  | .returned b _ (some err) => .returned b (some (.hex err))

theorem trimPrefix_append (start rest : List UInt8) :
    trimPrefix (start ++ rest) start = rest := by
  rw [trimPrefix, if_pos (List.isPrefixOf_iff_prefix.mpr
    (List.prefix_append start rest)), List.drop_left]

/-- **THE TEXTS THAT PANIC**: more digits than there is room for. -/
theorem fromHex_panics_iff (s : List UInt8) :
    fromHex s = .panicked ↔ 66 ≤ (trimPrefix s zeroX).length ∧
      ∀ c ∈ (trimPrefix s zeroX).take 66, IsDigit c := by
  have hdecode := decodeFrom_panics (Vector.replicate 32 (0 : UInt8))
    (Nat.zero_le 32) (trimPrefix s zeroX)
  refine Iff.trans ?_ hdecode
  rw [fromHex, decode]
  cases decodeFrom (Vector.replicate 32 (0 : UInt8)) 0 (trimPrefix s zeroX) with
  | panicked => simp
  | returned b n err =>
      cases err with
      | none =>
          dsimp only
          split
          · simp
          · simp
      | some err => simp

/-- **THE TEXTS THAT ARE ACCEPTED**: 64 digits. -/
theorem fromHex_ok_iff (s : List UInt8) (b : Bytes32) :
    fromHex s = .returned b none ↔
      ((trimPrefix s zeroX).length = 64 ∧ ∀ c ∈ trimPrefix s zeroX, IsDigit c) ∧
        b.toList = bytesOf (trimPrefix s zeroX) := by
  refine Iff.trans ?_ (decode_eq_ok (Vector.replicate 32 0) b _)
  rw [fromHex]
  cases decode (Vector.replicate 32 (0 : UInt8)) (trimPrefix s zeroX) with
  | panicked => simp
  | returned b' n err =>
      cases err with
      | none =>
          dsimp only
          split
          next hn => simp [hn]
          next hn => simp [not_not.mp hn]
      | some err => simp

/-- What is written is read back. -/
theorem fromHex_toHex (b : Bytes32) : fromHex (toHex b) = .returned b none := by
  rw [fromHex_ok_iff, toHex, trimPrefix_append, length_encode, bytesOf_encode,
    Vector.length_toList]
  exact ⟨⟨rfl, isDigit_encode _⟩, rfl⟩

/-- What was accepted is written back in lower case and with the prefix. -/
theorem toHex_of_fromHex {s : List UInt8} {b : Bytes32}
    (h : fromHex s = .returned b none) :
    toHex b = zeroX ++ (trimPrefix s zeroX).map toLower := by
  obtain ⟨⟨hlen, hdigits⟩, hbytes⟩ := (fromHex_ok_iff s b).mp h
  rw [toHex, hbytes, encode_bytesOf (by rw [hlen]) hdigits]

/-- 64 digits are the text of some bytes. -/
theorem fromHex_of_digits {s : List UInt8}
    (h : (trimPrefix s zeroX).length = 64 ∧
      ∀ c ∈ trimPrefix s zeroX, IsDigit c) :
    ∃ b, fromHex s = .returned b none := by
  have hlen : (bytesOf (trimPrefix s zeroX)).length = 32 := by
    have htext := congrArg List.length (encode_bytesOf (by rw [h.1]) h.2)
    rw [length_encode, List.length_map, h.1] at htext
    omega
  exact ⟨⟨(bytesOf (trimPrefix s zeroX)).toArray, hlen⟩,
    (fromHex_ok_iff s _).mpr ⟨h, rfl⟩⟩

/-- **PARSING**: `FromHex` panics for the strings that have, after one optional
    prefix, at least 66 bytes of which the first 66 are digits; it succeeds for
    those with exactly 64 digits, and returns an error for all others.  What it
    has read, `ToHex` writes in lower case; and what `ToHex` writes, it reads
    back. -/
theorem hex_parsing (s : List UInt8) :
    (fromHex s = .panicked ↔ 66 ≤ (trimPrefix s zeroX).length ∧
      ∀ c ∈ (trimPrefix s zeroX).take 66, IsDigit c) ∧
    ((∃ b, fromHex s = .returned b none) ↔
      (trimPrefix s zeroX).length = 64 ∧ ∀ c ∈ trimPrefix s zeroX, IsDigit c) ∧
    (fromHex s ≠ .panicked →
      ¬ ((trimPrefix s zeroX).length = 64 ∧
        ∀ c ∈ trimPrefix s zeroX, IsDigit c) →
      ∃ b err, fromHex s = .returned b (some err)) ∧
    (∀ b, fromHex s = .returned b none →
      toHex b = zeroX ++ (trimPrefix s zeroX).map toLower) ∧
    ∀ b, fromHex (toHex b) = .returned b none := by
  have hok : (∃ b, fromHex s = .returned b none) ↔
      (trimPrefix s zeroX).length = 64 ∧
        ∀ c ∈ trimPrefix s zeroX, IsDigit c := by
    refine ⟨?_, fromHex_of_digits⟩
    rintro ⟨b, hb⟩
    exact ((fromHex_ok_iff s b).mp hb).1
  refine ⟨fromHex_panics_iff s, hok, ?_, fun b h => toHex_of_fromHex h,
    fromHex_toHex⟩
  intro hpanic hnot
  cases hs : fromHex s with
  | panicked => exact absurd hs hpanic
  | returned b err =>
      cases err with
      | none => exact absurd (hok.mp ⟨b, hs⟩) hnot
      | some err => exact ⟨b, err, rfl⟩

/-- **TOO LONG**: 66 zeros, with the prefix or without, are no error. -/
theorem long_hex_panics :
    fromHex (List.replicate 66 48) = .panicked ∧
    fromHex (zeroX ++ List.replicate 66 48) = .panicked := by
  decide

end RelayerBytes32
