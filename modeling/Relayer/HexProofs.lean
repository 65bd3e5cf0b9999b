import Relayer.Sha256Proofs

/-! # Hexadecimal text in a buffer

    `encoding/hex` on bytes: `encode` writes two digits for each byte, `decode`
    reads digits of either case into a buffer of fixed size, and panics where
    the buffer ends before the text does.

    * `fromHexChar_hextable`, `hextable_of_fromHexChar`: the digits of a value,
      and the value of a digit;
    * `round_cases`: what one round of the loop can do;
    * **`decodeFrom_panics`**: which texts do not fit;
    * `fits_of_decodeFrom`, **`decodeFrom_of_fits`**: which texts are accepted,
      and what is then in the buffer;
    * `bytesOf_encode`, **`encode_bytesOf`**: bytes are read back, and a text is
      written back up to the case of its digits. -/

namespace Hex

/-! ## Digits -/

/-- The digits that are written. -/
def hextable : List UInt8 :=
  [48, 49, 50, 51, 52, 53, 54, 55, 56, 57, 97, 98, 99, 100, 101, 102]

/-- `fromHexChar`. -/
def fromHexChar (c : UInt8) : Option UInt8 :=
  if 48 ≤ c ∧ c ≤ 57 then some (c - 48)
  else if 97 ≤ c ∧ c ≤ 102 then some (c - 97 + 10)
  else if 65 ≤ c ∧ c ≤ 70 then some (c - 65 + 10)
  else none

/-- The byte is one of `0`..`9`, `a`..`f`, `A`..`F`. -/
def IsDigit (c : UInt8) : Prop :=
  (48 ≤ c ∧ c ≤ 57) ∨ (97 ≤ c ∧ c ≤ 102) ∨ (65 ≤ c ∧ c ≤ 70)

instance decidableIsDigit (c : UInt8) : Decidable (IsDigit c) :=
  inferInstanceAs (Decidable (_ ∨ _ ∨ _))

/-- The lower case of an ascii letter. -/
def toLower (c : UInt8) : UInt8 := if 65 ≤ c ∧ c ≤ 90 then c + 32 else c

/-- The bytes with a value are the digits of the table. -/
theorem isSome_fromHexChar (c : UInt8) :
    (fromHexChar c).isSome = true ↔ IsDigit c := by
  unfold fromHexChar IsDigit
  split
  next h => simp [h]
  next h =>
      split
      next h' => simp [h']
      next h' =>
          split
          next h'' => simp [h'']
          next h'' => simp [h, h', h'']

/-- The two digits of a byte. -/
def digits (v : UInt8) : List UInt8 :=
  [hextable.getD (v >>> 4).toNat 0, hextable.getD (v &&& 15).toNat 0]

/-- `hex.Encode`. -/
def encode (src : List UInt8) : List UInt8 := src.flatMap digits

/-- The byte of two values. -/
def join (a b : UInt8) : UInt8 := (a <<< 4) ||| b

/-- What holds of all numbers below a bound holds of the bytes below it. -/
theorem forall_byte_lt (bound : ℕ) (P : UInt8 → Prop)
    (h : ∀ n < bound, P (UInt8.ofNat n)) (v : UInt8) (hv : v.toNat < bound) :
    P v := by
  have hp := h v.toNat hv
  rwa [UInt8.ofNat_toNat] at hp

/-- The halves of a byte, their digits, and the byte joined from them. -/
def Halved (v : UInt8) : Prop :=
  fromHexChar (hextable.getD (v >>> 4).toNat 0) = some (v >>> 4) ∧
    fromHexChar (hextable.getD (v &&& 15).toNat 0) = some (v &&& 15) ∧
    join (v >>> 4) (v &&& 15) = v

theorem fromHexChar_hextable (v : UInt8) : Halved v := by
  refine forall_byte_lt 256 Halved ?_ v v.toNat_lt
  unfold Halved
  decide +kernel

/-- A digit has a value below 16, and is written as its lower case. -/
theorem hextable_of_fromHexChar {c a : UInt8} (h : fromHexChar c = some a) :
    a.toNat < 16 ∧ hextable.getD a.toNat 0 = toLower c := by
  have hall := forall_byte_lt 256 (fun c => (fromHexChar c).all (fun a =>
    decide (a.toNat < 16 ∧ hextable.getD a.toNat 0 = toLower c)) = true)
    (by decide +kernel) c c.toNat_lt
  rwa [h, Option.all_some, decide_eq_true_eq] at hall

/-- The halves of a byte that is joined from two values. -/
theorem halves_join {a b : UInt8} (ha : a.toNat < 16) (hb : b.toNat < 16) :
    join a b >>> 4 = a ∧ join a b &&& 15 = b := by
  refine forall_byte_lt 16 (fun a => join a b >>> 4 = a ∧ join a b &&& 15 = b)
    ?_ a ha
  intro n hn
  refine forall_byte_lt 16 (fun b => join (UInt8.ofNat n) b >>> 4 =
    UInt8.ofNat n ∧ join (UInt8.ofNat n) b &&& 15 = b) ?_ b hb
  revert n
  decide +kernel

/-! ## Decoding -/

/-- `InvalidByteError` and `ErrLength`. -/
inductive Err where
  | invalidByte (b : UInt8)
  | oddLength
  deriving DecidableEq

/-- A byte as `%#U` prints it, with its sign if it has one. -/
def unicode (b : UInt8) : String :=
  let sign := if (32 ≤ b ∧ b ≤ 126) ∨ (161 ≤ b ∧ b ≠ 173)
    then String.ofList [' ', '\'', Char.ofNat b.toNat, '\''] else ""
  "U+00" ++ (String.ofList [Nat.digitChar (b.toNat / 16),
    Nat.digitChar (b.toNat % 16)]).toUpper ++ sign

/-- The texts of the errors. -/
def Err.text : Err → String
  | .invalidByte b => "encoding/hex: invalid byte: " ++ unicode b
  | .oddLength => "encoding/hex: odd length hex string"

/-- How `hex.Decode` ends: with an index out of range, or with the buffer, the
    number of bytes that were written and the error. -/
inductive Decoded (size : ℕ) where
  | panicked
  | returned (dst : Vector UInt8 size) (n : ℕ) (err : Option Err)

section Decode

variable {size : ℕ}

/-- `hex.Decode`, from byte `i` of the buffer on. -/
def decodeFrom (dst : Vector UInt8 size) (i : ℕ) : List UInt8 → Decoded size
  | [] => .returned dst i none
  | [p] =>
      match fromHexChar p with
      | none => .returned dst i (some (.invalidByte p))
      | some _ => .returned dst i (some .oddLength)
  | p :: q :: src =>
      match fromHexChar p with
      | none => .returned dst i (some (.invalidByte p))
      | some a =>
          match fromHexChar q with
          | none => .returned dst i (some (.invalidByte q))
          | some b =>
              if h : i < size then decodeFrom (dst.set i (join a b)) (i + 1) src
              else .panicked

/-- `hex.Decode`. -/
def decode (dst : Vector UInt8 size) (src : List UInt8) : Decoded size :=
  decodeFrom dst 0 src

/-- The bytes of digits. -/
def bytesOf : List UInt8 → List UInt8
  | p :: q :: src =>
      join ((fromHexChar p).getD 0) ((fromHexChar q).getD 0) :: bytesOf src
  | _ => []

variable {dst : Vector UInt8 size} {i : ℕ} {src : List UInt8}

/-- What one round of the loop does. -/
theorem round_cases (dst : Vector UInt8 size) (i : ℕ) (p q : UInt8)
    (src : List UInt8) :
    (¬ (IsDigit p ∧ IsDigit q) ∧
      ∃ err, decodeFrom dst i (p :: q :: src) = .returned dst i (some err)) ∨
    (∃ a b, fromHexChar p = some a ∧ fromHexChar q = some b ∧
      ((size ≤ i ∧ decodeFrom dst i (p :: q :: src) = .panicked) ∨
        ∃ h : i < size, decodeFrom dst i (p :: q :: src) =
          decodeFrom (dst.set i (join a b)) (i + 1) src)) := by
  rw [← isSome_fromHexChar, ← isSome_fromHexChar, decodeFrom]
  cases hp : fromHexChar p with
  | none => exact Or.inl ⟨by simp, _, rfl⟩
  | some a =>
      cases hq : fromHexChar q with
      | none => exact Or.inl ⟨by simp, _, rfl⟩
      | some b =>
          refine Or.inr ⟨a, b, rfl, rfl, ?_⟩
          by_cases h : i < size
          · exact Or.inr ⟨h, dif_pos h⟩
          · exact Or.inl ⟨not_lt.mp h, dif_neg h⟩

/-- The last byte of a text of odd length is an error. -/
theorem decodeFrom_single (dst : Vector UInt8 size) (i : ℕ) (p : UInt8) :
    ∃ err, decodeFrom dst i [p] = .returned dst i (some err) := by
  rw [decodeFrom]
  cases fromHexChar p with
  | none => exact ⟨_, rfl⟩
  | some a => exact ⟨_, rfl⟩

theorem isDigit_of_some {c a : UInt8} (h : fromHexChar c = some a) :
    IsDigit c := by
  rw [← isSome_fromHexChar, h]
  rfl

/-- **TEXTS THAT DO NOT FIT**: those with two digits more than the rest of the
    buffer has room for. -/
theorem decodeFrom_panics (dst : Vector UInt8 size) {i : ℕ} (hi : i ≤ size)
    (src : List UInt8) :
    decodeFrom dst i src = .panicked ↔
      2 * (size - i) + 2 ≤ src.length ∧
        ∀ c ∈ src.take (2 * (size - i) + 2), IsDigit c := by
  -- the induction is on the pairs of bytes, as the loop of the source
  induction src using List.twoStepInduction generalizing dst i with
  | nil => simp [decodeFrom]
  | singleton p =>
      obtain ⟨err, heq⟩ := decodeFrom_single dst i p
      simp [heq]
  | cons_cons p q src ih _ =>
      rcases round_cases dst i p q src with ⟨hnot, err, heq⟩ |
        ⟨a, b, hp, hq, ⟨hfull, heq⟩ | ⟨hroom, heq⟩⟩
      · rw [heq]
        constructor
        · intro h
          cases h
        · -- the bytes of this round are among those that are looked at
          rintro ⟨-, hdigits⟩
          exact absurd ⟨hdigits p (by simp), hdigits q (by simp)⟩ hnot
      · obtain rfl : i = size := le_antisymm hi hfull
        rw [heq]
        simp [isDigit_of_some hp, isDigit_of_some hq]
      · rw [heq, ih _ hroom]
        have hcount : 2 * (size - i) + 2 = 2 * (size - (i + 1)) + 2 + 2 := by
          omega
        rw [hcount, List.take_succ_cons, List.take_succ_cons]
        simp [isDigit_of_some hp, isDigit_of_some hq]

/-- Pairs of digits, for at most `room` bytes. -/
structure Fits (room : ℕ) (src : List UInt8) : Prop where
  even : src.length % 2 = 0
  short : src.length ≤ 2 * room
  digits : ∀ c ∈ src, IsDigit c

/-- One round uses two digits and one byte of room. -/
theorem fits_cons_cons {room : ℕ} {p q : UInt8} :
    Fits (room + 1) (p :: q :: src) ↔
      (IsDigit p ∧ IsDigit q) ∧ Fits room src := by
  constructor
  · rintro ⟨heven, hshort, hdigits⟩
    simp only [List.length_cons] at heven hshort
    rw [List.forall_mem_cons, List.forall_mem_cons] at hdigits
    exact ⟨⟨hdigits.1, hdigits.2.1⟩, by omega, by omega, hdigits.2.2⟩
  · rintro ⟨⟨hp, hq⟩, heven, hshort, hdigits⟩
    refine ⟨?_, ?_, ?_⟩
    · simp only [List.length_cons]
      omega
    · simp only [List.length_cons]
      omega
    · rw [List.forall_mem_cons, List.forall_mem_cons]
      exact ⟨hp, hq, hdigits⟩

/-- Nothing else is accepted. -/
theorem fits_of_decodeFrom {dst dst' : Vector UInt8 size} {i n : ℕ}
    (hi : i ≤ size) {src : List UInt8}
    (h : decodeFrom dst i src = .returned dst' n none) :
    Fits (size - i) src := by
  induction src using List.twoStepInduction generalizing dst i with
  | nil => exact ⟨rfl, Nat.zero_le _, fun c hc => (List.not_mem_nil hc).elim⟩
  | singleton p =>
      obtain ⟨err, heq⟩ := decodeFrom_single dst i p
      rw [heq] at h
      cases h
  | cons_cons p q src ih _ =>
      rcases round_cases dst i p q src with ⟨-, err, heq⟩ |
        ⟨a, b, hp, hq, ⟨-, heq⟩ | ⟨hroom, heq⟩⟩
      · rw [heq] at h
        cases h
      · rw [heq] at h
        cases h
      · rw [heq] at h
        rw [show size - i = size - (i + 1) + 1 by omega, fits_cons_cons]
        exact ⟨⟨isDigit_of_some hp, isDigit_of_some hq⟩, ih hroom h⟩

/-- **TEXTS THAT ARE ACCEPTED**: their bytes are in the buffer, from where the
    loop began. -/
theorem decodeFrom_of_fits (dst : Vector UInt8 size) {i : ℕ} (hi : i ≤ size)
    {src : List UInt8} (h : Fits (size - i) src) :
    ∃ dst', decodeFrom dst i src =
        .returned dst' (i + src.length / 2) none ∧
      dst'.toList = dst.toList.take i ++ bytesOf src ++
        dst.toList.drop (i + src.length / 2) := by
  induction src using List.twoStepInduction generalizing dst i with
  | nil => exact ⟨dst, rfl, by simp [bytesOf]⟩
  | singleton p =>
      have heven : 1 % 2 = 0 := h.even
      omega
  | cons_cons p q src ih _ =>
      have hroom : i < size := by
        have hshort := h.short
        simp only [List.length_cons] at hshort
        omega
      rw [show size - i = size - (i + 1) + 1 by omega, fits_cons_cons] at h
      obtain ⟨a, hp⟩ :=
        Option.isSome_iff_exists.mp ((isSome_fromHexChar p).mpr h.1.1)
      obtain ⟨b, hq⟩ :=
        Option.isSome_iff_exists.mp ((isSome_fromHexChar q).mpr h.1.2)
      obtain ⟨dst', heq, hdst⟩ := ih (dst.set i (join a b)) hroom h.2
      have hcount : i + (p :: q :: src).length / 2 =
          i + 1 + src.length / 2 := by
        simp only [List.length_cons]
        omega
      refine ⟨dst', ?_, ?_⟩
      · rw [hcount, ← heq, decodeFrom]
        simp only [hp, hq, dif_pos hroom]
      -- the byte written is the last of those that are final
      · have hlen : i < dst.toList.length := by
          rw [Vector.length_toList]
          exact hroom
        have htake : (dst.toList.take (i + 1)).set i (join a b) =
            dst.toList.take i ++ [join a b] := by
          have hfront : (dst.toList.take i).length = i := by
            rw [List.length_take]
            omega
          rw [List.take_succ_eq_append_getElem hlen,
            List.set_append_right _ _ hfront.le, hfront, Nat.sub_self]
          rfl
        rw [hdst, hcount, bytesOf, hp, hq, Vector.toList_set,
          List.take_set, List.drop_set_of_lt (by omega), htake]
        simp

/-- A text for exactly the whole buffer. -/
theorem decode_eq_ok (dst dst' : Vector UInt8 size) (src : List UInt8) :
    decode dst src = .returned dst' size none ↔
      (src.length = 2 * size ∧ ∀ c ∈ src, IsDigit c) ∧
        dst'.toList = bytesOf src := by
  -- a source that fits and is long enough fills the whole array
  have hok : ∀ {src : List UInt8}, Fits size src → src.length = 2 * size →
      ∃ dst', decode dst src = .returned dst' size none ∧
        dst'.toList = bytesOf src := by
    intro src hfits hlen
    obtain ⟨dst', heq, hdst⟩ :=
      decodeFrom_of_fits dst (Nat.zero_le size) hfits
    have hsize : 0 + src.length / 2 = size := by omega
    rw [hsize] at heq hdst
    refine ⟨dst', heq, ?_⟩
    rw [hdst, List.drop_eq_nil_of_le (Vector.length_toList ..).le]
    simp
  constructor
  · intro h
    have hfits : Fits size src := fits_of_decodeFrom (Nat.zero_le size) h
    obtain ⟨out, heq, -⟩ := decodeFrom_of_fits dst (Nat.zero_le size) hfits
    have hlen : src.length = 2 * size := by
      have hcount := heq.symm.trans h
      injection hcount with _ hn
      have heven := hfits.even
      omega
    obtain ⟨out, heq, hout⟩ := hok hfits hlen
    injection heq.symm.trans h with hdst
    exact ⟨⟨hlen, hfits.digits⟩, hdst ▸ hout⟩
  · rintro ⟨⟨hlen, hdigits⟩, hdst⟩
    obtain ⟨out, heq, hout⟩ := hok ⟨by omega, hlen.le, hdigits⟩ hlen
    rw [heq, Vector.toList_inj.mp (hout.trans hdst.symm)]

end Decode

/-! ## Text and bytes -/

/-- Two digits for a byte. -/
theorem length_encode (bs : List UInt8) :
    (encode bs).length = 2 * bs.length := by
  induction bs with
  | nil => rfl
  | cons v bs ih =>
      rw [encode, List.flatMap_cons, List.length_append, List.length_cons,
        ← encode, ih]
      show 2 + _ = _
      omega

/-- An encoding has only digits. -/
theorem isDigit_encode (bs : List UInt8) : ∀ c ∈ encode bs, IsDigit c := by
  intro c hc
  obtain ⟨v, -, hcv⟩ := List.mem_flatMap.mp hc
  obtain ⟨hhigh, hlow, -⟩ := fromHexChar_hextable v
  rcases List.mem_cons.mp hcv with rfl | hcv
  · exact isDigit_of_some hhigh
  · rw [List.mem_singleton.mp hcv]
    exact isDigit_of_some hlow

/-- Bytes are read back. -/
theorem bytesOf_encode (bs : List UInt8) : bytesOf (encode bs) = bs := by
  induction bs with
  | nil => rfl
  | cons v bs ih =>
      obtain ⟨hhigh, hlow, hjoin⟩ := fromHexChar_hextable v
      show join _ _ :: bytesOf (encode bs) = _
      rw [hhigh, hlow, ih, Option.getD_some, Option.getD_some, hjoin]

/-- **TEXT UP TO CASE**: what was read is written as its lower case. -/
theorem encode_bytesOf {src : List UInt8} (heven : src.length % 2 = 0)
    (hdigits : ∀ c ∈ src, IsDigit c) : encode (bytesOf src) = src.map toLower := by
  induction src using List.twoStepInduction with
  | nil => rfl
  | singleton p =>
      have hodd : 1 % 2 = 0 := heven
      omega
  | cons_cons p q src ih _ =>
      rw [List.forall_mem_cons, List.forall_mem_cons] at hdigits
      obtain ⟨hp, hq, hdigits⟩ := hdigits
      obtain ⟨a, ha⟩ :=
        Option.isSome_iff_exists.mp ((isSome_fromHexChar p).mpr hp)
      obtain ⟨b, hb⟩ :=
        Option.isSome_iff_exists.mp ((isSome_fromHexChar q).mpr hq)
      obtain ⟨halt, hatext⟩ := hextable_of_fromHexChar ha
      obtain ⟨hblt, hbtext⟩ := hextable_of_fromHexChar hb
      obtain ⟨hhigh, hlow⟩ := halves_join halt hblt
      have hrest : src.length % 2 = 0 := by
        simp only [List.length_cons] at heven
        omega
      rw [bytesOf, ha, hb, encode, List.flatMap_cons, ← encode,
        ih hrest hdigits, digits, Option.getD_some, Option.getD_some, hhigh,
        hlow, hatext, hbtext]
      rfl

/-! ## Texts as strings -/

/-- The bytes of a string: `[]byte(s)`. -/
def utf8 (s : String) : List UInt8 := s.toList.flatMap String.utf8EncodeChar

theorem utf8_append (s t : String) : utf8 (s ++ t) = utf8 s ++ utf8 t := by
  rw [utf8, String.toList_append, List.flatMap_append]
  rfl

/-- `hex.EncodeToString` as bytes. -/
theorem utf8_encodeToString (bs : List UInt8) :
    utf8 (Sha256.encodeToString bs) = encode bs := by
  have hdigits : ∀ v : UInt8, [Nat.digitChar (v.toNat / 16),
      Nat.digitChar (v.toNat % 16)].flatMap String.utf8EncodeChar = digits v :=
    fun v => forall_byte_lt 256 (fun v => [Nat.digitChar (v.toNat / 16),
      Nat.digitChar (v.toNat % 16)].flatMap String.utf8EncodeChar = digits v)
      (by decide +kernel) v v.toNat_lt
  rw [utf8, Sha256.encodeToString, String.toList_ofList, List.flatMap_assoc]
  exact List.flatMap_congr fun v _ => hdigits v

end Hex
