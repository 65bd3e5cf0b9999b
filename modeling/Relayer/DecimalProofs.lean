import Mathlib

/-! # Decimal texts of integers

    `string` writes an integer of any size in base ten, with a sign when it is
    negative; `setString` reads such a text: an optional sign and then one
    digit or more, and nothing else.

    * **`setString_string`**: what is written is read back. -/

namespace Decimal

/-- The digits of an integer, after its sign. -/
def digits (z : ℤ) : List Char := Nat.toDigits 10 z.natAbs

/-- The text of an integer. -/
def string (z : ℤ) : String :=
  String.ofList (if z < 0 then '-' :: digits z else digits z)

/-- A text without its sign, and whether the sign is a minus. -/
def sign : List Char → Bool × List Char
  | '-' :: cs => (true, cs)
  | '+' :: cs => (false, cs)
  | cs => (false, cs)

/-- Are these digits, at least one? -/
def isNumber (cs : List Char) : Bool := !cs.isEmpty && cs.all Char.isDigit

/-- The integer that a text stands for. -/
def setString (s : String) : Option ℤ :=
  let (negative, cs) := sign s.toList
  if isNumber cs then
    let abs : ℤ := Nat.ofDigitChars 10 cs 0
    some (if negative then -abs else abs)
  else none

/-! ## Reading back what was written -/

/-- The digits of an integer are read as a number. -/
theorem isNumber_digits (z : ℤ) : isNumber (digits z) = true := by
  have hne : digits z ≠ [] := Nat.toDigits_ne_nil
  have hall : (digits z).all Char.isDigit = true :=
    List.all_eq_true.mpr fun c hc =>
      Nat.isDigit_of_mem_toDigits (by decide) (by decide) hc
  rw [isNumber, hall, Bool.and_true, Bool.not_eq_true',
    List.isEmpty_eq_false_iff]
  exact hne

theorem ofDigitChars_digits (z : ℤ) :
    Nat.ofDigitChars 10 (digits z) 0 = z.natAbs :=
  Nat.ofDigitChars_ten_toDigits

/-- A number begins with no sign. -/
theorem sign_of_isNumber {cs : List Char} (h : isNumber cs = true) :
    sign cs = (false, cs) := by
  unfold sign
  split
  · cases (Bool.and_eq_true_iff.mp h).2
  · cases (Bool.and_eq_true_iff.mp h).2
  · rfl

/-- **ROUND TRIP**: the text of an integer is read back as this integer. -/
theorem setString_string (z : ℤ) : setString (string z) = some z := by
  have hnumber := isNumber_digits z
  by_cases hz : z < 0
  · have hsign : sign (string z).toList = (true, digits z) := by
      rw [string, if_pos hz, String.toList_ofList]
      rfl
    rw [setString, hsign]
    change (if isNumber (digits z) then _ else none) = some z
    rw [if_pos hnumber, ofDigitChars_digits]
    change some (-(z.natAbs : ℤ)) = some z
    congr 1
    omega
  · have hsign : sign (string z).toList = (false, digits z) := by
      rw [string, if_neg hz, String.toList_ofList, sign_of_isNumber hnumber]
    rw [setString, hsign]
    change (if isNumber (digits z) then _ else none) = some z
    rw [if_pos hnumber, ofDigitChars_digits]
    change some (z.natAbs : ℤ) = some z
    congr 1
    omega

example : setString "18446744073709551617" = some (2 ^ 64 + 1) ∧
    setString "-1" = some (-1) ∧ setString "1.5" = none ∧
    setString "-" = none ∧ setString "" = none := by decide

end Decimal
