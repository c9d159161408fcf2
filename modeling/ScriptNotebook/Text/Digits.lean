import ScriptNotebook.Text.Basic

/-!
Numbers in digits: decimal of any length, hexadecimal of a fixed width with small letters, and the
values of digits read.
-/
namespace ScriptNotebook

def isDigit (c : Char) : Bool := '0' ≤ c && c ≤ '9'

/-- The value of one hexadecimal digit in either letter case. -/
def hexValue? (c : Char) : Option Nat :=
  if isDigit c then some (c.toNat - 48)
  else if 'a' ≤ c ∧ c ≤ 'f' then some (c.toNat - 87)
  else if 'A' ≤ c ∧ c ≤ 'F' then some (c.toNat - 55)
  else none

theorem hexValue?_digitChar : ∀ n < 16, hexValue? n.digitChar = some n := by decide

namespace Text

def decimal (n : Nat) : Text := Nat.toDigits 10 n

def decimalInt : Int → Text
  | .ofNat n => decimal n
  | .negSucc n => '-' :: decimal (n + 1)

def decimalValue (digits : Text) : Nat := Nat.ofDigitChars 10 digits 0

@[simp] theorem decimalValue_decimal (n : Nat) : decimalValue (decimal n) = n :=
  Nat.ofDigitChars_toDigits (by decide) (by decide)

/-- The last `width` hexadecimal digits of a number, in small letters. -/
def hex : (width : Nat) → Nat → Text
  | 0, _ => []
  | width + 1, n => hex width (n / 16) ++ [(n % 16).digitChar]

@[simp] theorem length_hex (width n : Nat) : (hex width n).length = width := by
  induction width generalizing n with
  | zero => rfl
  | succ width ih => simp [hex, ih]

def hexShort (n : Nat) : Text := Nat.toDigits 16 n

def hexNumber? (digits : Text) : Option Nat :=
  digits.foldl (fun value c => do return (← value) * 16 + (← hexValue? c)) (some 0)

example : hex 8 0xBEEF = "0000beef".toList := by decide

end Text

end ScriptNotebook
