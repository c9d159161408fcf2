import ScriptNotebook.Text.Basic

/-!
White space is Unicode's property `White_Space`.  The control characters U+001C to U+001F, the zero
width space and the byte order mark do not have it.
-/
namespace ScriptNotebook

def isBlankChar (c : Char) : Bool :=
  let n := c.toNat
  (0x09 ≤ n && n ≤ 0x0D) || n == 0x20 || n == 0x85 || n == 0xA0 || n == 0x1680
    || (0x2000 ≤ n && n ≤ 0x200A) || n == 0x2028 || n == 0x2029 || n == 0x202F || n == 0x205F
    || n == 0x3000

namespace Text

def isBlank (t : Text) : Bool := t.all isBlankChar

def trimStart (t : Text) : Text := t.dropWhile isBlankChar

theorem trimStart_eq_nil_iff (t : Text) : t.trimStart = [] ↔ t.isBlank = true := by
  induction t with
  | nil => simp [trimStart, isBlank]
  | cons c t ih =>
    by_cases h : isBlankChar c = true <;> simp_all [trimStart, isBlank]

theorem trimStart_append {w : Text} (hw : w.isBlank = true) (t : Text) :
    (w ++ t).trimStart = t.trimStart := by
  induction w with
  | nil => rfl
  | cons c w ih => simp_all [trimStart, isBlank]

end Text

end ScriptNotebook
