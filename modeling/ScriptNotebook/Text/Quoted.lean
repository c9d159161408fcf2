import ScriptNotebook.Text.Digits
import ScriptNotebook.Text.Unprintable

/-!
A text in double quotes, as error messages show it: quotes and backslashes get a backslash, the
common control characters have names, any other character without a picture is its code point.
-/
namespace ScriptNotebook.Text

def quotedChar (c : Char) : Text :=
  match c with
  | '"' => ['\\', '"']
  | '\\' => ['\\', '\\']
  | '\x00' => ['\\', '0']
  | '\t' => ['\\', 't']
  | '\n' => ['\\', 'n']
  | '\r' => ['\\', 'r']
  | c => if isUnprintable c then ['\\', 'u', '\x7b'] ++ hexShort c.toNat ++ ['\x7d'] else [c]

def quoted (t : Text) : Text := '"' :: t.flatMap quotedChar ++ ['"']

example : quoted "it's \"e\u0301\"".toList = "\"it's \\\"e\\u\x7b301\x7d\\\"\"".toList := by decide

end ScriptNotebook.Text
