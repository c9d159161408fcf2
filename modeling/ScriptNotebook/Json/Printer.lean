import ScriptNotebook.Json.Basic

/-!
JSON in lines.  Every item and member stands on a line of its own, indented by a fixed number of
spaces for each level of nesting; an array or object without any is written in one piece.
-/
namespace ScriptNotebook.Json

/-- A character inside a written string: quote, backslash and control characters are escaped. -/
def escapeChar (c : Char) : Text :=
  match c with
  | '"' => ['\\', '"']
  | '\\' => ['\\', '\\']
  | '\x08' => ['\\', 'b']
  | '\x0c' => ['\\', 'f']
  | '\n' => ['\\', 'n']
  | '\r' => ['\\', 'r']
  | '\t' => ['\\', 't']
  | c => if c.toNat < 0x20 then ['\\', 'u'] ++ Text.hex 4 c.toNat else [c]

def quote (t : Text) : Text := '"' :: t.flatMap escapeChar ++ ['"']

def newline (indent depth : Nat) : Text := '\n' :: List.replicate (indent * depth) ' '

mutual

def print (indent depth : Nat) : Json → Text
  | null => "null".toList
  | bool true => "true".toList
  | bool false => "false".toList
  | integer n => Text.decimalInt n
  | double x => x.text
  | string t => quote t
  | array [] => ['[', ']']
  | array (v :: vs) =>
    '[' :: newline indent (depth + 1) ++ print indent (depth + 1) v
      ++ printItems indent (depth + 1) vs ++ newline indent depth ++ [']']
  | object [] => ['\x7b', '\x7d']
  | object ((k, v) :: ms) =>
    '\x7b' :: newline indent (depth + 1) ++ quote k ++ [':', ' '] ++ print indent (depth + 1) v
      ++ printMembers indent (depth + 1) ms ++ newline indent depth ++ ['\x7d']
termination_by structural v => v

def printItems (indent depth : Nat) : List Json → Text
  | [] => []
  | v :: vs => ',' :: newline indent depth ++ print indent depth v ++ printItems indent depth vs
termination_by structural vs => vs

def printMembers (indent depth : Nat) : List (Text × Json) → Text
  | [] => []
  | (k, v) :: ms =>
    ',' :: newline indent depth ++ quote k ++ [':', ' '] ++ print indent depth v
      ++ printMembers indent depth ms
termination_by structural ms => ms

end

def toFile (indent : Nat) (v : Json) : Text := print indent 0 v ++ ['\n']

end ScriptNotebook.Json
