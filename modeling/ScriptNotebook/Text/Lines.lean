import ScriptNotebook.Text.Basic

/-!
The lines of a text.  A newline ends a line and takes one carriage return before it along; what is
left after the last newline is a line too unless it is empty.  A carriage return elsewhere stays.
-/
namespace ScriptNotebook.Text

def lines : Text → List Text
  | [] => []
  | '\n' :: rest => [] :: lines rest
  | '\r' :: '\n' :: rest => [] :: lines rest
  | c :: rest =>
    match lines rest with
    | [] => [[c]]
    | l :: ls => (c :: l) :: ls

@[simp] theorem lines_nil : lines [] = [] := rfl

@[simp] theorem lines_newline (rest : Text) : lines ('\n' :: rest) = [] :: lines rest := rfl

example : lines "a\r\nb\rc\n\n d\r".toList = ["a", "b\rc", "", " d\r"].map String.toList := by decide

end ScriptNotebook.Text
