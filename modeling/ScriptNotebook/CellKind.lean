import ScriptNotebook.Text.Basic

/-! The two kinds of cell and their tags in a notebook document. -/
namespace ScriptNotebook

inductive CellKind
  | code | markdown
  deriving DecidableEq, Repr

namespace CellKind

def name : CellKind → Text
  | code => "code".toList
  | markdown => "markdown".toList

def ofName? (t : Text) : Option CellKind :=
  if t = code.name then some code
  else if t = markdown.name then some markdown
  else none

@[simp] theorem ofName?_name (k : CellKind) : ofName? k.name = some k := by
  cases k <;> rfl

end CellKind

end ScriptNotebook
