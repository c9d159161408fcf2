import ScriptNotebook.Failure
import ScriptNotebook.Json.Printer
import ScriptNotebook.Notebook.Document

/-!
Writers of notebooks.  The structured writer checks a notebook, takes the document that its records
make and indents by one space.  The plain writer checks nothing, lists the document itself and
indents by two.  A fallback takes the second of two writers where the first one fails.
-/
namespace ScriptNotebook

open Json (ofText ofTexts)

inductive Writer
  | structured
  | plain
  | fallback (first second : Writer)
  deriving DecidableEq, Repr

/-- Every cell of a document has the tag of a kind. -/
def checkCellTypes (document : Json) : Except ValidationError Unit :=
  match document.member? "cells".toList with
  | some (.array cells) =>
    cells.forM fun cell =>
      match cell.member? "cell_type".toList with
      | some (.string tag) => CellKind.ofName tag *> pure ()
      | _ => CellKind.ofName [] *> pure ()
  | _ => .ok ()

namespace Writer

def name : Writer → Text
  | structured => "structured".toList
  | plain => "plain".toList
  | fallback _ _ => "auto".toList

def plainCell (cell : NotebookCell) : Json :=
  let metadata := Json.object [field "language" (ofText cell.metadata.language),
    field "id" (ofText cell.metadata.id)]
  match cell.body with
  | .markdown =>
    .object [
      field "cell_type" (ofText "markdown".toList),
      field "id" (ofText cell.id),
      field "metadata" metadata,
      field "source" (ofTexts cell.source)]
  | .code executionCount outputs =>
    .object [
      field "cell_type" (ofText "code".toList),
      field "id" (ofText cell.id),
      field "metadata" metadata,
      field "execution_count" (.ofCount executionCount),
      field "outputs" (.array outputs),
      field "source" (ofTexts cell.source)]

def plainDocument (notebook : Notebook) : Json :=
  let kernel := notebook.metadata.kernel
  .object [
    field "cells" (.array (notebook.cells.map plainCell)),
    field "metadata" (.object [
      field "kernelspec" (.object [
        field "name" (ofText kernel.name),
        field "language" (ofText kernel.language),
        field "display_name" (ofText kernel.displayName)]),
      field "language_info" (.object [
        field "name" (ofText notebook.metadata.languageName)])]),
    field "nbformat" (.integer notebook.version.major.toNat),
    field "nbformat_minor" (.integer notebook.version.minor.toNat)]

/-- The text of the file that holds the notebook.  The document is put in order before the check of
its cells; the structured writer orders it once more as it prints.  No exit stands for a document
that cannot be put into text: keys are texts, numbers are finite, and the text is made in memory, so
that `Failure.serialization` is a kind of failure that no writer comes to. -/
def render : Writer → Notebook → Except Failure Text
  | structured, notebook =>
    match notebook.validate with
    | .error cause => .error (.validation cause)
    | .ok () =>
      let document := notebook.toJson.ordered
      match checkCellTypes document with
      | .error cause => .error (.validation cause)
      | .ok () => .ok (document.ordered.toFile 1)
  | plain, notebook => .ok ((plainDocument notebook).ordered.toFile 2)
  | fallback first second, notebook =>
    match first.render notebook with
    | .ok text => .ok text
    | .error _ => second.render notebook

def auto : Writer := fallback structured plain

end Writer

inductive WriterChoice
  | auto | structured | plain
  deriving DecidableEq, Repr

namespace WriterChoice

def name : WriterChoice → Text
  | auto => "auto".toList
  | structured => "structured".toList
  | plain => "plain".toList

def writer : WriterChoice → Writer
  | auto => .auto
  | structured => .structured
  | plain => .plain

def ofName (t : Text) : Except SettingsError WriterChoice :=
  if t = auto.name then .ok auto
  else if t = structured.name then .ok structured
  else if t = plain.name then .ok plain
  else .error (.unknownWriter t)

@[simp] theorem ofName_name (choice : WriterChoice) : ofName choice.name = .ok choice := by
  cases choice <;> rfl

@[simp] theorem name_writer (choice : WriterChoice) : choice.writer.name = choice.name := by
  cases choice <;> rfl

end WriterChoice

end ScriptNotebook
