import ScriptNotebook.Notebook.Basic

/-! The JSON document of a notebook.  Members are listed in the order of the fields of the records,
behind the tag that a cell has. -/
namespace ScriptNotebook

open Json (ofText ofTexts)

def field (key : String) (value : Json) : Text × Json := (key.toList, value)

def Json.ofCount (count : Option UInt32) : Json := count.elim null fun n => integer n.toNat

def CellMetadata.toJson (metadata : CellMetadata) : Json :=
  .object [field "language" (ofText metadata.language), field "id" (ofText metadata.id)]

def NotebookCell.toJson (cell : NotebookCell) : Json :=
  let tag := field "cell_type" (ofText cell.kind.name)
  let id := field "id" (ofText cell.id)
  let metadata := field "metadata" cell.metadata.toJson
  let source := field "source" (ofTexts cell.source)
  match cell.body with
  | .markdown => .object [tag, id, metadata, source]
  | .code executionCount outputs =>
    .object [tag, id, metadata, field "execution_count" (.ofCount executionCount),
      field "outputs" (.array outputs), source]

def KernelSpec.toJson (kernel : KernelSpec) : Json :=
  .object [
    field "name" (ofText kernel.name),
    field "language" (ofText kernel.language),
    field "display_name" (ofText kernel.displayName)]

def NotebookMetadata.toJson (metadata : NotebookMetadata) : Json :=
  .object [
    field "kernelspec" metadata.kernel.toJson,
    field "language_info" (.object [field "name" (ofText metadata.languageName)])]

def Notebook.toJson (notebook : Notebook) : Json :=
  .object [
    field "cells" (.array (notebook.cells.map NotebookCell.toJson)),
    field "metadata" notebook.metadata.toJson,
    field "nbformat" (.integer notebook.version.major.toNat),
    field "nbformat_minor" (.integer notebook.version.minor.toNat)]

end ScriptNotebook
