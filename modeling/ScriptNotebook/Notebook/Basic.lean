import ScriptNotebook.Json.Basic
import ScriptNotebook.CellKind

/-!
Notebook documents.  Every cell has an identifier, metadata and source lines that end in newlines;
a code cell also has what running it left behind.
-/
namespace ScriptNotebook

structure KernelSpec where
  name : Text
  language : Text
  displayName : Text
  deriving DecidableEq, Repr

structure NotebookMetadata where
  kernel : KernelSpec
  /-- The name in `language_info`. -/
  languageName : Text
  deriving DecidableEq, Repr

/-- The metadata that a kernel gives a notebook: one language for both places. -/
def KernelSpec.toMetadata (kernel : KernelSpec) : NotebookMetadata := ⟨kernel, kernel.language⟩

structure CellMetadata where
  language : Text
  id : Text
  deriving DecidableEq, Repr

inductive CellBody
  | markdown
  | code (executionCount : Option UInt32) (outputs : List Json)
  deriving DecidableEq

structure NotebookCell where
  id : Text
  metadata : CellMetadata
  body : CellBody
  source : List Text
  deriving DecidableEq

structure FormatVersion where
  major : UInt32
  minor : UInt32
  deriving DecidableEq, Repr

/-- The version written, the first one whose cells have identifiers. -/
def FormatVersion.current : FormatVersion := ⟨4, 5⟩

structure Notebook where
  cells : List NotebookCell
  metadata : NotebookMetadata
  version : FormatVersion
  deriving DecidableEq

def NotebookCell.kind (cell : NotebookCell) : CellKind :=
  match cell.body with
  | .markdown => .markdown
  | .code _ _ => .code

def CellBody.fresh : CellKind → CellBody
  | .markdown => .markdown
  | .code => .code none []

namespace Notebook

def count (notebook : Notebook) (kind : CellKind) : Nat :=
  notebook.cells.countP fun cell => cell.kind == kind

end Notebook

def NotebookMetadata.cellLanguage (metadata : NotebookMetadata) : CellKind → Text
  | .markdown => CellKind.markdown.name
  | .code => metadata.kernel.language

end ScriptNotebook
