import ScriptNotebook.Notebook.Basic
import ScriptNotebook.Notebook.CellId
import ScriptNotebook.ScriptCell

/-!
Notebooks from the cells of a script: blank edges go, cells without content go, and every cell that
stays draws an identifier and is tagged with its language.
-/
namespace ScriptNotebook

def NotebookCell.ofLines (metadata : NotebookMetadata) (kind : CellKind) (id : Text)
    (lines : List Text) : NotebookCell where
  id := id
  metadata := ⟨metadata.cellLanguage kind, id⟩
  body := .fresh kind
  source := lines.map (· ++ ['\n'])

@[simp] theorem NotebookCell.kind_ofLines (metadata : NotebookMetadata) (kind : CellKind)
    (id : Text) (lines : List Text) : (ofLines metadata kind id lines).kind = kind := by
  cases kind <;> rfl

/-- The cells of a notebook, and the supply that is left. -/
def ScriptCell.assemble (metadata : NotebookMetadata) (ids : IdSupply) :
    List ScriptCell → List NotebookCell × IdSupply
  | [] => ([], ids)
  | cell :: rest =>
    match trimBlankEdges cell.lines with
    | [] => assemble metadata ids rest
    | line :: lines =>
      let (cells, left) := assemble metadata ids.advance rest
      (.ofLines metadata cell.kind ids.next (line :: lines) :: cells, left)

namespace Notebook

def ofCells (metadata : NotebookMetadata) (cells : List ScriptCell) (ids : IdSupply) :
    Notebook × IdSupply :=
  let (cells, left) := ScriptCell.assemble metadata ids cells
  (⟨cells, metadata, .current⟩, left)

def ofSource (metadata : NotebookMetadata) (source : Text) (ids : IdSupply) :
    Notebook × IdSupply :=
  ofCells metadata (ScriptCell.ofSource source) ids

end Notebook

end ScriptNotebook
