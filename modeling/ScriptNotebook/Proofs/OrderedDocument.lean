import ScriptNotebook.Notebook.Writer
import ScriptNotebook.Proofs.JsonReadBack

/-!
The document of a notebook in order.  Both writers print the same value: the records and the listing
of the plain writer differ in the order of their members at most, and putting the members in order
takes that away.
-/
namespace ScriptNotebook

open Json (ofText ofTexts)

namespace Json

theorem ordered_ofTexts (ts : List Text) : (ofTexts ts).ordered = ofTexts ts := by
  refine ordered_array fun v hv => ?_
  obtain ⟨t, -, rfl⟩ := List.mem_map.mp hv
  rfl

theorem ordered_ofCount (count : Option UInt32) : (ofCount count).ordered = ofCount count := by
  cases count <;> rfl

end Json

theorem CellMetadata.ordered_toJson (metadata : CellMetadata) :
    metadata.toJson.ordered =
      .object [field "id" (ofText metadata.id), field "language" (ofText metadata.language)] :=
  rfl

theorem KernelSpec.ordered_toJson (kernel : KernelSpec) :
    kernel.toJson.ordered =
      .object [field "display_name" (ofText kernel.displayName),
        field "language" (ofText kernel.language), field "name" (ofText kernel.name)] :=
  rfl

theorem NotebookMetadata.ordered_toJson (metadata : NotebookMetadata) :
    metadata.toJson.ordered =
      .object [field "kernelspec" metadata.kernel.toJson.ordered,
        field "language_info" (.object [field "name" (ofText metadata.languageName)])] :=
  rfl

theorem NotebookCell.ordered_toJson_markdown (id : Text) (metadata : CellMetadata)
    (source : List Text) :
    (toJson ⟨id, metadata, .markdown, source⟩).ordered =
      .object [field "cell_type" (ofText CellKind.markdown.name), field "id" (ofText id),
        field "metadata" metadata.toJson.ordered, field "source" (ofTexts source)] := by
  rw [← Json.ordered_ofTexts source]
  rfl

theorem NotebookCell.ordered_toJson_code (id : Text) (metadata : CellMetadata)
    (executionCount : Option UInt32) (outputs : List Json) (source : List Text) :
    (toJson ⟨id, metadata, .code executionCount outputs, source⟩).ordered =
      .object [field "cell_type" (ofText CellKind.code.name),
        field "execution_count" (.ofCount executionCount), field "id" (ofText id),
        field "metadata" metadata.toJson.ordered,
        field "outputs" (.array (outputs.map Json.ordered)), field "source" (ofTexts source)] := by
  rw [← Json.ordered_ofTexts source, ← Json.ordered_ofCount, ← Json.orderedItems_eq_map]
  rfl

theorem Notebook.ordered_toJson (notebook : Notebook) :
    notebook.toJson.ordered =
      .object [
        field "cells" (.array (notebook.cells.map fun cell => cell.toJson.ordered)),
        field "metadata" notebook.metadata.toJson.ordered,
        field "nbformat" (.integer notebook.version.major.toNat),
        field "nbformat_minor" (.integer notebook.version.minor.toNat)] := by
  have hcells : Json.orderedItems (notebook.cells.map NotebookCell.toJson) =
      notebook.cells.map fun cell => cell.toJson.ordered := by
    rw [Json.orderedItems_eq_map, List.map_map]
    rfl
  rw [← hcells]
  rfl

namespace Writer

theorem ordered_plainCell (cell : NotebookCell) :
    (plainCell cell).ordered = cell.toJson.ordered := by
  obtain ⟨id, metadata, body, source⟩ := cell
  cases body <;> rfl

theorem ordered_plainDocument (notebook : Notebook) :
    (plainDocument notebook).ordered = notebook.toJson.ordered := by
  have hcells : Json.orderedItems (notebook.cells.map plainCell) =
      notebook.cells.map fun cell => cell.toJson.ordered := by
    simp [Json.orderedItems_eq_map, ordered_plainCell]
  rw [Notebook.ordered_toJson, ← hcells]
  rfl

end Writer

theorem CellKind.ofName_name (kind : CellKind) : CellKind.ofName kind.name = .ok kind := by
  rw [ofName, ofName?_name]

theorem NotebookCell.member?_ordered_toJson (cell : NotebookCell) :
    cell.toJson.ordered.member? "cell_type".toList = some (.string cell.kind.name) := by
  obtain ⟨id, metadata, body, source⟩ := cell
  cases body <;> rfl

/-- Every document of a notebook passes the check of its cell types. -/
theorem checkCellTypes_toJson (notebook : Notebook) :
    checkCellTypes notebook.toJson.ordered = .ok () := by
  let cells := notebook.cells.map fun cell => cell.toJson.ordered
  have hcells : notebook.toJson.ordered.member? "cells".toList = some (.array cells) := by
    rw [Notebook.ordered_toJson]
    rfl
  rw [checkCellTypes, hcells]
  dsimp only [cells]
  induction notebook.cells with
  | nil => rfl
  | cons cell cells ih =>
    rw [List.map_cons, List.forM, cell.member?_ordered_toJson]
    dsimp only
    rw [CellKind.ofName_name]
    exact ih

namespace Writer

theorem render_plain (notebook : Notebook) :
    plain.render notebook = .ok (notebook.toJson.ordered.toFile 2) := by
  rw [render, ordered_plainDocument]

theorem render_structured {notebook : Notebook} (h : notebook.validate = .ok ()) :
    structured.render notebook = .ok (notebook.toJson.ordered.toFile 1) := by
  rw [render, h]
  dsimp only
  rw [checkCellTypes_toJson, Json.ordered_ordered]

/-- What a writer gives is the document in some indentation. -/
theorem exists_indent_of_render {notebook : Notebook} {writer : Writer} {text : Text}
    (h : writer.render notebook = .ok text) :
    ∃ indent, text = notebook.toJson.ordered.toFile indent := by
  induction writer with
  | structured =>
    cases hvalid : notebook.validate with
    | error cause =>
      rw [render, hvalid] at h
      cases h
    | ok =>
      rw [render_structured hvalid] at h
      exact ⟨1, (Except.ok.inj h).symm⟩
  | plain =>
    rw [render_plain] at h
    exact ⟨2, (Except.ok.inj h).symm⟩
  | fallback first second ih ih' =>
    rw [render] at h
    split at h
    · next hfirst => exact ih (hfirst.trans h)
    · exact ih' h

end Writer

end ScriptNotebook
