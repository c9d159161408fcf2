import ScriptNotebook.Proofs.Boundaries

/-!
The cells of a notebook against the cells of a script, whatever these hold.  Every script cell with
content is shown by one notebook cell, in order, which takes the next identifier; blank and empty
ones leave no trace.
-/
namespace ScriptNotebook

/-- The lines are those kept with blank ones around them, and those kept begin and end with
content. -/
structure KeptFrom (lines kept : List Text) : Prop where
  around : ∃ front back, lines = front ++ kept ++ back ∧
    ∀ line ∈ front ++ back, line.isBlank = true
  first : ∃ line ∈ kept.head?, line.isBlank = false
  last : ∃ line ∈ kept.getLast?, line.isBlank = false

theorem keptFrom_trimBlankEdges {cell : ScriptCell} (h : cell.isBlank = false) :
    KeptFrom cell.lines (trimBlankEdges cell.lines) := by
  have hne : trimBlankEdges cell.lines ≠ [] := by
    rw [Ne, ScriptCell.trimBlankEdges_eq_nil_iff_isBlank, h]
    exact Bool.false_ne_true
  obtain ⟨front, back, hlines, hfront, hback⟩ :=
    exists_append_dropEndWhile Text.isBlank Text.isBlank cell.lines
  obtain ⟨hfirst, hlast⟩ := edges_dropEndWhile Text.isBlank Text.isBlank cell.lines
  refine ⟨⟨front, back, hlines, List.forall_mem_append.mpr ⟨hfront, hback⟩⟩, ?_, ?_⟩
  · exact ⟨_, List.head?_eq_some_head hne, hfirst _ (List.head?_eq_some_head hne)⟩
  · exact ⟨_, List.getLast?_eq_some_getLast hne, hlast _ (List.getLast?_eq_some_getLast hne)⟩

/-- The notebook cell shows a script cell under an identifier, as a cell that has not been run. -/
structure NotebookCell.Shows (metadata : NotebookMetadata) (drawn : Text) (cell : ScriptCell)
    (made : NotebookCell) : Prop where
  kind : made.kind = cell.kind
  body : made.body = .fresh cell.kind
  id : made.id = drawn
  metadataId : made.metadata.id = drawn
  language : made.metadata.language =
    match cell.kind with
    | .markdown => "markdown".toList
    | .code => metadata.kernel.language
  source : ∃ kept, KeptFrom cell.lines kept ∧ made.source = kept.map fun line => line ++ ['\n']

theorem NotebookCell.shows_ofLines (metadata : NotebookMetadata) (id : Text) {cell : ScriptCell}
    (h : cell.isBlank = false) :
    Shows metadata id cell (ofLines metadata cell.kind id (trimBlankEdges cell.lines)) where
  kind := kind_ofLines metadata cell.kind id _
  body := rfl
  id := rfl
  metadataId := rfl
  language := by
    rw [ofLines, NotebookMetadata.cellLanguage.eq_def]
    rfl
  source := ⟨_, keptFrom_trimBlankEdges h, rfl⟩

namespace Notebook

theorem count_code_add_count_markdown (notebook : Notebook) :
    notebook.count .code + notebook.count .markdown = notebook.cells.length := by
  have hkind : (fun cell : NotebookCell => cell.kind == .markdown) =
      fun cell => decide ¬(cell.kind == .code) = true := by
    funext cell
    cases cell.kind <;> rfl
  rw [count, count, hkind]
  exact (List.length_eq_countP_add_countP _).symm

/-- The notebook of script cells has one cell for each that is not blank, in order, with the next
identifiers, and draws no others; its counts add up; and cells that stand behind others are shown
behind them with the identifiers that these leave. -/
theorem ofCells_shows_filled (metadata : NotebookMetadata) (cells : List ScriptCell)
    (ids : IdSupply) :
    let filled := cells.filter fun cell => !cell.isBlank
    let built := ofCells metadata cells ids
    built.1.cells.length = filled.length ∧
      (∀ (i : Nat) (cell : ScriptCell), filled[i]? = some cell →
        ∃ made : NotebookCell, built.1.cells[i]? = some made ∧
          made.Shows metadata (ids.nth i) cell) ∧
      built.2 = ids.skip filled.length ∧
      built.1.metadata = metadata ∧ built.1.version = .current ∧
      built.1.count .code + built.1.count .markdown = built.1.cells.length ∧
      ∀ later, ofCells metadata (cells ++ later) ids =
        let rest := ofCells metadata later built.2
        (⟨built.1.cells ++ rest.1.cells, metadata, .current⟩, rest.2) := by
  intro filled built
  have hbuilt : ScriptCell.assemble metadata ids cells =
      (filled.mapIdx fun i cell =>
        .ofLines metadata cell.kind (ids.nth i) (trimBlankEdges cell.lines),
        ids.skip filled.length) := ScriptCell.assemble_eq metadata ids cells
  have hcells : built.1.cells = filled.mapIdx fun i cell =>
      .ofLines metadata cell.kind (ids.nth i) (trimBlankEdges cell.lines) :=
    congrArg Prod.fst hbuilt
  refine ⟨by rw [hcells, List.length_mapIdx], ?_, congrArg Prod.snd hbuilt, rfl, rfl,
    count_code_add_count_markdown built.1, fun later => ?_⟩
  · intro i cell hcell
    have hfilled : cell.isBlank = false := by
      simpa using (List.mem_filter.mp (List.mem_of_getElem? hcell)).2
    exact ⟨_, by rw [hcells, List.getElem?_mapIdx, hcell]; rfl,
      NotebookCell.shows_ofLines metadata (ids.nth i) hfilled⟩
  · rw [ofCells, ScriptCell.assemble_append]
    rfl

/-- The last of four cells is the second with content. -/
theorem ofCells_shows_heading :
    let heading : ScriptCell := ⟨.markdown, ["\t", "# Load", "", "more", " "].map String.toList⟩
    let cells : List ScriptCell :=
      [⟨.code, [" ".toList]⟩, ⟨.code, ["".toList, "x = 1".toList]⟩, ⟨.markdown, []⟩, heading]
    let metadata := KernelSpec.toMetadata ⟨"py".toList, "python".toList, "Python".toList⟩
    (cells.filter fun cell => !cell.isBlank)[1]? = some heading ∧
      ∃ made : NotebookCell, (ofCells metadata cells (.sequential 7)).1.cells[1]? = some made ∧
        made.Shows metadata "00000008".toList heading := by
  intro heading cells metadata
  have hfilled : (cells.filter fun cell => !cell.isBlank)[1]? = some heading := by decide
  have hid : IdSupply.nth (.sequential 7) 1 = "00000008".toList := by decide
  obtain ⟨-, hshows, -⟩ := ofCells_shows_filled metadata cells (.sequential 7)
  exact ⟨hfilled, hid ▸ hshows 1 heading hfilled⟩

end Notebook

end ScriptNotebook
