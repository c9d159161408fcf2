import ScriptNotebook.Proofs.PercentFormat

/-!
Scripts in two parts.  A command, a title or a separator ends whatever cell is open, so that a
script with such a line becomes the notebook of what stands before the line, and behind it the
notebook of what begins with it, made with the identifiers that are left.
-/
namespace ScriptNotebook

namespace Marker

/-- The marker begins a cell whatever cell is open. -/
def isBoundary : Marker → Bool
  | command | title _ | split _ => true
  | _ => false

theorem opens?_of_isBoundary {marker : Marker} (h : marker.isBoundary = true) :
    ∃ next, ∀ kind, marker.opens? kind = some next := by
  cases marker with
  | command => exact ⟨.code, fun _ => rfl⟩
  | title text => exact ⟨.markdown, fun _ => rfl⟩
  | split next => exact ⟨next, fun _ => rfl⟩
  | banner | wrapped _ | content _ => cases h

end Marker

/-- What stands before a boundary is cut as if nothing followed, and the boundary begins a segment
that does not depend on it. -/
theorem Segment.cut_append_boundary {line : Text} {next : CellKind}
    (h : ∀ kind, (Marker.ofLine line).opens? kind = some next) (kind : CellKind)
    (front rest : List Text) :
    cut kind (front ++ line :: rest) =
      ((cut kind front).1,
        (cut kind front).2 ++ ⟨next, line :: (cut next rest).1⟩ :: (cut next rest).2) := by
  induction front generalizing kind with
  | nil => simp [cut, h]
  | cons first front ih =>
    cases ho : (Marker.ofLine first).opens? kind <;> simp [cut, ho, ih]

theorem Segment.filled_append_boundary {line : Text}
    (h : (Marker.ofLine line).isBoundary = true) (front rest : List Text) :
    (ofLines (front ++ line :: rest)).filter hasContent =
      (ofLines front).filter hasContent ++ (ofLines (line :: rest)).filter hasContent := by
  obtain ⟨next, hn⟩ := Marker.opens?_of_isBoundary h
  let opened : List Segment := ⟨next, line :: (cut next rest).1⟩ :: (cut next rest).2
  have hall : ofLines (front ++ line :: rest) = ofLines front ++ opened := by
    simp [ofLines, cut_append_boundary hn, opened]
  have hrest : ofLines (line :: rest) = ⟨.code, []⟩ :: opened := by
    simp [ofLines, cut, hn, opened]
  have hempty : (ofLines (line :: rest)).filter hasContent = opened.filter hasContent := by
    rw [hrest]
    exact List.filter_cons_of_neg Bool.false_ne_true
  rw [hall, List.filter_append, hempty]

namespace ScriptCell

/-- Cells that stand one behind the other draw their identifiers one behind the other. -/
theorem assemble_append (metadata : NotebookMetadata) (ids : IdSupply)
    (cells later : List ScriptCell) :
    assemble metadata ids (cells ++ later) =
      let before := assemble metadata ids cells
      let behind := assemble metadata before.2 later
      (before.1 ++ behind.1, behind.2) := by
  induction cells generalizing ids with
  | nil => rfl
  | cons cell cells ih =>
    cases ht : trimBlankEdges cell.lines <;> simp [assemble, ht, ih]

theorem assemble_filter (metadata : NotebookMetadata) (ids : IdSupply)
    (cells : List ScriptCell) :
    assemble metadata ids (cells.filter hasContent) = assemble metadata ids cells := by
  simp [assemble_eq]

theorem assemble_append_boundary (metadata : NotebookMetadata) (ids : IdSupply) {line : Text}
    (h : (Marker.ofLine line).isBoundary = true) (front rest : List Text) :
    assemble metadata ids (ofLines (front ++ line :: rest)) =
      assemble metadata ids (ofLines front ++ ofLines (line :: rest)) := by
  have hfilter : (ofLines (front ++ line :: rest)).filter hasContent =
      (ofLines front ++ ofLines (line :: rest)).filter hasContent := by
    rw [List.filter_append]
    simp only [filter_ofLines, Segment.filled_append_boundary h, List.map_append]
  rw [← assemble_filter, hfilter, assemble_filter]

end ScriptCell

namespace Text

theorem lines_eq_nil_iff {t : Text} : lines t = [] ↔ t = [] := by
  fun_cases lines t <;> simp_all

theorem lines_append_newline (t rest : Text) :
    lines (t ++ '\n' :: rest) = lines (t ++ ['\n']) ++ lines rest := by
  induction t using lines.induct with
  | case1 => rfl
  | case2 t ih => simpa using ih
  | case3 t ih => simpa [lines] using ih
  | case4 c t hn hr hl ih =>
    obtain rfl := lines_eq_nil_iff.mp hl
    by_cases hc : c = '\r'
    · subst hc
      rfl
    · have hsingle (u : Text) : lines (c :: '\n' :: u) = [c] :: lines u :=
        lines_cons hn fun h => absurd h hc
      exact (hsingle rest).trans (congrArg (· ++ lines rest) (hsingle [])).symm
  | case5 c t hn hr l ls hl ih =>
    have hhead (u : Text) : c = '\r' → (t ++ u).head? ≠ some '\n' := by
      rintro rfl h
      cases t with
      | nil => cases hl
      | cons d t =>
        obtain rfl := Option.some.inj h
        exact hr t rfl rfl
    rw [List.cons_append, List.cons_append, lines_cons hn (hhead _), lines_cons hn (hhead _), ih]
    cases hfirst : lines (t ++ ['\n']) with
    | nil => simp [lines_eq_nil_iff] at hfirst
    | cons first others => rfl

theorem lines_ofEndedLines_append (written : List (Text × LineEnd)) (rest : Text) :
    lines (ofEndedLines written ++ rest) = lines (ofEndedLines written) ++ lines rest := by
  rcases List.eq_nil_or_concat written with rfl | ⟨front, ⟨t, e⟩, rfl⟩
  · rfl
  · obtain ⟨u, hu⟩ : ∃ u, ofEndedLines (front ++ [(t, e)]) = u ++ ['\n'] := by
      cases e with
      | newline => exact ⟨ofEndedLines front ++ t, by simp [ofEndedLines, LineEnd.text]⟩
      | returnNewline =>
        exact ⟨ofEndedLines front ++ t ++ ['\r'], by simp [ofEndedLines, LineEnd.text]⟩
    rw [List.concat_eq_append, hu, List.append_assoc]
    exact lines_append_newline u rest

end Text

/-- A script in which a line is a command, a title or a separator becomes the notebook of the lines
in front of it and, with the identifiers that this one leaves, the notebook of what begins with that
line.  The lines in front have an end each; the last one of the script may do without. -/
theorem Notebook.ofSource_append_boundary (metadata : NotebookMetadata) (ids : IdSupply)
    (front : List (Text × LineEnd)) {script line : Text} {rest : List Text}
    (hlines : script.lines = line :: rest) (h : (Marker.ofLine line).isBoundary = true) :
    let before := ofSource metadata (Text.ofEndedLines front) ids
    let behind := ofSource metadata script before.2
    ofSource metadata (Text.ofEndedLines front ++ script) ids =
      (⟨before.1.cells ++ behind.1.cells, metadata, .current⟩, behind.2) := by
  dsimp only [ofSource, ofCells, ScriptCell.ofSource]
  rw [Text.lines_ofEndedLines_append, hlines, ScriptCell.assemble_append_boundary metadata ids h,
    ScriptCell.assemble_append]

/-- A markdown cell with a blank tail is open where a title begins. -/
theorem Notebook.ofSource_append_title :
    let front : List (Text × LineEnd) :=
      [("# %% markdown".toList, .newline), ("# text".toList, .returnNewline), ([], .newline)]
    let title : Text := "# DBTITLE 1,Load".toList
    let script : Text := title ++ "\r\n# more".toList
    let metadata := KernelSpec.toMetadata ⟨"py".toList, "python".toList, "Python".toList⟩
    let before := ofSource metadata (Text.ofEndedLines front) (.sequential 7)
    let behind := ofSource metadata script before.2
    script.lines = [title, "# more".toList] ∧ (Marker.ofLine title).isBoundary = true ∧
      ofSource metadata (Text.ofEndedLines front ++ script) (.sequential 7) =
        (⟨before.1.cells ++ behind.1.cells, metadata, .current⟩, behind.2) := by
  intro front title script metadata before behind
  have hlines : script.lines = [title, "# more".toList] := by decide
  have h : (Marker.ofLine title).isBoundary = true := by decide
  exact ⟨hlines, h, ofSource_append_boundary metadata (.sequential 7) front hlines h⟩

end ScriptNotebook
