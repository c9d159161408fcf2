import ScriptNotebook.Proofs.Segments

/-!
Blank cells of a script.  A boundary completes no cell that is blank; only what is held when the
lines end becomes a cell as it is.  A blank cell therefore stands last, and never alone: the cell
that is taken from the front for being blank is the only one there is.
-/
namespace ScriptNotebook.ScriptCell

theorem hasContent_iff {cell : ScriptCell} :
    cell.hasContent = true ↔ ∃ line ∈ cell.lines, ∃ c ∈ line, isBlankChar c = false := by
  simp [hasContent, isBlank, Text.isBlank]

theorem lines_ne_nil_of_hasContent {cell : ScriptCell} (h : cell.hasContent = true) :
    cell.lines ≠ [] := by
  obtain ⟨line, hline, -⟩ := hasContent_iff.mp h
  exact List.ne_nil_of_mem hline

/-- Cells that all have content, but for the last one, which may hold blank lines only. -/
inductive BlankAtMostLast : List ScriptCell → Prop
  | nil : BlankAtMostLast []
  | last {cell : ScriptCell} (h : cell.lines ≠ []) : BlankAtMostLast [cell]
  | cons {cell : ScriptCell} {rest : List ScriptCell} (h : cell.hasContent = true)
      (hr : BlankAtMostLast rest) : BlankAtMostLast (cell :: rest)

/-- Whatever a cell holds when it ends, it is passed on with content or not at all. -/
theorem BlankAtMostLast.close {later : List ScriptCell} (h : BlankAtMostLast later)
    (kind : CellKind) (held : List Text) : BlankAtMostLast (close kind held later) := by
  rw [ScriptCell.close]
  split
  · exact h
  · next hne => exact .cons (by simpa [hasContent, isBlank] using hne) h

theorem blankAtMostLast_complete (kind : CellKind) (held lines : List Text) :
    BlankAtMostLast (complete kind held lines) := by
  induction lines generalizing kind held with
  | nil =>
    rw [complete]
    split
    · exact .nil
    · next hne => exact .last (by simpa using hne)
  | cons line rest ih =>
    cases h : (Marker.ofLine line).opens? kind with
    | none =>
      rw [complete_of_stays h]
      exact ih kind _
    | some next =>
      rw [complete_of_opens h]
      exact (ih next _).close kind held

namespace BlankAtMostLast

variable {cells front behind : List ScriptCell} {cell : ScriptCell}

theorem lines_ne_nil (h : BlankAtMostLast cells) : ∀ cell ∈ cells, cell.lines ≠ [] := by
  induction h with
  | nil => simp
  | last h => simpa using h
  | cons h _ ih =>
    rw [List.forall_mem_cons]
    exact ⟨lines_ne_nil_of_hasContent h, ih⟩

theorem hasContent_of_mem_dropLast (h : BlankAtMostLast cells) :
    ∀ cell ∈ cells.dropLast, cell.hasContent = true := by
  induction h with
  | nil | last => simp
  | @cons cell rest h _ ih =>
    cases rest with
    | nil => simp
    | cons second later =>
      rw [List.dropLast_cons_cons, List.forall_mem_cons]
      exact ⟨h, ih⟩

theorem eq_nil_of_isBlank (h : BlankAtMostLast (front ++ cell :: behind))
    (hb : cell.isBlank = true) : behind = [] := by
  by_contra hne
  have hmem : cell ∈ (front ++ cell :: behind).dropLast := by
    rw [List.dropLast_append_cons, List.dropLast_cons_of_ne_nil hne]
    simp
  simpa [hasContent, hb] using h.hasContent_of_mem_dropLast cell hmem

theorem dropBlankFirst_cases (h : BlankAtMostLast cells) :
    dropBlankFirst cells = cells ∧ (∀ cell ∈ cells.head?, cell.hasContent = true) ∨
      ∃ cell, cells = [cell] ∧ cell.isBlank = true ∧ dropBlankFirst cells = [] := by
  cases cells with
  | nil => exact .inl ⟨rfl, by simp⟩
  | cons cell rest =>
    by_cases hb : cell.isBlank = true
    · have hfront : BlankAtMostLast ([] ++ cell :: rest) := h
      obtain rfl := hfront.eq_nil_of_isBlank hb
      exact .inr ⟨cell, rfl, hb, by simp [dropBlankFirst, hb]⟩
    · exact .inl ⟨by simp [dropBlankFirst, hb], by simp [hasContent, hb]⟩

end BlankAtMostLast

theorem ofLines_cases (lines : List Text) :
    ofLines lines = complete .code [] lines ∧
        (∀ cell ∈ (ofLines lines).head?, cell.hasContent = true) ∨
      ∃ cell, complete .code [] lines = [cell] ∧ cell.isBlank = true ∧ ofLines lines = [] := by
  rcases (blankAtMostLast_complete .code [] lines).dropBlankFirst_cases with ⟨heq, hhead⟩ | hone
  · exact .inl ⟨heq, by rwa [ofLines, heq]⟩
  · exact .inr hone

theorem blankAtMostLast_ofLines (lines : List Text) : BlankAtMostLast (ofLines lines) := by
  rcases ofLines_cases lines with ⟨heq, -⟩ | ⟨-, -, -, hnil⟩
  · rw [heq]
    exact blankAtMostLast_complete .code [] lines
  · rw [hnil]
    exact .nil

theorem hasContent_head?_ofLines (lines : List Text) :
    ∀ cell ∈ (ofLines lines).head?, cell.hasContent = true := by
  rcases ofLines_cases lines with ⟨-, hhead⟩ | ⟨-, -, -, hnil⟩
  · exact hhead
  · simp [hnil]

/-- The cells of any lines have lines; all have content but perhaps the last one, and the first one
has content.  So a blank cell has a cell before it and none behind it.  Taking a blank cell from the
front changes nothing unless there is no other. -/
theorem ofLines_blank_only_last (lines : List Text) :
    let cells := ofLines lines
    (∀ cell ∈ cells, cell.lines ≠ []) ∧
      (∀ cell ∈ cells.dropLast, ∃ line ∈ cell.lines, ∃ c ∈ line, isBlankChar c = false) ∧
      (∀ cell ∈ cells.head?, ∃ line ∈ cell.lines, ∃ c ∈ line, isBlankChar c = false) ∧
      (∀ front cell behind, cells = front ++ cell :: behind → cell.isBlank = true →
        front ≠ [] ∧ behind = []) ∧
      (cells = complete .code [] lines ∨
        ∃ cell, complete .code [] lines = [cell] ∧ cell.isBlank = true ∧ cells = []) := by
  intro cells
  have hcells : BlankAtMostLast cells := blankAtMostLast_ofLines lines
  have hhead : ∀ cell ∈ cells.head?, cell.hasContent = true := hasContent_head?_ofLines lines
  refine ⟨hcells.lines_ne_nil, fun cell h => ?_, fun cell h => ?_, ?_, ?_⟩
  · exact hasContent_iff.mp (hcells.hasContent_of_mem_dropLast cell h)
  · exact hasContent_iff.mp (hhead cell h)
  · intro front cell behind heq hb
    rw [heq] at hcells hhead
    refine ⟨?_, hcells.eq_nil_of_isBlank hb⟩
    rintro rfl
    simpa [hasContent, hb] using hhead cell rfl
  · exact (ofLines_cases lines).imp_left And.left

/-- Blank lines behind the last boundary are kept when a cell stands in front of them, and only
then. -/
theorem ofLines_blank_only_last_tail :
    let blanks : List Text := ["# COMMAND ----------".toList, "\n\t".toList, []]
    let tail : ScriptCell := ⟨.code, ["\n\t".toList, []]⟩
    let cells := ofLines ("a = 1".toList :: blanks)
    cells = [⟨.code, ["a = 1".toList]⟩] ++ tail :: [] ∧ tail.isBlank = true ∧
      [(⟨.code, ["a = 1".toList]⟩ : ScriptCell)] ≠ [] ∧
      complete .code [] blanks = [tail] ∧ ofLines blanks = [] := by
  intro blanks tail cells
  have hcells : cells = [⟨.code, ["a = 1".toList]⟩] ++ tail :: [] := by decide
  have hb : tail.isBlank = true := by decide
  obtain ⟨-, -, -, hblank, -⟩ := ofLines_blank_only_last ("a = 1".toList :: blanks)
  exact ⟨hcells, hb, (hblank _ tail [] hcells hb).1, by decide, by decide⟩

end ScriptNotebook.ScriptCell
