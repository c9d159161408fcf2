import ScriptNotebook.Proofs.Segments

/-!
Scripts in percent format.  A cell is written as a separator that names its kind and its lines, each
line of a markdown cell behind a hash sign and a space.  Cutting the text gives the cells back, with
every choice of line ends.
-/
namespace ScriptNotebook

inductive LineEnd
  | newline | returnNewline
  deriving DecidableEq, Repr

def LineEnd.text : LineEnd → Text
  | newline => ['\n']
  | returnNewline => ['\r', '\n']

namespace Text

def ofEndedLines (written : List (Text × LineEnd)) : Text :=
  written.flatMap fun row => row.1 ++ row.2.text

/-- A text that reads as one line wherever it stands before a line end. -/
def IsLine (t : Text) : Prop := '\n' ∉ t ∧ t.getLast? ≠ some '\r'

instance (t : Text) : Decidable t.IsLine := inferInstanceAs (Decidable (_ ∧ _))

/-- A character goes in front of the first line unless it begins a line end. -/
theorem lines_cons {c : Char} {t : Text} (hn : c ≠ '\n')
    (hr : c = '\r' → t.head? ≠ some '\n') :
    lines (c :: t) = match lines t with
      | [] => [[c]]
      | l :: ls => (c :: l) :: ls := by
  rw [lines.eq_def]
  split
  · next h => cases h
  · next h =>
    cases h
    exact absurd rfl hn
  · next h =>
    cases h
    exact absurd rfl (hr rfl)
  · next h =>
    cases h
    rfl

theorem lines_append_lineEnd {t : Text} (h : t.IsLine) (e : LineEnd) (rest : Text) :
    lines (t ++ e.text ++ rest) = t :: lines rest := by
  induction t with
  | nil => cases e <;> rfl
  | cons c t ih =>
    obtain ⟨hn, hr⟩ := h
    simp only [List.mem_cons, not_or] at hn
    have ht : IsLine t := by
      refine ⟨hn.2, fun hl => hr ?_⟩
      rw [List.getLast?_cons, hl]
      rfl
    have hc : lines (c :: (t ++ e.text ++ rest)) = match lines (t ++ e.text ++ rest) with
        | [] => [[c]]
        | l :: ls => (c :: l) :: ls := by
      refine lines_cons (Ne.symm hn.1) ?_
      rintro rfl hh
      cases t with
      | nil => simp at hr
      | cons d t => exact hn.2 (by simp_all)
    rw [List.cons_append, List.cons_append, hc, ih ht]

theorem lines_ofEndedLines {written : List (Text × LineEnd)}
    (h : ∀ t ∈ written.map Prod.fst, t.IsLine) :
    lines (ofEndedLines written) = written.map Prod.fst := by
  induction written with
  | nil => rfl
  | cons row written ih =>
    rw [List.map_cons, List.forall_mem_cons] at h
    rw [ofEndedLines, List.flatMap_cons, lines_append_lineEnd h.1, ← ofEndedLines, ih h.2,
      List.map_cons]

end Text

def percentLine : CellKind → Text → Text
  | .code, line => line
  | .markdown, line => '#' :: ' ' :: line

def percentSeparator : CellKind → Text
  | .code => "# %%".toList
  | .markdown => "# %% markdown".toList

namespace ScriptCell

def percentLines (cell : ScriptCell) : List Text :=
  percentSeparator cell.kind :: cell.lines.map (percentLine cell.kind)

/-- The cells that can be written in percent format: they have content, their lines are lines, and
no line becomes a marker. -/
structure FitsPercent (cell : ScriptCell) : Prop where
  hasContent : ∃ line ∈ cell.lines, line.isBlank = false
  isLine : ∀ line ∈ cell.lines, line.IsLine
  isContent : ∀ line ∈ cell.lines,
    Marker.ofLine (percentLine cell.kind line) = .content (percentLine cell.kind line)

end ScriptCell

@[simp] theorem ofLine_percentSeparator (kind : CellKind) :
    Marker.ofLine (percentSeparator kind) = .split kind := by
  cases kind <;> decide

theorem isLine_percentSeparator (kind : CellKind) : (percentSeparator kind).IsLine := by
  cases kind <;> exact ⟨by decide, by decide⟩

theorem isLine_percentLine {line : Text} (h : line.IsLine) (kind : CellKind) :
    (percentLine kind line).IsLine := by
  cases kind with
  | code => exact h
  | markdown =>
    obtain ⟨hn, hr⟩ := h
    refine ⟨by simp [percentLine, hn], ?_⟩
    cases line with
    | nil => simp [percentLine]
    | cons c line => simpa [percentLine, List.getLast?_cons] using hr

@[simp] theorem uncomment_hash_space (line : Text) : uncomment ('#' :: ' ' :: line) = line := rfl

@[simp] theorem contentLine_percentLine (kind : CellKind) (line : Text) :
    ScriptCell.contentLine kind (percentLine kind line) = line := by
  cases kind <;> rfl

namespace ScriptCell

theorem complete_map_percentLine {kind : CellKind} {lines : List Text}
    (h : ∀ line ∈ lines, Marker.ofLine (percentLine kind line) = .content (percentLine kind line))
    (held rest : List Text) :
    complete kind held (lines.map (percentLine kind) ++ rest) =
      complete kind (lines.reverse ++ held) rest := by
  induction lines generalizing held with
  | nil => rfl
  | cons line lines ih =>
    rw [List.forall_mem_cons] at h
    simp [complete, h.1, ih h.2]

theorem FitsPercent.isBlank_eq_false {cell : ScriptCell} (h : cell.FitsPercent) :
    cell.isBlank = false := by
  obtain ⟨line, hm, hb⟩ := h.hasContent
  exact List.all_eq_false.mpr ⟨line, hm, by simp [hb]⟩

theorem close_of_fits {cell : ScriptCell} (h : cell.FitsPercent) (later : List ScriptCell) :
    close cell.kind cell.lines.reverse later = cell :: later := by
  have hb : cell.lines.reverse.all Text.isBlank = false := by
    rw [List.all_reverse]
    exact h.isBlank_eq_false
  rw [close, hb, if_neg Bool.false_ne_true, List.reverse_reverse]

/-- The separator of a written cell ends the open cell, and its lines fill the next one. -/
theorem complete_cons_percentLines {cell : ScriptCell} (h : cell.FitsPercent) (kind : CellKind)
    (held : List Text) (cells : List ScriptCell) :
    complete kind held ((cell :: cells).flatMap percentLines) =
      close kind held (complete cell.kind cell.lines.reverse (cells.flatMap percentLines)) := by
  rw [List.flatMap_cons, percentLines, List.cons_append, complete, ofLine_percentSeparator]
  simp only [complete_map_percentLine h.isContent, List.append_nil]

/-- While a cell is open that fits, the cells written behind it complete it and themselves. -/
theorem complete_flatMap_percentLines {cell : ScriptCell} {cells : List ScriptCell}
    (h : ∀ c ∈ cell :: cells, c.FitsPercent) :
    complete cell.kind cell.lines.reverse (cells.flatMap percentLines) = cell :: cells := by
  induction cells generalizing cell with
  | nil =>
    obtain ⟨line, hm, -⟩ := (h cell (by simp)).hasContent
    have hne : cell.lines.reverse ≠ [] := by simpa using List.ne_nil_of_mem hm
    rw [List.flatMap_nil, complete, if_neg hne, List.reverse_reverse]
  | cons next cells ih =>
    rw [List.forall_mem_cons] at h
    rw [complete_cons_percentLines (h.2 next (by simp)), ih h.2, close_of_fits h.1]

/-- Cutting undoes writing in percent format. -/
theorem ofSource_ofEndedLines_percentLines {cells : List ScriptCell}
    (h : ∀ cell ∈ cells, cell.FitsPercent) {written : List (Text × LineEnd)}
    (hw : written.map Prod.fst = cells.flatMap percentLines) :
    ofSource (Text.ofEndedLines written) = cells := by
  have hl : ∀ line ∈ written.map Prod.fst, line.IsLine := by
    rw [hw]
    intro line hm
    obtain ⟨cell, hc, hm⟩ := List.mem_flatMap.mp hm
    rcases List.mem_cons.mp hm with rfl | hm
    · exact isLine_percentSeparator cell.kind
    · obtain ⟨own, ho, rfl⟩ := List.mem_map.mp hm
      exact isLine_percentLine ((h cell hc).isLine own ho) cell.kind
  rw [ofSource, Text.lines_ofEndedLines hl, hw, ofLines]
  cases cells with
  | nil => rfl
  | cons cell cells =>
    have hc : complete .code [] ((cell :: cells).flatMap percentLines) = cell :: cells := by
      rw [complete_cons_percentLines (h cell (by simp)), complete_flatMap_percentLines h]
      rfl
    rw [hc, dropBlankFirst, (h cell (by simp)).isBlank_eq_false, if_neg Bool.false_ne_true]

/-- A code cell with a comment and a blank last line, and a markdown cell with a heading, a blank
line and an indented line, written with line ends of both forms. -/
theorem ofSource_percent_sample :
    let cells : List ScriptCell :=
      [⟨.code, ["# note", "x = 1", ""].map String.toList⟩,
        ⟨.markdown, ["# Title", "", "  text"].map String.toList⟩]
    let written := (cells.flatMap percentLines).zip
      [.newline, .returnNewline, .newline, .returnNewline, .returnNewline, .newline, .newline,
        .returnNewline]
    (∀ cell ∈ cells, cell.FitsPercent) ∧ written.map Prod.fst = cells.flatMap percentLines ∧
      ofSource (Text.ofEndedLines written) = cells := by
  intro cells written
  have h : ∀ cell ∈ cells, cell.FitsPercent := by
    simp only [cells, List.forall_mem_cons]
    exact ⟨⟨by decide, fun line hl => ⟨by revert line; decide, by revert line; decide⟩, by decide⟩,
      ⟨by decide, fun line hl => ⟨by revert line; decide, by revert line; decide⟩, by decide⟩,
      by simp⟩
  have hw : written.map Prod.fst = cells.flatMap percentLines := by decide
  exact ⟨h, hw, ofSource_ofEndedLines_percentLines h hw⟩

end ScriptCell

end ScriptNotebook
