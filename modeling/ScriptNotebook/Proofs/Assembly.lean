import ScriptNotebook.Notebook.Assembly

/-!
What assembling keeps.  Cells without content vanish and draw nothing; the others draw one
identifier each, in order, so that the notebook is a map over the cells that have content.
-/
namespace ScriptNotebook

namespace IdSupply

/-- The identifier of the draw after `n` more. -/
def nth (ids : IdSupply) (n : Nat) : Text := ids.name (ids.drawn + n)

def skip (ids : IdSupply) (n : Nat) : IdSupply := { ids with drawn := ids.drawn + n }

@[simp] theorem nth_zero (ids : IdSupply) : ids.nth 0 = ids.next := rfl

@[simp] theorem skip_zero (ids : IdSupply) : ids.skip 0 = ids := rfl

@[simp] theorem nth_advance (ids : IdSupply) (n : Nat) : ids.advance.nth n = ids.nth (n + 1) := by
  simp [nth, advance, Nat.add_assoc, Nat.add_comm 1]

@[simp] theorem skip_advance (ids : IdSupply) (n : Nat) :
    ids.advance.skip n = ids.skip (n + 1) := by
  simp [skip, advance, Nat.add_assoc, Nat.add_comm 1]

end IdSupply

namespace ScriptCell

def hasContent (cell : ScriptCell) : Bool := !cell.isBlank

theorem trimBlankEdges_eq_nil_iff_isBlank (cell : ScriptCell) :
    trimBlankEdges cell.lines = [] ↔ cell.isBlank = true := by
  simp [isBlank]

/-- The notebook cells of the cells with content, the `i`-th with the `i`-th identifier. -/
theorem assemble_eq (metadata : NotebookMetadata) (ids : IdSupply) (cells : List ScriptCell) :
    assemble metadata ids cells =
      ((cells.filter hasContent).mapIdx fun i cell =>
          .ofLines metadata cell.kind (ids.nth i) (trimBlankEdges cell.lines),
        ids.skip (cells.filter hasContent).length) := by
  induction cells generalizing ids with
  | nil => simp [assemble]
  | cons cell rest ih =>
    rw [assemble]
    split
    · next h =>
      have hb : cell.hasContent = false := by
        simpa [hasContent] using (trimBlankEdges_eq_nil_iff_isBlank cell).mp h
      rw [List.filter_cons_of_neg (by simp [hb]), ih]
    · next line lines h =>
      have hb : cell.hasContent = true := by
        have hne : ¬ cell.isBlank = true := fun hb => by
          simp [(trimBlankEdges_eq_nil_iff_isBlank cell).mpr hb] at h
        simpa [hasContent] using hne
      rw [List.filter_cons_of_pos hb, ih, List.mapIdx_cons, h]
      simp

end ScriptCell

end ScriptNotebook
