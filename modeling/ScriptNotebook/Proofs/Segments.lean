import ScriptNotebook.Proofs.Assembly
import ScriptNotebook.Proofs.LineRules
import ScriptNotebook.Proofs.Trimming

/-!
Scripts by their boundaries.  The lines are first cut just before every boundary, with no thought of
blank lines; each segment then contributes lines by itself.  The notebook of a script has one cell
for each segment that contributes more than white space.
-/
namespace ScriptNotebook

/-- The kind of cell that a line of this form opens when it ends the open one.  Wrapped markdown
ends only a code cell. -/
def Marker.opens? (marker : Marker) (kind : CellKind) : Option CellKind :=
  match marker with
  | .command => some .code
  | .title _ => some .markdown
  | .split next => some next
  | .wrapped (.markdown _) => if kind = .code then some .markdown else none
  | _ => none

/-- The lines from one boundary to the next, and the kind that the boundary opens. -/
structure Segment where
  kind : CellKind
  lines : List Text

namespace Segment

/-- The lines that still belong to a segment of the kind, and the segments behind it. -/
def cut (kind : CellKind) : List Text → List Text × List Segment
  | [] => ([], [])
  | line :: rest =>
    match (Marker.ofLine line).opens? kind with
    | some next =>
      let (own, later) := cut next rest
      ([], ⟨next, line :: own⟩ :: later)
    | none =>
      let (own, later) := cut kind rest
      (line :: own, later)

theorem cut_of_stays {kind : CellKind} {line : Text}
    (h : (Marker.ofLine line).opens? kind = none) (rest : List Text) :
    cut kind (line :: rest) = (line :: (cut kind rest).1, (cut kind rest).2) := by
  rw [cut, h]

theorem cut_of_opens {kind next : CellKind} {line : Text}
    (h : (Marker.ofLine line).opens? kind = some next) (rest : List Text) :
    cut kind (line :: rest) = ([], ⟨next, line :: (cut next rest).1⟩ :: (cut next rest).2) := by
  rw [cut, h]

def ofLines (lines : List Text) : List Segment :=
  let (own, later) := cut .code lines
  ⟨.code, own⟩ :: later

def contribution (kind : CellKind) (line : Text) : Option Text :=
  match Marker.ofLine line with
  | .banner | .command | .split _ => none
  | .title text => text
  | .wrapped directive => some directive.text
  | .content _ => some (if kind = .markdown then uncomment line else line)

def contributed (segment : Segment) : List Text :=
  segment.lines.filterMap (contribution segment.kind)

def hasContent (segment : Segment) : Bool := segment.contributed.any (!Text.isBlank ·)

/-- The notebook cell of a segment: what it contributes from the first to the last line with
content, every line ended by a newline. -/
def toCell (metadata : NotebookMetadata) (id : Text) (segment : Segment) : NotebookCell where
  id := id
  metadata := ⟨metadata.cellLanguage segment.kind, id⟩
  body := .fresh segment.kind
  source := (fromFirstToLast (!Text.isBlank ·) segment.contributed).map fun line => line ++ ['\n']

/-- The cell of a script with the lines that a segment contributes, all of them. -/
def toScriptCell (segment : Segment) : ScriptCell := ⟨segment.kind, segment.contributed⟩

@[simp] theorem hasContent_toScriptCell (segment : Segment) :
    segment.toScriptCell.hasContent = segment.hasContent := by
  simp [toScriptCell, hasContent, ScriptCell.hasContent, ScriptCell.isBlank,
    List.not_all_eq_any_not]

theorem filter_map_toScriptCell (segments : List Segment) :
    (segments.map toScriptCell).filter ScriptCell.hasContent =
      (segments.filter hasContent).map toScriptCell := by
  have hs : ScriptCell.hasContent ∘ toScriptCell = hasContent := funext hasContent_toScriptCell
  rw [List.filter_map, hs]

theorem toCell_eq_ofLines (metadata : NotebookMetadata) (id : Text) (segment : Segment) :
    segment.toCell metadata id =
      .ofLines metadata segment.kind id (trimBlankEdges segment.toScriptCell.lines) := by
  rw [NotebookCell.ofLines, trimBlankEdges, trimEdges_eq_fromFirstToLast]
  rfl

end Segment

namespace ScriptCell

open Segment (cut contribution toScriptCell)

theorem filter_close (kind : CellKind) (held : List Text) (later : List ScriptCell) :
    (close kind held later).filter hasContent =
      (⟨kind, held.reverse⟩ :: later).filter hasContent := by
  rw [close]
  split
  · next h =>
    have hb : hasContent ⟨kind, held.reverse⟩ = false := by
      simpa [hasContent, isBlank] using h
    rw [List.filter_cons_of_neg (by simp [hb])]
  · rfl

/-- A boundary ends the open cell; the next one begins with what the boundary contributes. -/
theorem complete_of_opens {kind next : CellKind} {line : Text}
    (h : (Marker.ofLine line).opens? kind = some next) (held rest : List Text) :
    complete kind held (line :: rest) =
      close kind held (complete next (contribution next line).toList rest) := by
  rw [complete, contribution]
  cases hm : Marker.ofLine line with
  | banner => simp [hm, Marker.opens?] at h
  | command => simp_all [Marker.opens?]
  | title text => simp_all [Marker.opens?]
  | wrapped directive =>
    cases directive with
    | markdown text => cases kind <;> simp_all [Marker.opens?, Directive.text]
    | raw text => simp [hm, Marker.opens?] at h
  | split next => simp_all [Marker.opens?]
  | content text => simp [hm, Marker.opens?] at h

theorem complete_of_stays {kind : CellKind} {line : Text}
    (h : (Marker.ofLine line).opens? kind = none) (held rest : List Text) :
    complete kind held (line :: rest) =
      complete kind ((contribution kind line).toList ++ held) rest := by
  rw [complete, contribution]
  cases hm : Marker.ofLine line with
  | banner => rfl
  | command => simp [hm, Marker.opens?] at h
  | title text => simp [hm, Marker.opens?] at h
  | wrapped directive =>
    cases directive with
    | markdown text => cases kind <;> simp_all [Marker.opens?, Directive.text]
    | raw text => rfl
  | split next => simp [hm, Marker.opens?] at h
  | content text =>
    rw [Marker.eq_of_ofLine_content hm]
    cases kind <;> rfl

/-- The open cell ends up with what it holds and what its segment still contributes; behind it come
the cells of the later segments. -/
theorem filter_complete (kind : CellKind) (held : List Text) (lines : List Text) :
    (complete kind held lines).filter hasContent =
      (⟨kind, held.reverse ++ (cut kind lines).1.filterMap (contribution kind)⟩ ::
        (cut kind lines).2.map toScriptCell).filter hasContent := by
  induction lines generalizing kind held with
  | nil =>
    by_cases h : held = []
    · subst h
      rfl
    · simp [complete, cut, h]
  | cons line rest ih =>
    cases h : (Marker.ofLine line).opens? kind with
    | none =>
      rw [complete_of_stays h, ih, cut, h]
      cases hc : contribution kind line <;> simp [hc]
    | some next =>
      have hn := ih next (contribution next line).toList
      rw [complete_of_opens h, filter_close, cut, h, List.filter_cons, hn]
      cases hc : contribution next line <;>
        simp [hc, List.filter_cons, toScriptCell, Segment.contributed]

theorem filter_dropBlankFirst (cells : List ScriptCell) :
    (dropBlankFirst cells).filter hasContent = cells.filter hasContent := by
  cases cells with
  | nil => rfl
  | cons cell rest =>
    rw [dropBlankFirst]
    split
    · next h => rw [List.filter_cons_of_neg (by simp [hasContent, h])]
    · rfl

theorem filter_ofLines (lines : List Text) :
    (ofLines lines).filter hasContent =
      ((Segment.ofLines lines).filter Segment.hasContent).map toScriptCell := by
  rw [ofLines, filter_dropBlankFirst, filter_complete, ← Segment.filter_map_toScriptCell]
  rfl

theorem filter_ofSource (source : Text) :
    (ofSource source).filter hasContent =
      ((Segment.ofLines source.lines).filter Segment.hasContent).map toScriptCell :=
  filter_ofLines source.lines

end ScriptCell

/-- The segments of a script are its lines in order, each once. -/
theorem Segment.flatMap_lines_cut (kind : CellKind) (lines : List Text) :
    (cut kind lines).1 ++ (cut kind lines).2.flatMap Segment.lines = lines := by
  induction lines generalizing kind with
  | nil => rfl
  | cons line rest ih =>
    rw [cut]
    cases (Marker.ofLine line).opens? kind with
    | none => simp [ih kind]
    | some next => simp [ih next]

/-- A script becomes one cell for every segment with content, in order: segments take up all lines
of the script, and neither blank lines nor the kinds of other segments have a say in a cell. -/
theorem Notebook.ofSource_eq_segments (metadata : NotebookMetadata) (source : Text)
    (ids : IdSupply) :
    let segments := Segment.ofLines source.lines
    let filled := segments.filter Segment.hasContent
    segments.flatMap Segment.lines = source.lines ∧
      Notebook.ofSource metadata source ids =
        (⟨filled.mapIdx fun i segment => segment.toCell metadata (ids.nth i), metadata, .current⟩,
          ids.skip filled.length) := by
  refine ⟨Segment.flatMap_lines_cut .code source.lines, ?_⟩
  have hcells (filled : List Segment) :
      ((filled.map Segment.toScriptCell).mapIdx fun i cell =>
          NotebookCell.ofLines metadata cell.kind (ids.nth i) (trimBlankEdges cell.lines)) =
        filled.mapIdx fun i segment => segment.toCell metadata (ids.nth i) := by
    refine List.mapIdx_eq_iff.mpr fun i => ?_
    simp only [List.getElem?_mapIdx, List.getElem?_map, Option.map_map, Segment.toCell_eq_ofLines]
    rfl
  rw [Notebook.ofSource, Notebook.ofCells, ScriptCell.assemble_eq, ScriptCell.filter_ofSource]
  simp only [hcells, List.length_map]

end ScriptNotebook
