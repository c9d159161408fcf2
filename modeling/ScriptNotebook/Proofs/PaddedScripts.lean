import Mathlib.Logic.Relation
import ScriptNotebook.Proofs.Boundaries
import ScriptNotebook.Proofs.Export
import ScriptNotebook.Proofs.LineRules

/-!
Scripts with lines that say nothing.  Blank lines at both ends of a script and around what separates
its cells, and banners anywhere, may be added without a change to the notebook.
-/
namespace ScriptNotebook

namespace Marker

/-- A boundary that brings no text into the cell it begins. -/
def isSeparator : Marker → Bool
  | command | split _ => true
  | _ => false

theorem isBoundary_of_isSeparator {marker : Marker} (h : marker.isSeparator = true) :
    marker.isBoundary = true := by
  cases marker with
  | command | split _ => rfl
  | banner | title _ | wrapped _ | content _ => cases h

end Marker

/-- The banner, which may be indented and have text behind it. -/
def Text.IsBanner (line : Text) : Prop :=
  ∃ indent rest, indent.isBlank = true ∧ line = indent ++ ExportCell.banner ++ rest

/-- The second list of lines has one line more that says nothing where it stands. -/
inductive Pads : List Text → List Text → Prop
  | start {blank : Text} (h : blank.isBlank = true) (lines : List Text) :
    Pads lines (blank :: lines)
  | finish {blank : Text} (h : blank.isBlank = true) (lines : List Text) :
    Pads lines (lines ++ [blank])
  | before {blank mark : Text} (h : blank.isBlank = true)
    (hm : (Marker.ofLine mark).isBoundary = true) (front rest : List Text) :
    Pads (front ++ mark :: rest) (front ++ blank :: mark :: rest)
  | behind {blank mark : Text} (h : blank.isBlank = true)
    (hm : (Marker.ofLine mark).isSeparator = true) (front rest : List Text) :
    Pads (front ++ mark :: rest) (front ++ mark :: blank :: rest)
  | banner {line : Text} (h : line.IsBanner) (front rest : List Text) :
    Pads (front ++ rest) (front ++ line :: rest)

namespace Marker

theorem ofLine_of_isBlank {line : Text} (h : line.isBlank = true) :
    ofLine line = .content line := by
  have hnone := LineRule.claiming?_append_of_isBlank h LineRule.table []
  rw [List.append_nil] at hnone
  exact ofLine_eq_content_iff.mpr hnone

theorem ofLine_of_isBanner {line : Text} (h : line.IsBanner) : ofLine line = .banner := by
  obtain ⟨indent, rest, hindent, rfl⟩ := h
  have hs : Text.startsWith ExportCell.banner (ExportCell.banner ++ rest) = true := by
    rw [Text.startsWith, Text.strip?_append]
    rfl
  have hc : LineRule.banner.claims (indent ++ ExportCell.banner ++ rest) = true := by
    rw [List.append_assoc, LineRule.claims_append_of_isBlank hindent]
    exact List.any_eq_true.mpr ⟨_, List.mem_singleton_self _, hs⟩
  have hm : LineRule.banner.match? (indent ++ ExportCell.banner ++ rest) = some .banner := by
    rw [LineRule.match?, if_pos hc]
    rfl
  exact ofLine_of_match? hm

end Marker

namespace Segment

theorem contribution_of_isBlank {line : Text} (h : line.isBlank = true) (kind : CellKind) :
    contribution kind line = some line := by
  have ht : line.trimStart = [] := (Text.trimStart_eq_nil_iff line).mpr h
  have hu : uncomment line = line := by rw [uncomment, ht]
  rw [contribution, Marker.ofLine_of_isBlank h]
  simp [hu]

theorem contribution_of_isSeparator {line : Text} (h : (Marker.ofLine line).isSeparator = true)
    (kind : CellKind) : contribution kind line = none := by
  rw [contribution]
  cases hm : Marker.ofLine line with
  | banner | command | split _ => rfl
  | title _ | wrapped _ | content _ => rw [hm] at h; cases h

theorem cut_of_isBlank {blank : Text} (h : blank.isBlank = true) (kind : CellKind)
    (rest : List Text) :
    cut kind (blank :: rest) = (blank :: (cut kind rest).1, (cut kind rest).2) := by
  apply cut_of_stays
  rw [Marker.ofLine_of_isBlank h]
  rfl

/-- What the lines bring into a cell of the kind, without the blank ones at the end. -/
def kept (kind : CellKind) (lines : List Text) : List Text :=
  dropEndWhile Text.isBlank (lines.filterMap (contribution kind))

/-- The cell of a segment as a notebook shows it; without lines it is not shown at all. -/
def shown (segment : Segment) : ScriptCell := segment.toScriptCell.trimmed

theorem kept_cons {kind : CellKind} {lines other : List Text}
    (h : kept kind lines = kept kind other) (line : Text) :
    kept kind (line :: lines) = kept kind (line :: other) := by
  rw [kept, kept]
  cases hc : contribution kind line with
  | none =>
    rw [List.filterMap_cons_none hc, List.filterMap_cons_none hc]
    exact h
  | some text =>
    rw [List.filterMap_cons_some hc, List.filterMap_cons_some hc]
    exact dropEndWhile_append_congr h [text]

theorem kept_of_isBlank {blank : Text} (h : blank.isBlank = true) (kind : CellKind) :
    kept kind [blank] = [] := by
  rw [kept, List.filterMap_cons_some (contribution_of_isBlank h kind), dropEndWhile_eq_nil_iff]
  intro line hline
  rwa [List.mem_singleton.mp hline]

theorem shown_eq (kind : CellKind) (lines : List Text) :
    shown ⟨kind, lines⟩ = ⟨kind, (kept kind lines).dropWhile Text.isBlank⟩ := by
  rw [shown, ScriptCell.trimmed, trimBlankEdges, trimEdges_eq_dropWhile]
  rfl

theorem shown_cons_of_isBlank {blank : Text} (h : blank.isBlank = true) (kind : CellKind)
    (lines : List Text) : shown ⟨kind, blank :: lines⟩ = shown ⟨kind, lines⟩ := by
  have hlines : contributed ⟨kind, blank :: lines⟩ = blank :: contributed ⟨kind, lines⟩ :=
    List.filterMap_cons_some (contribution_of_isBlank h kind)
  have htrim : trimBlankEdges (contributed ⟨kind, blank :: lines⟩) =
      trimBlankEdges (contributed ⟨kind, lines⟩) := by
    rw [hlines, trimBlankEdges, trimEdges, List.dropWhile_cons_of_pos h]
    rfl
  exact congrArg (ScriptCell.mk kind) htrim

theorem shown_cons_of_separator {mark : Text} (h : (Marker.ofLine mark).isSeparator = true)
    (kind : CellKind) (lines : List Text) : shown ⟨kind, mark :: lines⟩ = shown ⟨kind, lines⟩ := by
  have hlines : contributed ⟨kind, mark :: lines⟩ = contributed ⟨kind, lines⟩ :=
    List.filterMap_cons_none (contribution_of_isSeparator h kind)
  exact congrArg (fun lines => ScriptCell.mk kind (trimBlankEdges lines)) hlines

/-- Whatever kind of cell is open, both lists of lines add the same to it, blank lines at the end
apart, and make the same cells behind it.  Blank lines in front do count: the open cell may have
lines already. -/
structure SameOutline (lines other : List Text) : Prop where
  own : ∀ kind, kept kind (cut kind lines).1 = kept kind (cut kind other).1
  later : ∀ kind, (cut kind lines).2.map shown = (cut kind other).2.map shown

namespace SameOutline

theorem cons {lines other : List Text} (h : SameOutline lines other) (line : Text) :
    SameOutline (line :: lines) (line :: other) where
  own kind := by
    cases ho : (Marker.ofLine line).opens? kind with
    | none =>
      rw [cut_of_stays ho, cut_of_stays ho]
      exact kept_cons (h.own kind) line
    | some next => rw [cut_of_opens ho, cut_of_opens ho]
  later kind := by
    cases ho : (Marker.ofLine line).opens? kind with
    | none =>
      rw [cut_of_stays ho, cut_of_stays ho]
      exact h.later kind
    | some next =>
      rw [cut_of_opens ho, cut_of_opens ho, List.map_cons, List.map_cons, shown_eq, shown_eq,
        kept_cons (h.own next), h.later next]

theorem append {lines other : List Text} (h : SameOutline lines other) (front : List Text) :
    SameOutline (front ++ lines) (front ++ other) := by
  induction front with
  | nil => exact h
  | cons line front ih => exact ih.cons line

theorem finish {blank : Text} (h : blank.isBlank = true) : SameOutline [] [blank] where
  own kind := by
    rw [cut_of_isBlank h]
    exact (kept_of_isBlank h kind).symm
  later kind := by rw [cut_of_isBlank h]

theorem before {blank mark : Text} (h : blank.isBlank = true)
    (hm : (Marker.ofLine mark).isBoundary = true) (rest : List Text) :
    SameOutline (mark :: rest) (blank :: mark :: rest) := by
  obtain ⟨next, hn⟩ := Marker.opens?_of_isBoundary hm
  have hown (kind : CellKind) : (cut kind (mark :: rest)).1 = [] := by rw [cut_of_opens (hn kind)]
  constructor
  · intro kind
    -- The boundary ends the open cell, so that the blank line is the last one in it.
    rw [cut_of_isBlank h, hown]
    exact (kept_of_isBlank h kind).symm
  · intro kind
    rw [cut_of_isBlank h]

theorem behind {blank mark : Text} (h : blank.isBlank = true)
    (hm : (Marker.ofLine mark).isSeparator = true) (rest : List Text) :
    SameOutline (mark :: rest) (mark :: blank :: rest) := by
  obtain ⟨next, hn⟩ := Marker.opens?_of_isBoundary (Marker.isBoundary_of_isSeparator hm)
  constructor
  · intro kind
    rw [cut_of_opens (hn kind), cut_of_opens (hn kind)]
  · intro kind
    rw [cut_of_opens (hn kind), cut_of_opens (hn kind), cut_of_isBlank h, List.map_cons,
      List.map_cons, shown_cons_of_separator hm, shown_cons_of_separator hm,
      shown_cons_of_isBlank h]

theorem banner {line : Text} (h : line.IsBanner) (rest : List Text) :
    SameOutline rest (line :: rest) := by
  have hm := Marker.ofLine_of_isBanner h
  have hcut (kind : CellKind) :
      cut kind (line :: rest) = (line :: (cut kind rest).1, (cut kind rest).2) :=
    cut_of_stays (by rw [hm]; rfl) rest
  constructor
  · intro kind
    have hc : contribution kind line = none := by rw [contribution, hm]
    rw [hcut, kept, kept, List.filterMap_cons_none hc]
  · intro kind
    rw [hcut]

theorem map_shown_ofLines {lines other : List Text} (h : SameOutline lines other) :
    (ofLines lines).map shown = (ofLines other).map shown := by
  rw [ofLines, ofLines, List.map_cons, List.map_cons, shown_eq, shown_eq, h.own, h.later]

end SameOutline

end Segment

open Segment (SameOutline shown)

/-- One line that says nothing leaves the outline of a script as it is. -/
theorem Pads.map_shown_ofLines {lines padded : List Text} (h : Pads lines padded) :
    (Segment.ofLines lines).map shown = (Segment.ofLines padded).map shown := by
  cases h with
  | start hb lines =>
    -- Only here is the open cell known to be empty.
    rw [Segment.ofLines, Segment.ofLines, Segment.cut_of_isBlank hb, List.map_cons, List.map_cons,
      Segment.shown_cons_of_isBlank hb]
  | finish hb lines =>
    have hend := (SameOutline.finish hb).append lines
    rw [List.append_nil] at hend
    exact hend.map_shown_ofLines
  | before hb hm front rest =>
    exact ((SameOutline.before hb hm rest).append front).map_shown_ofLines
  | behind hb hm front rest =>
    exact ((SameOutline.behind hb hm rest).append front).map_shown_ofLines
  | banner hb front rest =>
    exact ((SameOutline.banner hb rest).append front).map_shown_ofLines

theorem map_shown_ofLines_of_pads {lines padded : List Text}
    (h : Relation.ReflTransGen Pads lines padded) :
    (Segment.ofLines lines).map shown = (Segment.ofLines padded).map shown := by
  induction h with
  | refl => rfl
  | tail _ hstep ih => exact ih.trans hstep.map_shown_ofLines

namespace ScriptCell

theorem assemble_map_trimmed (metadata : NotebookMetadata) (ids : IdSupply)
    (cells : List ScriptCell) :
    assemble metadata ids (cells.map trimmed) = assemble metadata ids cells := by
  have htrim (cell : ScriptCell) : trimBlankEdges cell.trimmed.lines = trimBlankEdges cell.lines :=
    trimEdges_trimEdges Text.isBlank cell.lines
  induction cells generalizing ids with
  | nil => rfl
  | cons cell cells ih =>
    rw [List.map_cons, assemble, assemble, htrim, ih, ih]
    rfl

/-- The notebook cells of a script are those of its outline. -/
theorem assemble_ofLines (metadata : NotebookMetadata) (ids : IdSupply) (lines : List Text) :
    assemble metadata ids (ofLines lines) =
      assemble metadata ids ((Segment.ofLines lines).map shown) := by
  have hfilter : (ofLines lines).filter hasContent =
      ((Segment.ofLines lines).map Segment.toScriptCell).filter hasContent := by
    rw [filter_ofLines, Segment.filter_map_toScriptCell]
  have hshown : (Segment.ofLines lines).map shown =
      ((Segment.ofLines lines).map Segment.toScriptCell).map trimmed := by
    rw [List.map_map]
    rfl
  rw [hshown, assemble_map_trimmed, ← assemble_filter, hfilter, assemble_filter]

end ScriptCell

/-- Any number of lines that say nothing may be added to a script: the notebook has the same cells
with the same identifiers. -/
theorem Notebook.ofSource_padded (metadata : NotebookMetadata) (ids : IdSupply)
    {source padded : Text} (h : Relation.ReflTransGen Pads source.lines padded.lines) :
    ofSource metadata padded ids = ofSource metadata source ids := by
  rw [ofSource, ofSource, ofCells, ofCells, ScriptCell.ofSource, ScriptCell.ofSource,
    ScriptCell.assemble_ofLines, ScriptCell.assemble_ofLines, map_shown_ofLines_of_pads h]

/-- The padded script begins and ends with blank lines and has a banner with text around it in its
first cell and blank lines on both sides of the separator. -/
theorem Notebook.ofSource_paddedSample :
    let source : Text := "# DBTITLE 1,Load\nx\n# %%\ny".toList
    let padded : Text :=
      "\u3000\n# DBTITLE 1,Load\n # Databricks notebook source v2\nx\n\n# %%\n\t\ny\n \n".toList
    let metadata := KernelSpec.toMetadata ⟨"py".toList, "python".toList, "Python".toList⟩
    Relation.ReflTransGen Pads source.lines padded.lines ∧
      ofSource metadata padded (.sequential 7) = ofSource metadata source (.sequential 7) := by
  intro source padded metadata
  let title : Text := "# DBTITLE 1,Load".toList
  let banner : Text := " # Databricks notebook source v2".toList
  let mark : Text := "# %%".toList
  have hsource : source.lines = [title, ['x'], mark, ['y']] := by decide
  have hpadded : padded.lines =
      [['\u3000'], title, banner, ['x'], [], mark, ['\t'], ['y'], [' ']] := by decide
  have hbanner : banner.IsBanner := ⟨[' '], " v2".toList, by decide, by decide⟩
  have h : Relation.ReflTransGen Pads source.lines padded.lines := by
    rw [hsource, hpadded]
    apply Relation.ReflTransGen.head (.finish (by decide : Text.isBlank [' '] = true) _)
    apply Relation.ReflTransGen.head (.behind (by decide : Text.isBlank ['\t'] = true)
      (by decide : (Marker.ofLine mark).isSeparator = true) [title, ['x']] [['y'], [' ']])
    apply Relation.ReflTransGen.head (.before (by decide : Text.isBlank [] = true)
      (by decide : (Marker.ofLine mark).isBoundary = true) [title, ['x']]
      [['\t'], ['y'], [' ']])
    apply Relation.ReflTransGen.head (.banner hbanner [title]
      [['x'], [], mark, ['\t'], ['y'], [' ']])
    exact .single (.start (by decide) _)
  exact ⟨h, ofSource_padded metadata (.sequential 7) h⟩

end ScriptNotebook
