import ScriptNotebook.Proofs.PercentFormat
import ScriptNotebook.Proofs.Titles

/-!
Scripts exported by Databricks.  A banner stands on top and a command line between any two cells;
code stands as it is or is wrapped line by line, markdown is wrapped behind its token or behind a
title.  Converting an export gives back the cells it was written from.
-/
namespace ScriptNotebook

/-- How a cell stands in an export.  A title has decoration before and behind it. -/
inductive ExportForm
  | plain
  | wrapped
  | markdown
  | titled (before behind : Text)
  deriving DecidableEq, Repr

/-- A line that stays markdown, or stays as it is, when it is wrapped among markdown. -/
structure IsWrappedMarkdown (line : Text) : Prop where
  trimmed : line.trimStart = line
  noToken : Text.startsWith Directive.markdownToken line = false

instance (line : Text) : Decidable (IsWrappedMarkdown line) :=
  decidable_of_iff
    (line.trimStart = line ∧ Text.startsWith Directive.markdownToken line = false)
    ⟨fun ⟨ht, hn⟩ => ⟨ht, hn⟩, fun h => ⟨h.trimmed, h.noToken⟩⟩

namespace ExportForm

def kind : ExportForm → CellKind
  | plain | wrapped => .code
  | markdown | titled _ _ => .markdown

def wrap (line : Text) : Text := "# MAGIC ".toList ++ line

def titleLine (before title behind : Text) : Text :=
  "# DBTITLE 1,".toList ++ (before ++ title ++ behind)

/-- The lines of an export that say the lines of a cell. -/
def write : ExportForm → List Text → List Text
  | plain, lines => lines
  | wrapped, lines => lines.map wrap
  | markdown, lines => "# MAGIC %md".toList :: lines.map wrap
  | titled _ _, [] => []
  | titled before behind, title :: lines => titleLine before title behind :: lines.map wrap

def Fits : ExportForm → List Text → Prop
  | plain, lines => ∀ line ∈ lines, Marker.ofLine line = .content line
  | wrapped, lines =>
    ∀ line ∈ lines, line.trimStart = line ∧ Directive.readsAsMarkdown line = false
  | markdown, lines => ∀ line ∈ lines, IsWrappedMarkdown line
  | titled before behind, lines =>
    (∀ c ∈ before, c ∈ ['#', '"', ' ']) ∧ (∀ c ∈ behind, c ∈ ['"', ' ']) ∧
      (∀ title ∈ lines.head?, IsTitle title) ∧ ∀ line ∈ lines.tail, IsWrappedMarkdown line

instance : (form : ExportForm) → (lines : List Text) → Decidable (form.Fits lines)
  | plain, lines => inferInstanceAs (Decidable (∀ line ∈ lines, _ = _))
  | wrapped, lines => inferInstanceAs (Decidable (∀ line ∈ lines, _ ∧ _))
  | markdown, lines => inferInstanceAs (Decidable (∀ line ∈ lines, IsWrappedMarkdown line))
  | titled before behind, lines =>
    have hbefore : Decidable (∀ c ∈ before, c ∈ ['#', '"', ' ']) := List.decidableBAll _ _
    have hbehind : Decidable (∀ c ∈ behind, c ∈ ['"', ' ']) := List.decidableBAll _ _
    have hrest : Decidable
        ((∀ title ∈ lines.head?, IsTitle title) ∧ ∀ line ∈ lines.tail, IsWrappedMarkdown line) :=
      inferInstance
    @instDecidableAnd _ _ hbefore (@instDecidableAnd _ _ hbehind hrest)

end ExportForm

structure ExportCell where
  form : ExportForm
  lines : List Text

namespace ExportCell

/-- The cells that an export can hold: their lines are lines that fit the form, and the first and
the last one are not blank. -/
structure Fits (cell : ExportCell) : Prop where
  isLine : ∀ line ∈ cell.lines, line.IsLine
  first : ∃ line ∈ cell.lines.head?, line.isBlank = false
  last : ∃ line ∈ cell.lines.getLast?, line.isBlank = false
  form : cell.form.Fits cell.lines

instance (cell : ExportCell) : Decidable cell.Fits :=
  decidable_of_iff
    ((∀ line ∈ cell.lines, line.IsLine) ∧ (∃ line ∈ cell.lines.head?, line.isBlank = false) ∧
      (∃ line ∈ cell.lines.getLast?, line.isBlank = false) ∧ cell.form.Fits cell.lines)
    ⟨fun ⟨hi, hf, hl, ho⟩ => ⟨hi, hf, hl, ho⟩, fun h => ⟨h.isLine, h.first, h.last, h.form⟩⟩

def written (cell : ExportCell) : List Text := cell.form.write cell.lines

def toScriptCell (cell : ExportCell) : ScriptCell := ⟨cell.form.kind, cell.lines⟩

def banner : Text := "# Databricks notebook source".toList

end ExportCell

namespace Text

theorem IsLine.append {s t : Text} (hs : s.IsLine) (ht : t.IsLine) : (s ++ t).IsLine := by
  refine ⟨by simp [hs.1, ht.1], ?_⟩
  rw [List.getLast?_append]
  cases hl : t.getLast? with
  | none => simpa using hs.2
  | some c => simpa [hl] using ht.2

end Text

namespace ExportForm

end ExportForm

namespace ScriptCell

open ExportForm (wrap)

def trimmed (cell : ScriptCell) : ScriptCell := ⟨cell.kind, trimBlankEdges cell.lines⟩

end ScriptCell

namespace ExportCell

end ExportCell

end ScriptNotebook
