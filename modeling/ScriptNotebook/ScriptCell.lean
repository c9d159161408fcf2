import ScriptNotebook.Marker
import ScriptNotebook.Text.Lines

/-!
A script cut into cells.  A cell holds neighbouring lines of one kind, without their line ends.
Markers end a cell; one that holds nothing but blank lines is forgotten, except at the end of the
script, where the open cell is kept for whoever trims it as long as another cell stands before it.
-/
namespace ScriptNotebook

structure ScriptCell where
  kind : CellKind
  lines : List Text
  deriving DecidableEq, Repr

def trimBlankEdges (lines : List Text) : List Text := trimEdges Text.isBlank lines

namespace ScriptCell

def isBlank (cell : ScriptCell) : Bool := cell.lines.all Text.isBlank

/-- Ends a cell: its held lines, latest first, come before the later cells unless all are blank. -/
def close (kind : CellKind) (held : List Text) (later : List ScriptCell) : List ScriptCell :=
  if held.all Text.isBlank then later else ⟨kind, held.reverse⟩ :: later

/-- A content line as the open cell holds it. -/
def contentLine (kind : CellKind) (line : Text) : Text :=
  match kind with
  | .markdown => uncomment line
  | .code => line

/-- The cells that the remaining lines complete, while a cell of the given kind is open that holds
the lines `held`, latest first. -/
def complete (kind : CellKind) (held : List Text) : List Text → List ScriptCell
  | [] => if held = [] then [] else [⟨kind, held.reverse⟩]
  | line :: rest =>
    match Marker.ofLine line with
    | .banner => complete kind held rest
    | .command => close kind held (complete .code [] rest)
    | .title text => close kind held (complete .markdown text.toList rest)
    | .wrapped (.markdown text) =>
      match kind with
      | .markdown => complete .markdown (text :: held) rest
      | .code => close .code held (complete .markdown [text] rest)
    | .wrapped (.raw text) => complete kind (text :: held) rest
    | .split next => close kind held (complete next [] rest)
    | .content text => complete kind (contentLine kind text :: held) rest

def dropBlankFirst : List ScriptCell → List ScriptCell
  | [] => []
  | cell :: rest => if cell.isBlank then rest else cell :: rest

/-- The cells of a script, which begins with a code cell open. -/
def ofLines (lines : List Text) : List ScriptCell := dropBlankFirst (complete .code [] lines)

def ofSource (source : Text) : List ScriptCell := ofLines source.lines

end ScriptCell

@[simp] theorem trimBlankEdges_eq_nil_iff (lines : List Text) :
    trimBlankEdges lines = [] ↔ ∀ l ∈ lines, l.isBlank = true := by
  rw [trimBlankEdges, trimEdges, dropEndWhile_eq_nil_iff]
  induction lines with
  | nil => simp
  | cons l lines ih => by_cases h : l.isBlank = true <;> simp_all

example : ScriptCell.ofSource "x = 1\n# %% markdown\n# Title\n# text\n".toList
    = [⟨.code, ["x = 1".toList]⟩, ⟨.markdown, ["Title".toList, "text".toList]⟩] := by decide

end ScriptNotebook
