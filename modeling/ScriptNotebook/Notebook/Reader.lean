import ScriptNotebook.Json.Value
import ScriptNotebook.Notebook.Basic

/-!
Notebooks from JSON texts.  A record is an object with its fields, each given once, or an array of
all of them in order; other members of an object are passed over, and outside cells nothing is asked
of their values.  Inside a cell every value has to be a good one.
-/
namespace ScriptNotebook

open Json (Form Piece)

namespace Json.Form

def named? (members : List (List Piece × Form)) : Option (List (Text × Form)) :=
  members.mapM fun (key, value) => do return (← Piece.text? key, value)

/-- What a record gives of the fields asked for, each under its name. -/
def fields? (names : List Text) : Form → Option (List (Text × Form))
  | .object members => do
    let given := (← named? members).filter fun m => names.contains m.1
    if (given.map (·.1)).Nodup then some given else none
  | .array items => if items.length = names.length then some (names.zip items) else none
  | _ => none

def text? : Form → Option Text
  | .string pieces => Piece.text? pieces
  | _ => none

def texts? : Form → Option (List Text)
  | .array items => items.mapM text?
  | _ => none

def word? : Form → Option UInt32
  | .number n =>
    match n.integer? with
    | some (.ofNat value) => if value < Nat.pow 2 32 then some (.ofNat value) else none
    | _ => none
  | _ => none

/-- A number that may be missing or null. -/
def optionalWord? : Option Form → Option (Option UInt32)
  | none => some none
  | some .null => some none
  | some f => f.word?.map some

end Json.Form

def given? (fields : List (Text × Form)) (name : String) : Option Form :=
  (fields.find? fun m => m.1 == name.toList).map (·.2)

def fieldNames (names : List String) : List Text := names.map String.toList

def CellMetadata.ofForm? (f : Form) : Option CellMetadata := do
  let fields ← f.fields? (fieldNames ["language", "id"])
  let language ← (← given? fields "language").text?
  let id ← (← given? fields "id").text?
  return ⟨language, id⟩

def NotebookCell.tagged? : Form → Option (CellKind × Form)
  | .object members => do
    let tags := (← Form.named? members).filter fun m => m.1 == "cell_type".toList
    match tags with
    | [(_, tag)] => return (← CellKind.ofName? (← tag.text?), .object members)
    | _ => none
  | .array (tag :: items) => do return (← CellKind.ofName? (← tag.text?), .array items)
  | _ => none

/-- The containers that may enclose each other in a cell: its own notebook and the list of cells
are two of them. -/
def NotebookCell.maxNesting : Nat := Form.maxNesting - 2

def NotebookCell.ofForm? (f : Form) : Option NotebookCell := do
  let _ ← f.json? maxNesting
  let (kind, record) ← tagged? f
  match kind with
  | .markdown =>
    let fields ← record.fields? (fieldNames ["id", "metadata", "source"])
    let id ← (← given? fields "id").text?
    let metadata ← CellMetadata.ofForm? (← given? fields "metadata")
    let source ← (← given? fields "source").texts?
    return ⟨id, metadata, .markdown, source⟩
  | .code =>
    let fields ← record.fields?
      (fieldNames ["id", "metadata", "execution_count", "outputs", "source"])
    let id ← (← given? fields "id").text?
    let metadata ← CellMetadata.ofForm? (← given? fields "metadata")
    let executionCount ← Form.optionalWord? (given? fields "execution_count")
    let outputs ← match ← given? fields "outputs" with
      | .array items => Form.jsonItems? maxNesting items
      | _ => none
    let source ← (← given? fields "source").texts?
    return ⟨id, metadata, .code executionCount outputs, source⟩

def KernelSpec.ofForm? (f : Form) : Option KernelSpec := do
  let fields ← f.fields? (fieldNames ["name", "language", "display_name"])
  let name ← (← given? fields "name").text?
  let language ← (← given? fields "language").text?
  let displayName ← (← given? fields "display_name").text?
  return ⟨name, language, displayName⟩

def NotebookMetadata.ofForm? (f : Form) : Option NotebookMetadata := do
  let fields ← f.fields? (fieldNames ["kernelspec", "language_info"])
  let kernel ← KernelSpec.ofForm? (← given? fields "kernelspec")
  let info ← (← given? fields "language_info").fields? (fieldNames ["name"])
  let languageName ← (← given? info "name").text?
  return ⟨kernel, languageName⟩

namespace Notebook

def ofForm? (f : Form) : Option Notebook := do
  let fields ← f.fields? (fieldNames ["cells", "metadata", "nbformat", "nbformat_minor"])
  let cells ← match ← given? fields "cells" with
    | .array items => items.mapM NotebookCell.ofForm?
    | _ => none
  let metadata ← NotebookMetadata.ofForm? (← given? fields "metadata")
  let major ← (← given? fields "nbformat").word?
  let minor ← (← given? fields "nbformat_minor").word?
  return ⟨cells, metadata, ⟨major, minor⟩⟩

def ofText? (t : Text) : Option Notebook := do ofForm? (← Form.ofText? t)

end Notebook

end ScriptNotebook
