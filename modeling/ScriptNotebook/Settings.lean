import ScriptNotebook.Notebook.Writer
import ScriptNotebook.Toml.Reader

/-!
Settings: what conversions do unless told otherwise, and the kernel that notebooks name.  They are
kept in a TOML file with the tables `defaults` and `kernel`; what is missing there has its default.
-/
namespace ScriptNotebook

structure Settings where
  /-- The extension of scripts, without a dot. -/
  extension : Text
  /-- The folder that notebooks go to when no other is given. -/
  outputDirName : Text
  recursive : Bool
  writer : WriterChoice
  kernel : KernelSpec
  deriving DecidableEq, Repr

namespace Settings

def initial : Settings where
  extension := "py".toList
  outputDirName := "notebooks".toList
  recursive := false
  writer := .auto
  kernel := ⟨"python3".toList, "python".toList, "Python 3".toList⟩

/-- The fields of a section: a table names them, an array gives them in order.  A time counts as a
table without any of the fields. -/
def fields? (names : List String) : Toml → Option Toml.Table
  | .table _ members => some members
  | .array items => some ((names.map String.toList).zip items)
  | .tables elements => some ((names.map String.toList).zip elements)
  | .dateTime => some []
  | _ => none

def text? (fields : Toml.Table) (name : String) (default : Text) : Option Text :=
  match fields.get? name.toList with
  | none => some default
  | some (.string t) => some t
  | some _ => none

def bool? (fields : Toml.Table) (name : String) (default : Bool) : Option Bool :=
  match fields.get? name.toList with
  | none => some default
  | some (.bool b) => some b
  | some _ => none

/-- A writer is given by its name, as a string or as the one key of a table without contents. -/
def writer? (fields : Toml.Table) (name : String) (default : WriterChoice) :
    Option WriterChoice :=
  let named (t : Text) : Option WriterChoice := (WriterChoice.ofName t).toOption
  match fields.get? name.toList with
  | none => some default
  | some (.string t) => named t
  | some (.table _ [(key, .table _ [])]) => named key
  | some (.table _ [(key, .array [])]) => named key
  | some _ => none

def section? (table : Toml.Table) (name : String) (names : List String) : Option Toml.Table :=
  match table.get? name.toList with
  | none => some []
  | some v => fields? names v

def ofTable? (table : Toml.Table) : Option Settings := do
  let defaults ← section? table "defaults" ["extension", "output_dir_name", "recursive", "writer"]
  let extension ← text? defaults "extension" initial.extension
  let outputDirName ← text? defaults "output_dir_name" initial.outputDirName
  let recursive ← bool? defaults "recursive" initial.recursive
  let writer ← writer? defaults "writer" initial.writer
  let kernel ← section? table "kernel" ["name", "display_name", "language"]
  let name ← text? kernel "name" initial.kernel.name
  let displayName ← text? kernel "display_name" initial.kernel.displayName
  let language ← text? kernel "language" initial.kernel.language
  return ⟨extension, outputDirName, recursive, writer, ⟨name, language, displayName⟩⟩

def ofText? (t : Text) : Option Settings := do ofTable? (← Toml.ofText? t)

def pairLine (name : String) (value : Text) : Text :=
  name.toList ++ " = ".toList ++ value ++ ['\n']

def boolText : Bool → Text
  | true => "true".toList
  | false => "false".toList

def toText (s : Settings) : Text :=
  "[defaults]\n".toList
    ++ pairLine "extension" (Toml.quote s.extension)
    ++ pairLine "output_dir_name" (Toml.quote s.outputDirName)
    ++ pairLine "recursive" (boolText s.recursive)
    ++ pairLine "writer" (Toml.quote s.writer.name)
    ++ "\n[kernel]\n".toList
    ++ pairLine "name" (Toml.quote s.kernel.name)
    ++ pairLine "display_name" (Toml.quote s.kernel.displayName)
    ++ pairLine "language" (Toml.quote s.kernel.language)

end Settings

structure ConvertOptions where
  /-- The extension of scripts, without a dot. -/
  extension : Text
  recursive : Bool
  /-- The folder for the notebooks; without one they go to a folder beside the scripts. -/
  outputDir : Option Path
  outputDirName : Text
  writer : WriterChoice
  metadata : NotebookMetadata
  deriving DecidableEq, Repr

def dropDots (extension : Text) : Text := extension.dropWhile (· == '.')

def Settings.toOptions (s : Settings) : ConvertOptions where
  extension := dropDots s.extension
  recursive := s.recursive
  outputDir := none
  outputDirName := s.outputDirName
  writer := s.writer
  metadata := s.kernel.toMetadata

end ScriptNotebook
