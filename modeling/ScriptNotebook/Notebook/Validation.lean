import ScriptNotebook.Notebook.Basic
import ScriptNotebook.Text.Digits

/-!
The rules that readers of notebooks enforce: the format version, a kernel that can be named, and
identifiers that are well-formed and all different.
-/
namespace ScriptNotebook

inductive ValidationError
  | unsupportedVersion (version : FormatVersion)
  | unnamedKernel
  | invalidCellId (id : Text)
  | duplicateCellId (id : Text)
  | unknownCellType (name : Text)
  | other (message : Text)
  deriving DecidableEq, Repr

namespace FormatVersion

def text (version : FormatVersion) : Text :=
  Text.decimal version.major.toNat ++ '.' :: Text.decimal version.minor.toNat

end FormatVersion

def ValidationError.message : ValidationError → Text
  | unsupportedVersion version =>
    "unsupported notebook format ".toList ++ version.text ++ " (expected ".toList
      ++ FormatVersion.current.text ++ [')']
  | unnamedKernel => "kernelspec requires a name and display_name".toList
  | invalidCellId id => "invalid cell id '".toList ++ id ++ ['\'']
  | duplicateCellId id => "duplicate cell id '".toList ++ id ++ ['\'']
  | unknownCellType name =>
    "unknown cell type '".toList ++ name ++ "': expected 'code' or 'markdown'".toList
  | other message => message

def CellKind.ofName (name : Text) : Except ValidationError CellKind :=
  match ofName? name with
  | some kind => .ok kind
  | none => .error (.unknownCellType name)

/-- The characters of cell identifiers: ASCII letters and digits, underscore, hyphen. -/
def isIdChar (c : Char) : Bool :=
  ('a' ≤ c && c ≤ 'z') || ('A' ≤ c && c ≤ 'Z') || isDigit c || c == '_' || c == '-'

/-- Identifiers have 1 to 64 characters. -/
def isCellId (id : Text) : Bool := 1 ≤ id.length && id.length ≤ 64 && id.all isIdChar

/-- Checks the identifiers in order, knowing those that came before. -/
def checkIds (seen : List Text) : List Text → Except ValidationError Unit
  | [] => .ok ()
  | id :: rest =>
    if !isCellId id then .error (.invalidCellId id)
    else if seen.contains id then .error (.duplicateCellId id)
    else checkIds (id :: seen) rest

/-- The version comes first, then the kernel, then the cells in order. -/
def Notebook.validate (notebook : Notebook) : Except ValidationError Unit :=
  if notebook.version ≠ .current then .error (.unsupportedVersion notebook.version)
  else if notebook.metadata.kernel.name = [] ∨ notebook.metadata.kernel.displayName = [] then
    .error .unnamedKernel
  else checkIds [] (notebook.cells.map (·.id))

end ScriptNotebook
