import ScriptNotebook.Notebook.Validation
import ScriptNotebook.Path
import ScriptNotebook.SystemError
import ScriptNotebook.Text.Quoted

/-! What can go wrong, and how it is said. -/
namespace ScriptNotebook

inductive SettingsError
  | unknownWriter (name : Text)
  | unreadable (path : Path)
  | other (message : Text)
  deriving DecidableEq, Repr

def SettingsError.message : SettingsError → Text
  | unknownWriter name =>
    "unknown writer '".toList ++ name
      ++ "': expected 'auto', 'structured', or 'plain'".toList
  | unreadable path => "failed to parse ".toList ++ path.text
  | other message => message

inductive Failure
  | settings (cause : SettingsError)
  | notFound (path : Path)
  | unsupportedInput (path : Path) (expected : Text)
  | noInputs (path : Path) (extension : Text)
  | outputDirectory (path : Path) (cause : SystemError)
  | file (path : Path) (cause : SystemError)
  | serialization (message : Text)
  | validation (cause : ValidationError)
  deriving DecidableEq, Repr

namespace Failure

def message : Failure → Text
  | settings cause => "config error: ".toList ++ cause.message
  | notFound path => "path not found: ".toList ++ path.text
  | unsupportedInput path expected =>
    "input file must be a .".toList ++ expected ++ " file: ".toList ++ path.text
  | noInputs path extension =>
    "no .".toList ++ extension ++ " files found to convert in ".toList ++ path.text
  | outputDirectory path cause =>
    "unable to create output directory ".toList ++ path.text ++ ": ".toList ++ cause.message
  | file path cause =>
    "I/O error at ".toList ++ Text.quoted path.text ++ ": ".toList ++ cause.message
  | serialization message => "serialization error: ".toList ++ message
  | validation cause => "validation error: ".toList ++ cause.message

/-- The exit status of a program that a failure stops: 2 for what the caller has to mend on the
paths given, 1 for anything else. -/
def exitStatus : Failure → Nat
  | notFound _ => 2
  | outputDirectory _ _ => 2
  | _ => 1

end Failure

end ScriptNotebook
