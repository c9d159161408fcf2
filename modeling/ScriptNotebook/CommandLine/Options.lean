import ScriptNotebook.Settings

/-!
Options of the command line: their names, their values, and what they leave behind.  Every option
but `verbose` may be given once.
-/
namespace ScriptNotebook.CommandLine

inductive LogFormat
  | text | json
  deriving DecidableEq, Repr

def LogFormat.name : LogFormat → Text
  | text => "text".toList
  | json => "json".toList

def LogFormat.ofName? (t : Text) : Option LogFormat :=
  if t = text.name then some text
  else if t = json.name then some json
  else none

inductive Opt
  | outdir | recursive | extension | writer | settingsFile | logFormat | verbose | help | version
  deriving DecidableEq, Repr

inductive Topic
  | program | settings | initSettings | showSettings | help
  deriving DecidableEq, Repr

inductive UsageError
  | unknownOption
  | repeatedOption
  | missingValue
  | unexpectedValue
  | badValue
  | unexpectedArgument
  | unknownCommand
  | missingCommand
  | missingPath
  deriving DecidableEq, Repr

inductive Refusal
  | usage (cause : UsageError)
  | help (topic : Topic)
  | version
  /-- A command that needs another one behind it stands alone. -/
  | bareSettings
  deriving DecidableEq, Repr

namespace Opt

def takesValue : Opt → Bool
  | outdir | extension | writer | settingsFile | logFormat => true
  | recursive | verbose | help | version => false

/-- The options that the settings commands have too. -/
def isShared : Opt → Bool
  | settingsFile | logFormat | verbose | help => true
  | outdir | recursive | extension | writer | version => false

def ofLetter? : Char → Option Opt
  | 'o' => some outdir
  | 'r' => some recursive
  | 'v' => some verbose
  | 'h' => some help
  | 'V' => some version
  | _ => none

def longName : Opt → Text
  | outdir => "outdir".toList
  | recursive => "recursive".toList
  | extension => "ext".toList
  | writer => "writer".toList
  | settingsFile => "config".toList
  | logFormat => "log-format".toList
  | verbose => "verbose".toList
  | help => "help".toList
  | version => "version".toList

def all : List Opt :=
  [outdir, recursive, extension, writer, settingsFile, logFormat, verbose, help, version]

def ofLongName? (t : Text) : Option Opt := all.find? fun o => o.longName == t

end Opt

structure Taken where
  outdir : Option Path
  recursive : Bool
  extension : Option Text
  writer : Option WriterChoice
  settingsFile : Option Path
  logFormat : Option LogFormat
  verbose : Nat
  path : Option Path
  deriving DecidableEq, Repr

namespace Taken

def nothing : Taken := ⟨none, false, none, none, none, none, 0, none⟩

def maxCount : Nat := 255

def once {α : Type} (field : Option α) (value : Except UsageError α) :
    Except UsageError (Option α) :=
  match field with
  | some _ => .error .repeatedOption
  | none => value.map some

/-- A path that is a value is not empty. -/
def pathValue (t : Text) : Except UsageError Path :=
  if t = [] then .error .badValue else .ok ⟨t⟩

def setValue (opt : Opt) (value : Text) (taken : Taken) : Except UsageError Taken :=
  match opt with
  | .outdir => (once taken.outdir (pathValue value)).map fun outdir => { taken with outdir }
  | .settingsFile =>
    (once taken.settingsFile (pathValue value)).map fun settingsFile => { taken with settingsFile }
  | .extension => (once taken.extension (.ok value)).map fun extension => { taken with extension }
  | .writer =>
    (once taken.writer ((WriterChoice.ofName value).mapError fun _ => .badValue)).map
      fun writer => { taken with writer }
  | .logFormat =>
    (once taken.logFormat ((LogFormat.ofName? value).elim (.error .badValue) .ok)).map
      fun logFormat => { taken with logFormat }
  | _ => .error .unexpectedValue

def setFlag (topic : Topic) (opt : Opt) (taken : Taken) : Except Refusal Taken :=
  match opt with
  | .recursive =>
    if taken.recursive then .error (.usage .repeatedOption)
    else .ok { taken with recursive := true }
  | .verbose => .ok { taken with verbose := min maxCount (taken.verbose + 1) }
  | .help => .error (.help topic)
  | .version => .error .version
  | _ => .error (.usage .missingValue)

def setPath (value : Text) (taken : Taken) : Except UsageError Taken :=
  match taken.path with
  | some _ => .error .unexpectedArgument
  | none => (pathValue value).map fun path => { taken with path }

end Taken

end ScriptNotebook.CommandLine
