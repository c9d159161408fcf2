import ScriptNotebook.Batch
import ScriptNotebook.CommandLine.Arguments
import ScriptNotebook.SettingsFile

/-!
The program as a function from arguments and a file tree to what it prints, the status it exits
with, and the file tree it leaves behind.
-/
namespace ScriptNotebook

open CommandLine

structure Outcome where
  tree : FileTree
  stdout : Text
  stderr : Text
  exitStatus : Nat

namespace Program

def nameAndVersion : Text := "notebookify 0.1.0\n".toList

def settingsHelp : Text :=
  ("Configuration management\n\nUsage: notebookify config [OPTIONS] <COMMAND>\n\nCommands:\n"
    ++ "  init  Initialize config file with defaults\n"
    ++ "  show  Show resolved configuration\n"
    ++ "  help  Print this message or the help of the given subcommand(s)\n\nOptions:\n"
    ++ "      --log-format <LOG_FORMAT>  Log format: text (default) or json [default: text] "
    ++ "[possible values: text, json]\n"
    ++ "  -v, --verbose...               Verbosity level (-v, -vv)\n"
    ++ "      --config <CONFIG>          "
    ++ "Config file (defaults to ~/.notebookify/notebookify.toml)\n"
    ++ "  -h, --help                     Print help\n").toList

def programHelp : Text :=
  ("Convert scripts with # COMMAND / # MAGIC / # %% cell markers into .ipynb notebooks.\n\n"
    ++ "Usage: notebookify [OPTIONS] <PATH>\n"
    ++ "       notebookify [OPTIONS] <COMMAND>\n\nCommands:\n"
    ++ "  config  Configuration management\n"
    ++ "  help    Print this message or the help of the given subcommand(s)\n\nArguments:\n"
    ++ "  <PATH>  A script, or a folder of scripts\n\nOptions:\n"
    ++ "      --log-format <LOG_FORMAT>  Log format: text (default) or json\n"
    ++ "  -v, --verbose...               Verbosity level (-v, -vv)\n"
    ++ "      --config <CONFIG>          "
    ++ "Config file (defaults to ~/.notebookify/notebookify.toml)\n"
    ++ "  -o, --outdir <OUTDIR>          "
    ++ "Output directory for .ipynb files (defaults to a sibling folder)\n"
    ++ "  -r, --recursive                Recursively convert scripts in subfolders\n"
    ++ "      --ext <EXT>                Input file extension (defaults to py)\n"
    ++ "      --writer <WRITER>          Notebook writer: auto, structured, or plain\n"
    ++ "  -h, --help                     Print help\n"
    ++ "  -V, --version                  Print version\n").toList

def helpText : Topic → Text
  | .program => programHelp
  | .settings => settingsHelp
  | .initSettings =>
    "Initialize config file with defaults\n\nUsage: notebookify config init [OPTIONS]\n".toList
  | .showSettings =>
    "Show resolved configuration\n\nUsage: notebookify config show [OPTIONS]\n".toList
  | .help =>
    "Print this message or the help of the given subcommand(s)\n".toList

def usageText : UsageError → Text
  | .unknownOption => "unexpected option".toList
  | .repeatedOption => "an option cannot be used multiple times".toList
  | .missingValue => "a value is required for an option".toList
  | .unexpectedValue => "an option takes no value".toList
  | .badValue => "invalid value".toList
  | .unexpectedArgument => "unexpected argument".toList
  | .unknownCommand => "unrecognized subcommand".toList
  | .missingCommand => "a subcommand is required".toList
  | .missingPath => "the path of a script or a folder of scripts is required".toList

def quiet (tree : FileTree) (stdout stderr : Text) (exitStatus : Nat) : Outcome :=
  ⟨tree, stdout, stderr, exitStatus⟩

def refuse (tree : FileTree) : Refusal → Outcome
  | .usage cause => quiet tree [] ("error: ".toList ++ usageText cause ++ ['\n']) 2
  | .help topic => quiet tree (helpText topic) [] 0
  | .version => quiet tree nameAndVersion [] 0
  | .bareSettings => quiet tree [] settingsHelp 2

def abort (tree : FileTree) (failure : Failure) : Outcome :=
  quiet tree [] ("Error: ".toList ++ failure.message ++ ['\n']) 1

def convertedLine (file : ConvertedFile) : Text :=
  "Converted: ".toList ++ file.input.text ++ " -> ".toList ++ file.output.text ++ ['\n']

/-- The numbers of converted and failed files, said only if any failed. -/
def summary (report : BatchReport) : Text :=
  if report.failed.isEmpty then []
  else
    Text.decimal report.converted.length ++ " converted, ".toList
      ++ Text.decimal report.failed.length ++ " failed\n".toList

def convert (tree : FileTree) (ids : IdSupply) (input : Path) (options : ConvertOptions) :
    Outcome :=
  match BatchPlan.make tree input options with
  | (tree, .error failure) => ⟨tree, [], failure.message ++ ['\n'], failure.exitStatus⟩
  | (tree, .ok plan) =>
    let run := plan.run options tree ids
    ⟨run.tree, run.report.converted.flatMap convertedLine, summary run.report,
      run.report.exitStatus⟩

def execute (tree : FileTree) (home : Path) (ids : IdSupply) (args : Arguments) : Outcome :=
  match args.command with
  | .initSettings =>
    match Settings.install tree home with
    | (tree, .error failure) => abort tree failure
    | (tree, .ok p) =>
      ⟨tree, "Config initialized at: ".toList ++ p.text ++ ['\n'], [], 0⟩
  | .showSettings =>
    match Settings.load tree home args.taken.settingsFile with
    | .error failure => abort tree failure
    | .ok settings => ⟨tree, settings.toText ++ ['\n'], [], 0⟩
  | .convert input =>
    match Settings.load tree home args.taken.settingsFile with
    | .error failure => abort tree failure
    | .ok settings => convert tree ids input (args.options settings)

def run (tree : FileTree) (home : Path) (ids : IdSupply) (args : List Text) : Outcome :=
  match Arguments.parse args with
  | .error refusal => refuse tree refusal
  | .ok args => execute tree home ids args

end Program

end ScriptNotebook
