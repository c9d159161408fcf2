import ScriptNotebook.Batch
import ScriptNotebook.CellKind
import ScriptNotebook.CommandLine.Arguments
import ScriptNotebook.CommandLine.Options
import ScriptNotebook.Failure
import ScriptNotebook.FileTree.Basic
import ScriptNotebook.FileTree.Operations
import ScriptNotebook.FileTree.Resolve
import ScriptNotebook.Json.Basic
import ScriptNotebook.Json.Double
import ScriptNotebook.Json.Form
import ScriptNotebook.Json.Printer
import ScriptNotebook.Json.Value
import ScriptNotebook.Main
import ScriptNotebook.Marker
import ScriptNotebook.Notebook.Assembly
import ScriptNotebook.Notebook.Basic
import ScriptNotebook.Notebook.CellId
import ScriptNotebook.Notebook.Document
import ScriptNotebook.Notebook.Reader
import ScriptNotebook.Notebook.Validation
import ScriptNotebook.Notebook.Writer
import ScriptNotebook.Path
import ScriptNotebook.Program
import ScriptNotebook.ScriptCell
import ScriptNotebook.Settings
import ScriptNotebook.SettingsFile
import ScriptNotebook.SystemError
import ScriptNotebook.Targets
import ScriptNotebook.Text.Basic
import ScriptNotebook.Text.Blank
import ScriptNotebook.Text.Digits
import ScriptNotebook.Text.Lines
import ScriptNotebook.Text.Lowercase
import ScriptNotebook.Text.Quoted
import ScriptNotebook.Text.Unprintable
import ScriptNotebook.Toml.Basic
import ScriptNotebook.Toml.Number
import ScriptNotebook.Toml.Quoted
import ScriptNotebook.Toml.Reader
import ScriptNotebook.Proofs.Assembly
import ScriptNotebook.Proofs.Segments
import ScriptNotebook.Proofs.PercentFormat
import ScriptNotebook.Proofs.Export
import ScriptNotebook.Proofs.PathComponents
import ScriptNotebook.Proofs.Landing
import ScriptNotebook.Proofs.BatchUpdates
import ScriptNotebook.Proofs.CollectedTargets
import ScriptNotebook.Proofs.FoundScripts
import ScriptNotebook.Proofs.OutputPaths
import ScriptNotebook.Proofs.OutputClashes
import ScriptNotebook.Proofs.InputsKept
import ScriptNotebook.Proofs.BatchReports
import ScriptNotebook.Proofs.ExitStatus
import ScriptNotebook.Proofs.NewDirectories
import ScriptNotebook.Proofs.BatchOutcome
import ScriptNotebook.Proofs.JsonReadBack
import ScriptNotebook.Proofs.NotebookRoundTrip
import ScriptNotebook.Proofs.PrintedNumbers
import ScriptNotebook.Proofs.OrderedDocument
import ScriptNotebook.Proofs.Boundaries
import ScriptNotebook.Proofs.Layouts
import ScriptNotebook.Proofs.SequentialIds
import ScriptNotebook.Proofs.TomlStrings
import ScriptNotebook.Proofs.TomlDocuments
import ScriptNotebook.Proofs.PrintedSettings
import ScriptNotebook.Proofs.PathOrder
import ScriptNotebook.Proofs.Discovery
import ScriptNotebook.Proofs.AlikeForms
import ScriptNotebook.Proofs.Recursion
import ScriptNotebook.Proofs.CanonicalOutput
import ScriptNotebook.Proofs.DirectoryWalks
import ScriptNotebook.Proofs.ParentPaths
import ScriptNotebook.Proofs.MadeDirectories
import ScriptNotebook.Proofs.PlanningAgain
import ScriptNotebook.Proofs.ConvertingAgain
import ScriptNotebook.Proofs.RunningAgain
import ScriptNotebook.Proofs.AssembledCells
import ScriptNotebook.Proofs.BatchAccounting
import ScriptNotebook.Proofs.MirroredOutputs
import ScriptNotebook.Proofs.PaddedScripts
import ScriptNotebook.Proofs.ContinuedWalks
import ScriptNotebook.Proofs.LineRules
import ScriptNotebook.Proofs.OrderedChoice
import ScriptNotebook.Proofs.PlannedDirectories
import ScriptNotebook.Proofs.BlankTails
import ScriptNotebook.Proofs.Titles
import ScriptNotebook.Proofs.OptionOrder
