import ScriptNotebook.Notebook.Assembly
import ScriptNotebook.Targets

/-!
Batches.  A plan fixes the targets and the output folder, which it makes; running it converts one
target after the other.  A target that fails is recorded and stops nothing.
-/
namespace ScriptNotebook

structure BatchPlan where
  /-- The folder below which the targets keep their place. -/
  root : Path
  targets : List Path
  outputDir : Path
  deriving DecidableEq, Repr

structure ConvertedFile where
  input : Path
  output : Path
  codeCells : Nat
  markdownCells : Nat
  deriving DecidableEq, Repr

structure FailedFile where
  input : Path
  failure : Failure
  deriving DecidableEq, Repr

structure BatchReport where
  converted : List ConvertedFile
  failed : List FailedFile
  deriving DecidableEq, Repr

namespace BatchReport

def empty : BatchReport := ⟨[], []⟩

def anyConverted (report : BatchReport) : Bool := !report.converted.isEmpty

def total (report : BatchReport) : Nat := report.converted.length + report.failed.length

/-- The exit status of a program that has run a batch: 0 if anything was converted. -/
def exitStatus (report : BatchReport) : Nat := if report.anyConverted then 0 else 1

end BatchReport

/-- What a batch tells while it runs.  Positions count from one. -/
inductive BatchEvent
  | started (total : Nat)
  | converted (file : ConvertedFile) (position total : Nat)
  | failed (file : FailedFile) (position total : Nat)
  | done (report : BatchReport)
  deriving DecidableEq, Repr

structure BatchRun where
  tree : FileTree
  ids : IdSupply
  report : BatchReport
  events : List BatchEvent

def FileTree.prepareOutputDirectory (tree : FileTree) (directory : Path) :
    FileTree × Except Failure Unit :=
  let (tree, result) := tree.makeDirectories directory
  (tree, result.mapError (Failure.outputDirectory directory))

/-- The plan for an input.  Targets are looked for first, so that a missing input makes no
folder. -/
def BatchPlan.make (tree : FileTree) (input : Path) (options : ConvertOptions) :
    FileTree × Except Failure BatchPlan :=
  match tree.collectTargets input options.extension options.recursive with
  | .error failure => (tree, .error failure)
  | .ok targets =>
    let directory := tree.outputDirectory input options
    match tree.prepareOutputDirectory directory with
    | (tree, .error failure) => (tree, .error failure)
    | (tree, .ok ()) =>
      let root := if tree.isDirectory input then input else input.parent?.getD ⟨[]⟩
      (tree, .ok ⟨root, targets, directory⟩)

def FileTree.writeNotebook (tree : FileTree) (p : Path) (notebook : Notebook) (writer : Writer) :
    Except Failure FileTree := do
  let text ← writer.render notebook
  (tree.writeText p text).mapError (Failure.file p)

/-- Converts one script: reads it, makes the folder of the output, renders and writes.  Identifiers
are drawn as soon as the script could be read. -/
def FileTree.convertFile (tree : FileTree) (ids : IdSupply) (input output : Path)
    (metadata : NotebookMetadata) (writer : Writer) :
    FileTree × IdSupply × Except Failure ConvertedFile :=
  match tree.readText input with
  | .error cause => (tree, ids, .error (.file input cause))
  | .ok source =>
    let (notebook, ids) := Notebook.ofSource metadata source ids
    let above := output.parent?
    let (tree, made) := match above with
      | some directory => tree.makeDirectories directory
      | none => (tree, .ok ())
    match made with
    | .error cause => (tree, ids, .error (.file (above.getD ⟨[]⟩) cause))
    | .ok () =>
      match tree.writeNotebook output notebook writer with
      | .error failure => (tree, ids, .error failure)
      | .ok tree =>
        (tree, ids, .ok ⟨input, output, notebook.count .code, notebook.count .markdown⟩)

namespace BatchRun

def record (run : BatchRun) (input : Path) (position total : Nat)
    (outcome : FileTree × IdSupply × Except Failure ConvertedFile) : BatchRun :=
  match outcome with
  | (tree, ids, .ok file) =>
    { tree, ids
      report := { run.report with converted := run.report.converted ++ [file] }
      events := run.events ++ [.converted file position total] }
  | (tree, ids, .error failure) =>
    let file : FailedFile := ⟨input, failure⟩
    { tree, ids
      report := { run.report with failed := run.report.failed ++ [file] }
      events := run.events ++ [.failed file position total] }

def convertFrom (plan : BatchPlan) (options : ConvertOptions) (run : BatchRun) (position : Nat) :
    List Path → BatchRun
  | [] => run
  | input :: rest =>
    let output := outputPath input plan.root plan.outputDir
    let outcome :=
      run.tree.convertFile run.ids input output options.metadata options.writer.writer
    convertFrom plan options (run.record input position plan.targets.length outcome)
      (position + 1) rest

end BatchRun

def BatchPlan.run (plan : BatchPlan) (options : ConvertOptions) (tree : FileTree)
    (ids : IdSupply) : BatchRun :=
  let start : BatchRun := ⟨tree, ids, .empty, [.started plan.targets.length]⟩
  let run := start.convertFrom plan options 1 plan.targets
  { run with events := run.events ++ [.done run.report] }

def FileTree.convertPath (tree : FileTree) (input : Path) (options : ConvertOptions)
    (ids : IdSupply) : FileTree × Except Failure BatchReport :=
  match BatchPlan.make tree input options with
  | (tree, .error failure) => (tree, .error failure)
  | (tree, .ok plan) =>
    let run := plan.run options tree ids
    (run.tree, .ok run.report)

end ScriptNotebook
