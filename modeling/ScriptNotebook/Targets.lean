import ScriptNotebook.Failure
import ScriptNotebook.FileTree.Operations
import ScriptNotebook.Settings

/-!
Which scripts are converted, and where their notebooks go.  A folder gives its own scripts or all
below it; the notebooks keep their place below the folder and take the extension `ipynb`.
-/
namespace ScriptNotebook

def foldAscii (c : Char) : Char :=
  if 'A' ≤ c ∧ c ≤ 'Z' then Char.ofNat (c.toNat + 32) else c

/-- The extension of the path is the given one, in any case of ASCII letters. -/
def Path.hasExtension (p : Path) (extension : Text) : Bool :=
  match p.extension? with
  | some e => e.map foldAscii == extension.map foldAscii
  | none => false

def Path.joinAll (base : Path) (names : List Text) : Path :=
  names.foldl (fun p name => p.join ⟨name⟩) base

namespace FileTree

/-- The scripts right in a directory, hidden names left out, links followed. -/
def scriptsIn (tree : FileTree) (directory : Path) (extension : Text) :
    Except Failure (List Path) := do
  let names ← (tree.listNames directory).mapError (Failure.file directory)
  return (names.filter fun name => name.head? ≠ some '.').map (fun name => directory.join ⟨name⟩)
    |>.filter fun p => tree.isFile p && p.hasExtension extension

/-- The scripts anywhere below a directory, hidden ones too, links neither followed nor taken.  The
paths of the folders below are taken to keep within `maxPath`: one that is longer is listed here,
while everything that goes through `checkPath` refuses it. -/
def scriptsBelow (tree : FileTree) (directory : Path) (extension : Text) : List Path :=
  match tree.locate .look directory with
  | .ok location =>
    (tree.below location).filterMap fun e =>
      let p := directory.joinAll e.1
      match e.2 with
      | .file _ => if p.hasExtension extension then some p else none
      | _ => none
  | .error _ => []

/-- The scripts that a path stands for, in order.  A file has to have the extension. -/
def collectTargets (tree : FileTree) (input : Path) (extension : Text) (recursive : Bool) :
    Except Failure (List Path) := do
  if !tree.pathExists input then throw (.notFound input)
  if tree.isFile input then
    if input.hasExtension extension then return [input]
    throw (.unsupportedInput input extension)
  let targets ←
    if recursive then pure (tree.scriptsBelow input extension) else tree.scriptsIn input extension
  match Path.sort targets with
  | [] => throw (.noInputs input extension)
  | targets => return targets

/-- The folder of the notebooks: the one given, or one with the usual name in the input folder or
next to the input file. -/
def outputDirectory (tree : FileTree) (input : Path) (options : ConvertOptions) : Path :=
  match options.outputDir with
  | some directory => directory
  | none =>
    let base :=
      if tree.isDirectory input then input
      else match input.parent? with
        | some above => if above.text = [] then ⟨['.']⟩ else above
        | none => ⟨['.']⟩
    base.join ⟨options.outputDirName⟩

end FileTree

def notebookSuffix : Text := ".ipynb".toList

/-- Where the notebook of a target goes: below the output folder as the target is below the root. -/
def outputPath (target root outputDir : Path) : Path :=
  let relative := (target.parent?.bind fun above => above.relativeTo? root).getD ⟨[]⟩
  (outputDir.join relative).join ⟨target.stem ++ notebookSuffix⟩

example : outputPath (.ofString "src/a/b.py") (.ofString "src") (.ofString "out")
    = .ofString "out/a/b.ipynb" := by decide

end ScriptNotebook
