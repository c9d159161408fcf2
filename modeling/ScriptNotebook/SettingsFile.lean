import ScriptNotebook.Failure
import ScriptNotebook.FileTree.Operations
import ScriptNotebook.Settings

/-! The settings file below the home directory, and others in its place. -/
namespace ScriptNotebook

namespace Settings

def directoryIn (home : Path) : Path := home.join (.ofString ".notebookify")

def fileIn (home : Path) : Path := (directoryIn home).join (.ofString "notebookify.toml")

def loadFrom (tree : FileTree) (p : Path) : Except Failure Settings := do
  let t ← (tree.readText p).mapError (Failure.file p)
  match ofText? t with
  | some s => return s
  | none => throw (.settings (.unreadable p))

/-- The settings in the file below the home directory; without that file the initial ones. -/
def loadHome (tree : FileTree) (home : Path) : Except Failure Settings :=
  if tree.pathExists (fileIn home) then loadFrom tree (fileIn home) else .ok initial

/-- The settings in the file given, or else below the home directory. -/
def load (tree : FileTree) (home : Path) : Option Path → Except Failure Settings
  | some p => loadFrom tree p
  | none => loadHome tree home

def install (tree : FileTree) (home : Path) : FileTree × Except Failure Path :=
  match tree.makeDirectories (directoryIn home) with
  | (tree, .error cause) => (tree, .error (.file (directoryIn home) cause))
  | (tree, .ok ()) =>
    match tree.writeText (fileIn home) initial.toText with
    | .error cause => (tree, .error (.file (fileIn home) cause))
    | .ok tree => (tree, .ok (fileIn home))

end Settings

end ScriptNotebook
