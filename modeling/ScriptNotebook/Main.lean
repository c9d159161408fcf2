import ScriptNotebook.Program

/-!
The command line.  The part of the file system that a command can see is loaded into a file tree,
the program runs on that, and what it has changed is written back.
-/
namespace ScriptNotebook

namespace FileTree

def locationOf (path : String) : Location :=
  ((Text.cut '/' path.toList).filter (· ≠ [])).reverse

def pathOf (location : Location) : String :=
  String.ofList ('/' :: Text.join ['/'] location.reverse)

/-- The entry at an absolute path and those some levels below it.  Contents are read only where they
are wanted. -/
partial def loadBelow (wanted : Path → Bool) (levels : Nat) (path : String) :
    IO (List (Location × Entry)) := do
  let file := (← IO.currentDir) / path
  let location := locationOf path
  match ← file.symlinkMetadata.toBaseIO with
  | .error _ => return []
  | .ok metadata =>
    match metadata.type with
    | .symlink =>
      let target ← (IO.FS.realPath file).toBaseIO
      match target with
      | .error _ => return [(location, .link ⟨path.toList⟩)]
      | .ok target =>
        let there ← loadBelow wanted levels target.toString
        return (location, .link ⟨target.toString.toList⟩) :: there
    | .dir =>
      let mut entries := [(location, Entry.directory)]
      if let levels + 1 := levels then
        for child in ← file.readDir do
          entries := entries ++ (← loadBelow wanted levels (path ++ "/" ++ child.fileName))
      return entries
    | _ =>
      if wanted ⟨path.toList⟩ then
        return [(location, .file (← IO.FS.readBinFile file))]
      return [(location, .file .empty)]

/-- Everything that the walk along an absolute path meets, and some levels below its end. -/
partial def loadPath (wanted : Path → Bool) (levels : Nat) (path : String) :
    IO (List (Location × Entry)) := do
  let rec above (done : String) : List Text → IO (List (Location × Entry))
    | [] => return []
    | [name] => loadBelow wanted levels (done ++ "/" ++ String.ofList name)
    | name :: rest => do
      let next := done ++ "/" ++ String.ofList name
      return (← loadBelow wanted 0 next) ++ (← above next rest)
  above "" ((Text.cut '/' path.toList).filter fun piece => !Path.isIdle piece)

def ofEntries (here : Location) (entries : List (Location × Entry)) : FileTree :=
  entries.foldl (fun tree e => tree.set e.1 e.2) ⟨[], here⟩

/-- Writes the entries back that are new or have other contents. -/
def writeBack (before after : FileTree) : IO Unit :=
  after.entries.forM fun (location, entry) => do
    if before.find? location ≠ some entry then
      match entry with
      | .directory => IO.FS.createDirAll (pathOf location)
      | .file content => IO.FS.writeBinFile (pathOf location) content
      | .link _ => pure ()

end FileTree

namespace Program

open CommandLine

/-- How far below an input its scripts may lie, as a bound for loading. -/
def levelsFor (recursive : Bool) : Nat := if recursive then 1000 else 1

/-- What a command can see: the settings file, and for a conversion input and output folder. -/
def load (here : String) (home : Path) (args : Arguments) : IO FileTree := do
  let absolute (p : Path) : String :=
    String.ofList (Path.join ⟨here.toList⟩ p).text
  let location := FileTree.locationOf here
  let settingsFile := args.taken.settingsFile.getD (Settings.fileIn home)
  let base ← FileTree.loadPath (fun _ => false) 0 here
  let settings ← FileTree.loadPath (fun _ => true) 0 (absolute settingsFile)
  let tree := FileTree.ofEntries location (base ++ settings)
  match args.command, Settings.load tree home args.taken.settingsFile with
  | .convert input, .ok chosen =>
    let options := args.options chosen
    let wanted (p : Path) : Bool := p.hasExtension options.extension
    let inputs ← FileTree.loadPath wanted (levelsFor options.recursive) (absolute input)
    let output := (FileTree.ofEntries location (base ++ inputs)).outputDirectory input options
    let outputs ← FileTree.loadPath wanted 1 (absolute output)
    return FileTree.ofEntries location (base ++ outputs ++ inputs ++ settings)
  | _, _ => return tree

end Program

end ScriptNotebook

open ScriptNotebook in
def main (arguments : List String) : IO UInt32 := do
  let args := arguments.map String.toList
  let here := (← IO.currentDir).toString
  let home : Path := ⟨((← IO.getEnv "HOME").getD here).toList⟩
  let seed := (← IO.getRandomBytes 4).foldl (fun n byte => n * 256 + byte.toUInt32) 0
  let tree ← match CommandLine.Arguments.parse args with
    | .ok parsed => Program.load here home parsed
    | .error _ => pure ⟨[], FileTree.locationOf here⟩
  let outcome := Program.run tree home (.scattered seed) args
  tree.writeBack outcome.tree
  IO.print (String.ofList outcome.stdout)
  IO.eprint (String.ofList outcome.stderr)
  return .ofNat outcome.exitStatus
