import ScriptNotebook.FileTree.Resolve

/-!
Reading and changing file trees by paths.  An operation that fails leaves the tree as it was, except
that making a directory with those above it may have made some of them.
-/
namespace ScriptNotebook.FileTree

def readBytes (tree : FileTree) (p : Path) : Except SystemError ByteArray := do
  match ← tree.lookup .look p with
  | .file content => .ok content
  | _ => .error .isDirectory

def readText (tree : FileTree) (p : Path) : Except SystemError Text := do
  match text? (← tree.readBytes p) with
  | some t => .ok t
  | none => .error .notText

def writeBytes (tree : FileTree) (p : Path) (content : ByteArray) :
    Except SystemError FileTree := do
  let location ← tree.locate .create p
  match tree.find? location with
  | some .directory => .error .isDirectory
  | _ => .ok (tree.set location (.file content))

def writeText (tree : FileTree) (p : Path) (t : Text) : Except SystemError FileTree :=
  tree.writeBytes p (String.ofList t).toUTF8

def addEntry (tree : FileTree) (p : Path) (entry : Entry) : Except SystemError FileTree := do
  checkPath p
  let steps := pathSteps p
  let above ← walkLinks tree .look maxLinks (startOf p tree.here) (steps.dropLast ++ [.here])
  match steps.getLast? with
  | some (.name t) =>
    if maxName < byteLength t then .error .nameTooLong
    else if (tree.find? (t :: above)).isSome then .error .alreadyExists
    else .ok (tree.set (t :: above) entry)
  | _ => .error .alreadyExists

def makeDirectory (tree : FileTree) (p : Path) : Except SystemError FileTree :=
  tree.addEntry p .directory

def makeLink (tree : FileTree) (target p : Path) : Except SystemError FileTree := do
  checkPath target
  let linked ← tree.addEntry p (.link target)
  if endsInSlash p then .error .noEntry else .ok linked

/-- Makes the first of the paths, which are a path and those above it in order, as a directory,
and what is missing above it.  A directory that is there already is fine. -/
def makeDirectoriesOf (tree : FileTree) : List Path → FileTree × Except SystemError Unit
  | [] => (tree, .error (.other "failed to create whole tree".toList))
  | p :: above =>
    if p.text = [] then (tree, .ok ())
    else
      match tree.makeDirectory p with
      | .ok tree => (tree, .ok ())
      | .error e =>
        if e = .noEntry then
          match makeDirectoriesOf tree above with
          | (tree, .error e) => (tree, .error e)
          | (tree, .ok ()) =>
            match tree.makeDirectory p with
            | .ok tree => (tree, .ok ())
            | .error e => (tree, if tree.isDirectory p then .ok () else .error e)
        else (tree, if tree.isDirectory p then .ok () else .error e)

/-- A path and the paths above it, one after the other. -/
def ancestors : (steps : Nat) → Path → List Path
  | 0, p => [p]
  | steps + 1, p => p :: match p.parent? with
    | some q => ancestors steps q
    | none => []

def makeDirectories (tree : FileTree) (p : Path) : FileTree × Except SystemError Unit :=
  tree.makeDirectoriesOf (ancestors p.text.length p)

/-- Takes away what a path leads to, a link itself and not its target. -/
def remove (tree : FileTree) (p : Path) : Except SystemError FileTree := do
  let location ← tree.locate .lookAtLink p
  match tree.find? location with
  | some _ => .ok (tree.eraseAt location)
  | none => .error .noEntry

def listNames (tree : FileTree) (p : Path) : Except SystemError (List Text) := do
  let location ← tree.locate .look p
  match tree.find? location with
  | some .directory => .ok ((tree.children location).map (·.1))
  | some _ => .error .notDirectory
  | none => .error .noEntry

end ScriptNotebook.FileTree
