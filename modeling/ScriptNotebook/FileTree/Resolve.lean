import ScriptNotebook.FileTree.Basic
import ScriptNotebook.SystemError

/-!
Where a path leads.  A walk takes the pieces of a path one by one, through directories only, and
goes on at the target of every link it meets, at most forty times.  The last piece may be missing,
which leaves it to the caller what to make of that.
-/
namespace ScriptNotebook.FileTree

/-- A piece of a path on a walk; `slash` stands for slashes at the end. -/
inductive Step
  | here | up | slash
  | name (text : Text)
  deriving DecidableEq, Repr

def Step.ofPiece? (piece : Text) : Option Step :=
  if piece = [] then none
  else if piece = ['.'] then some .here
  else if piece = ['.', '.'] then some .up
  else some (.name piece)

/-- The steps of a path without slashes at its end. -/
def pathSteps (p : Path) : List Step := (Text.cut '/' p.text).filterMap Step.ofPiece?

def endsInSlash (p : Path) : Bool := p.text.getLast? = some '/'

def walkSteps (p : Path) : List Step :=
  if endsInSlash p then pathSteps p ++ [.slash] else pathSteps p

def byteLength : Text → Nat
  | [] => 0
  | c :: t => c.utf8Size + byteLength t

/-- The bounds for a name and for a whole path in bytes. -/
def maxName : Nat := 255
def maxPath : Nat := 4095

/-- What a walk is for: to look at what a path leads to, to look at a link itself, or to make a
file, which cannot have a slash behind its name. -/
inductive Purpose
  | look | lookAtLink | create
  deriving DecidableEq, Repr

/-- Walks on from a directory.  What to do at a link is given for the directory it is in, its
target and the steps behind it. -/
def walk (tree : FileTree) (purpose : Purpose)
    (onLink : Location → Path → List Step → Except SystemError Location) :
    Location → List Step → Except SystemError Location
  | at_, [] => .ok at_
  | at_, .here :: rest => walk tree purpose onLink at_ rest
  | at_, .slash :: rest => walk tree purpose onLink at_ rest
  | at_, .up :: rest => walk tree purpose onLink at_.tail rest
  | at_, .name t :: rest =>
    if purpose = .create ∧ rest = [.slash] then .error .isDirectory
    else if maxName < byteLength t then .error .nameTooLong
    else
      match tree.find? (t :: at_) with
      | some .directory => walk tree purpose onLink (t :: at_) rest
      | some (.link target) =>
        if purpose = .lookAtLink ∧ rest = [] then .ok (t :: at_) else onLink at_ target rest
      | some (.file _) => if rest = [] then .ok (t :: at_) else .error .notDirectory
      | none => if rest = [] then .ok (t :: at_) else .error .noEntry

def startOf (p : Path) (here : Location) : Location := if p.isAbsolute then [] else here

def walkLinks (tree : FileTree) (purpose : Purpose) :
    (links : Nat) → Location → List Step → Except SystemError Location
  | 0 => walk tree purpose fun _ _ _ => .error .tooManyLinks
  | links + 1 => walk tree purpose fun at_ target rest =>
    walkLinks tree purpose links (startOf target at_) (walkSteps target ++ rest)

def maxLinks : Nat := 40

/-- What is wrong with a path before any walk. -/
def checkPath (p : Path) : Except SystemError Unit :=
  if p.text.any (· == '\x00') then .error .nulInName
  else if p.text = [] then .error .noEntry
  else if maxPath < byteLength p.text then .error .nameTooLong
  else .ok ()

def locate (tree : FileTree) (purpose : Purpose) (p : Path) : Except SystemError Location := do
  checkPath p
  walkLinks tree purpose maxLinks (startOf p tree.here) (walkSteps p)

def lookup (tree : FileTree) (purpose : Purpose) (p : Path) : Except SystemError Entry := do
  match tree.find? (← tree.locate purpose p) with
  | some entry => .ok entry
  | none => .error .noEntry

def pathExists (tree : FileTree) (p : Path) : Bool := (tree.lookup .look p).isOk

def isFile (tree : FileTree) (p : Path) : Bool :=
  match tree.lookup .look p with
  | .ok (.file _) => true
  | _ => false

def isDirectory (tree : FileTree) (p : Path) : Bool :=
  match tree.lookup .look p with
  | .ok .directory => true
  | _ => false

end ScriptNotebook.FileTree
