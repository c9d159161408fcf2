import ScriptNotebook.Text.Basic

/-!
Paths as texts.  A path is an anchor (the root, a leading dot, or nothing) and pieces between
slashes; empty pieces and dots among the pieces do not count.  Paths keep the way they were
written, while comparing, ordering and relating them goes by what counts, the components.
-/
namespace ScriptNotebook

structure Path where
  text : Text
  deriving DecidableEq, Repr

namespace Path

def ofString (s : String) : Path := ⟨s.toList⟩

inductive Anchor
  | root | here | free
  deriving DecidableEq, Repr

inductive Component
  | root | here | up
  | name (text : Text)
  deriving DecidableEq, Repr

def Anchor.components : Anchor → List Component
  | root => [.root]
  | here => [.here]
  | free => []

/-- The anchor of a path and its pieces. -/
def parts (p : Path) : Anchor × List Text :=
  match Text.cut '/' p.text with
  | [[]] => (.free, [])
  | [] :: pieces => (.root, pieces)
  | ['.'] :: pieces => (.here, pieces)
  | pieces => (.free, pieces)

/-- The pieces that do not count. -/
def isIdle (piece : Text) : Bool := piece = [] || piece = ['.']

def Component.ofPiece? (piece : Text) : Option Component :=
  if isIdle piece then none
  else if piece = ['.', '.'] then some .up
  else some (.name piece)

def components (p : Path) : List Component :=
  p.parts.1.components ++ p.parts.2.filterMap Component.ofPiece?

def isAbsolute (p : Path) : Bool := p.parts.1 = .root

def ofParts : Anchor → List Text → Path
  | .root, pieces => ⟨'/' :: Text.join ['/'] pieces⟩
  | .here, [] => ⟨['.']⟩
  | .here, pieces => ⟨'.' :: '/' :: Text.join ['/'] pieces⟩
  | .free, pieces => ⟨Text.join ['/'] pieces⟩

/-- The path without its last component; there is none above the root and the empty path. -/
def parent? (p : Path) : Option Path :=
  let (anchor, pieces) := p.parts
  match dropEndWhile isIdle pieces with
  | [] => match anchor with
    | .here => some ⟨[]⟩
    | _ => none
  | pieces => some (ofParts anchor (dropEndWhile isIdle pieces.dropLast))

/-- The last component, if it is a name. -/
def fileName? (p : Path) : Option Text :=
  match p.components.getLast? with
  | some (.name n) => some n
  | _ => none

/-- A file name cut at its last dot.  A dot in front cuts nothing. -/
def splitName (name : Text) : Text × Option Text :=
  match (Text.cut '.' name).reverse with
  | last :: before :: rest =>
    let stem := Text.join ['.'] (before :: rest).reverse
    if stem = [] then (name, none) else (stem, some last)
  | _ => (name, none)

def stem (p : Path) : Text := (p.fileName?.map fun n => (splitName n).1).getD []

def extension? (p : Path) : Option Text := p.fileName?.bind fun n => (splitName n).2

/-- A path inside another: an absolute one stands for itself. -/
def join (base p : Path) : Path :=
  if p.isAbsolute then p
  else
    match base.text.getLast? with
    | none => p
    | some '/' => ⟨base.text ++ p.text⟩
    | some _ => ⟨base.text ++ '/' :: p.text⟩

/-- Drops components from pieces, with the pieces around them that do not count. -/
def dropComponents : Nat → List Text → List Text
  | _, [] => []
  | 0, piece :: pieces => if isIdle piece then dropComponents 0 pieces else piece :: pieces
  | n + 1, piece :: pieces => dropComponents (if isIdle piece then n + 1 else n) pieces

/-- What follows the components of `base` in a path that begins with them. -/
def relativeTo? (p base : Path) : Option Path :=
  let (anchor, pieces) := p.parts
  let count := base.components.length
  if p.components.take count ≠ base.components then none
  else if count = 0 then some (ofParts anchor (dropEndWhile isIdle pieces))
  else
    let left := dropComponents (count - anchor.components.length) pieces
    some (ofParts .free (dropEndWhile isIdle left))

def Component.rank : Component → Nat
  | root => 0
  | here => 1
  | up => 2
  | name _ => 3

/-- The root comes before dots, these before names, and names go by their code points. -/
def Component.before : Component → Component → Bool
  | name a, name b => Text.before a b
  | a, b => a.rank < b.rank

def componentsBefore : List Component → List Component → Bool
  | [], [] => false
  | [], _ :: _ => true
  | _ :: _, [] => false
  | a :: s, b :: t => if a = b then componentsBefore s t else a.before b

def before (p q : Path) : Bool := componentsBefore p.components q.components

def insert (p : Path) : List Path → List Path
  | [] => [p]
  | q :: rest => if q.before p then q :: insert p rest else p :: q :: rest

def sort (paths : List Path) : List Path := paths.foldr insert []

example : (ofString "./a//b/.").parent? = some (ofString "./a") := by decide

example : relativeTo? (ofString "s//a/./b/") (ofString "s/") = some (ofString "a/./b") := by decide

example : sort [ofString "a!.py", ofString "a/b.py"] = [ofString "a/b.py", ofString "a!.py"] := by
  decide

end Path

end ScriptNotebook
