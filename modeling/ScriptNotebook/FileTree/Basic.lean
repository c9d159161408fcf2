import ScriptNotebook.Path

/-!
File trees.  An entry stands at a location, the list of names from the entry up to the root; the
root is a directory that needs no entry.  A tree also has the directory that relative paths start
from.
-/
namespace ScriptNotebook

/-- Names from the inside out. -/
abbrev Location := List Text

namespace FileTree

-- Contents are compared by this instance, whichever others are in reach.
local instance decEqContent : DecidableEq ByteArray := ByteArray.instDecidableEq

inductive Entry
  | file (content : ByteArray)
  | directory
  | link (target : Path)
  deriving DecidableEq

end FileTree

structure FileTree where
  entries : List (Location × FileTree.Entry)
  here : Location
  deriving DecidableEq

namespace FileTree

def find? (tree : FileTree) (location : Location) : Option Entry :=
  match location with
  | [] => some .directory
  | _ :: _ => (tree.entries.find? fun e => e.1 == location).map (·.2)

def setEntry (location : Location) (entry : Entry) :
    List (Location × Entry) → List (Location × Entry)
  | [] => [(location, entry)]
  | e :: rest =>
    if e.1 = location then (location, entry) :: rest else e :: setEntry location entry rest

def set (tree : FileTree) (location : Location) (entry : Entry) : FileTree :=
  { tree with entries := setEntry location entry tree.entries }

/-- Takes an entry away with everything below it. -/
def eraseAt (tree : FileTree) (location : Location) : FileTree :=
  { tree with entries := tree.entries.filter fun e => !(location.isSuffixOf e.1) }

def children (tree : FileTree) (location : Location) : List (Text × Entry) :=
  tree.entries.filterMap fun e =>
    match e.1 with
    | name :: above => if above = location then some (name, e.2) else none
    | [] => none

/-- The entries below a location, each with the names that lead to it from there. -/
def below (tree : FileTree) (location : Location) : List (List Text × Entry) :=
  tree.entries.filterMap fun e =>
    if location.isSuffixOf e.1 ∧ e.1 ≠ location then
      some ((e.1.take (e.1.length - location.length)).reverse, e.2)
    else none

theorem find?_setEntry_self (location : Location) (entry : Entry)
    (entries : List (Location × Entry)) :
    (setEntry location entry entries).find? (fun e => e.1 == location)
      = some (location, entry) := by
  induction entries with
  | nil => simp [setEntry]
  | cons e rest ih => by_cases h : e.1 = location <;> simp [setEntry, h, ih]

theorem find?_setEntry_ne {location other : Location} (h : other ≠ location) (entry : Entry)
    (entries : List (Location × Entry)) :
    (setEntry location entry entries).find? (fun e => e.1 == other)
      = entries.find? (fun e => e.1 == other) := by
  induction entries with
  | nil => simp [setEntry, Ne.symm h]
  | cons e rest ih =>
    by_cases he : e.1 = location
    · simp [setEntry, he, Ne.symm h]
    · simp [setEntry, he, List.find?_cons, ih]

@[simp] theorem find?_set_self (tree : FileTree) (name : Text) (above : Location)
    (entry : Entry) : (tree.set (name :: above) entry).find? (name :: above) = some entry := by
  simp [find?, set, find?_setEntry_self]

theorem find?_set_ne (tree : FileTree) {location other : Location} (h : other ≠ location)
    (entry : Entry) : (tree.set location entry).find? other = tree.find? other := by
  cases other with
  | nil => rfl
  | cons name above => simp [find?, set, find?_setEntry_ne h]

def Entry.ofText (t : Text) : Entry := .file (String.ofList t).toUTF8

/-- The text of bytes that are well-formed UTF-8. -/
def text? (content : ByteArray) : Option Text := (String.fromUTF8? content).map String.toList

end FileTree

end ScriptNotebook
