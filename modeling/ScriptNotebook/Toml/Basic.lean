import ScriptNotebook.Text.Basic

/-!
TOML tables.  A document is a list of entries, headers and pairs of key and value; `Toml.ofEntries?`
puts them together and refuses what would define something twice.  Who may add to a table depends
on how the table came to be.
-/
namespace ScriptNotebook

namespace Toml

/-- How a table came to be: by its own header, by a longer header or a longer dotted key that goes
through it, or in braces. -/
inductive Origin
  | header | implied | dotted | inlined
  deriving DecidableEq, Repr

end Toml

/-- A value.  Of numbers and times only their kind is kept. -/
inductive Toml
  | string (value : Text)
  | bool (value : Bool)
  | number
  | dateTime
  | array (items : List Toml)
  | table (origin : Toml.Origin) (members : List (Text × Toml))
  /-- The tables of repeated headers in double brackets. -/
  | tables (elements : List Toml)

namespace Toml

abbrev Table := List (Text × Toml)

/-- A dotted key: the tables it goes through, and its last part. -/
structure KeyPath where
  above : List Text
  last : Text
  deriving DecidableEq, Repr

inductive Entry
  | header (key : KeyPath)
  | arrayHeader (key : KeyPath)
  | pair (key : KeyPath) (value : Toml)

namespace Table

def get? (key : Text) (fields : Table) : Option Toml :=
  (fields.find? fun m => m.1 == key).map (·.2)

def put (key : Text) (value : Toml) : Table → Table
  | [] => [(key, value)]
  | (k, v) :: rest => if key = k then (key, value) :: rest else (k, v) :: put key value rest

end Table

/-- What leads to a table: a header, or a dotted key in front of a value. -/
inductive Route
  | byHeader | byKey
  deriving DecidableEq, Repr

/-- The tables a route may go through: headers pass all that are no values, keys only those that
nothing has defined yet. -/
def Route.passes : Route → Origin → Bool
  | byHeader, origin => origin ≠ .inlined
  | byKey, origin => origin = .implied || origin = .dotted

def Route.fresh : Route → Origin
  | byHeader => .implied
  | byKey => .dotted

/-- Changes the table at the end of a path, making the tables that are missing on the way.  Of
repeated tables the last one is meant. -/
def edit? (route : Route) (change : Origin → Table → Option Table) :
    List Text → Origin → Table → Option Table
  | [], origin, fields => change origin fields
  | key :: path, _, fields => do
    let inner ← match fields.get? key with
      | none => (edit? route change path route.fresh []).map (.table route.fresh)
      | some (.table origin members) =>
        if route.passes origin then (edit? route change path origin members).map (.table origin)
        else none
      | some (.tables elements) =>
        match elements.getLast? with
        | some (.table origin members) =>
          (edit? route change path origin members).map fun members =>
            .tables (elements.dropLast ++ [.table origin members])
        | _ => none
      | some _ => none
    return fields.put key inner

/-- Gives a new key a value.  A dotted key ends in a table that dotted keys have made, a plain one
never does. -/
def insert? (key : KeyPath) (value : Toml) (origin : Origin) (fields : Table) : Option Table :=
  edit? .byKey
    (fun origin fields =>
      if (origin = .dotted) = (key.above = []) then none
      else if (fields.get? key.last).isSome then none
      else some (fields.put key.last value))
    key.above origin fields

structure Document where
  current : List Text
  root : Table

def newTable : Toml := .table .header []

def Document.add? (doc : Document) : Entry → Option Document
  | .header key => do
    let root ← edit? .byHeader
      (fun _ fields =>
        match fields.get? key.last with
        | none => some (fields.put key.last newTable)
        | some (.table .implied members) => some (fields.put key.last (.table .header members))
        | some _ => none)
      key.above .header doc.root
    return ⟨key.above ++ [key.last], root⟩
  | .arrayHeader key => do
    let root ← edit? .byHeader
      (fun _ fields =>
        match fields.get? key.last with
        | none => some (fields.put key.last (.tables [newTable]))
        | some (.tables elements) => some (fields.put key.last (.tables (elements ++ [newTable])))
        | some _ => none)
      key.above .header doc.root
    return ⟨key.above ++ [key.last], root⟩
  | .pair key value => do
    let root ← edit? .byHeader (insert? key value) doc.current .header doc.root
    return { doc with root }

def ofEntries? (entries : List Entry) : Option Table :=
  (entries.foldlM Document.add? ⟨[], []⟩).map Document.root

def ofPairs? (pairs : List (KeyPath × Toml)) : Option Toml :=
  (pairs.foldlM (fun fields p => insert? p.1 p.2 .inlined fields) []).map (.table .inlined)

end Toml

end ScriptNotebook
