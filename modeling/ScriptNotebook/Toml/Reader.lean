import ScriptNotebook.Toml.Basic
import ScriptNotebook.Toml.Number
import ScriptNotebook.Toml.Quoted

/-! The grammar of TOML documents: blanks and comments, keys, values, entries. -/
namespace ScriptNotebook.Toml

def isSpace (c : Char) : Bool := c == ' ' || c == '\t'

def skipSpace (t : Text) : Text := t.dropWhile isSpace

/-- Skips blanks, line breaks and comments.  A comment has no control characters and goes to the
end of its line. -/
def skipGap : (inComment : Bool) → Text → Text
  | _, [] => []
  | _, '\n' :: rest => skipGap false rest
  | _, '\r' :: '\n' :: rest => skipGap false rest
  | true, c :: rest => if isPlain c then skipGap true rest else c :: rest
  | false, c :: rest =>
    if isSpace c then skipGap false rest
    else if c = '#' then skipGap true rest
    else c :: rest

def endLine? (t : Text) : Option Text :=
  let t := match skipSpace t with
    | '#' :: rest => rest.dropWhile isPlain
    | t => t
  match t with
  | [] => some []
  | '\n' :: rest => some rest
  | '\r' :: '\n' :: rest => some rest
  | _ => none

def isBareChar (c : Char) : Bool :=
  ('a' ≤ c && c ≤ 'z') || ('A' ≤ c && c ≤ 'Z') || isDigit c || c == '_' || c == '-'

/-- One part of a key: bare, or a string on one line. -/
def keyPart? : Text → Option (Text × Text)
  | '"' :: rest => basic? rest
  | '\'' :: rest => literal? rest
  | t =>
    match t.takeWhile isBareChar with
    | [] => none
    | part => some (part, t.dropWhile isBareChar)

/-- The parts of a dotted key, at most so many, and the blanks behind them. -/
def keyParts? : (room : Nat) → Text → Option (List Text × Text)
  | 0, _ => none
  | room + 1, t => do
    let (part, t) ← keyPart? t
    match skipSpace t with
    | '.' :: rest =>
      let (parts, t) ← keyParts? room (skipSpace rest)
      return (part :: parts, t)
    | t => return ([part], t)

def maxDepth : Nat := 79

def key? (t : Text) : Option (KeyPath × Text) := do
  let (parts, t) ← keyParts? maxDepth t
  match parts.getLast? with
  | some last => return (⟨parts.dropLast, last⟩, t)
  | none => none

def keyOfPair? (t : Text) : Option (KeyPath × Text) := do
  let (key, t) ← key? (skipSpace t)
  match t with
  | '=' :: rest => return (key, skipSpace rest)
  | _ => none

mutual

/-- Reads a value; `room` bounds the containers in each other, the fuel the steps. -/
def value? : (fuel room : Nat) → Text → Option (Toml × Text)
  | 0, _, _ => none
  | fuel + 1, room, t =>
    match t with
    | '[' :: rest =>
      if room = 0 then none
      else (items? fuel (room - 1) (skipGap false rest)).map fun (vs, t) => (.array vs, t)
    | '{' :: rest =>
      if room = 0 then none
      else
        match skipSpace rest with
        | '}' :: rest => some (.table .inlined [], rest)
        | rest => do
          let (pairs, t) ← pairs? fuel (room - 1) rest
          return (← ofPairs? pairs, t)
    | '"' :: _ => (string? t).map fun (s, t) => (.string s, t)
    | '\'' :: _ => (string? t).map fun (s, t) => (.string s, t)
    | 't' :: 'r' :: 'u' :: 'e' :: rest => some (.bool true, rest)
    | 'f' :: 'a' :: 'l' :: 's' :: 'e' :: rest => some (.bool false, rest)
    | t =>
      match dateTime? t with
      | some rest => some (.dateTime, rest)
      | none => (number? t).map fun rest => (.number, rest)

/-- The items of an array; a comma may stand behind the last one. -/
def items? : (fuel room : Nat) → Text → Option (List Toml × Text)
  | 0, _, _ => none
  | fuel + 1, room, t =>
    match t with
    | ']' :: rest => some ([], rest)
    | t => do
      let (v, t) ← value? fuel room t
      match skipGap false t with
      | ',' :: rest =>
        let (vs, t) ← items? fuel room (skipGap false rest)
        return (v :: vs, t)
      | ']' :: rest => return ([v], rest)
      | _ => none

/-- The pairs of a table in braces, all on one line. -/
def pairs? : (fuel room : Nat) → Text → Option (List (KeyPath × Toml) × Text)
  | 0, _, _ => none
  | fuel + 1, room, t => do
    let (key, t) ← keyOfPair? t
    let (v, t) ← value? fuel room t
    match skipSpace t with
    | ',' :: rest =>
      let (ps, t) ← pairs? fuel room rest
      return ((key, v) :: ps, t)
    | '\x7d' :: rest => return ([(key, v)], rest)
    | _ => none

end

def statement? (t : Text) : Option (Entry × Text) :=
  match t with
  | '[' :: '[' :: rest => do
    let (key, t) ← key? (skipSpace rest)
    match t with
    | ']' :: ']' :: rest => return (.arrayHeader key, ← endLine? rest)
    | _ => none
  | '[' :: rest => do
    let (key, t) ← key? (skipSpace rest)
    match t with
    | ']' :: rest => return (.header key, ← endLine? rest)
    | _ => none
  | t => do
    let (key, t) ← keyOfPair? t
    let (v, t) ← value? (2 * t.length + 2) maxDepth t
    return (.pair key v, ← endLine? t)

/-- The entries of a text; every one takes a character, which bounds the steps. -/
def entries? : (fuel : Nat) → Text → Option (List Entry)
  | 0, _ => none
  | fuel + 1, t =>
    match skipGap false t with
    | [] => some []
    | t => do
      let (e, t) ← statement? t
      return e :: (← entries? fuel t)

/-- The table that a document holds; a byte order mark in front does not count. -/
def ofText? (t : Text) : Option Table := do
  let t := match t with
    | '\ufeff' :: rest => rest
    | t => t
  ofEntries? (← entries? (t.length + 1) t)

end ScriptNotebook.Toml
