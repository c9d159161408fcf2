import ScriptNotebook.Json.Basic

/-!
JSON as it is written.  A `Json.Form` keeps what a text says before anything is made of it: the
digits of a number, the escapes of a string, the members of an object in their order and with
repetitions.  `Json.Form.ofText?` reads the grammar and nothing else; what a form is worth is
decided by whoever uses it.
-/
namespace ScriptNotebook.Json

/-- A number in digits: sign, digits before the point, digits after it, signed exponent. -/
structure Numeral where
  negative : Bool
  whole : Text
  fraction : Option Text
  exponent : Option (Bool × Text)
  deriving DecidableEq, Repr

/-- A place of a written string: a character, or a 16-bit unit in hexadecimal. -/
inductive Piece
  | char (c : Char)
  | unit (n : Nat)
  deriving DecidableEq, Repr

inductive Form
  | null
  | bool (value : Bool)
  | number (numeral : Numeral)
  | string (pieces : List Piece)
  | array (items : List Form)
  | object (members : List (List Piece × Form))

namespace Form

def isSpace (c : Char) : Bool := c == ' ' || c == '\n' || c == '\r' || c == '\t'

def skipSpace (t : Text) : Text := t.dropWhile isSpace

def escaped? (c : Char) : Option Char :=
  match c with
  | '"' => some '"'
  | '\\' => some '\\'
  | '/' => some '/'
  | 'b' => some '\x08'
  | 'f' => some '\x0c'
  | 'n' => some '\n'
  | 'r' => some '\r'
  | 't' => some '\t'
  | _ => none

def pieces? : Text → Option (List Piece × Text)
  | [] => none
  | '"' :: rest => some ([], rest)
  | '\\' :: 'u' :: a :: b :: c :: d :: rest => do
    let n ← Text.hexNumber? [a, b, c, d]
    let (ps, rest) ← pieces? rest
    return (.unit n :: ps, rest)
  | '\\' :: e :: rest => do
    let c ← escaped? e
    let (ps, rest) ← pieces? rest
    return (.char c :: ps, rest)
  | c :: rest =>
    if c = '\\' ∨ c.toNat < 0x20 then none
    else do
      let (ps, rest) ← pieces? rest
      return (.char c :: ps, rest)

def digits (t : Text) : Text × Text := (t.takeWhile isDigit, t.dropWhile isDigit)

def digits? (t : Text) : Option (Text × Text) :=
  match digits t with
  | ([], _) => none
  | (ds, rest) => some (ds, rest)

/-- Digits before the point: a zero alone, or digits without a leading zero. -/
def whole? : Text → Option (Text × Text)
  | '0' :: rest => some (['0'], rest)
  | t => digits? t

def fraction? : Text → Option (Option Text × Text)
  | '.' :: rest => (digits? rest).map fun (ds, rest) => (some ds, rest)
  | t => some (none, t)

def exponent? : Text → Option (Option (Bool × Text) × Text)
  | c :: rest =>
    if c = 'e' ∨ c = 'E' then
      let (negative, rest) := match rest with
        | '-' :: r => (true, r)
        | '+' :: r => (false, r)
        | r => (false, r)
      (digits? rest).map fun (ds, rest) => (some (negative, ds), rest)
    else some (none, c :: rest)
  | [] => some (none, [])

def numeral? (t : Text) : Option (Numeral × Text) := do
  let (negative, t) := match t with
    | '-' :: r => (true, r)
    | r => (false, r)
  let (whole, t) ← whole? t
  let (fraction, t) ← fraction? t
  let (exponent, t) ← exponent? t
  return (⟨negative, whole, fraction, exponent⟩, t)

mutual

/-- Reads one value, and leaves what follows it.  The fuel bounds the number of steps. -/
def value? : (fuel : Nat) → Text → Option (Form × Text)
  | 0, _ => none
  | fuel + 1, t =>
    match skipSpace t with
    | '{' :: rest =>
      match skipSpace rest with
      | '}' :: rest => some (.object [], rest)
      | rest => (members? fuel rest).map fun (ms, rest) => (.object ms, rest)
    | '[' :: rest =>
      match skipSpace rest with
      | ']' :: rest => some (.array [], rest)
      | rest => (items? fuel rest).map fun (vs, rest) => (.array vs, rest)
    | '"' :: rest => (pieces? rest).map fun (ps, rest) => (.string ps, rest)
    | 'n' :: 'u' :: 'l' :: 'l' :: rest => some (.null, rest)
    | 't' :: 'r' :: 'u' :: 'e' :: rest => some (.bool true, rest)
    | 'f' :: 'a' :: 'l' :: 's' :: 'e' :: rest => some (.bool false, rest)
    | rest => (numeral? rest).map fun (n, rest) => (.number n, rest)

def items? : (fuel : Nat) → Text → Option (List Form × Text)
  | 0, _ => none
  | fuel + 1, t => do
    let (v, rest) ← value? fuel t
    match skipSpace rest with
    | ',' :: rest =>
      let (vs, rest) ← items? fuel rest
      return (v :: vs, rest)
    | ']' :: rest => return ([v], rest)
    | _ => none

def members? : (fuel : Nat) → Text → Option (List (List Piece × Form) × Text)
  | 0, _ => none
  | fuel + 1, t =>
    match skipSpace t with
    | '"' :: rest => do
      let (key, rest) ← pieces? rest
      match skipSpace rest with
      | ':' :: rest =>
        let (v, rest) ← value? fuel rest
        match skipSpace rest with
        | ',' :: rest =>
          let (ms, rest) ← members? fuel rest
          return ((key, v) :: ms, rest)
        | '\x7d' :: rest => return ([(key, v)], rest)
        | _ => none
      | _ => none
    | _ => none

end

/-- Every value takes a character and every item or member another, which bounds the steps. -/
def fuelFor (t : Text) : Nat := 2 * t.length + 2

/-- The form of a whole text: one value with nothing but white space around it. -/
def ofText? (t : Text) : Option Form :=
  match value? (fuelFor t) t with
  | some (v, rest) => if skipSpace rest = [] then some v else none
  | none => none

end Form

end ScriptNotebook.Json
