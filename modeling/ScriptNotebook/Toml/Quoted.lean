import ScriptNotebook.Text.Digits

/-!
TOML strings in their four forms: one line or several, with escapes or literal.  `quote` chooses the
form with the fewest escapes, `string?` reads them all.
-/
namespace ScriptNotebook.Toml

def isControl (c : Char) : Bool := (c.toNat < 0x20 && c ≠ '\t' && c ≠ '\n') || c.toNat = 0x7F

/-- Characters that may stand for themselves within a line. -/
def isPlain (c : Char) : Bool := c ≠ '\n' && !isControl c

def escaped? (c : Char) : Option Char :=
  match c with
  | 'b' => some '\x08'
  | 't' => some '\t'
  | 'n' => some '\n'
  | 'f' => some '\x0c'
  | 'r' => some '\r'
  | '"' => some '"'
  | '\\' => some '\\'
  | _ => none

/-- The character with the code point in hexadecimal; surrogates are none. -/
def scalar? (digits : Text) : Option Char := do
  let n ← Text.hexNumber? digits
  if n < 0xD800 ∨ (0xE000 ≤ n ∧ n < 0x110000) then return Char.ofNat n else none

def basic? : Text → Option (Text × Text)
  | [] => none
  | '"' :: rest => some ([], rest)
  | '\\' :: 'u' :: a :: b :: c :: d :: rest => do
    let x ← scalar? [a, b, c, d]
    let (t, rest) ← basic? rest
    return (x :: t, rest)
  | '\\' :: 'U' :: a :: b :: c :: d :: e :: f :: g :: h :: rest => do
    let x ← scalar? [a, b, c, d, e, f, g, h]
    let (t, rest) ← basic? rest
    return (x :: t, rest)
  | '\\' :: e :: rest => do
    let x ← escaped? e
    let (t, rest) ← basic? rest
    return (x :: t, rest)
  | c :: rest =>
    if c ≠ '\\' ∧ isPlain c then do
      let (t, rest) ← basic? rest
      return (c :: t, rest)
    else none

def literal? : Text → Option (Text × Text)
  | [] => none
  | '\'' :: rest => some ([], rest)
  | c :: rest =>
    if isPlain c then do
      let (t, rest) ← literal? rest
      return (c :: t, rest)
    else none

/-- Up to two quotes behind three closing ones belong to the string. -/
def quotesAtEnd (quote : Char) : Text → Text × Text
  | a :: b :: rest =>
    if a = quote ∧ b = quote then ([quote, quote], rest)
    else if a = quote then ([quote], b :: rest)
    else ([], a :: b :: rest)
  | [a] => if a = quote then ([quote], []) else ([], [a])
  | [] => ([], [])

def endsLine : Text → Bool
  | ' ' :: rest => endsLine rest
  | '\t' :: rest => endsLine rest
  | '\n' :: _ => true
  | '\r' :: '\n' :: _ => true
  | _ => false

/-- A string of several lines in double quotes, behind the opening ones.  A backslash at the end of
a line takes all blanks and line breaks behind it away, which is what `trimming` does. -/
def multiBasic? : (trimming : Bool) → Text → Option (Text × Text)
  | _, [] => none
  | true, ' ' :: rest => multiBasic? true rest
  | true, '\t' :: rest => multiBasic? true rest
  | true, '\n' :: rest => multiBasic? true rest
  | true, '\r' :: '\n' :: rest => multiBasic? true rest
  | _, '"' :: '"' :: '"' :: rest => some (quotesAtEnd '"' rest)
  | _, '\\' :: 'u' :: a :: b :: c :: d :: rest => do
    let x ← scalar? [a, b, c, d]
    let (t, rest) ← multiBasic? false rest
    return (x :: t, rest)
  | _, '\\' :: 'U' :: a :: b :: c :: d :: e :: f :: g :: h :: rest => do
    let x ← scalar? [a, b, c, d, e, f, g, h]
    let (t, rest) ← multiBasic? false rest
    return (x :: t, rest)
  | _, '\\' :: e :: rest =>
    if endsLine (e :: rest) then multiBasic? true (e :: rest)
    else do
      let x ← escaped? e
      let (t, rest) ← multiBasic? false rest
      return (x :: t, rest)
  | _, '\r' :: '\n' :: rest => do
    let (t, rest) ← multiBasic? false rest
    return ('\n' :: t, rest)
  | _, c :: rest =>
    if c = '\n' ∨ (c ≠ '\\' ∧ isPlain c) then do
      let (t, rest) ← multiBasic? false rest
      return (c :: t, rest)
    else none

def multiLiteral? : Text → Option (Text × Text)
  | [] => none
  | '\'' :: '\'' :: '\'' :: rest => some (quotesAtEnd '\'' rest)
  | '\r' :: '\n' :: rest => do
    let (t, rest) ← multiLiteral? rest
    return ('\n' :: t, rest)
  | c :: rest =>
    if c = '\n' ∨ isPlain c then do
      let (t, rest) ← multiLiteral? rest
      return (c :: t, rest)
    else none

/-- A line break right behind the opening quotes does not belong to the string. -/
def dropNewline : Text → Text
  | '\n' :: rest => rest
  | '\r' :: '\n' :: rest => rest
  | t => t

def string? : Text → Option (Text × Text)
  | '"' :: '"' :: '"' :: rest => multiBasic? false (dropNewline rest)
  | '"' :: rest => basic? rest
  | '\'' :: '\'' :: '\'' :: rest => multiLiteral? (dropNewline rest)
  | '\'' :: rest => literal? rest
  | _ => none

def longestRun (c : Char) : (run : Nat) → Text → Nat
  | run, [] => run
  | run, d :: rest => if d = c then longestRun c (run + 1) rest else max run (longestRun c 0 rest)

def escapeControl (c : Char) : Text :=
  match c with
  | '\x08' => ['\\', 'b']
  | '\t' => ['\\', 't']
  | '\x0c' => ['\\', 'f']
  | '\r' => ['\\', 'r']
  | '\\' => ['\\', '\\']
  | c =>
    if isControl c then '\\' :: 'u' :: (Text.hex 4 c.toNat).map Char.toUpper else [c]

def escapeBasic (c : Char) : Text :=
  if c = '"' then ['\\', '"']
  else if c = '\n' then ['\\', 'n']
  else escapeControl c

/-- A text in triple double quotes: every third quote of a run is escaped. -/
def escapeMulti : (run : Nat) → Text → Text
  | _, [] => []
  | run, c :: rest =>
    if c = '"' then
      if run = 2 then '\\' :: '"' :: escapeMulti 0 rest else '"' :: escapeMulti (run + 1) rest
    else escapeControl c ++ escapeMulti 0 rest

inductive Style
  | basic | literal | multiBasic | multiLiteral
  deriving DecidableEq, Repr

/-- The form a string is written in: plain double quotes if nothing needs an escape, then single
quotes, then the forms that take single or double quotes inside, and escapes where nothing else
helps. -/
def Style.of (t : Text) : Style :=
  let control := t.any isControl
  let backslash := t.any (· == '\\')
  let newline := t.any (· == '\n')
  let double := longestRun '"' 0 t
  let single := longestRun '\'' 0 t
  if !control && !backslash && double == 0 && !newline then .basic
  else if !control && single == 0 && !newline then .literal
  else if !control && !backslash && double ≤ 2 then .multiBasic
  else if !control && single ≤ 2 then .multiLiteral
  else if newline then .multiBasic
  else .basic

def quote (t : Text) : Text :=
  let start : Text := if t.any (· == '\n') then ['\n'] else []
  match Style.of t with
  | .basic => '"' :: t.flatMap escapeBasic ++ ['"']
  | .literal => '\'' :: t ++ ['\'']
  | .multiBasic => ['"', '"', '"'] ++ start ++ escapeMulti 0 t ++ ['"', '"', '"']
  | .multiLiteral => ['\'', '\'', '\''] ++ start ++ t ++ ['\'', '\'', '\'']

end ScriptNotebook.Toml
