import ScriptNotebook.Json.Double

/-!
TOML numbers, dates and times.  Reading one only says where it ends; one out of its range is none.
-/
namespace ScriptNotebook.Toml

/-- Digits with single underscores between them, behind the first digit. -/
def moreDigits (ok : Char → Bool) : Text → Text × Text
  | '_' :: d :: rest =>
    if ok d then
      let (ds, rest) := moreDigits ok rest
      (d :: ds, rest)
    else ([], '_' :: d :: rest)
  | d :: rest =>
    if ok d then
      let (ds, rest) := moreDigits ok rest
      (d :: ds, rest)
    else ([], d :: rest)
  | [] => ([], [])

def digits? (ok : Char → Bool) : Text → Option (Text × Text)
  | d :: rest =>
    if ok d then
      let (ds, rest) := moreDigits ok rest
      some (d :: ds, rest)
    else none
  | [] => none

def isHexDigit (c : Char) : Bool := (hexValue? c).isSome
def isOctalDigit (c : Char) : Bool := '0' ≤ c && c ≤ '7'
def isBinaryDigit (c : Char) : Bool := c == '0' || c == '1'

def valueIn (base : Nat) (digits : Text) : Nat :=
  digits.foldl (fun value d => value * base + (hexValue? d).getD 0) 0

/-- A whole number below `2 ^ 63` in another base than ten. -/
def based? (base : Nat) (ok : Char → Bool) (t : Text) : Option Text := do
  let (ds, rest) ← digits? ok t
  if valueIn base ds < Nat.pow 2 63 then return rest else none

/-- The number with the digits, scaled by `10 ^ exponent`, lies beyond the doubles.  Far from their
end the count of digits decides. -/
def overflows (digits : Text) (exponent : Int) : Bool :=
  let significant := digits.dropWhile (· == '0')
  let magnitude : Int := significant.length + exponent
  if significant = [] ∨ magnitude < 300 then false
  else if 310 < magnitude then true
  else
    let value := Text.decimalValue significant
    (Double.ofQuotient? false (value * Nat.pow 10 exponent.toNat)
      (Nat.pow 10 (-exponent).toNat)).isNone

def whole? : Text → Option (Text × Text)
  | '0' :: rest => some (['0'], rest)
  | t => digits? isDigit t

def fraction? : Text → Option (Option Text × Text)
  | '.' :: rest => (digits? isDigit rest).map fun (ds, rest) => (some ds, rest)
  | t => some (none, t)

def exponent? : Text → Option (Option Int × Text)
  | c :: rest =>
    if c = 'e' ∨ c = 'E' then
      let (negative, rest) := match rest with
        | '-' :: r => (true, r)
        | '+' :: r => (false, r)
        | r => (false, r)
      (digits? isDigit rest).map fun (ds, rest) =>
        let n : Int := Text.decimalValue ds
        (some (if negative then -n else n), rest)
    else some (none, c :: rest)
  | [] => some (none, [])

/-- A decimal number.  Integers have 64 bits; a number with fraction or exponent must not overflow
unless it is negative. -/
def decimal? (negative : Bool) (t : Text) : Option Text := do
  let (whole, t) ← whole? t
  let (fraction, t) ← fraction? t
  let (exponent, t) ← exponent? t
  if fraction = none ∧ exponent = none then
    let value := Text.decimalValue whole
    if value < Nat.pow 2 63 ∨ (negative ∧ value = Nat.pow 2 63) then return t else none
  else
    let digits := fraction.getD []
    let shift : Int := exponent.getD 0 - digits.length
    if !negative && overflows (whole ++ digits) shift then none else return t

def number? (t : Text) : Option Text :=
  let signed (negative : Bool) (t : Text) : Option Text :=
    match t with
    | 'i' :: 'n' :: 'f' :: rest => some rest
    | 'n' :: 'a' :: 'n' :: rest => some rest
    | t => decimal? negative t
  match t with
  | '+' :: rest => signed false rest
  | '-' :: rest => signed true rest
  | '0' :: 'x' :: rest => based? 16 isHexDigit rest
  | '0' :: 'o' :: rest => based? 8 isOctalDigit rest
  | '0' :: 'b' :: rest => based? 2 isBinaryDigit rest
  | t => signed false t

/-- As many digits as asked for, with a value between the bounds. -/
def fixed? (width low high : Nat) (t : Text) : Option (Nat × Text) :=
  let ds := t.take width
  if ds.length = width ∧ ds.all isDigit then
    let n := Text.decimalValue ds
    if low ≤ n ∧ n ≤ high then some (n, t.drop width) else none
  else none

def lit? (c : Char) : Text → Option Text
  | d :: rest => if c = d then some rest else none
  | [] => none

def daysIn (year month : Nat) : Nat :=
  if month = 2 then
    if year % 4 = 0 ∧ (year % 100 ≠ 0 ∨ year % 400 = 0) then 29 else 28
  else if month = 4 ∨ month = 6 ∨ month = 9 ∨ month = 11 then 30
  else 31

def date? (t : Text) : Option Text := do
  let (year, t) ← fixed? 4 0 9999 t
  let (month, t) ← fixed? 2 1 12 (← lit? '-' t)
  let (_, t) ← fixed? 2 1 (daysIn year month) (← lit? '-' t)
  return t

def time? (t : Text) : Option Text := do
  let (_, t) ← fixed? 2 0 23 t
  let (_, t) ← fixed? 2 0 59 (← lit? ':' t)
  let (_, t) ← fixed? 2 0 60 (← lit? ':' t)
  match t with
  | '.' :: d :: rest => return if isDigit d then rest.dropWhile isDigit else t
  | _ => return t

/-- The offset of a time from universal time, which may be missing. -/
def offset (t : Text) : Text :=
  match t with
  | 'Z' :: rest => rest
  | 'z' :: rest => rest
  | c :: rest =>
    if c = '+' ∨ c = '-' then
      let minutes := do
        let (_, t) ← fixed? 2 0 23 rest
        let (_, t) ← fixed? 2 0 59 (← lit? ':' t)
        return t
      minutes.getD t
    else t
  | [] => t

/-- A date, a time, or both with a separator and perhaps an offset. -/
def dateTime? (t : Text) : Option Text :=
  match date? t with
  | none => time? t
  | some rest =>
    match rest with
    | c :: after =>
      if c = 'T' ∨ c = 't' ∨ c = ' ' then
        match time? after with
        | some rest => some (offset rest)
        | none => some rest
      else some rest
    | [] => some []

end ScriptNotebook.Toml
