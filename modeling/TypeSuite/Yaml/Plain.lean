/-!
# What plain scalars mean

A plain scalar that is spelled like a null, a truth value, a number or a date is one; all others are
texts. Numbers may have underscores in them, and those with colons count in sixties.
-/

namespace TypeSuite.Yaml

/-- What the spelling of a plain scalar makes of it. -/
inductive PlainSort where
  | null
  | bool (value : Bool)
  | int
  | float
  | date
  /-- The key of entries that are taken from other mappings. -/
  | merge
  /-- An equals sign on its own. -/
  | equals
  | text
deriving DecidableEq, Repr

namespace Plain

/-- Whether a text is a null. -/
def isNull (text : String) : Bool :=
  ["", "~", "null", "Null", "NULL"].contains text

/-- The truth value of a text. -/
def bool? (text : String) : Option Bool :=
  if ["yes", "Yes", "YES", "true", "True", "TRUE", "on", "On", "ON"].contains text then some true
  else if ["no", "No", "NO", "false", "False", "FALSE", "off", "Off", "OFF"].contains text then
    some false
  else none

/-- A text without its sign. -/
def dropSign : List Char → List Char
  | '+' :: rest => rest
  | '-' :: rest => rest
  | text => text

/-- Whether a character is a digit or an underscore. -/
def isDigitOrGap (c : Char) : Bool :=
  c.isDigit || c == '_'

/-- Groups of a colon and a number below sixty, up to a character that begins none. -/
def afterSixties : List Char → Option (List Char)
  | ':' :: a :: b :: rest =>
    if '0' ≤ a && a ≤ '5' && b.isDigit then
      match rest with
      | ':' :: _ => afterSixties rest
      | rest => some rest
    else if a.isDigit then
      match b with
      | ':' => afterSixties (b :: rest)
      | b => some (b :: rest)
    else none
  | [':', a] => if a.isDigit then some [] else none
  | _ => none

/-- Whether a text is an integer. -/
def isInt (text : List Char) : Bool :=
  match dropSign text with
  | '0' :: rest =>
    match rest with
    | 'b' :: digits => !digits.isEmpty && digits.all fun c => c == '0' || c == '1' || c == '_'
    | 'x' :: digits =>
      !digits.isEmpty && digits.all fun c =>
        isDigitOrGap c || ('a' ≤ c && c ≤ 'f') || ('A' ≤ c && c ≤ 'F')
    | digits => digits.all fun c => ('0' ≤ c && c ≤ '7') || c == '_'
  | c :: rest =>
    c.isDigit &&
      match rest.dropWhile isDigitOrGap with
      | [] => true
      | more => afterSixties more == some []
  | [] => false

/-- Whether a text is an exponent, or nothing. -/
def isExponent : List Char → Bool
  | [] => true
  | e :: sign :: digits =>
    (e == 'e' || e == 'E') && (sign == '+' || sign == '-') && !digits.isEmpty &&
      digits.all Char.isDigit
  | _ => false

/-- Whether a text is what may follow the digits in front of a float's point. -/
def isFloatTail : List Char → Bool
  | '.' :: decimals => isExponent (decimals.dropWhile isDigitOrGap)
  | rest =>
    match afterSixties rest with
    | some ('.' :: decimals) => decimals.all isDigitOrGap
    | _ => false

/-- Whether a text is a float. -/
def isFloat (text : List Char) : Bool :=
  [".nan", ".NaN", ".NAN"].contains (String.ofList text) ||
    [".inf", ".Inf", ".INF"].contains (String.ofList (dropSign text)) ||
    match text with
    | '.' :: c :: rest => c.isDigit && isExponent (rest.dropWhile isDigitOrGap)
    | text =>
      match dropSign text with
      | c :: rest => c.isDigit && isFloatTail (rest.dropWhile isDigitOrGap)
      | [] => false

/-- The number of one or two digits at the front of a text, and what follows them. -/
def shortNumber : List Char → Option (Nat × List Char)
  | a :: rest =>
    if a.isDigit then
      match rest with
      | b :: more =>
        if b.isDigit then some (10 * (a.toNat - 48) + (b.toNat - 48), more)
        else some (a.toNat - 48, rest)
      | [] => some (a.toNat - 48, [])
    else none
  | [] => none

/-- The number of exactly two digits at the front of a text, and what follows them. -/
def twoDigits : List Char → Option (Nat × List Char)
  | a :: b :: rest =>
    if a.isDigit && b.isDigit then some (10 * (a.toNat - 48) + (b.toNat - 48), rest) else none
  | _ => none

/-- What follows a given character. -/
def after (c : Char) : List Char → Option (List Char)
  | d :: rest => if d == c then some rest else none
  | [] => none

/-- A date, perhaps with a time of day and a distance in minutes from universal time. -/
structure Date where
  year : Nat
  month : Nat
  day : Nat
  hour : Nat
  minute : Nat
  second : Nat
  distance : Nat

/-- The distance from universal time at the end of a date; the letter Z stands for none. -/
def distance? (text : List Char) : Option Nat :=
  match text with
  | [] => some 0
  | text =>
    match text.dropWhile fun c => c == ' ' || c == '\t' with
    | ['Z'] => some 0
    | sign :: rest => do
      if sign != '+' && sign != '-' then none
      else do
        let (hours, rest) ← shortNumber rest
        match rest with
        | [] => some (60 * hours)
        | rest => do
          let (minutes, rest) ← twoDigits (← after ':' rest)
          if rest.isEmpty then some (60 * hours + minutes) else none
    | [] => none

/-- The time of day behind a date. -/
def time? (year month day : Nat) (text : List Char) : Option Date := do
  let isBlank (c : Char) : Bool := c == ' ' || c == '\t'
  let rest ← match text with
    | 'T' :: rest => some rest
    | 't' :: rest => some rest
    | text => if text.head?.any isBlank then some (text.dropWhile isBlank) else none
  let (hour, rest) ← shortNumber rest
  let (minute, rest) ← twoDigits (← after ':' rest)
  let (second, rest) ← twoDigits (← after ':' rest)
  let rest := match rest with
    | '.' :: more => more.dropWhile Char.isDigit
    | rest => rest
  let distance ← distance? rest
  return ⟨year, month, day, hour, minute, second, distance⟩

/-- The date that a text spells. A date without a time has two digits everywhere. -/
def date? (text : List Char) : Option Date := do
  let (century, rest) ← twoDigits text
  let (year, rest) ← twoDigits rest
  let year := 100 * century + year
  let fields ← after '-' rest
  let (month, rest) ← shortNumber fields
  let (day, rest) ← shortNumber (← after '-' rest)
  if rest.isEmpty then
    if fields.length == 5 then some ⟨year, month, day, 0, 0, 0, 0⟩ else none
  else time? year month day rest

/-- Whether a year has a day more. -/
def isLeapYear (year : Nat) : Bool :=
  year % 4 == 0 && (year % 100 != 0 || year % 400 == 0)

/-- The number of days in a month. -/
def daysIn (year month : Nat) : Nat :=
  if month == 2 then if isLeapYear year then 29 else 28
  else if [4, 6, 9, 11].contains month then 30
  else 31

/-- Whether there is such a date. -/
def Date.isReal (d : Date) : Bool :=
  1 ≤ d.year && 1 ≤ d.month && d.month ≤ 12 && 1 ≤ d.day && d.day ≤ daysIn d.year d.month &&
    d.hour < 24 && d.minute < 60 && d.second < 60 && d.distance < 24 * 60

/-- Whether a text that is spelled like an integer has a digit in it. -/
def hasDigits (text : List Char) : Bool :=
  match dropSign text with
  | '0' :: 'b' :: digits => digits.any (· != '_')
  | '0' :: 'x' :: digits => digits.any (· != '_')
  | _ => true

/-- What a text makes of a plain scalar. -/
def sortOf (text : String) : PlainSort :=
  let cs := text.toList
  if isNull text then .null
  else match bool? text with
    | some value => .bool value
    | none =>
      if isFloat cs then .float
      else if isInt cs then .int
      else if text == "<<" then .merge
      else if (date? cs).isSome then .date
      else if text == "=" then .equals
      else .text

end Plain

end TypeSuite.Yaml
