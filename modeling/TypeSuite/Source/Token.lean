import TypeSuite.Source.Glyph

/-!
# Tokens

A source is cut into names, numbers, quoted texts and marks. Comments and white space vanish, but
each token remembers whether a statement may end in front of it without a semicolon.
-/

namespace TypeSuite.Source

/-- The sort of a token. -/
inductive TokenSort where
  /-- A name or a keyword. -/
  | word
  /-- A name with a number sign in front. -/
  | privateName
  | number
  | string
  | template
  | pattern
  | mark
  /-- The end of the source. -/
  | finish
deriving DecidableEq, Repr, Inhabited

/-- A token with its place in the source. -/
structure Token where
  sort : TokenSort
  text : String
  start : Nat
  stop : Nat
  row : Nat
  column : Nat
  /-- The place of an automatic semicolon in front of the token, when a line break, a closing brace
  or the end of the source leaves room for one. -/
  breakAt : Option Nat
deriving Inhabited, Repr

/-! ## Blanks and comments -/

/-- What follows a line comment. -/
def skipLine : List Glyph → List Glyph
  | [] => []
  | g :: rest =>
    if g.char == '\n' || g.char == '\r' || g.char == '\u2028' || g.char == '\u2029' then g :: rest
    else skipLine rest

/-- What follows a block comment; `none` when it is not closed. -/
def skipBlock : List Glyph → Option (List Glyph)
  | [] => none
  | [_] => none
  | g :: h :: rest =>
    if g.char == '*' && h.char == '/' then some rest else skipBlock (h :: rest)

/-- The byte at which the rest of a source begins. -/
def offsetOf (size : Nat) : List Glyph → Nat
  | [] => size
  | g :: _ => g.start

/-- Skips blanks and comments. The result also says where a line break first left room for an
automatic semicolon: after the last token or comment in front of the break. -/
def skipGap (size : Nat) :
    (count at_ : Nat) → Option Nat → List Glyph → Option (Nat × Option Nat × List Glyph)
  | 0, at_, found, gs => some (at_, found, gs)
  | count + 1, at_, found, gs =>
    match gs with
    | [] => some (at_, found, [])
    | g :: rest =>
      if isSpace g.char then
        skipGap size count at_ (if g.char == '\n' then found.or (some at_) else found) rest
      else
        match g.char, rest with
        | '/', h :: more =>
          if h.char == '/' then
            let after := skipLine more
            skipGap size count (offsetOf size after) found after
          else if h.char == '*' then
            (skipBlock more).bind fun after =>
              skipGap size count (offsetOf size after) found after
          else some (at_, found, gs)
        | _, _ => some (at_, found, gs)

/-! ## Names -/

/-- Whether a character is a hexadecimal digit. -/
def isHex (c : Char) : Bool :=
  c.isDigit || ('a' ≤ c && c ≤ 'f') || ('A' ≤ c && c ≤ 'F')

/-- What follows the hexadecimal digits in front. -/
def dropHex (gs : List Glyph) : List Glyph :=
  gs.dropWhile fun g => isHex g.char

/-- What follows a character escape, from the letter after the backslash on. -/
def skipNameEscape? (gs : List Glyph) : Option (List Glyph) :=
  match gs with
  | u :: open_ :: rest =>
    if u.char != 'u' then none
    else if open_.char == '\x7b' then
      match dropHex rest with
      | close :: after =>
        if close.char == '\x7d' && after.length + 1 < rest.length then some after else none
      | [] => none
    else if ((open_ :: rest).take 4).all (fun g => isHex g.char) && 3 ≤ rest.length then
      some (rest.drop 3)
    else none
  | _ => none

/-- What follows the characters of a name. -/
def skipName : Nat → List Glyph → List Glyph
  | 0, gs => gs
  | count + 1, gs =>
    match gs with
    | [] => []
    | g :: rest =>
      if g.continuesName then skipName count rest
      else if g.char == '\\' then
        match skipNameEscape? rest with
        | some after => skipName count after
        | none => gs
      else gs

/-- What follows a name of at most `count` more characters; `none` when no name begins here. -/
def skipWord? (count : Nat) (gs : List Glyph) : Option (List Glyph) :=
  match gs with
  | [] => none
  | g :: rest =>
    if g.beginsName then some (skipName count rest)
    else if g.char == '\\' then (skipNameEscape? rest).map (skipName count)
    else none

/-! ## Numbers -/

/-- What follows digits that single underscores may separate. -/
def skipDigits (p : Char → Bool) : List Glyph → List Glyph
  | [] => []
  | [g] => if p g.char then [] else [g]
  | g :: h :: rest =>
    if p g.char then skipDigits p (h :: rest)
    else if g.char == '_' && p h.char then skipDigits p rest
    else g :: h :: rest

/-- What follows digits of which there must be at least one. -/
def someDigits? (p : Char → Bool) (gs : List Glyph) : Option (List Glyph) :=
  match gs with
  | g :: rest => if p g.char then some (skipDigits p rest) else none
  | [] => none

/-- What follows an exponent, or the text itself when none begins here. -/
def skipExponent (gs : List Glyph) : List Glyph :=
  match gs with
  | e :: rest =>
    if e.char == 'e' || e.char == 'E' then
      let digits := match rest with
        | s :: more => if s.char == '+' || s.char == '-' then more else rest
        | [] => rest
      (someDigits? Char.isDigit digits).getD gs
    else gs
  | [] => gs

/-- What follows the letter that marks a big integer. -/
def skipBig (gs : List Glyph) : List Glyph :=
  match gs with
  | g :: rest => if g.char == 'n' then rest else gs
  | [] => gs

/-- The digits of a base that a letter after a zero announces. -/
def baseDigits? (letter : Char) : Option (Char → Bool) :=
  match letter with
  | 'x' | 'X' => some isHex
  | 'b' | 'B' => some fun c => c == '0' || c == '1'
  | 'o' | 'O' => some fun c => '0' ≤ c && c ≤ '7'
  | _ => none

/-- What follows a number with a base; `none` when there is none here. -/
def skipBased? (gs : List Glyph) : Option (List Glyph) :=
  match gs with
  | z :: letter :: rest =>
    if z.char == '0' then
      (baseDigits? letter.char).bind fun p => (someDigits? p rest).map skipBig
    else none
  | _ => none

/-- Whether digits may be followed by a point or an exponent: they are a zero alone, or begin with
another digit after at most one zero. -/
def isWhole (gs : List Glyph) : Bool :=
  match gs with
  | g :: rest =>
    if g.char == '0' then
      match rest with
      | h :: _ => !(h.char == '0' || h.char == '_')
      | [] => true
    else g.char.isDigit
  | [] => false

/-- What follows a number without a base; `none` when none begins here. -/
def skipDecimal? (gs : List Glyph) : Option (List Glyph) :=
  match gs with
  | [] => none
  | g :: rest =>
    if g.char == '.' then (someDigits? Char.isDigit rest).map skipExponent
    else
      (someDigits? Char.isDigit gs).map fun after =>
        match after with
        | point :: more =>
          if point.char == '.' && isWhole gs then
            skipExponent (skipDigits Char.isDigit more)
          else if point.char == 'n' then more
          else if isWhole gs then skipExponent after
          else after
        | [] => after

/-- What follows a number; `none` when none begins here. -/
def skipNumber? (gs : List Glyph) : Option (List Glyph) :=
  (skipBased? gs).or (skipDecimal? gs)

/-! ## Quoted texts -/

/-- What follows the escape of a quoted text, from the character after the backslash on. -/
def skipEscape? (gs : List Glyph) : Option (List Glyph) :=
  match gs with
  | [] => none
  | g :: rest =>
    match g.char with
    | 'u' => skipNameEscape? gs
    | 'x' => if (rest.take 2).all (fun g => isHex g.char) && 2 ≤ rest.length then
        some (rest.drop 2) else none
    | '\r' =>
      match rest with
      | h :: more => some (if h.char == '\n' then more else rest)
      | [] => some rest
    | _ => some rest

/-- What follows a text in the given quotes, from its first inner character on. -/
def skipString? (quote : Char) : Nat → List Glyph → Option (List Glyph)
  | 0, _ => none
  | count + 1, gs =>
    match gs with
    | [] => none
    | g :: rest =>
      if g.char == quote then some rest
      else if g.char == '\n' || g.char == '\r' then none
      else if g.char == '\\' then (skipEscape? rest).bind (skipString? quote count)
      else skipString? quote count rest

/-- What encloses a place inside a template. -/
inductive Enclosure where
  | template
  | braces
  | quotes (quote : Char)

/-- What follows a template, given what is open around the rest. -/
def skipTemplate? : List Enclosure → List Glyph → Option (List Glyph)
  | [], gs => some gs
  | _ :: _, [] => none
  | .template :: outer, [g] => if g.char == '\x60' && outer.isEmpty then some [] else none
  | .template :: outer, g :: h :: rest =>
    if g.char == '\x60' then skipTemplate? outer (h :: rest)
    else if g.char == '\\' then skipTemplate? (.template :: outer) rest
    else if g.char == '$' && h.char == '\x7b' then
      skipTemplate? (.braces :: .template :: outer) rest
    else skipTemplate? (.template :: outer) (h :: rest)
  | .braces :: outer, g :: rest =>
    if g.char == '\x7d' then skipTemplate? outer rest
    else if g.char == '\x7b' then skipTemplate? (.braces :: .braces :: outer) rest
    else if g.char == '\x60' then skipTemplate? (.template :: .braces :: outer) rest
    else if g.char == '\x22' || g.char == '\x27' then
      skipTemplate? (.quotes g.char :: .braces :: outer) rest
    else skipTemplate? (.braces :: outer) rest
  | .quotes _ :: _, [_] => none
  | .quotes q :: outer, g :: h :: rest =>
    if g.char == q then skipTemplate? outer (h :: rest)
    else if g.char == '\\' then skipTemplate? (.quotes q :: outer) rest
    else if g.char == '\n' then none
    else skipTemplate? (.quotes q :: outer) (h :: rest)

/-- What follows the body of a regular expression. -/
def skipPattern? : (inClass : Bool) → List Glyph → Option (List Glyph)
  | _, [] => none
  | inClass, [g] => if g.char == '/' && !inClass then some [] else none
  | inClass, g :: h :: rest =>
    if g.char == '\n' then none
    else if g.char == '\\' then skipPattern? inClass rest
    else if g.char == '/' && !inClass then some (h :: rest)
    else if g.char == '[' then skipPattern? true (h :: rest)
    else if g.char == ']' then skipPattern? false (h :: rest)
    else skipPattern? inClass (h :: rest)

/-! ## Marks -/

/-- The marks of more than one character, longer ones first. Angle brackets always stand alone. -/
def longMarks : List String :=
  ["===", "!==", "**=", "&&=", "||=", "??=", "...", "=>", "==", "!=", "**", "++", "--", "+=", "-=",
   "*=", "/=", "%=", "&&", "||", "??", "?.", "&=", "|=", "^="]

/-- The marks of one character. -/
def shortMarks : List Char :=
  ['\x7b', '\x7d', '(', ')', '[', ']', ';', ',', '<', '>', '+', '-', '*', '/', '%', '&', '|', '^',
   '!', '~', '?', ':', '=', '.', '@']

/-- Whether a text continues with the given characters. -/
def startsWith : List Char → List Glyph → Bool
  | [], _ => true
  | _ :: _, [] => false
  | c :: cs, g :: gs => g.char == c && startsWith cs gs

/-- The mark that a text begins with, as its number of characters. -/
def markLength? (gs : List Glyph) : Option Nat :=
  match longMarks.find? (fun m => startsWith m.toList gs) with
  | some m => some m.length
  | none =>
    match gs with
    | g :: _ => if shortMarks.contains g.char then some 1 else none
    | [] => none

/-- Words after which an operand follows. -/
def operandWords : List String :=
  ["return", "typeof", "case", "in", "of", "delete", "void", "throw", "new", "instanceof", "else",
   "do", "yield", "await"]

/-- Whether a slash after the given token begins a regular expression. -/
def allowsPattern (previous : Option Token) : Bool :=
  match previous with
  | none => true
  | some t =>
    match t.sort with
    | .word => operandWords.contains t.text
    | .mark => !(t.text == ")" || t.text == "]" || t.text == "\x7d")
    | _ => false

/-! ## The token list -/

/-- The sort of the token that a text of fewer than `count` characters begins with, and what follows
the token. -/
def scan (count : Nat) (previous : Option Token) (gs : List Glyph) :
    Option (TokenSort × List Glyph) :=
  match gs with
  | [] => none
  | g :: rest =>
    let mark := (markLength? gs).map fun n => (.mark, gs.drop n)
    if g.char == '\x22' || g.char == '\x27' then
      (skipString? g.char count rest).map fun after => (.string, after)
    else if g.char == '\x60' then
      (skipTemplate? [.template] rest).map fun after => (.template, after)
    else if g.char.isDigit then (skipNumber? gs).map fun after => (.number, after)
    else if g.char == '.' then
      match skipNumber? gs with
      | some after => some (.number, after)
      | none => mark
    else if g.char == '#' then (skipWord? count rest).map fun after => (.privateName, after)
    else if g.char == '/' && allowsPattern previous then
      match skipPattern? false rest with
      | some after => some (.pattern, skipName count after)
      | none => mark
    else
      match skipWord? count gs with
      | some after => some (.word, after)
      | none => mark

/-- The text of the glyphs in front of a byte. -/
def textBefore (stop : Nat) (gs : List Glyph) : String :=
  String.ofList ((gs.takeWhile (·.start < stop)).map (·.char))

/-- The token that ends a source. -/
def finish (size : Nat) (at_ : Nat) : Token :=
  { sort := .finish, text := "", start := size, stop := size, row := 0, column := 0
    breakAt := some at_ }

/-- Cuts a text into tokens, the last of which is the end of the source. -/
def cut (size : Nat) :
    Nat → Option Token → Nat → List Glyph → Array Token → Option (List Token)
  | 0, _, _, _, _ => none
  | count + 1, previous, at_, gs, acc =>
    match skipGap size (count + 1) at_ none gs with
    | none => none
    | some (at_, found, []) => some (acc.push (finish size (found.getD at_))).toList
    | some (at_, found, g :: rest) =>
      match scan (count + 1) previous (g :: rest) with
      | none => none
      | some (sort, after) =>
        let stop := offsetOf size after
        let token : Token :=
          { sort
            text := textBefore stop (g :: rest)
            start := g.start, stop, row := g.row, column := g.column
            breakAt := if g.char == '\x7d' then some (found.getD at_) else found }
        cut size count (some token) stop after (acc.push token)

/-- The tokens from a place of a source on; `none` when a character fits no token. -/
def tokens (size start : Nat) (gs : List Glyph) : Option (List Token) :=
  cut size (gs.length + 1) none start gs #[]

end TypeSuite.Source
