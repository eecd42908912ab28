import Mathlib.Data.List.Basic
import TypeSuite.Text.Quoted

/-!
# Reading pieces of text

Readers take a piece off the front of a text and return it with the rest. `read_quoted_quote` says
that reading a quoted text undoes `quote` in front of any rest, and `read_marked_append` that a
string token ends at its closing mark whatever follows it.
-/

namespace TypeSuite.Text

/-- Takes a fixed word off the front of a text. -/
def skip? (word : String) (text : List Char) : Option (List Char) :=
  text.dropPrefix? word.toList

/-- A fixed word is taken off whatever follows it. -/
theorem skip_append (word : String) (rest : List Char) :
    skip? word (word.toList ++ rest) = some rest :=
  List.dropPrefix?_append_of_beq rest (beq_self_eq_true _)

/-- A fixed word is not taken off a text that starts with another character. -/
theorem skip_of_head_ne {word : String} {text : List Char} {c d : Char}
    (hword : word.toList.head? = some c) (htext : text.head? = some d) (hne : c ≠ d) :
    skip? word text = none := by
  obtain ⟨cs, hcs⟩ := List.head?_eq_some_iff.mp hword
  obtain ⟨ds, rfl⟩ := List.head?_eq_some_iff.mp htext
  rw [skip?, hcs]
  simp [List.dropPrefix?, hne.symm]

/-! ## Quoted text -/

/-- The value of a hexadecimal digit of either case. -/
def hexValue? (c : Char) : Option Nat :=
  if '0' ≤ c ∧ c ≤ '9' then some (c.toNat - 48)
  else if 'a' ≤ c ∧ c ≤ 'f' then some (c.toNat - 87)
  else if 'A' ≤ c ∧ c ≤ 'F' then some (c.toNat - 55)
  else none

/-- The character of which four hexadecimal digits are the code. -/
def codedChar? (a b c d : Char) : Option Char := do
  let code := (((← hexValue? a) * 16 + (← hexValue? b)) * 16 + (← hexValue? c)) * 16 +
    (← hexValue? d)
  if code.isValidChar then some (Char.ofNat code) else none

/-- The character that a backslash and a single character stand for. -/
def namedChar? : Char → Option Char
  | '\x22' => some '\x22'
  | '\\' => some '\\'
  | '/' => some '/'
  | 'b' => some '\x08'
  | 'f' => some '\x0c'
  | 'n' => some '\n'
  | 'r' => some '\r'
  | 't' => some '\t'
  | _ => none

/-- Puts a character in front of a text that was read. -/
def consRead (c : Char) (read : List Char × List Char) : List Char × List Char :=
  (c :: read.1, read.2)

/-- Reads the characters up to the closing double quote. A character below the space, or a
backslash that starts no escape, is refused. -/
def readQuotedEnd? : List Char → Option (List Char × List Char)
  | [] => none
  | '\x22' :: rest => some ([], rest)
  | '\\' :: 'u' :: a :: b :: c :: d :: rest => do
    let x ← codedChar? a b c d
    consRead x <$> readQuotedEnd? rest
  | '\\' :: e :: rest => do
    let x ← namedChar? e
    consRead x <$> readQuotedEnd? rest
  | c :: rest =>
    if c = '\\' ∨ c.toNat < 0x20 then none else consRead c <$> readQuotedEnd? rest

/-- Reads a text between double quotes. -/
def readQuoted? : List Char → Option (String × List Char)
  | '\x22' :: rest => (readQuotedEnd? rest).map fun read => (String.ofList read.1, read.2)
  | _ => none

/-- A hexadecimal digit reads as the number it was written for. -/
theorem hex_value_hex_digit : ∀ n < 16, hexValue? (hexDigit n) = some n := by
  decide

/-- The code of a character below the space reads as that character. -/
theorem coded_char_control {c : Char} (h : c.toNat < 0x20) :
    codedChar? '0' '0' (hexDigit (c.toNat / 16)) (hexDigit (c.toNat % 16)) = some c := by
  have hzero : hexValue? '0' = some 0 := by decide
  have hhigh := hex_value_hex_digit (c.toNat / 16) (by omega)
  have hlow := hex_value_hex_digit (c.toNat % 16) (by omega)
  have hcode : c.toNat / 16 * 16 + c.toNat % 16 = c.toNat := by omega
  have hvalid : c.toNat.isValidChar := Or.inl (by omega)
  simp [codedChar?, hzero, hhigh, hlow, hcode, hvalid]

/-- A character that needs no escape is read as itself. -/
theorem read_quoted_end_plain {c : Char} (hquote : c ≠ '\x22') (hslash : c ≠ '\\')
    (hspace : ¬ c.toNat < 0x20) (rest : List Char) :
    readQuotedEnd? (c :: rest) = consRead c <$> readQuotedEnd? rest := by
  rw [readQuotedEnd?.eq_def]
  split <;> grind

/-- Reading an escaped character gives it back in front of what is read after it. -/
theorem read_quoted_end_escape_char (c : Char) (rest : List Char) :
    readQuotedEnd? (escapeChar c ++ rest) = consRead c <$> readQuotedEnd? rest := by
  unfold escapeChar
  split
  case h_8 hquote hslash _ _ _ _ _ =>
    split
    case isTrue h => simp [readQuotedEnd?, coded_char_control h]
    case isFalse h => exact read_quoted_end_plain hquote hslash h rest
  all_goals simp [readQuotedEnd?, namedChar?]

/-- Reading up to the closing quote undoes the escapes of a text. -/
theorem read_quoted_end_escaped (text rest : List Char) :
    readQuotedEnd? (text.flatMap escapeChar ++ '\x22' :: rest) = some (text, rest) := by
  induction text with
  | nil => simp [readQuotedEnd?]
  | cons c text ih =>
      rw [List.flatMap_cons, List.append_assoc, read_quoted_end_escape_char, ih]
      rfl

/-- Reading a quoted text gives the text back, whatever follows it. -/
theorem read_quoted_quote (text : String) (rest : List Char) :
    readQuoted? ((quote text).toList ++ rest) = some (text, rest) := by
  have h := read_quoted_end_escaped text.toList rest
  simp [quote, readQuoted?, h]

/-! ## Literals -/

/-- Reads the characters up to and including a closing mark. The character behind a backslash
closes nothing. -/
def readMarkedEnd? (mark : Char) : List Char → Option (List Char × List Char)
  | [] => none
  | '\\' :: c :: rest => (consRead '\\' ∘ consRead c) <$> readMarkedEnd? mark rest
  | c :: rest => if c = mark then some ([c], rest) else consRead c <$> readMarkedEnd? mark rest

/-- Characters that may stand between two equal marks: the mark is among them only behind a
backslash, and no backslash is left without a character behind it. -/
def IsMarked (mark : Char) : List Char → Prop
  | [] => True
  | '\\' :: _ :: rest => IsMarked mark rest
  | c :: rest => c ≠ mark ∧ c ≠ '\\' ∧ IsMarked mark rest

/-- One quoted string token on one line. -/
def IsStringToken (text : String) : Prop :=
  ∃ mark body, isQuote mark = true ∧ text.toList = mark :: (body ++ [mark]) ∧
    IsMarked mark body ∧ '\n' ∉ body

/-- A text on one line that opens no quotes and closes no parenthesis. A text without quotes,
parentheses and line breaks is such a text. -/
def IsBare (text : String) : Prop :=
  (∀ mark ∈ text.toList.head?, isQuote mark = false) ∧ ')' ∉ text.toList ∧ '\n' ∉ text.toList

/-- A literal as it may be written in a source. -/
def IsLiteral (text : String) : Prop :=
  IsStringToken text ∨ IsBare text

/-- Reads a literal in front of a closing parenthesis. -/
def readLiteral? (text : List Char) : Option (String × List Char) :=
  match text with
  | [] => none
  | c :: rest =>
    if isQuote c then
      (readMarkedEnd? c rest).map fun read => (String.ofList (c :: read.1), read.2)
    else some (String.ofList (text.takeWhile (· != ')')), text.dropWhile (· != ')'))

/-- What stands between two marks is read up to the second one. -/
theorem read_marked_append {mark : Char} (hmark : mark ≠ '\\') {body : List Char}
    (h : IsMarked mark body) (rest : List Char) :
    readMarkedEnd? mark (body ++ mark :: rest) = some (body ++ [mark], rest) := by
  induction body using IsMarked.induct with
  | case1 =>
      rw [List.nil_append, readMarkedEnd?.eq_def]
      split <;> grind
  | case2 c body ih =>
      simp only [List.cons_append, readMarkedEnd?, ih h]
      rfl
  | case3 c body hpair ih =>
      rw [IsMarked.eq_3 _ _ _ hpair] at h
      obtain ⟨hne, hslash, hbody⟩ := h
      rw [List.cons_append, readMarkedEnd?.eq_def]
      split <;> simp_all [consRead]

/-- No quote is a backslash. -/
theorem quote_ne_backslash {mark : Char} (h : isQuote mark = true) : mark ≠ '\\' := by
  rintro rfl
  exact absurd h (by decide)

/-- A literal is on one line. -/
theorem IsLiteral.on_one_line {text : String} (h : IsLiteral text) : '\n' ∉ text.toList := by
  rcases h with ⟨mark, body, hquote, htext, -, hbody⟩ | ⟨-, -, hline⟩
  · have hmark : mark ≠ '\n' := by
      rintro rfl
      exact absurd hquote (by decide)
    simp [htext, hbody, hmark.symm]
  · exact hline

/-- A literal is read in full in front of a closing parenthesis. -/
theorem read_literal_append {text : String} (h : IsLiteral text) (rest : List Char) :
    readLiteral? (text.toList ++ ')' :: rest) = some (text, ')' :: rest) := by
  rcases h with ⟨mark, body, hquote, htext, hbody, -⟩ | ⟨hhead, hclose, -⟩
  · have hread := read_marked_append (quote_ne_backslash hquote) hbody (')' :: rest)
    have htoken : String.ofList (mark :: (body ++ [mark])) = text := by
      rw [← htext, String.ofList_toList]
    simp only [htext, List.cons_append, List.append_assoc, List.nil_append, readLiteral?, hquote,
      if_true, hread, Option.map_some, htoken]
  · have hstay : ∀ c ∈ text.toList, (c != ')') = true := by
      intro c hc
      simpa using fun (heq : c = ')') => hclose (heq ▸ hc)
    have htake : (text.toList ++ ')' :: rest).takeWhile (· != ')') = text.toList := by
      simp [List.takeWhile_append_of_pos hstay]
    have hdrop : (text.toList ++ ')' :: rest).dropWhile (· != ')') = ')' :: rest := by
      simp [List.dropWhile_append_of_pos hstay]
    have hopen : ∀ mark ∈ (text.toList ++ ')' :: rest).head?, isQuote mark = false := by
      cases htext : text.toList with
      | nil => simp [show isQuote ')' = false by decide]
      | cons c cs => simpa [htext] using hhead
    rw [readLiteral?.eq_def]
    split
    case h_1 hnil => simp at hnil
    case h_2 c cs hcons =>
      have hc : isQuote c = false := hopen c (by simp [hcons])
      rw [htake, hdrop, String.ofList_toList, if_neg (by simp [hc])]

/-! ## Names -/

/-- A character of a name: an ASCII letter or digit, `_`, `$`, or any character beyond ASCII. -/
def isNameChar (c : Char) : Bool :=
  c.isAlphanum || c == '_' || c == '$' || decide (0x80 ≤ c.toNat)

/-- A text of which every character may stand in a name. -/
def IsName (text : String) : Prop :=
  ∀ c ∈ text.toList, isNameChar c = true

/-- Reads the characters of a name. -/
def readName (text : List Char) : String × List Char :=
  (String.ofList (text.takeWhile isNameChar), text.dropWhile isNameChar)

/-- A name is read in full in front of a character that cannot stand in it. -/
theorem read_name_append {name : String} (h : IsName name) {c : Char}
    (hc : isNameChar c = false) (rest : List Char) :
    readName (name.toList ++ c :: rest) = (name, c :: rest) := by
  simp [readName, List.takeWhile_append_of_pos h, List.dropWhile_append_of_pos h, hc]

/-! ## Repetition -/

/-- Reads pieces for as long as the text goes on with the word that starts each of them. -/
def readMany? {α : Type} (word : String) (piece? : List Char → Option (α × List Char)) :
    Nat → List Char → Option (List α × List Char)
  | 0, _ => none
  | fuel + 1, text =>
    match skip? word text with
    | none => some ([], text)
    | some rest => do
      let (first, rest) ← piece? rest
      let (others, rest) ← readMany? word piece? fuel rest
      return (first :: others, rest)

/-- The text of pieces that start with the same word. -/
def manyText {α : Type} (word : String) (pieceText : α → List Char) (pieces : List α) :
    List Char :=
  pieces.flatMap fun a => word.toList ++ pieceText a

/-- Pieces that are read one by one are read together, up to a text that starts no further one. -/
theorem read_many_append {α : Type} {word : String} {piece? : List Char → Option (α × List Char)}
    {pieceText : α → List Char} {pieces : List α}
    (hpiece : ∀ a ∈ pieces, ∀ rest, piece? (pieceText a ++ rest) = some (a, rest))
    {fuel : Nat} (hfuel : pieces.length < fuel) {rest : List Char}
    (hrest : skip? word rest = none) :
    readMany? word piece? fuel (manyText word pieceText pieces ++ rest) = some (pieces, rest) := by
  -- One step is for each piece and one more for the end, at which no piece starts.
  obtain ⟨fuel, rfl⟩ : ∃ k, fuel = k + 1 := ⟨fuel - 1, by omega⟩
  induction pieces generalizing fuel with
  | nil => simp [manyText, readMany?, hrest]
  | cons a pieces ih =>
      obtain ⟨fuel, rfl⟩ : ∃ k, fuel = k + 1 := ⟨fuel - 1, by grind⟩
      have hothers := ih (fun b hb => hpiece b (List.mem_cons_of_mem _ hb)) fuel (by grind)
      have hfirst := hpiece a List.mem_cons_self
      have htext : manyText word pieceText (a :: pieces) =
          word.toList ++ (pieceText a ++ manyText word pieceText pieces) := by
        simp [manyText]
      rw [readMany?, htext]
      simp only [List.append_assoc, skip_append, hfirst, hothers, Option.bind_eq_bind,
        Option.bind_some]
      rfl

/-- There are no more pieces than characters in their text. -/
theorem length_le_many_text {α : Type} {word : String} (hword : word ≠ "")
    (pieceText : α → List Char) (pieces : List α) :
    pieces.length ≤ (manyText word pieceText pieces).length := by
  have hpos : 0 < word.toList.length := by
    rw [List.length_pos_iff]
    simpa using hword
  induction pieces with
  | nil => simp
  | cons a pieces ih =>
      simp only [manyText, List.flatMap_cons, List.length_append, List.length_cons] at ih ⊢
      omega

/-- Pieces are read together when the length of the text bounds their number. -/
theorem read_many_text {α : Type} {word : String} {piece? : List Char → Option (α × List Char)}
    {pieceText : α → List Char} {pieces : List α} (hword : word ≠ "")
    (hpiece : ∀ a ∈ pieces, ∀ rest, piece? (pieceText a ++ rest) = some (a, rest))
    {rest : List Char} (hrest : skip? word rest = none) (hne : rest ≠ []) :
    readMany? word piece? (manyText word pieceText pieces ++ rest).length
      (manyText word pieceText pieces ++ rest) = some (pieces, rest) := by
  have hcount := length_le_many_text hword pieceText pieces
  have hpos := List.length_pos_iff.mpr hne
  apply read_many_append hpiece _ hrest
  rw [List.length_append]
  omega

end TypeSuite.Text
