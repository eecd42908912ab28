import Mathlib.Data.Nat.Digits.Lemmas
import TypeSuite.Proofs.Text.Escaping

/-!
# String literals as property names

A quoted property name is a string literal, which is built from pieces. Each piece has a text and
contributes code units to the value of the literal, by the rules of ECMAScript. The value is given
as code points, with surrogate pairs joined.

`unquote_eq_value_iff` says that unquoting gives the value of exactly those literals in which no
escape sequence has more than one character behind its backslash, and no backslash ends a line.
-/

namespace TypeSuite.Text

/-! ## Code units -/

/-- The UTF-16 code units of a code point. -/
def codeUnits (n : Nat) : List Nat :=
  if n < 0x10000 then [n] else [0xd800 + (n - 0x10000) / 0x400, 0xdc00 + (n - 0x10000) % 0x400]

/-- Whether two code units are a surrogate pair, a high one in front of a low one. -/
def IsPair (high low : Nat) : Prop :=
  (0xd800 ≤ high ∧ high < 0xdc00) ∧ 0xdc00 ≤ low ∧ low < 0xe000

instance (high low : Nat) : Decidable (IsPair high low) :=
  inferInstanceAs (Decidable (_ ∧ _))

/-- The code points of a sequence of code units: a surrogate pair is one code point, and every other
unit is a code point by itself. -/
def joinUnits : List Nat → List Nat
  | [] => []
  | [unit] => [unit]
  | high :: low :: rest =>
    if IsPair high low then (0x10000 + 0x400 * (high - 0xd800) + (low - 0xdc00)) :: joinUnits rest
    else high :: joinUnits (low :: rest)

/-- Joined code units are the units of the code points. -/
theorem code_units_join_units {units : List Nat} (h : ∀ n ∈ units, n < 0x10000) :
    (joinUnits units).flatMap codeUnits = units := by
  induction units using joinUnits.induct with
  | case1 => rfl
  | case2 unit =>
      have hunit := h unit List.mem_cons_self
      simp [joinUnits, codeUnits, hunit]
  | case3 high low rest hpair ih =>
      have hrest := ih fun n hn => h n (List.mem_cons_of_mem _ (List.mem_cons_of_mem _ hn))
      obtain ⟨hhigh, hlow⟩ := hpair
      rw [joinUnits, if_pos ⟨hhigh, hlow⟩, List.flatMap_cons, hrest, codeUnits, if_neg (by omega)]
      simp only [List.cons_append, List.nil_append, List.cons.injEq, and_true]
      omega
  | case4 high low rest hpair ih =>
      have hhigh := h high List.mem_cons_self
      have hrest := ih fun n hn => h n (List.mem_cons_of_mem _ hn)
      rw [joinUnits, if_neg hpair, List.flatMap_cons, hrest, codeUnits, if_pos hhigh]
      rfl

/-- A character is no surrogate. -/
theorem not_surrogate (c : Char) : c.toNat < 0xd800 ∨ 0xdfff < c.toNat ∧ c.toNat < 0x110000 :=
  c.valid

/-- The units of characters are joined to the code points of the characters. -/
theorem join_units_code_units (text : List Char) :
    joinUnits (text.flatMap fun c => codeUnits c.toNat) = text.map Char.toNat := by
  induction text with
  | nil => rfl
  | cons c text ih =>
      have hc := not_surrogate c
      rw [List.flatMap_cons, List.map_cons, ← ih, codeUnits]
      split
      case isTrue hsmall =>
        generalize text.flatMap _ = units
        cases units with
        | nil => rfl
        | cons unit units =>
            have hpair : ¬ IsPair c.toNat unit := fun h => by
              have := h.1
              omega
            rw [List.cons_append, List.nil_append, joinUnits, if_neg hpair]
      case isFalse hlarge =>
        have hpair : IsPair (0xd800 + (c.toNat - 0x10000) / 0x400)
            (0xdc00 + (c.toNat - 0x10000) % 0x400) := by
          unfold IsPair
          omega
        rw [List.cons_append, List.cons_append, List.nil_append, joinUnits, if_pos hpair,
          List.cons.injEq]
        exact ⟨by omega, rfl⟩

/-- A code point has a unit. -/
theorem code_units_length_pos (n : Nat) : 0 < (codeUnits n).length := by
  unfold codeUnits
  split <;> simp

/-- A code point has at most two units. -/
theorem code_units_length_le (n : Nat) : (codeUnits n).length ≤ 2 := by
  unfold codeUnits
  split <;> simp

/-- The units of a code point have sixteen bits. -/
theorem lt_of_mem_code_units {n unit : Nat} (hn : n < 0x110000) (h : unit ∈ codeUnits n) :
    unit < 0x10000 := by
  unfold codeUnits at h
  split at h
  · simp at h
    omega
  · simp at h
    omega

/-! ## Pieces of a literal -/

/-- A digit of a hexadecimal number. -/
def IsHexDigit (c : Char) : Prop :=
  (hexValue? c).isSome

instance : DecidablePred IsHexDigit :=
  fun _ => inferInstanceAs (Decidable (_ = true))

/-- The number that hexadecimal digits denote. -/
def hexNumber (digits : List Char) : Nat :=
  Nat.ofDigits 16 (digits.reverse.map fun c => (hexValue? c).getD 0)

/-- The code points of the single-character escapes that do not stand for their characters. -/
def escapeTable : List (Char × Nat) :=
  [('b', 0x08), ('t', 0x09), ('n', 0x0a), ('v', 0x0b), ('f', 0x0c), ('r', 0x0d)]

/-- The sequences of characters that end a line of a source. -/
def lineEnds : List (List Char) :=
  [['\n'], ['\r'], ['\r', '\n'], ['\u2028'], ['\u2029']]

/-- A piece of a string literal between its marks. -/
inductive Piece where
  /-- A character that stands for itself. -/
  | plain (c : Char)
  /-- A backslash and a character that is no digit, which stands for itself or for a control
  character. -/
  | escape (c : Char)
  /-- A backslash and a zero, which stand for the null character. -/
  | null
  /-- The code of a unit in two hexadecimal digits. -/
  | byte (digits : List Char)
  /-- The code of a unit in four hexadecimal digits. -/
  | unit (digits : List Char)
  /-- The code of a code point in hexadecimal digits between braces. -/
  | point (digits : List Char)
  /-- A backslash at the end of a line, which stands for nothing. -/
  | continuation (lineEnd : List Char)
deriving DecidableEq

namespace Piece

/-- How a piece is written. -/
def text : Piece → List Char
  | plain c => [c]
  | escape c => ['\\', c]
  | null => ['\\', '0']
  | byte digits => '\\' :: 'x' :: digits
  | unit digits => '\\' :: 'u' :: digits
  | point digits => '\\' :: 'u' :: '\x7b' :: (digits ++ ['\x7d'])
  | continuation lineEnd => '\\' :: lineEnd

/-- The code units that a piece contributes to the value of a literal. -/
def units : Piece → List Nat
  | plain c => codeUnits c.toNat
  | escape c => codeUnits ((escapeTable.lookup c).getD c.toNat)
  | null => [0]
  | byte digits => [hexNumber digits]
  | unit digits => [hexNumber digits]
  | point digits => codeUnits (hexNumber digits)
  | continuation _ => []

/-- A piece that may stand in a literal between the given marks. -/
def IsValid (mark : Char) : Piece → Prop
  | plain c => c ≠ mark ∧ c ∉ ['\\', '\n', '\r']
  | escape c => c.isDigit = false ∧ c ∉ ['x', 'u', '\n', '\r', '\u2028', '\u2029']
  | null => True
  | byte digits => digits.length = 2 ∧ ∀ c ∈ digits, IsHexDigit c
  | unit digits => digits.length = 4 ∧ ∀ c ∈ digits, IsHexDigit c
  | point digits => digits ≠ [] ∧ (∀ c ∈ digits, IsHexDigit c) ∧ hexNumber digits < 0x110000
  | continuation lineEnd => lineEnd ∈ lineEnds

/-- A piece that is a character, or a backslash and one character that stand for a character. -/
def isShort : Piece → Bool
  | plain _ | escape _ | null => true
  | byte _ | unit _ | point _ | continuation _ => false

end Piece

/-- Pieces that may follow each other in a literal: the null character is not in front of a
digit. -/
def ArePieces (mark : Char) : List Piece → Prop
  | [] => True
  | p :: rest => p.IsValid mark ∧
    (p = .null → ∀ c ∈ (rest.flatMap Piece.text).head?, c.isDigit = false) ∧ ArePieces mark rest

/-- A string literal between single or double quotes. -/
structure StringLiteral where
  mark : Char
  pieces : List Piece
  mark_mem : mark ∈ ['\x22', '\x27']
  are_pieces : ArePieces mark pieces

/-- How a literal is written. -/
def StringLiteral.text (literal : StringLiteral) : String :=
  String.ofList (literal.mark :: (literal.pieces.flatMap Piece.text ++ [literal.mark]))

/-- The value of a literal as code points. -/
def StringLiteral.value (literal : StringLiteral) : List Nat :=
  joinUnits (literal.pieces.flatMap Piece.units)

/-! ## What unquoting makes of a piece -/

/-- Characters that are neither the mark nor a backslash may stand between two marks. -/
theorem is_marked_of_plain {mark : Char} {text : List Char} (h : ∀ c ∈ text, c ≠ mark ∧ c ≠ '\\') :
    IsMarked mark text := by
  induction text with
  | nil => trivial
  | cons c text ih =>
      obtain ⟨hmark, hslash⟩ := h c List.mem_cons_self
      rw [IsMarked.eq_3 _ _ _ fun _ _ heq _ => hslash heq]
      exact ⟨hmark, hslash, ih fun d hd => h d (List.mem_cons_of_mem _ hd)⟩

/-- Characters without a backslash among them are kept. -/
theorem unescape_of_plain {text : List Char} (h : '\\' ∉ text) : unescape text = text := by
  induction text with
  | nil => rfl
  | cons c text ih =>
      rw [List.mem_cons, not_or] at h
      rw [unescape_plain (Ne.symm h.1), ih h.2]

/-- A digit is neither a quote nor a backslash. -/
theorem IsHexDigit.plain {c : Char} (h : IsHexDigit c) : c ∉ ['\x22', '\x27', '\\'] := by
  have hnone : ∀ d ∈ ['\x22', '\x27', '\\'], ¬ IsHexDigit d := by
    simp [IsHexDigit, hexValue?]
  exact fun hmem => hnone c hmem h

/-- The value of a digit is below sixteen. -/
theorem hex_value_lt (c : Char) : (hexValue? c).getD 0 < 16 := by
  have hle (d : Char) (h : c ≤ d) : c.toNat ≤ d.toNat := h
  have hnine : '9'.toNat = 57 := rfl
  have hlowerEnd : 'f'.toNat = 102 := rfl
  have hupperEnd : 'F'.toNat = 70 := rfl
  unfold hexValue?
  split_ifs with hdigit hlower hupper
  · have := hle _ hdigit.2
    rw [Option.getD_some]
    omega
  · have := hle _ hlower.2
    rw [Option.getD_some]
    omega
  · have := hle _ hupper.2
    rw [Option.getD_some]
    omega
  · decide

/-- Digits denote a number below the power of sixteen for their count. -/
theorem hex_number_lt (digits : List Char) : hexNumber digits < 16 ^ digits.length := by
  have hvalues : ∀ n ∈ digits.reverse.map fun c => (hexValue? c).getD 0, n < 16 := by
    intro n hn
    obtain ⟨c, -, rfl⟩ := List.mem_map.mp hn
    exact hex_value_lt c
  have hlt := Nat.ofDigits_lt_base_pow_length (by decide) hvalues
  rwa [List.length_map, List.length_reverse] at hlt

/-- A line ends in one character or in a carriage return and a line feed. -/
theorem line_end_cases {lineEnd : List Char} (h : lineEnd ∈ lineEnds) :
    (∃ c, lineEnd = [c]) ∨ lineEnd = ['\r', '\n'] := by
  simp only [lineEnds, List.mem_cons, List.not_mem_nil, or_false] at h
  rcases h with rfl | rfl | rfl | rfl | rfl
  all_goals simp

/-- There are at least as many units as characters. -/
theorem length_le_length_code_units (text : List Char) :
    text.length ≤ (text.flatMap fun c => codeUnits c.toNat).length := by
  have hone : ∀ c ∈ text, [c].length ≤ (codeUnits c.toNat).length :=
    fun c _ => code_units_length_pos c.toNat
  have hle := length_flat_map_le hone
  rwa [List.flatMap_singleton'] at hle

/-- A character other than a digit has the value behind a backslash that unquoting gives it. -/
theorem escaped_char_value {c : Char} (h : c.isDigit = false) :
    (escapeTable.lookup c).getD c.toNat = (escapedChar c).toNat := by
  unfold escapedChar
  split
  case h_8 hn hr ht hb hf hv _ =>
    have hnone : escapeTable.lookup c = none := by
      simp only [escapeTable, List.lookup_eq_none_iff, List.forall_mem_cons, bne_iff_ne,
        List.not_mem_nil, false_imp_iff, implies_true, and_true]
      exact ⟨hb, ht, hn, hv, hf, hr⟩
    rw [hnone, Option.getD_none]
  case h_7 => exact absurd h (by decide)
  all_goals rfl

namespace Piece

variable {mark : Char} {p : Piece}

/-- A piece holds its mark behind a backslash only. -/
theorem IsValid.is_marked (hmark : mark ∈ ['\x22', '\x27']) (h : p.IsValid mark) :
    IsMarked mark p.text := by
  have hdigits {digits : List Char} (hhex : ∀ c ∈ digits, IsHexDigit c) :
      IsMarked mark digits := by
    apply is_marked_of_plain
    intro c hc
    have := (hhex c hc).plain
    grind
  cases p with
  | plain c =>
      apply is_marked_of_plain
      simpa [text] using ⟨h.1, fun hslash => h.2 (by simp [hslash])⟩
  | escape c => trivial
  | null => trivial
  | byte digits =>
      show IsMarked mark digits
      exact hdigits h.2
  | unit digits =>
      show IsMarked mark digits
      exact hdigits h.2
  | point digits =>
      have hopen : IsMarked mark ['\x7b'] := is_marked_of_plain (by grind)
      have hclose : IsMarked mark ['\x7d'] := is_marked_of_plain (by grind)
      show IsMarked mark (['\x7b'] ++ (digits ++ ['\x7d']))
      exact hopen.append ((hdigits h.2.1).append hclose)
  | continuation lineEnd =>
      rcases line_end_cases h with ⟨c, rfl⟩ | rfl
      · trivial
      · show IsMarked mark ['\n']
        exact is_marked_of_plain (by grind)

/-- The code units that a piece contributes have sixteen bits. -/
theorem IsValid.units_lt (h : p.IsValid mark) : ∀ n ∈ p.units, n < 0x10000 := by
  cases p with
  | plain c =>
      have hc := not_surrogate c
      exact fun n => lt_of_mem_code_units (by omega)
  | escape c =>
      have hc := not_surrogate (escapedChar c)
      rw [units, escaped_char_value h.1]
      exact fun n => lt_of_mem_code_units (by omega)
  | null => simp [units]
  | byte digits =>
      have hlt := hex_number_lt digits
      rw [h.1] at hlt
      simp [units]
      omega
  | unit digits =>
      have hlt := hex_number_lt digits
      rw [h.1] at hlt
      simpa [units] using hlt
  | point digits => exact fun n => lt_of_mem_code_units h.2.2
  | continuation lineEnd => simp [units]

/-- The units of the characters that unquoting makes of a piece are those of a short piece, and more
than those of another. -/
theorem IsValid.unescape_units (h : p.IsValid mark) :
    ((unescape p.text).flatMap (fun c => codeUnits c.toNat) = p.units ∧ p.isShort = true) ∨
      (p.units.length < ((unescape p.text).flatMap fun c => codeUnits c.toNat).length ∧
        p.isShort = false) := by
  have hlong {cs : List Char} {n : Nat} (hn : n < cs.length) :
      n < (cs.flatMap fun c => codeUnits c.toNat).length :=
    Nat.lt_of_lt_of_le hn (length_le_length_code_units cs)
  have hdigits {digits : List Char} (hhex : ∀ c ∈ digits, IsHexDigit c) : '\\' ∉ digits :=
    fun hmem => (hhex _ hmem).plain (by decide)
  cases p with
  | plain c =>
      have hslash : c ≠ '\\' := fun heq => h.2 (by simp [heq])
      refine .inl ⟨?_, rfl⟩
      simp [text, units, unescape_plain hslash, unescape]
  | escape c =>
      refine .inl ⟨?_, rfl⟩
      simp [text, units, unescape, escaped_char_value h.1]
  | null => exact .inl ⟨by decide, rfl⟩
  | byte digits =>
      refine .inr ⟨hlong ?_, rfl⟩
      simp [text, units, unescape, unescape_of_plain (hdigits h.2), h.1]
  | unit digits =>
      refine .inr ⟨hlong ?_, rfl⟩
      simp [text, units, unescape, unescape_of_plain (hdigits h.2), h.1]
  | point digits =>
      have hbody : '\\' ∉ '\x7b' :: (digits ++ ['\x7d']) := by
        simp [hdigits h.2.1]
      have hle := code_units_length_le (hexNumber digits)
      refine .inr ⟨hlong ?_, rfl⟩
      simp [text, units, unescape, unescape_of_plain hbody]
      omega
  | continuation lineEnd =>
      refine .inr ⟨hlong ?_, rfl⟩
      rcases line_end_cases h with ⟨c, rfl⟩ | rfl
      · simp [text, units, unescape]
      · decide

end Piece

/-! ## The pieces of a text -/

section

/-- Reads the first piece of a literal. -/
def readPiece? : List Char → Option (Piece × List Char)
  | [] => none
  | '\\' :: '0' :: rest => some (.null, rest)
  | '\\' :: 'x' :: a :: b :: rest => some (.byte [a, b], rest)
  | '\\' :: 'u' :: '\x7b' :: rest =>
    some (.point (rest.takeWhile (· != '\x7d')), (rest.dropWhile (· != '\x7d')).drop 1)
  | '\\' :: 'u' :: a :: b :: c :: d :: rest => some (.unit [a, b, c, d], rest)
  | '\\' :: '\r' :: '\n' :: rest => some (.continuation ['\r', '\n'], rest)
  | '\\' :: c :: rest => some (if [c] ∈ lineEnds then .continuation [c] else .escape c, rest)
  | c :: rest => some (.plain c, rest)

variable {mark : Char} {p : Piece}

/-- The first piece of a literal is read in front of any rest that does not start with a line
feed. -/
theorem Piece.IsValid.read_text (h : p.IsValid mark) {rest : List Char}
    (hrest : rest.head? ≠ some '\n') : readPiece? (p.text ++ rest) = some (p, rest) := by
  have hdigit {c : Char} (hc : IsHexDigit c) : c ≠ '\x7b' ∧ c ≠ '\x7d' := by
    constructor <;> rintro rfl <;> exact absurd hc (by decide)
  cases p with
  | plain c =>
      have hslash : c ≠ '\\' := fun heq => h.2 (by simp [heq])
      simp [text, readPiece?, hslash]
  | escape c =>
      have hother := h.2
      simp only [List.mem_cons, List.not_mem_nil, or_false, not_or] at hother
      have hends : [c] ∉ lineEnds := by simp [lineEnds, hother]
      have hzero : c ≠ '0' := by
        rintro rfl
        exact absurd h.1 (by decide)
      simp [text, readPiece?, hends, hother]
  | null => rfl
  | byte digits =>
      obtain ⟨a, b, rfl⟩ := List.length_eq_two.mp h.1
      rfl
  | unit digits =>
      match digits, h with
      | [a, b, c, d], h =>
        have ha : a ≠ '\x7b' := (hdigit (h.2 a (by simp))).1
        simp [text, readPiece?]
  | point digits =>
      have hclose : ∀ c ∈ digits, (c != '\x7d') = true :=
        fun c hc => by simpa using (hdigit (h.2.1 c hc)).2
      simp [text, readPiece?, List.takeWhile_append_of_pos hclose,
        List.dropWhile_append_of_pos hclose]
  | continuation lineEnd =>
      simp only [IsValid, lineEnds, List.mem_cons, List.not_mem_nil, or_false] at h
      cases rest with
      | nil => rcases h with rfl | rfl | rfl | rfl | rfl <;> rfl
      | cons c rest =>
          have hc : c ≠ '\n' := fun heq => hrest (by simp [heq])
          rcases h with rfl | rfl | rfl | rfl | rfl
          all_goals simp [text, readPiece?, lineEnds, hc]

/-- No piece starts with a line feed. -/
theorem Piece.IsValid.head_text (h : p.IsValid mark) : ∃ c rest, p.text = c :: rest ∧ c ≠ '\n' := by
  cases p with
  | plain c => exact ⟨c, [], rfl, fun heq => h.2 (by simp [heq])⟩
  | _ => exact ⟨'\\', _, rfl, by decide⟩

/-- The pieces of a literal do not start with a line feed. -/
theorem ArePieces.head_text {pieces : List Piece} (h : ArePieces mark pieces) :
    (pieces.flatMap Piece.text).head? ≠ some '\n' := by
  cases pieces with
  | nil => simp
  | cons p pieces =>
      obtain ⟨c, rest, htext, hc⟩ := h.1.head_text
      simpa [htext] using hc

/-- A text is made of valid pieces in one way. -/
theorem ArePieces.unique {first second : List Piece} (hfirst : ArePieces mark first)
    (hsecond : ArePieces mark second)
    (htext : first.flatMap Piece.text = second.flatMap Piece.text) : first = second := by
  induction first generalizing second with
  | nil =>
      cases second with
      | nil => rfl
      | cons p second =>
          obtain ⟨c, rest, hp, -⟩ := hsecond.1.head_text
          simp [hp] at htext
  | cons p first ih =>
      cases second with
      | nil =>
          obtain ⟨c, rest, hp, -⟩ := hfirst.1.head_text
          simp [hp] at htext
      | cons q second =>
          have hread := hfirst.1.read_text hfirst.2.2.head_text
          rw [← List.flatMap_cons, htext, List.flatMap_cons,
            hsecond.1.read_text hsecond.2.2.head_text, Option.some.injEq, Prod.mk.injEq] at hread
          rw [hread.1, ih hfirst.2.2 hsecond.2.2 hread.2.symm]

end

/-! ## Values of literals -/

/-- The pieces of a literal are valid. -/
theorem ArePieces.is_valid {mark : Char} {pieces : List Piece} (h : ArePieces mark pieces) :
    ∀ p ∈ pieces, p.IsValid mark := by
  induction pieces with
  | nil => simp
  | cons p rest ih => exact List.forall_mem_cons.mpr ⟨h.1, ih h.2.2⟩

/-- Valid pieces without null characters may follow each other. -/
theorem are_pieces_of_is_valid {mark : Char} {pieces : List Piece}
    (h : ∀ p ∈ pieces, p.IsValid mark ∧ p ≠ .null) : ArePieces mark pieces := by
  induction pieces with
  | nil => trivial
  | cons p rest ih =>
      obtain ⟨⟨hvalid, hnull⟩, hrest⟩ := List.forall_mem_cons.mp h
      exact ⟨hvalid, fun heq => absurd heq hnull, ih hrest⟩

/-- A text is that of one literal, so it has one value. -/
theorem StringLiteral.value_eq_of_text_eq {first second : StringLiteral}
    (h : first.text = second.text) : first.value = second.value := by
  have hchars := congrArg String.toList h
  simp only [text, String.toList_ofList, List.cons.injEq] at hchars
  obtain ⟨hmark, hbody⟩ := hchars
  rw [hmark, List.append_cancel_right_eq] at hbody
  have hpieces := first.are_pieces.unique (hmark ▸ second.are_pieces) hbody
  rw [value, hpieces, value]

/-- Unquoting a literal unescapes its pieces. -/
theorem StringLiteral.to_list_unquote (literal : StringLiteral) :
    (unquote literal.text).toList = literal.pieces.flatMap fun p => unescape p.text := by
  have hquote : isQuote literal.mark = true := by
    have hmarks : ∀ c ∈ ['\x22', '\x27'], isQuote c = true := by simp [isQuote]
    exact hmarks _ literal.mark_mem
  have hmarked : ∀ p ∈ literal.pieces, IsMarked literal.mark p.text :=
    fun p hp => (literal.are_pieces.is_valid p hp).is_marked literal.mark_mem
  rw [unquote, text, String.toList_ofList, String.toList_ofList, strip_quotes_append hquote,
    unescape_flat_map hmarked]

/-- The code points of a text are the value of a literal exactly if the units of the text are those
of the literal. -/
theorem StringLiteral.value_eq_iff (literal : StringLiteral) (text : List Char) :
    text.map Char.toNat = literal.value ↔
      (text.flatMap fun c => codeUnits c.toNat) = literal.pieces.flatMap Piece.units := by
  have hunits : ∀ n ∈ literal.pieces.flatMap Piece.units, n < 0x10000 := by
    intro n hn
    obtain ⟨p, hp, hmem⟩ := List.mem_flatMap.mp hn
    exact (literal.are_pieces.is_valid p hp).units_lt n hmem
  constructor
  · intro h
    rw [← code_units_join_units hunits, ← value, ← h, List.flatMap_map]
  · intro h
    rw [value, ← h, join_units_code_units]

/-- What is written for a character in a quoted text is a piece with the units of the character. -/
theorem exists_piece (c : Char) : ∃ p : Piece, (p.IsValid '\x22' ∧ p ≠ .null) ∧
    p.text = escapeChar c ∧ p.units = codeUnits c.toNat := by
  rcases escape_char_cases c with ⟨htext, hquote, hslash, hc⟩ | ⟨e, he, htext, hvalue, -⟩ |
    ⟨htext, hcoded⟩
  · have hline : c ≠ '\n' ∧ c ≠ '\r' := by
      constructor <;> rintro rfl <;> exact absurd hc (by decide)
    refine ⟨.plain c, ⟨⟨hquote, ?_⟩, by simp⟩, htext.symm, rfl⟩
    simp [hslash, hline]
  · have hletters : ∀ e ∈ ['\x22', '\\', 'n', 'r', 't', 'b', 'f'],
        e.isDigit = false ∧ e ∉ ['x', 'u', '\n', '\r', '\u2028', '\u2029'] := by simp
    refine ⟨.escape e, ⟨hletters e he, by simp⟩, htext.symm, ?_⟩
    rw [Piece.units, escaped_char_value (hletters e he).1, hvalue]
  · have hhigh := hex_value_hex_digit _ hcoded.digits_lt.1
    have hlow := hex_value_hex_digit _ hcoded.digits_lt.2
    have hzero : hexValue? '0' = some 0 := by decide
    have hsmall := hcoded.1
    refine ⟨.unit ['0', '0', hexDigit (c.toNat / 16), hexDigit (c.toNat % 16)],
      ⟨⟨rfl, ?_⟩, by simp⟩, htext.symm, ?_⟩
    · simp [IsHexDigit, hhigh, hlow, hzero]
    · rw [Piece.units, codeUnits, if_pos (by omega)]
      simp [hexNumber, hhigh, hlow, hzero, Nat.ofDigits]
      omega

/-- A quoted text is a literal with the text as its value. -/
theorem exists_literal_quote (text : String) : ∃ key : StringLiteral,
    key.text = quote text ∧ key.value = text.toList.map Char.toNat := by
  have hpieces : ∀ cs : List Char, ∃ pieces : List Piece,
      (∀ p ∈ pieces, p.IsValid '\x22' ∧ p ≠ .null) ∧
      pieces.flatMap Piece.text = cs.flatMap escapeChar ∧
      pieces.flatMap Piece.units = cs.flatMap fun c => codeUnits c.toNat := by
    intro cs
    induction cs with
    | nil => exact ⟨[], by simp, rfl, rfl⟩
    | cons c cs ih =>
        obtain ⟨p, hp, htext, hunits⟩ := exists_piece c
        obtain ⟨rest, hrest, hresttext, hrestunits⟩ := ih
        refine ⟨p :: rest, List.forall_mem_cons.mpr ⟨hp, hrest⟩, ?_, ?_⟩
        · rw [List.flatMap_cons, List.flatMap_cons, htext, hresttext]
        · rw [List.flatMap_cons, List.flatMap_cons, hunits, hrestunits]
  obtain ⟨pieces, hvalid, htext, hunits⟩ := hpieces text.toList
  refine ⟨⟨'\x22', pieces, by decide, are_pieces_of_is_valid hvalid⟩, ?_, ?_⟩
  · rw [StringLiteral.text, htext, ← to_list_quoted, String.ofList_toList]
  · exact ((StringLiteral.value_eq_iff _ _).mpr hunits.symm).symm

/-- Unquoting a string literal gives its value exactly if all its pieces are single characters or
backslashes in front of single characters that stand for a character. The key that is written for
the literal is a literal as well, and has the same value in the same case only. -/
theorem unquote_eq_value_iff (literal : StringLiteral) :
    ((unquote literal.text).toList.map Char.toNat = literal.value ↔
      ∀ p ∈ literal.pieces, p.isShort = true) ∧
    (∃ key : StringLiteral, key.text = quote (unquote literal.text)) ∧
    ∀ key : StringLiteral, key.text = quote (unquote literal.text) →
      (key.value = literal.value ↔ ∀ p ∈ literal.pieces, p.isShort = true) := by
  have hpiece := fun p (hp : p ∈ literal.pieces) =>
    (literal.are_pieces.is_valid p hp).unescape_units
  have hread : (unquote literal.text).toList.map Char.toNat = literal.value ↔
      ∀ p ∈ literal.pieces, p.isShort = true := by
    rw [literal.value_eq_iff, literal.to_list_unquote, List.flatMap_assoc,
      flat_map_eq_iff fun p hp => (hpiece p hp).imp And.left And.left]
    refine forall₂_congr fun p hp => ?_
    rcases hpiece p hp with ⟨hsame, hshort⟩ | ⟨hlonger, hlong⟩
    · exact iff_of_true hsame hshort
    · exact iff_of_false (fun hsame => by simp [hsame] at hlonger) (by simp [hlong])
  obtain ⟨written, htext, hvalue⟩ := exists_literal_quote (unquote literal.text)
  refine ⟨hread, ⟨written, htext⟩, fun key hkey => ?_⟩
  rw [StringLiteral.value_eq_of_text_eq (hkey.trans htext.symm), hvalue, hread]

/-- A literal in which a letter is written by its code. -/
def codedLetter : StringLiteral :=
  ⟨'\x27', [.byte ['4', '1']], by decide, ⟨rfl, by simp [IsHexDigit, hexValue?]⟩, by simp, trivial⟩

/-- The name of a letter that is written by its code is unquoted to the digits of the code. -/
theorem coded_letter_not_read : codedLetter.text = "'\\x41'" ∧ codedLetter.value = ['A'.toNat] ∧
    unquote codedLetter.text = "x41" ∧
    (unquote codedLetter.text).toList.map Char.toNat ≠ codedLetter.value := by
  decide

end TypeSuite.Text
