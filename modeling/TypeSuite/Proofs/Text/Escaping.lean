import TypeSuite.Proofs.Text.Indentation
import TypeSuite.Proofs.Text.Reading

/-!
# Unquoting a quoted text

The two codecs do not share their escapes: `quote` writes most control characters by their codes,
and `unquote` takes the backslash off a code and leaves its digits. `unquote_quote` says which texts
come back for that reason, and that every quoted text is a JSON string of the text on one line.

Behind characters that may stand between two marks, unescaping starts anew, so it goes through
a text that is written piece by piece.
-/

namespace TypeSuite.Text

variable {α β γ : Type}

/-! ## Texts that are written piece by piece -/

/-- A function that writes no less than another for each element writes no less for a list. -/
theorem length_flat_map_le {f : α → List β} {g : α → List γ} {as : List α}
    (h : ∀ a ∈ as, (g a).length ≤ (f a).length) :
    (as.flatMap g).length ≤ (as.flatMap f).length := by
  induction as with
  | nil => exact Nat.le_refl _
  | cons a as ih =>
      have hhead := h a List.mem_cons_self
      have hrest := ih fun b hb => h b (List.mem_cons_of_mem _ hb)
      simp only [List.flatMap_cons, List.length_append]
      omega

/-- Where one function writes what another does or more, both write one text for a list exactly if
they do for each of its elements. -/
theorem flat_map_eq_iff {f g : α → List β} {as : List α}
    (h : ∀ a ∈ as, f a = g a ∨ (g a).length < (f a).length) :
    as.flatMap f = as.flatMap g ↔ ∀ a ∈ as, f a = g a := by
  constructor
  · intro hsame
    induction as with
    | nil => simp
    | cons a as ih =>
        have hrest : ∀ b ∈ as, f b = g b ∨ (g b).length < (f b).length :=
          fun b hb => h b (List.mem_cons_of_mem _ hb)
        have hle : (as.flatMap g).length ≤ (as.flatMap f).length := by
          apply length_flat_map_le
          intro b hb
          rcases hrest b hb with heq | hlt
          · exact Nat.le_of_eq (congrArg List.length heq.symm)
          · exact Nat.le_of_lt hlt
        have hhead : f a = g a := by
          rcases h a List.mem_cons_self with heq | hlt
          · exact heq
          · have hlength := congrArg List.length hsame
            simp only [List.flatMap_cons, List.length_append] at hlength
            omega
        rw [List.flatMap_cons, List.flatMap_cons, hhead, List.append_cancel_left_eq] at hsame
        exact List.forall_mem_cons.mpr ⟨hhead, ih hrest hsame⟩
  · exact List.flatMap_congr

/-- Characters that may stand between two marks are joined to such characters. -/
theorem IsMarked.append {mark : Char} {first second : List Char} (hfirst : IsMarked mark first)
    (hsecond : IsMarked mark second) : IsMarked mark (first ++ second) := by
  induction first using IsMarked.induct with
  | case1 => exact hsecond
  | case2 c rest ih => exact ih hfirst
  | case3 c rest hpair ih =>
      rw [IsMarked.eq_3 _ _ _ hpair] at hfirst
      obtain ⟨hne, hslash, hrest⟩ := hfirst
      rw [List.cons_append, IsMarked.eq_3 _ _ _ fun _ _ h _ => hslash h]
      exact ⟨hne, hslash, ih hrest⟩

/-- Pieces that may stand between two marks may stand there together. -/
theorem is_marked_flat_map {mark : Char} {pieceText : α → List Char} {pieces : List α}
    (h : ∀ a ∈ pieces, IsMarked mark (pieceText a)) : IsMarked mark (pieces.flatMap pieceText) := by
  induction pieces with
  | nil => trivial
  | cons a pieces ih =>
      have hrest := ih fun b hb => h b (List.mem_cons_of_mem _ hb)
      exact (h a List.mem_cons_self).append hrest

/-- A character other than the backslash is kept. -/
theorem unescape_plain {c : Char} (h : c ≠ '\\') (rest : List Char) :
    unescape (c :: rest) = c :: unescape rest := by
  rw [unescape.eq_2 _ _ fun _ _ hslash _ => h hslash]

/-- Unescaping starts anew behind characters that may stand between two marks. -/
theorem IsMarked.unescape_append {mark : Char} {text : List Char} (h : IsMarked mark text)
    (rest : List Char) : unescape (text ++ rest) = unescape text ++ unescape rest := by
  induction text using IsMarked.induct with
  | case1 => rfl
  | case2 c text ih =>
      simp only [List.cons_append, unescape, ih h]
  | case3 c text hpair ih =>
      rw [IsMarked.eq_3 _ _ _ hpair] at h
      obtain ⟨-, hslash, htext⟩ := h
      rw [List.cons_append, unescape_plain hslash, unescape_plain hslash, ih htext,
        List.cons_append]

/-- Pieces that may stand between two marks are unescaped one by one. -/
theorem unescape_flat_map {mark : Char} {pieceText : α → List Char} {pieces : List α}
    (h : ∀ a ∈ pieces, IsMarked mark (pieceText a)) :
    unescape (pieces.flatMap pieceText) = pieces.flatMap fun a => unescape (pieceText a) := by
  induction pieces with
  | nil => rfl
  | cons a pieces ih =>
      have hrest := ih fun b hb => h b (List.mem_cons_of_mem _ hb)
      rw [List.flatMap_cons, (h a List.mem_cons_self).unescape_append, hrest, List.flatMap_cons]

/-- Equal quotes around a text are taken off. -/
theorem strip_quotes_append {mark : Char} (h : isQuote mark = true) (body : List Char) :
    stripQuotes (mark :: (body ++ [mark])) = body := by
  obtain ⟨c, rest, hcons⟩ : ∃ c rest, body ++ [mark] = c :: rest :=
    List.exists_cons_of_ne_nil (by simp)
  rw [hcons, stripQuotes, ← hcons]
  simp [h]

/-! ## The escapes of a quoted text -/

/-- A control character without a letter of its own, which is written by its code. -/
def IsCoded (c : Char) : Prop :=
  c.toNat < 0x20 ∧ c ∉ ['\x08', '\t', '\n', '\x0c', '\r']

/-- A character is written as itself, as a backslash with a single character, or by its code. -/
theorem escape_char_cases (c : Char) :
    (escapeChar c = [c] ∧ c ≠ '\x22' ∧ c ≠ '\\' ∧ 0x20 ≤ c.toNat) ∨
      (∃ e ∈ ['\x22', '\\', 'n', 'r', 't', 'b', 'f'],
        escapeChar c = ['\\', e] ∧ escapedChar e = c ∧ ¬ IsCoded c) ∨
      (escapeChar c = ['\\', 'u', '0', '0', hexDigit (c.toNat / 16), hexDigit (c.toNat % 16)] ∧
        IsCoded c) := by
  unfold escapeChar
  split
  case h_8 hquote hslash hline hreturn htab hback hfeed =>
    split
    case isTrue h =>
      refine .inr (.inr ⟨rfl, h, ?_⟩)
      simp only [List.mem_cons, List.not_mem_nil, or_false, not_or]
      exact ⟨hback, htab, hline, hfeed, hreturn⟩
    case isFalse h => exact .inl ⟨rfl, hquote, hslash, by omega⟩
  all_goals exact .inr (.inl ⟨_, by decide, rfl, rfl, by simp [IsCoded]⟩)

/-- No digit is a mark, a backslash or a control character. -/
theorem hex_digit_plain : ∀ n < 16, hexDigit n ≠ '\x22' ∧ hexDigit n ≠ '\\' ∧
    0x20 ≤ (hexDigit n).toNat := by
  decide

/-- A code below the space has two digits. -/
theorem IsCoded.digits_lt {c : Char} (h : IsCoded c) : c.toNat / 16 < 16 ∧ c.toNat % 16 < 16 := by
  have hlt := h.1
  omega

/-- A character is written without a double quote other than behind a backslash. -/
theorem is_marked_escape_char (c : Char) : IsMarked '\x22' (escapeChar c) := by
  rcases escape_char_cases c with ⟨htext, hquote, hslash, -⟩ | ⟨e, -, htext, -⟩ | ⟨htext, hcoded⟩
  · rw [htext, IsMarked.eq_3 _ _ _ fun _ _ h _ => hslash h]
    exact ⟨hquote, hslash, trivial⟩
  · rw [htext]
    trivial
  · obtain ⟨hquote, hslash, -⟩ := hex_digit_plain _ hcoded.digits_lt.1
    obtain ⟨hquote', hslash', -⟩ := hex_digit_plain _ hcoded.digits_lt.2
    rw [htext]
    simp [IsMarked, hquote, hslash, hquote', hslash']

/-- A character is written without control characters. -/
theorem printable_of_mem_escape_char {c d : Char} (h : d ∈ escapeChar c) : 0x20 ≤ d.toNat := by
  rcases escape_char_cases c with ⟨htext, -, -, hc⟩ | ⟨e, he, htext, -⟩ | ⟨htext, hcoded⟩
  · rw [htext, List.mem_singleton] at h
    exact h ▸ hc
  · have hprintable : ∀ e ∈ ['\x22', '\\', 'n', 'r', 't', 'b', 'f'], 0x20 ≤ e.toNat := by simp
    rw [htext] at h
    rcases List.mem_pair.mp h with rfl | rfl
    · decide
    · exact hprintable d he
  · have hstart : ∀ e ∈ ['\\', 'u', '0', '0'], 0x20 ≤ e.toNat := by simp
    have hparts : d ∈ ['\\', 'u', '0', '0'] ∨ d = hexDigit (c.toNat / 16) ∨
        d = hexDigit (c.toNat % 16) := by
      simpa [htext, or_assoc] using h
    rcases hparts with hd | rfl | rfl
    · exact hstart d hd
    · exact (hex_digit_plain _ hcoded.digits_lt.1).2.2
    · exact (hex_digit_plain _ hcoded.digits_lt.2).2.2

/-- Unescaping what is written for a character gives the character, or the digits of its code behind
a letter. -/
theorem unescape_escape_char (c : Char) :
    (unescape (escapeChar c) = [c] ∧ ¬ IsCoded c) ∨
      ([c].length < (unescape (escapeChar c)).length ∧ IsCoded c) := by
  rcases escape_char_cases c with ⟨htext, -, hslash, hc⟩ | ⟨e, -, htext, he, hcoded⟩ |
    ⟨htext, hcoded⟩
  · refine .inl ⟨?_, fun hcoded => absurd hcoded.1 (by omega)⟩
    rw [htext, unescape_plain hslash]
    rfl
  · refine .inl ⟨?_, hcoded⟩
    rw [htext, ← he]
    rfl
  · obtain ⟨-, hslash, -⟩ := hex_digit_plain _ hcoded.digits_lt.1
    obtain ⟨-, hslash', -⟩ := hex_digit_plain _ hcoded.digits_lt.2
    refine .inr ⟨?_, hcoded⟩
    simp [htext, unescape, hslash, hslash']

/-- The characters of a quoted text. -/
theorem to_list_quoted (text : String) :
    (quote text).toList = '\x22' :: (text.toList.flatMap escapeChar ++ ['\x22']) := by
  simp [quote]

/-- Unquoting a quoted text unescapes what is written for its characters. -/
theorem to_list_unquote_quote (text : String) :
    (unquote (quote text)).toList = text.toList.flatMap fun c => unescape (escapeChar c) := by
  have hmarked : ∀ c ∈ text.toList, IsMarked '\x22' (escapeChar c) :=
    fun c _ => is_marked_escape_char c
  rw [unquote, to_list_quoted, strip_quotes_append (by decide), String.toList_ofList,
    unescape_flat_map hmarked]

/-- A text is quoted and unquoted to itself exactly if it holds no control character other than
backspace, tab, line feed, form feed and carriage return. Every quoted text is without control
characters, has its only unescaped double quotes at its ends, is read as a JSON string of the text,
and stays as it is when it is indented. -/
theorem unquote_quote (text : String) :
    (unquote (quote text) = text ↔ ∀ c ∈ text.toList, ¬ IsCoded c) ∧
      (∀ c ∈ (quote text).toList, 0x20 ≤ c.toNat) ∧
      (∃ body, (quote text).toList = '\x22' :: (body ++ ['\x22']) ∧ IsMarked '\x22' body) ∧
      readQuoted? (quote text).toList = some (text, []) ∧
      indent (quote text) = quote text := by
  refine ⟨?_, ?_, ⟨_, to_list_quoted text, is_marked_flat_map fun c _ => is_marked_escape_char c⟩,
    ?_, indent_quote text⟩
  · have hstep : ∀ c ∈ text.toList, unescape (escapeChar c) = [c] ∨
        [c].length < (unescape (escapeChar c)).length :=
      fun c _ => (unescape_escape_char c).imp And.left And.left
    have hkept (c : Char) : unescape (escapeChar c) = [c] ↔ ¬ IsCoded c := by
      rcases unescape_escape_char c with ⟨hsame, hcoded⟩ | ⟨hlong, hcoded⟩
      · exact iff_of_true hsame hcoded
      · exact iff_of_false (fun hsame => by simp [hsame] at hlong) (not_not_intro hcoded)
    calc unquote (quote text) = text
        ↔ (text.toList.flatMap fun c => unescape (escapeChar c)) = text.toList.flatMap ([·]) := by
          rw [← String.toList_inj, to_list_unquote_quote, List.flatMap_singleton']
      _ ↔ ∀ c ∈ text.toList, unescape (escapeChar c) = [c] := flat_map_eq_iff hstep
      _ ↔ ∀ c ∈ text.toList, ¬ IsCoded c := by simp only [hkept]
  · intro c hc
    have hcases : c = '\x22' ∨ ∃ d ∈ text.toList, c ∈ escapeChar d := by
      simpa [to_list_quoted, or_comm, or_assoc] using hc
    rcases hcases with rfl | ⟨d, -, hd⟩
    · decide
    · exact printable_of_mem_escape_char hd
  · simpa using read_quoted_quote text []

-- The code of a control character comes back without its backslash.
example : unquote (quote "a\x01\n") = "au0001\n" := by
  decide

end TypeSuite.Text
