import TypeSuite.Tree.Lowering

/-!
# Texts of trees

A tree covers bytes of its source, and its text is what these bytes encode. Characters take from one
to four bytes, so offsets count bytes and indices count characters: `offset` and `index` translate
between them. `text_of_source` says of every tree over an encoded text whether the bytes that it
covers are a text, and which characters of the source they are.
-/

namespace TypeSuite

namespace Text

/-! ## Offsets and indices -/

/-- The byte offset of a character in a text. -/
def offset : List Char → Nat → Nat
  | [], _ => 0
  | _, 0 => 0
  | c :: rest, k + 1 => c.utf8Size + offset rest k

/-- A byte offset lies between two characters, or at an end of the text. -/
def IsBoundary (text : String) (o : Nat) : Prop :=
  ∃ k ≤ text.length, offset text.toList k = o

instance (text : String) (o : Nat) : Decidable (IsBoundary text o) :=
  inferInstanceAs (Decidable (∃ k ≤ text.length, offset text.toList k = o))

/-- The number of characters that end at a byte offset or before it. -/
def index : List Char → Nat → Nat
  | [], _ => 0
  | c :: rest, o => if c.utf8Size ≤ o then index rest (o - c.utf8Size) + 1 else 0

/-- The characters of a text from one index up to another one. -/
def between (text : String) (first last : Nat) : String :=
  String.ofList ((text.toList.take last).drop first)

/-- The index of the offset of a character is its index. -/
theorem index_offset {cs : List Char} {k : Nat} (hk : k ≤ cs.length) :
    index cs (offset cs k) = k := by
  induction cs generalizing k with
  | nil => exact (Nat.le_zero.mp hk).symm
  | cons c rest ih =>
      cases k with
      | zero => exact if_neg (Nat.not_le.mpr c.utf8Size_pos)
      | succ k =>
          rw [offset, index, if_pos (Nat.le_add_right ..), Nat.add_sub_cancel_left,
            ih (Nat.le_of_succ_le_succ hk)]

/-- Behind more bytes stand at least as many characters. -/
theorem index_mono (cs : List Char) {o o' : Nat} (h : o ≤ o') : index cs o ≤ index cs o' := by
  induction cs generalizing o o' with
  | nil => exact Nat.le_refl 0
  | cons c rest ih =>
      have hrest := ih (Nat.sub_le_sub_right h c.utf8Size)
      simp only [index]
      split <;> split <;> omega

/-- The offset of a character counts the bytes of the characters in front of it. -/
theorem size_take (cs : List Char) (k : Nat) :
    (String.ofList (cs.take k)).utf8ByteSize = offset cs k := by
  induction cs generalizing k with
  | nil => rw [List.take_nil]; rfl
  | cons c rest ih =>
      cases k with
      | zero => rfl
      | succ k =>
          rw [offset, ← ih, List.take_succ_cons, ← List.singleton_append, String.ofList_append,
            String.utf8ByteSize_append, ← String.singleton_eq_ofList, String.utf8ByteSize_singleton]

/-- The boundaries of a text are its valid positions. -/
theorem is_boundary_iff {text : String} {o : Nat} :
    IsBoundary text o ↔ String.Pos.Raw.IsValid text ⟨o⟩ := by
  rw [String.Pos.Raw.isValid_iff_exists_take_toList]
  constructor
  · rintro ⟨k, -, rfl⟩
    exact ⟨k, (size_take _ k).symm⟩
  · rintro ⟨k, hk⟩
    have htake : text.toList.take (min k text.length) = text.toList.take k := by
      rw [← String.length_toList, ← List.take_take, List.take_length]
    refine ⟨min k text.length, Nat.min_le_right .., ?_⟩
    rw [← size_take, htake]
    exact hk.symm

/-! ## Slices -/

/-- A slice is a text exactly if its bytes are those of the text. -/
theorem slice_eq_some_iff {source : ByteArray} {start stop : Nat} {text : String} :
    slice? source start stop = some text ↔ source.extract start stop = text.toUTF8 := by
  rw [slice?, String.fromUTF8?]
  split
  case isTrue hutf8 =>
    rw [Option.some.injEq, ← String.toByteArray_inj]
    rfl
  case isFalse hutf8 => exact ⟨nofun, fun h => absurd (h ▸ text.isValidUTF8) hutf8⟩

/-- The bytes of a part of a text are found between the bytes in front of it and those behind it. -/
theorem extract_middle (before inner after : String) :
    (before ++ inner ++ after).toUTF8.extract before.utf8ByteSize (before ++ inner).utf8ByteSize =
      inner.toUTF8 := by
  have hsize : before.utf8ByteSize = before.toUTF8.size := before.size_toByteArray.symm
  calc
    _ = (before.toUTF8 ++ (inner.toUTF8 ++ after.toUTF8)).extract (before.utf8ByteSize + 0)
          (before.utf8ByteSize + inner.utf8ByteSize) := by
      simp only [String.toUTF8, String.toByteArray_append, ByteArray.append_assoc,
        String.utf8ByteSize_append, Nat.add_zero]
    _ = (inner.toUTF8 ++ after.toUTF8).extract 0 inner.utf8ByteSize :=
      ByteArray.extract_append_size_add' hsize
    _ = inner.toUTF8 := ByteArray.extract_append_eq_left inner.size_toByteArray.symm

/-- A text is made of the characters in front of others, of these, and of those behind them. -/
theorem take_append_between (text : String) {first last : Nat} (h : first ≤ last) :
    String.ofList (text.toList.take first) ++ between text first last =
      String.ofList (text.toList.take last) := by
  rw [between, ← String.ofList_append]
  calc
    _ = String.ofList ((text.toList.take last).take first ++ (text.toList.take last).drop first) := by
      rw [List.take_take, Nat.min_eq_left h]
    _ = String.ofList (text.toList.take last) := by rw [List.take_append_drop]

/-- There is nothing between an index and a smaller one. -/
theorem between_eq_empty (text : String) {first last : Nat} (h : last ≤ first) :
    between text first last = "" := by
  have hlength := List.length_take_le last text.toList
  rw [between, List.drop_eq_nil_of_le (by omega), String.ofList_nil]

/-- What is between two characters is found between others around them, at indices that count from
the first of these. -/
theorem between_between (text : String) {first last k l : Nat} (hfirst : first ≤ k)
    (hlast : l ≤ last) :
    between (between text first last) (k - first) (l - first) = between text k l := by
  obtain hinverted | hle := Nat.lt_or_ge l first
  · rw [between_eq_empty _ (by omega), between_eq_empty _ (by omega)]
  · have hlist : (((text.toList.take last).drop first).take (l - first)).drop (k - first) =
        (text.toList.take l).drop k := by
      rw [List.take_drop, List.drop_drop, List.take_take, Nat.add_sub_cancel' hle,
        Nat.add_sub_cancel' hfirst, Nat.min_eq_left hlast]
    rw [between, between, between, String.toList_ofList, hlist]

/-- A slice is cut to its source. -/
theorem slice_clamped (source : String) (start stop : Nat) :
    slice? source.toUTF8 start stop =
      slice? source.toUTF8 (min start source.utf8ByteSize) (min stop source.utf8ByteSize) := by
  have hstop : source.toUTF8.extract start stop =
      source.toUTF8.extract start (min stop source.toUTF8.size) := by
    rw [ByteArray.ext_iff, ByteArray.data_extract, ByteArray.data_extract,
      Array.extract_eq_extract_right, ByteArray.size_data]
    omega
  have hstart : source.toUTF8.extract start (min stop source.toUTF8.size) =
      source.toUTF8.extract (min start source.toUTF8.size) (min stop source.toUTF8.size) := by
    rw [ByteArray.extract_eq_extract_left]
    omega
  rw [slice?, slice?, hstop, hstart]
  rfl

/-- The characters between two byte offsets of a text: those from the index of the first offset up to
the index of the second one. -/
def betweenBytes (text : String) (start stop : Nat) : String :=
  between text (index text.toList start) (index text.toList stop)

/-- A slice that does not stop behind its start is empty. -/
theorem slice_of_le {source : String} {start stop : Nat} (h : stop ≤ start) :
    slice? source.toUTF8 start stop = some (betweenBytes source start stop) := by
  have hempty : source.toUTF8.extract start stop = ByteArray.empty := by
    rw [ByteArray.extract_eq_empty_iff]
    omega
  rw [betweenBytes, between_eq_empty source (index_mono source.toList h), slice_eq_some_iff, hempty]
  rfl

/-- What is between two boundaries stands in its source behind the bytes in front of the first one
and ends at the second one. -/
theorem IsBoundary.exists_append {source : String} {start stop : Nat}
    (hstart : IsBoundary source start) (hstop : IsBoundary source stop) (hle : start ≤ stop) :
    ∃ before after, source = before ++ betweenBytes source start stop ++ after ∧
      before.utf8ByteSize = start ∧
      (before ++ betweenBytes source start stop).utf8ByteSize = stop := by
  have hindices := index_mono source.toList hle
  obtain ⟨k, hk, rfl⟩ := hstart
  obtain ⟨l, hl, rfl⟩ := hstop
  rw [← String.length_toList] at hk hl
  rw [index_offset hk, index_offset hl] at hindices
  refine ⟨String.ofList (source.toList.take k), String.ofList (source.toList.drop l), ?_⟩
  rw [betweenBytes, index_offset hk, index_offset hl, take_append_between source hindices]
  refine ⟨?_, size_take _ k, size_take _ l⟩
  rw [← String.ofList_append, List.take_append_drop, String.ofList_toList]

/-- A slice between two boundaries is made of the characters between them. -/
theorem IsBoundary.slice {source : String} {start stop : Nat} (hstart : IsBoundary source start)
    (hstop : IsBoundary source stop) :
    slice? source.toUTF8 start stop = some (betweenBytes source start stop) := by
  obtain hle | hle := Nat.le_total stop start
  · exact slice_of_le hle
  · obtain ⟨before, after, hsource, hbefore, hinner⟩ := hstart.exists_append hstop hle
    have hmiddle := extract_middle before (betweenBytes source start stop) after
    rw [← hsource, hbefore, hinner] at hmiddle
    exact slice_eq_some_iff.mpr hmiddle

/-- A slice that starts or stops inside a character is no text, unless it is empty. -/
theorem slice_eq_none {source : String} {start stop : Nat} (hlt : start < stop)
    (hsize : stop ≤ source.utf8ByteSize)
    (h : ¬ (IsBoundary source start ∧ IsBoundary source stop)) :
    slice? source.toUTF8 start stop = none := by
  rw [is_boundary_iff, is_boundary_iff] at h
  refine dif_neg fun hutf8 => ?_
  obtain hsame | hvalid := (String.Pos.Raw.isValidUTF8_extract_iff ⟨start⟩ ⟨stop⟩
    (Nat.le_of_lt hlt) hsize).mp hutf8
  · exact Nat.ne_of_lt hlt (congrArg String.Pos.Raw.byteIdx hsame)
  · exact h hvalid

/-- A slice is a text if and only if it is empty or lies between two boundaries, and then it is made
of the characters between its ends. -/
theorem slice_cases (source : String) (start stop : Nat) :
    let first := min start source.utf8ByteSize
    let last := min stop source.utf8ByteSize
    ((last ≤ first ∨ IsBoundary source first ∧ IsBoundary source last) ∧
      slice? source.toUTF8 start stop = some (betweenBytes source first last)) ∨
    (¬ (last ≤ first ∨ IsBoundary source first ∧ IsBoundary source last) ∧
      slice? source.toUTF8 start stop = none) := by
  intro first last
  rw [slice_clamped]
  by_cases hle : last ≤ first
  · exact .inl ⟨.inl hle, slice_of_le hle⟩
  by_cases hboundaries : IsBoundary source first ∧ IsBoundary source last
  · exact .inl ⟨.inr hboundaries, hboundaries.1.slice hboundaries.2⟩
  · exact .inr ⟨fun h => h.elim hle hboundaries,
      slice_eq_none (Nat.not_le.mp hle) (Nat.min_le_right ..) hboundaries⟩

end Text

namespace Lowering

open Text (IsBoundary between betweenBytes index)

/-- The text of a tree is the slice that it covers. -/
theorem text_of_some {source : ByteArray} {head : Head} {text : String}
    (h : Text.slice? source head.start head.stop = some text) : textOf source head = .ok text := by
  rw [textOf, h]

/-- A tree that covers no slice cannot be decoded. -/
theorem text_of_none {source : ByteArray} {head : Head}
    (h : Text.slice? source head.start head.stop = none) :
    textOf source head = .error .undecodable := by
  rw [textOf, h]

/-- The text of a tree inside another one, both on boundaries, is found in the text of that one, at
indices that count from its first character. -/
theorem text_of_inner {source : String} {outer inner : Head} (hfirst : outer.start ≤ inner.start)
    (hlast : inner.stop ≤ outer.stop) (hstart : IsBoundary source outer.start)
    (hstop : IsBoundary source outer.stop) (hinnerStart : IsBoundary source inner.start)
    (hinnerStop : IsBoundary source inner.stop) :
    ∃ text, textOf source.toUTF8 outer = .ok text ∧
      textOf source.toUTF8 inner = .ok (between text
        (index source.toList inner.start - index source.toList outer.start)
        (index source.toList inner.stop - index source.toList outer.start)) := by
  refine ⟨_, text_of_some (hstart.slice hstop), text_of_some ?_⟩
  rw [hinnerStart.slice hinnerStop]
  exact congrArg some (Text.between_between source (Text.index_mono _ hfirst)
    (Text.index_mono _ hlast)).symm

/-- Take the bytes that a tree covers in the encoding of a source, cut to its size. The tree has a
text if and only if there are none, or they start and stop between characters; otherwise they cannot
be decoded. The text is made of the characters between its ends: the source is what takes the bytes
in front of it, the text, and what is behind it. The text of a tree inside another one, both between
characters, is found in the text of that one, at indices that count from its first character. -/
theorem text_of_source (source : String) (head : Head) :
    let start := min head.start source.utf8ByteSize
    let stop := min head.stop source.utf8ByteSize
    ((∃ text, textOf source.toUTF8 head = .ok text) ↔
      stop ≤ start ∨ IsBoundary source start ∧ IsBoundary source stop) ∧
    (∀ fault, textOf source.toUTF8 head = .error fault → fault = .undecodable) ∧
    (∀ text, textOf source.toUTF8 head = .ok text →
      text = between source (index source.toList start) (index source.toList stop) ∧
      (start < stop → ∃ before after, source = before ++ text ++ after ∧
        before.utf8ByteSize = start ∧ (before ++ text).utf8ByteSize = stop)) ∧
    ∀ inner : Head, head.start ≤ inner.start → inner.stop ≤ head.stop →
      IsBoundary source head.start → IsBoundary source head.stop →
      IsBoundary source inner.start → IsBoundary source inner.stop →
      ∃ outer, textOf source.toUTF8 head = .ok outer ∧
        textOf source.toUTF8 inner = .ok (between outer
          (index source.toList inner.start - index source.toList head.start)
          (index source.toList inner.stop - index source.toList head.start)) := by
  intro start stop
  obtain ⟨hwhole, hslice⟩ | ⟨hbroken, hslice⟩ := Text.slice_cases source head.start head.stop
  · have htext := text_of_some hslice
    refine ⟨⟨fun _ => hwhole, fun _ => ⟨_, htext⟩⟩, fun fault h => ?_, fun text h => ?_,
      fun inner => text_of_inner⟩
    · exact nomatch htext.symm.trans h
    · obtain rfl := Except.ok.inj (h.symm.trans htext)
      refine ⟨rfl, fun hlt => ?_⟩
      obtain ⟨hstart, hstop⟩ := hwhole.resolve_left (Nat.not_le.mpr hlt)
      exact hstart.exists_append hstop (Nat.le_of_lt hlt)
  · have htext := text_of_none hslice
    refine ⟨⟨fun ⟨text, h⟩ => ?_, fun h => absurd h hbroken⟩, fun fault h => ?_, fun text h => ?_,
      fun inner => text_of_inner⟩
    · exact nomatch htext.symm.trans h
    · exact Except.error.inj (h.symm.trans htext)
    · exact nomatch htext.symm.trans h

/-- A tree over some bytes. -/
def spanning (start stop : Nat) : Head :=
  ⟨"identifier", start, stop, 0, start, none, true, false, false⟩

/-- In a source of characters with one to four bytes, the text of a tree that ends behind the source
is cut, that of a tree inside it is its second character, and a tree that starts inside a character
has none. -/
theorem text_of_source_mixed :
    IsBoundary "aé€😀" 1 ∧ IsBoundary "aé€😀" 10 ∧ IsBoundary "aé€😀" 3 ∧ IsBoundary "aé€😀" 6 ∧
      (∃ outer, textOf "aé€😀".toUTF8 (spanning 1 10) = .ok outer ∧ outer = "é€😀" ∧
        textOf "aé€😀".toUTF8 (spanning 3 6) = .ok (between outer 1 2)) ∧
      (∃ text, textOf "aé€😀".toUTF8 (spanning 6 12) = .ok text ∧ text = "😀") ∧
      ¬ ∃ text, textOf "aé€😀".toUTF8 (spanning 2 6) = .ok text := by
  have h1 : IsBoundary "aé€😀" 1 := by decide
  have h10 : IsBoundary "aé€😀" 10 := by decide
  have h3 : IsBoundary "aé€😀" 3 := by decide
  have h6 : IsBoundary "aé€😀" 6 := by decide
  refine ⟨h1, h10, h3, h6, ?_, ?_, ?_⟩
  · obtain ⟨-, -, htext, hinner⟩ := text_of_source "aé€😀" (spanning 1 10)
    obtain ⟨outer, houter, hfound⟩ := hinner (spanning 3 6) (by decide) (by decide) h1 h10 h3 h6
    exact ⟨outer, houter, (htext outer houter).1.trans (by decide), hfound⟩
  · obtain ⟨hwhole, -, htext, -⟩ := text_of_source "aé€😀" (spanning 6 12)
    obtain ⟨text, h⟩ := hwhole.mpr (by decide)
    exact ⟨text, h, (htext text h).1.trans (by decide)⟩
  · obtain ⟨hwhole, -, -, -⟩ := text_of_source "aé€😀" (spanning 2 6)
    rw [hwhole]
    decide

end Lowering

end TypeSuite
