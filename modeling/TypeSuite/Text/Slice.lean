/-!
# Slices of a source

A source is a sequence of bytes, and a slice of it is a text when the bytes are whole characters.
-/

namespace TypeSuite.Text

/-- The characters between two byte offsets, cut to the source; `none` when the bytes between them
are not UTF-8. -/
def slice? (source : ByteArray) (start stop : Nat) : Option String :=
  String.fromUTF8? (source.extract start stop)

end TypeSuite.Text
