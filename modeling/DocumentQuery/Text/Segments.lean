/-!
# Texts made of segments

Paths are texts whose segments are separated by one character. A text always has at least one
segment; the empty text has one empty segment.
-/

namespace DocumentQuery.Text

/-- Cuts a list of characters at every separator. -/
def splitChars (separator : Char) : List Char → List (List Char)
  | [] => [[]]
  | c :: rest =>
    if c = separator then [] :: splitChars separator rest
    else match splitChars separator rest with
      | [] => [[c]]
      | segment :: segments => (c :: segment) :: segments

/-- The segments of a text. -/
def segments (separator : Char) (text : String) : List String :=
  (splitChars separator text.toList).map String.ofList

theorem splitChars_ne_nil (separator : Char) (chars : List Char) : splitChars separator chars ≠ [] := by
  induction chars with
  | nil => simp [splitChars]
  | cons c rest ih =>
    by_cases h : c = separator
    · simp [splitChars, h]
    · simp only [splitChars, h, if_false]
      split <;> simp

end DocumentQuery.Text
