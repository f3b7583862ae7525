namespace NetIntent

/-!
# Text

The few questions about texts that keys, names and lists of names ask. All of them are answered on
the list of characters, where splitting and joining have plain laws.

* `Text.beginsWith` — one text is an initial piece of another;
* `Text.holds` — one text occurs inside another;
* `Text.splitAt` — the pieces between the occurrences of a character;
* `Text.splitOnce` — the text before and after the first occurrence of a character.
-/

namespace Text

/-- The text begins with the given piece. -/
def beginsWith (piece text : String) : Bool :=
  piece.toList.isPrefixOf text.toList

/-- The character occurs in the text. -/
def hasChar (c : Char) (text : String) : Bool :=
  text.toList.contains c

/-- The list occurs somewhere in the other list, side by side. -/
def occursIn (piece : List Char) : List Char → Bool
  | [] => piece.isEmpty
  | c :: rest => piece.isPrefixOf (c :: rest) || occursIn piece rest

/-- The piece occurs somewhere in the text. -/
def holds (piece text : String) : Bool :=
  occursIn piece.toList text.toList

/-- The pieces of a list between the occurrences of a character. There is always one piece more
    than there are occurrences. -/
def pieces (sep : Char) : List Char → List (List Char)
  | [] => [[]]
  | c :: rest =>
    if c = sep then [] :: pieces sep rest
    else
      match pieces sep rest with
      | [] => [[c]]
      | piece :: more => (c :: piece) :: more

/-- The pieces of a text between the occurrences of a character. -/
def splitAt (sep : Char) (text : String) : List String :=
  (pieces sep text.toList).map String.ofList

/-- The text before the first occurrence of a character and the text after it. -/
def splitOnce (sep : Char) (text : String) : Option (String × String) :=
  if hasChar sep text then
    some (String.ofList (text.toList.takeWhile (· ≠ sep)),
      String.ofList ((text.toList.dropWhile (· ≠ sep)).drop 1))
  else none

/-- The text before the last occurrence of a character and the text after it. -/
def splitLast (sep : Char) (text : String) : Option (String × String) :=
  if hasChar sep text then
    let rev := text.toList.reverse
    some (String.ofList ((rev.dropWhile (· ≠ sep)).drop 1).reverse,
      String.ofList (rev.takeWhile (· ≠ sep)).reverse)
  else none

/-- Cutting gives at least one piece, be it the empty one. -/
theorem pieces_ne_nil (sep : Char) (cs : List Char) : pieces sep cs ≠ [] := by
  cases cs with
  | nil => simp [pieces]
  | cons c rest =>
    unfold pieces
    split
    · simp
    · split <;> simp

end Text

end NetIntent
