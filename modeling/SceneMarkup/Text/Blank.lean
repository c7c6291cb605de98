namespace SceneMarkup.Text

/-!
# Blank characters

The characters of the Unicode property `White_Space`, and the words of a text:
its longest runs without a blank.
-/

/-- Code points of the property `White_Space`, as closed ranges in rising order. -/
def blankRanges : List (Nat × Nat) :=
  [(0x09, 0x0d), (0x20, 0x20), (0x85, 0x85), (0xa0, 0xa0), (0x1680, 0x1680), (0x2000, 0x200a),
    (0x2028, 0x2029), (0x202f, 0x202f), (0x205f, 0x205f), (0x3000, 0x3000)]

/-- A character is blank when its code point lies in one of the ranges. -/
def isBlank (character : Char) : Bool :=
  blankRanges.any fun range => range.1 ≤ character.toNat && character.toNat ≤ range.2

/-- Split off words from `rest`, where `word` holds the current word backwards. -/
def wordsFrom (word : List Char) : List Char → List String
  | [] => if word.isEmpty then [] else [String.ofList word.reverse]
  | character :: rest =>
      if isBlank character then
        if word.isEmpty then wordsFrom [] rest
        else String.ofList word.reverse :: wordsFrom [] rest
      else wordsFrom (character :: word) rest

/-- The words of a text, in order; blanks separate them and none is empty. -/
def words (text : String) : List String :=
  wordsFrom [] text.toList

/-- A text without the blanks at its ends. -/
def trimmed (text : String) : String :=
  let body := text.toList.dropWhile isBlank
  String.ofList (body.reverse.dropWhile isBlank).reverse

end SceneMarkup.Text
