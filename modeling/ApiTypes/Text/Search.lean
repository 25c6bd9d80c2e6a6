/-! # Searching text

Whether a word occurs in a text, and what a text becomes when one of two neighbouring characters is
written differently.

Main definitions: `occurs`, `replaceChar`, `replacePair`, `lastSegment`. -/

namespace ApiTypes.Text

/-- Does the word stand somewhere in the text? -/
def occurs (word : List Char) : List Char → Bool
  | [] => word.isEmpty
  | c :: rest => word.isPrefixOf (c :: rest) || occurs word rest

/-- Every `old` is written as `new`. -/
def replaceChar (old : Char) (new : List Char) : List Char → List Char
  | [] => []
  | c :: rest => (if c = old then new else [c]) ++ replaceChar old new rest

/-- Every `a` right before a `b` is written with `b` as `new`, from left to right. -/
def replacePair (a b : Char) (new : List Char) : List Char → List Char
  | [] => []
  | [c] => [c]
  | c :: d :: rest =>
    if c = a ∧ d = b then new ++ replacePair a b new rest
    else c :: replacePair a b new (d :: rest)

/-- What follows the last `mark`, the whole text where there is none. -/
def lastSegment (mark : Char) (s : List Char) : List Char :=
  (s.reverse.takeWhile (· ≠ mark)).reverse

end ApiTypes.Text
