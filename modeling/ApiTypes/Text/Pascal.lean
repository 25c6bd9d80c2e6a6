import ApiTypes.Text.Blank
import ApiTypes.Text.Letter

/-! # Pascal case

A text is cut into words at every character that is neither letter nor digit and at every change of
case that starts a word; each word is written with its first character in upper case and the others
in lower case.

Main definitions: `WordMode`, `caseWords`, `lowerWord`, `pascalWord`, `pascal`. -/

namespace ApiTypes.Text

/-- The case of the letters read last in the current word. -/
inductive WordMode where
  | fresh
  | lower
  | upper
  deriving DecidableEq, Repr

/-- The mode after a character that starts no word. -/
def WordMode.next (mode : WordMode) (c : Char) : WordMode :=
  if isLower c then .lower else if isUpper c then .upper else mode

/-- Cut a run of letters and digits where its case starts a new word.  `word` holds, last first,
what is read of the current word.  A word ends after a lower case letter that an upper case one
follows, and before the last of several upper case letters when a lower case one follows it. -/
def caseWords (mode : WordMode) (word : List Char) : List Char → List (List Char)
  | [] => if word.isEmpty then [] else [word.reverse]
  | [c] => [(c :: word).reverse]
  | c :: d :: rest =>
    if mode.next c = .lower ∧ isUpper d = true then
      (c :: word).reverse :: caseWords .fresh [] (d :: rest)
    else if mode = .upper ∧ isUpper c = true ∧ isLower d = true then
      word.reverse :: caseWords .fresh [c] (d :: rest)
    else
      caseWords (mode.next c) (c :: word) (d :: rest)

/-- A word in lower case; a sigma that ends it takes its final form. -/
def lowerWord : List Char → List Char
  | [] => []
  | [c] => if c = 'Σ' then ['ς'] else lower c
  | c :: rest => lower c ++ lowerWord rest

/-- A word with its first character in upper case and the others in lower case. -/
def pascalWord : List Char → List Char
  | [] => []
  | c :: rest => upper c ++ lowerWord rest

/-- The words of a text in Pascal case, one after the other. -/
def pascal (s : List Char) : List Char :=
  ((splitWhere (fun c => !isAlphanumeric c) s).flatMap (caseWords .fresh [])).flatMap pascalWord

end ApiTypes.Text
