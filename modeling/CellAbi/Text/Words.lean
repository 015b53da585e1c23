import CellAbi.Text.Alphanumeric
import CellAbi.Text.LetterCase

/-!
# Words of a name

A name is cut into words where a character is neither letter nor number, between a lower-case and
an upper-case letter, and before the last capital of a run that a lower-case letter follows
(`HTTPServer` is `HTTP`, `Server`).  Words are joined again in upper camel case or in snake case.
-/

namespace CellAbi.Text

/-! ## Cutting -/

/-- The case of the last letter seen in the current word. -/
inductive LetterRun where
  | none | lower | upper
deriving DecidableEq, Repr

def LetterRun.next (run : LetterRun) (c : Char) : LetterRun :=
  if isLower c then lower else if isUpper c then upper else run

/-- Cuts a run of letters and numbers; `word` is the current word in reverse. -/
def splitRun (run : LetterRun) (word : List Char) : List Char → List (List Char)
  | [] => if word.isEmpty then [] else [word.reverse]
  | [c] => [(c :: word).reverse]
  | c :: d :: rest =>
    if run.next c = .lower ∧ isUpper d then
      (c :: word).reverse :: splitRun .none [] (d :: rest)
    else if run = .upper ∧ isUpper c ∧ isLower d then
      word.reverse :: splitRun .none [c] (d :: rest)
    else splitRun (run.next c) (c :: word) (d :: rest)

/-- The longest runs of letters and numbers; `run` is the current one in reverse. -/
def alphanumericRuns (run : List Char) : List Char → List (List Char)
  | [] => [run.reverse]
  | c :: rest =>
    if isAlphanumeric c then alphanumericRuns (c :: run) rest
    else run.reverse :: alphanumericRuns [] rest

def words (name : List Char) : List (List Char) :=
  (alphanumericRuns [] name).flatMap (splitRun .none [])

/-! ## Joining -/

/-- Lower case of a word.  A sigma that ends the word takes its final form. -/
def lowerWord : List Char → List Char
  | [] => []
  | [c] => if c = 'Σ' then ['ς'] else lowerCase c
  | c :: rest => lowerCase c ++ lowerWord rest

/-- The first character in upper case, the others in lower case. -/
def capitalize : List Char → List Char
  | [] => []
  | c :: rest => upperCase c ++ lowerWord rest

/-- The words capitalized and joined. -/
def upperCamelCase (name : String) : String :=
  String.ofList ((words name.toList).flatMap capitalize)

/-- The words in lower case, joined by underscores. -/
def snakeCase (name : String) : String :=
  String.ofList (['_'].intercalate ((words name.toList).map lowerWord))

end CellAbi.Text
