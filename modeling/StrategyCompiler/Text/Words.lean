import StrategyCompiler.Text.Trim
/-!
Names made of words: snake case, where words are joined by underscores, and titles.
-/

set_option autoImplicit false

namespace StrategyCompiler.Text

/-- A character of a name in snake case, an upper-case letter becoming an underscore and the lower
case of it. -/
def snakeChar (c : Char) : List Char :=
  if c.isUpper then ['_', c.toLower] else [c]

/-- The characters of a name in snake case; an upper-case letter in front needs no underscore. -/
def snakeChars : List Char → List Char
  | [] => []
  | c :: rest => c.toLower :: rest.flatMap snakeChar

/-- A name in snake case: `fastLength` is `fast_length`. -/
def snake (name : String) : String :=
  String.ofList (snakeChars name.toList)

def capitalize : List Char → List Char
  | [] => []
  | c :: rest => c.toUpper :: rest

/-- The words of a name, with their first letters in upper case. -/
def title (name : String) : String :=
  let words := ((snakeChars name.toList).splitOn '_').filter fun word => !word.isEmpty
  " ".intercalate (words.map fun word => String.ofList (capitalize word))

end StrategyCompiler.Text
