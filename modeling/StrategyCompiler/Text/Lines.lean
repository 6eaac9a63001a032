/-!
Lines of a text, and the search for a word inside a text.
-/

set_option autoImplicit false

namespace StrategyCompiler.Text

/-- Cut at line ends.  A line feed ends a line, a carriage return right before it belongs to the
line end, and what follows the last line end is a line only when it is not empty. -/
def lineChars : List Char → List (List Char)
  | [] => []
  | '\n' :: rest => [] :: lineChars rest
  | '\r' :: '\n' :: rest => [] :: lineChars rest
  | c :: rest =>
    match lineChars rest with
    | [] => [[c]]
    | line :: more => (c :: line) :: more

def lines (s : String) : List String :=
  (lineChars s.toList).map String.ofList

/-- Whether the word occurs in the text as consecutive characters. -/
def occursIn (word : List Char) : List Char → Bool
  | [] => word.isEmpty
  | c :: rest => word.isPrefixOf (c :: rest) || occursIn word rest

def contains (text word : String) : Bool :=
  occursIn word.toList text.toList

end StrategyCompiler.Text
