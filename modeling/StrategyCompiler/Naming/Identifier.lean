/-!
Identifiers made from free text.  The words of a text are its runs of ASCII letters and digits; an
identifier is made of them in lower case, joined by underscores.
-/

set_option autoImplicit false

namespace StrategyCompiler.Naming

/-- Write words, and one underscore where other characters stand between two of them.  The flag
says that such characters stand before the text. -/
def joinWords (gap : Bool) : List Char → List Char
  | [] => []
  | c :: rest =>
    if c.isAlphanum then
      (if gap then ['_', c.toLower] else [c.toLower]) ++ joinWords false rest
    else joinWords true rest

def guardDigit : List Char → List Char
  | [] => []
  | c :: rest => if c.isDigit then '_' :: 'v' :: c :: rest else c :: rest

def sanitizeChars (text : List Char) : List Char :=
  guardDigit (joinWords false (text.dropWhile fun c => !c.isAlphanum))

/-- The identifier made from a text; empty when the text has no word. -/
def sanitize (text : String) : String :=
  String.ofList (sanitizeChars text.toList)

/-- The last piece of the identifier made from a node id, the pieces being what stands between
underscores: `17` for `node-17`. -/
def idFragment (id : String) : String :=
  let pieces := (sanitizeChars id.toList).splitOn '_'
  String.ofList ((pieces.reverse.find? fun piece => !piece.isEmpty).getD [])

end StrategyCompiler.Naming
