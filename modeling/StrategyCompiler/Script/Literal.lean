/-!
String literals of the script language.
-/

set_option autoImplicit false

namespace StrategyCompiler.Script

/-- A character inside a literal: backslashes and quotes are escaped, and a line break, which no
literal can hold, becomes a space. -/
def literalChar (c : Char) : List Char :=
  if c == '\\' || c == '"' then ['\\', c]
  else if c == '\n' || c == '\r' then [' ']
  else [c]

def literalChars (cs : List Char) : List Char :=
  '"' :: (cs.flatMap literalChar ++ ['"'])

def literal (s : String) : String :=
  String.ofList (literalChars s.toList)

end StrategyCompiler.Script
