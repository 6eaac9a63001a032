import StrategyCompiler.Text.Lines
/-!
The last check of a generated script: the version and the declaration are there, string literals
end on their lines, and outside of literals and comments the brackets are well nested.
-/

set_option autoImplicit false

namespace StrategyCompiler.Script

structure Opening where
  bracket : Char
  line : Nat
  deriving DecidableEq

inductive StructureFault
  | missingVersion
  | missingDeclaration
  | mismatched (closing : Char) (line : Nat) (opening : Opening)
  | unmatched (closing : Char) (line : Nat)
  | unterminated (line : Nat)
  | unclosed (opening : Opening)
  deriving DecidableEq

private def shownBracket (c : Char) : String := String.ofList ['\'', c, '\'']

def StructureFault.message : StructureFault → String
  | missingVersion => "missing //@version= annotation"
  | missingDeclaration => "missing strategy( declaration"
  | mismatched closing line opening =>
    shownBracket closing ++ " on line " ++ toString line ++ " closes " ++
      shownBracket opening.bracket ++ " opened on line " ++ toString opening.line
  | unmatched closing line =>
    "unmatched " ++ shownBracket closing ++ " on line " ++ toString line
  | unterminated line => "unterminated string on line " ++ toString line
  | unclosed opening =>
    "unclosed " ++ shownBracket opening.bracket ++ " opened on line " ++ toString opening.line

def partner? (c : Char) : Option Char :=
  if c == ')' then some '('
  else if c == ']' then some '['
  else none

def close (line : Nat) (closing partner : Char) :
    List Opening → Except StructureFault (List Opening)
  | [] => .error (.unmatched closing line)
  | opening :: opened =>
    if opening.bracket == partner then .ok opened
    else .error (.mismatched closing line opening)

/-- Scan the rest of a line, inside of a literal with the given quote or outside of literals, and
keep the brackets that are open, the last one first.  In a literal a backslash takes the next
character with it. -/
def scan (line : Nat) : Option Char → List Opening → List Char →
    Except StructureFault (List Opening)
  | none, opened, [] => .ok opened
  | none, opened, '/' :: '/' :: _ => .ok opened
  | none, opened, c :: rest =>
    if c == '"' || c == '\'' then scan line (some c) opened rest
    else if c == '(' || c == '[' then scan line none (⟨c, line⟩ :: opened) rest
    else
      match partner? c with
      | some partner =>
        match close line c partner opened with
        | .ok opened => scan line none opened rest
        | .error fault => .error fault
      | none => scan line none opened rest
  | some _, _, [] => .error (.unterminated line)
  | some _, _, ['\\'] => .error (.unterminated line)
  | some quote, opened, '\\' :: _ :: rest => scan line (some quote) opened rest
  | some quote, opened, c :: rest =>
    if c == quote then scan line none opened rest else scan line (some quote) opened rest

def scanLines : Nat → List Opening → List (List Char) → Except StructureFault (List Opening)
  | _, opened, [] => .ok opened
  | number, opened, text :: rest =>
    match scan number none opened text with
    | .ok opened => scanLines (number + 1) opened rest
    | .error fault => .error fault

def checkStructure (code : String) : Except StructureFault Unit :=
  if !Text.contains code "//@version=" then .error .missingVersion
  else if !Text.contains code "strategy(" then .error .missingDeclaration
  else
    match scanLines 1 [] (Text.lineChars code.toList) with
    | .error fault => .error fault
    | .ok [] => .ok ()
    | .ok (opening :: _) => .error (.unclosed opening)

end StrategyCompiler.Script
