import StrategyCompiler.Text.UpperCase
/-!
The layout of a script: lines, blank lines, comments, section banners and indented blocks.
-/

set_option autoImplicit false

namespace StrategyCompiler.Script

inductive Step
  | line (text : String)
  | blank
  | comment (text : String)
  | banner (title : String)
  | block (condition : String) (body : List Step)
  deriving Inhabited

/-- A page: the lines written so far and the depth at which the next one stands. -/
structure Page where
  lines : List String := []
  depth : Nat := 0
  deriving DecidableEq

namespace Page

def bannerRule : String := "// ============================================================"

/-- A text behind the blanks of its depth, four for each level. -/
def indent (depth : Nat) (text : String) : String :=
  String.ofList (List.replicate (4 * depth) ' ') ++ text

def flatten (text : String) : String :=
  String.ofList (text.toList.map fun c => if c == '\n' || c == '\r' then ' ' else c)

def line (page : Page) (text : String) : Page :=
  { page with lines := page.lines ++ [if text == "" then "" else indent page.depth text] }

/-- Write an empty line, unless nothing or an empty line stands before it. -/
def blank (page : Page) : Page :=
  match page.lines.getLast? with
  | none | some "" => page
  | some _ => { page with lines := page.lines ++ [""] }

def comment (page : Page) (text : String) : Page :=
  page.line ("// " ++ flatten text)

/-- Write the banner of a section, its title in upper case. -/
def banner (page : Page) (title : String) : Page :=
  ((page.blank.line bannerRule).line ("// " ++ Text.upper title)).line bannerRule

def deeper (page : Page) : Page := { page with depth := page.depth + 1 }

def shallower (page : Page) : Page := { page with depth := page.depth - 1 }

mutual

def write (page : Page) : Step → Page
  | .line text => page.line text
  | .blank => page.blank
  | .comment text => page.comment text
  | .banner title => page.banner title
  | .block condition body => (writeAll (page.line ("if " ++ condition)).deeper body).shallower

def writeAll (page : Page) : List Step → Page
  | [] => page
  | step :: rest => writeAll (write page step) rest

end

def trimmedLines (page : Page) : List String :=
  (page.lines.reverse.dropWhile fun text => text == "").reverse

def finish (page : Page) : String :=
  "\n".intercalate page.trimmedLines ++ "\n"

end Page

def layout (steps : List Step) : String :=
  (Page.writeAll {} steps).finish

end StrategyCompiler.Script
