/-!
Templates: texts with placeholders between braces.
-/

set_option autoImplicit false

namespace StrategyCompiler.Catalogue.Template

/-- What a placeholder becomes.  One without a value stays as it is. -/
def replacement (resolve : List Char → Option (List Char)) (key : List Char) : List Char :=
  match resolve key with
  | some value => value
  | none => '{' :: (key ++ ['}'])

/-- Replace the placeholders of a template, once and all together: what is put in for a placeholder
is not looked at again.  A brace that is never closed is text. -/
def fillChars (resolve : List Char → Option (List Char)) : List Char → List Char
  | [] => []
  | c :: rest =>
    if c == '{' then
      match _cut : rest.dropWhile fun d => d != '}' with
      | [] => c :: rest
      | _ :: after =>
        replacement resolve (rest.takeWhile fun d => d != '}') ++ fillChars resolve after
    else c :: fillChars resolve rest
termination_by template => template.length
decreasing_by
  · have := (List.dropWhile_suffix (l := rest) fun d => d != '}').length_le
    rw [_cut] at this
    simp only [List.length_cons] at this ⊢
    omega
  · simp

def fill (template : String) (resolve : String → Option String) : String :=
  String.ofList (fillChars (fun key => (resolve (String.ofList key)).map String.toList)
    template.toList)

end StrategyCompiler.Catalogue.Template
