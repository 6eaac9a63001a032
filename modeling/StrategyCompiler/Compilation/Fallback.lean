import StrategyCompiler.Compilation.Options
import StrategyCompiler.Compilation.Plots
/-!
The script that stands in for one that cannot be generated: the declaration, the errors as comments
and a plot of the price.
-/

set_option autoImplicit false

namespace StrategyCompiler.Compilation

open Diagnostic (Error)

def fallbackSteps (options : Options) (errors : List Error) : List Script.Step :=
  options.header ++
    [ .banner "Generation Failed",
      .comment "The strategy graph could not be compiled:" ] ++
    (errors.map fun error => .comment ("ERROR: " ++ error.message)) ++
    [.blank, .line pricePlot.render]

def fallbackScript (options : Options) (errors : List Error) : String :=
  Script.layout (fallbackSteps options errors)

end StrategyCompiler.Compilation
