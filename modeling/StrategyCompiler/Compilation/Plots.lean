import StrategyCompiler.Compilation.Plan
/-!
The plots section of a script: the outputs of indicators in changing colors, with their reference
lines.
-/

set_option autoImplicit false

namespace StrategyCompiler.Compilation

open Catalogue (Plot ReferenceLine Signature)
open StrategyCompiler.Graph (Placed)
open Naming (Binding)
open Script (Argument Call)

def palette : List String :=
  [ "color.blue", "color.orange", "color.purple", "color.teal", "color.fuchsia", "color.olive",
    "color.navy", "color.maroon" ]

/-- The color of the plot with a number, counted from zero. -/
def colorOf (number : Nat) : String :=
  palette[number % palette.length]?.getD ""

structure Series where
  title : String
  name : String
  columns : Bool
  deriving DecidableEq

/-- The series of an indicator: one under its label, or one for each output. -/
def seriesFor (label : String) (plot : Plot) : Binding → List Series
  | .single name => [⟨label, name, false⟩]
  | .tuple outputs =>
    outputs.map fun (suffix, name) => ⟨label ++ " " ++ suffix, name, plot.columns.contains suffix⟩

def plotCall (number : Nat) (series : Series) : Call where
  function := "plot"
  arguments :=
    [ Argument.expr (.name series.name),
      Argument.named "title" (.string series.title),
      Argument.named "color" (.name (colorOf number)) ] ++
    if series.columns then [Argument.named "style" (.name "plot.style_columns")] else []

/-- The calls that plot series, the first of which has the given number. -/
def plotCalls (number : Nat) : List Series → List Call
  | [] => []
  | series :: rest => plotCall number series :: plotCalls (number + 1) rest

def referenceCall (reference : ReferenceLine) : Call where
  function := "hline"
  arguments :=
    [ Argument.expr (.number reference.level),
      Argument.named "title" (.string reference.title),
      Argument.named "color" (.name reference.color),
      Argument.named "linestyle" (.name "hline.style_dashed") ]

def pricePlot : Call where
  function := "plot"
  arguments :=
    [ Argument.expr (.name "close"), Argument.named "title" (.string "Price"),
      Argument.named "color" (.name "color.blue") ]

/-- The call that marks the bars where a combined condition holds. -/
def marker (condition title location color style : String) : Call where
  function := "plotshape"
  arguments :=
    [ Argument.expr (.name condition),
      Argument.named "title" (.string title),
      Argument.named "location" (.name location),
      Argument.named "color" (.name color),
      Argument.named "style" (.name style),
      Argument.named "size" (.name "size.small") ]

def entryMarker : Call :=
  marker Naming.entryCondition "Entry Signal" "location.belowbar" "color.green"
    "shape.triangleup"

def exitMarker : Call :=
  marker Naming.exitCondition "Exit Signal" "location.abovebar" "color.red"
    "shape.triangledown"

namespace Plan

/-- The series of an indicator, unless its function is not plotted. -/
def series (plan : Plan) (placed : Placed) (signature : Signature) : List Series :=
  match plan.names.bindingAt? placed.position with
  | some binding =>
    if signature.plot.hidden then []
    else seriesFor (displayLabel placed.node signature) signature.plot binding
  | none => []

/-- The reference lines of an indicator, unless its function is not plotted. -/
def references (plan : Plan) (placed : Placed) (signature : Signature) : List ReferenceLine :=
  match plan.names.bindingAt? placed.position with
  | some _ => if signature.plot.hidden then [] else signature.plot.referenceLines
  | none => []

/-- The calls that plot indicators, each followed by its reference lines, when the given number of
series stands in front of them. -/
def indicatorPlotsFrom (plan : Plan) : Nat → List (Placed × Signature) → List Call
  | _, [] => []
  | number, (placed, signature) :: rest =>
    let series := plan.series placed signature
    plotCalls number series ++ (plan.references placed signature).map referenceCall ++
      plan.indicatorPlotsFrom (number + series.length) rest

def allSeries (plan : Plan) : List Series :=
  plan.indicators.flatMap fun (placed, signature) => plan.series placed signature

/-- The plots of a script, without markers.  A script that plots no indicator plots the price. -/
def plots (plan : Plan) : List Call :=
  plan.indicatorPlotsFrom 0 plan.indicators ++ if plan.allSeries.isEmpty then [pricePlot] else []

end Plan

end StrategyCompiler.Compilation
