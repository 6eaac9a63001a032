/-!
The words of the script language that mean something already.
-/

set_option autoImplicit false

namespace StrategyCompiler.Script

/-- Names that the script language defines; a generated variable takes none of them. -/
def reservedWords : List String :=
  [ "and", "or", "not", "if", "else", "for", "to", "by", "while", "switch", "var", "varip",
    "true", "false", "na", "import", "export", "method", "type", "series", "simple", "const",
    "int", "float", "bool", "string", "color", "line", "label", "box", "table", "array",
    "matrix", "map", "open", "high", "low", "close", "volume", "time", "hl2", "hlc3",
    "ohlc4", "hlcc4", "bar_index", "strategy", "ta", "math", "input", "plot", "plotshape",
    "hline", "request", "syminfo", "timeframe", "location", "shape", "size", "str" ]

def priceSeries : List String :=
  ["open", "high", "low", "close", "volume", "hl2", "hlc3", "ohlc4", "hlcc4"]

end StrategyCompiler.Script
