import StrategyCompiler.Catalogue.Basic
/-!
The functions that the compiler knows from the start.
-/

set_option autoImplicit false

namespace StrategyCompiler.Catalogue

open Number (Double)

namespace Builtin

private def whole (n : Int) : Double := Double.ofInt n

/-- The number `digits * 10 ^ (-places)` as a bound or default. -/
private def decimal (digits places : Nat) : Double := Double.ofDecimal false digits (-places)

/-- An integer that every node must give, between one and a maximum. -/
private def length (name : String) (default max : Nat) : Parameter :=
  ((Parameter.ofDefault name (.int default)).mandatory).between (whole 1) (whole max)

private def series (name default : String) : Parameter :=
  Parameter.ofDefault name (.source default)

private def aroundZero : Plot := ({} : Plot).withReference (whole 0) "Zero" "color.gray"

private def windowed (name function : String) (category : Category) (source : String)
    (default max : Nat) (plot : Plot) (description : String) : Signature :=
  { Signature.ofCall name category function with
    description
    parameters := [series "source" source, length "length" default max]
    plot }

def windowedSignatures : List Signature :=
  [ windowed "sma" "ta.sma" .movingAverage "close" 20 5000 {} "Simple moving average",
    windowed "ema" "ta.ema" .movingAverage "close" 20 5000 {} "Exponential moving average",
    windowed "wma" "ta.wma" .movingAverage "close" 20 5000 {} "Weighted moving average",
    windowed "vwma" "ta.vwma" .movingAverage "close" 20 5000 {} "Volume-weighted moving average",
    windowed "hma" "ta.hma" .movingAverage "close" 9 5000 {} "Hull moving average",
    windowed "rma" "ta.rma" .movingAverage "close" 14 5000 {} "Wilder's moving average",
    windowed "cci" "ta.cci" .oscillator "hlc3" 20 500 (Plot.oscillator (whole 100) (whole (-100)))
      "Commodity channel index",
    windowed "mfi" "ta.mfi" .volume "hlc3" 14 500 (Plot.oscillator (whole 80) (whole 20))
      "Money flow index",
    windowed "mom" "ta.mom" .oscillator "close" 10 500 aroundZero "Momentum",
    windowed "roc" "ta.roc" .oscillator "close" 9 500 aroundZero "Rate of change",
    windowed "stdev" "ta.stdev" .volatility "close" 20 5000 {} "Standard deviation",
    windowed "highest" "ta.highest" .trend "high" 20 5000 {} "Highest value over a lookback",
    windowed "lowest" "ta.lowest" .trend "low" 20 5000 {} "Lowest value over a lookback" ]

/-- The complaint about a fast length that is not below the slow one. -/
def fastBelowSlow (settings : Settings) : Option String :=
  match settings.number? "fastLength", settings.number? "slowLength" with
  | some fast, some slow =>
    if slow.lt fast || slow.same fast then
      some ("fastLength (" ++ fast.plain ++ ") must be less than slowLength (" ++ slow.plain ++ ")")
    else none
  | _, _ => none

def indicatorSignatures : List Signature :=
  [ { Signature.ofCall "rsi" .oscillator "ta.rsi" with
      description := "Relative strength index"
      parameters := [series "source" "close", length "period" 14 500]
      plot := Plot.oscillator (whole 70) (whole 30) },
    { Signature.ofCall "macd" .trend "ta.macd" with
      description := "Moving average convergence divergence"
      parameters :=
        [ series "source" "close", length "fastLength" 12 500, length "slowLength" 26 500,
          length "signalLength" 9 500 ]
      outputs := .tuple ["line", "signal", "histogram"]
      plot := (({} : Plot).withColumns "histogram").withReference (whole 0) "Zero" "color.gray"
      rule := some fastBelowSlow },
    { Signature.ofCall "bb" .volatility "ta.bb" with
      description := "Bollinger Bands"
      parameters :=
        [ series "source" "close", length "length" 20 5000,
          (((Parameter.ofDefault "mult" (.float (whole 2))).titled "Multiplier").between
            (decimal 1 3) (whole 50)).stepping (decimal 1 1) ]
      outputs := .tuple ["middle", "upper", "lower"] },
    { Signature.ofCall "kc" .volatility "ta.kc" with
      description := "Keltner Channels"
      parameters :=
        [ series "source" "close", length "length" 20 5000,
          (((Parameter.ofDefault "mult" (.float (decimal 15 1))).titled "Multiplier").between
            (decimal 1 3) (whole 50)).stepping (decimal 1 1),
          Parameter.ofDefault "useTrueRange" (.bool true) ]
      outputs := .tuple ["middle", "upper", "lower"] },
    { Signature.ofForm "stoch" .oscillator (.templates
        [ "ta.sma(ta.stoch(\x7bsource\x7d, high, low, \x7bkLength\x7d), \x7bkSmoothing\x7d)",
          "ta.sma(\x7bout:k\x7d, \x7bdSmoothing\x7d)" ]) with
      description := "Stochastic oscillator"
      parameters :=
        [ series "source" "close",
          (length "kLength" 14 500).titled "%K Length",
          ((Parameter.ofDefault "kSmoothing" (.int 3)).titled "%K Smoothing").between
            (whole 1) (whole 100),
          ((Parameter.ofDefault "dSmoothing" (.int 3)).titled "%D Smoothing").between
            (whole 1) (whole 100) ]
      outputs := .tuple ["k", "d"]
      plot := Plot.oscillator (whole 80) (whole 20) },
    { Signature.ofCall "dmi" .trend "ta.dmi" with
      description := "Directional movement index"
      parameters :=
        [ (length "diLength" 14 500).titled "DI Length",
          (length "adxSmoothing" 14 500).titled "ADX Smoothing" ]
      outputs := .tuple ["plus", "minus", "adx"]
      plot := ({} : Plot).withReference (whole 25) "Trend Strength" "color.gray" },
    { Signature.ofCall "supertrend" .trend "ta.supertrend" with
      description := "Supertrend"
      parameters :=
        [ (((Parameter.ofDefault "factor" (.float (whole 3))).mandatory).between
            (decimal 1 2) (whole 100)).stepping (decimal 1 1),
          (length "atrPeriod" 10 500).titled "ATR Period" ]
      outputs := .tuple ["value", "direction"] },
    { Signature.ofCall "atr" .volatility "ta.atr" with
      description := "Average true range"
      parameters := [length "length" 14 5000] },
    { Signature.ofCall "willr" .oscillator "ta.wpr" with
      description := "Williams %R"
      parameters := [length "length" 14 500]
      plot := Plot.oscillator (whole (-20)) (whole (-80)) },
    { Signature.ofCall "vwap" .volume "ta.vwap" with
      description := "Volume-weighted average price"
      parameters := [series "source" "hlc3"] } ]

private def crossing (name function description : String) : Signature :=
  { Signature.ofCall name .operator function with
    description
    parameters := [(series "source" "close").mandatory, (series "reference" "close").mandatory]
    plot := Plot.unseen }

def operatorSignatures : List Signature :=
  [ crossing "crossover" "ta.crossover" "True when the first series crosses above the second",
    crossing "crossunder" "ta.crossunder" "True when the first series crosses below the second" ]

def aliases : List (String × String) :=
  [ ("moving_average", "sma"), ("ma", "sma"), ("bollinger", "bb"), ("bollinger_bands", "bb"),
    ("bbands", "bb"), ("keltner", "kc"), ("keltner_channels", "kc"), ("stochastic", "stoch"),
    ("williams_r", "willr"), ("wpr", "willr"), ("momentum", "mom"), ("adx", "dmi") ]

end Builtin

/-- The catalogue of the functions known from the start. -/
def builtin : Catalogue :=
  empty.extend
    (Builtin.windowedSignatures ++ Builtin.indicatorSignatures ++ Builtin.operatorSignatures)
    Builtin.aliases

end StrategyCompiler.Catalogue
