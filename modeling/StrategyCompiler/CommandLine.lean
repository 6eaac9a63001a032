import StrategyCompiler.Compilation.Compile
import StrategyCompiler.Graph.Document
/-!
The command line: a graph document is read from a file, compiled, and its script printed or
written.  Files and clocks belong to a host; everything else is decided here.
-/

set_option autoImplicit false

namespace StrategyCompiler.CommandLine

open Compilation (Options Result)

structure Invocation where
  graphPath : Option String := none
  optionsPath : Option String := none
  name : Option String := none
  outputPath : Option String := none
  json : Bool := false
  strict : Bool := false
  deriving DecidableEq

inductive Setting
  | options
  | name
  | output
  deriving DecidableEq

inductive Misuse
  | unknownArgument (text : String)
  | missingValue (text : String)
  | repeated (text : String)
  | missingGraph
  deriving DecidableEq

def Misuse.message : Misuse → String
  | unknownArgument text => "unexpected argument '" ++ text ++ "' found"
  | missingValue text => "a value is required for '" ++ text ++ "' but none was supplied"
  | repeated text => "the argument '" ++ text ++ "' cannot be used multiple times"
  | missingGraph => "the following required arguments were not provided: <GRAPH_PATH>"

def longNames : List (String × Setting) :=
  [("--options", .options), ("--name", .name), ("--output", .output)]

def shortNames : List (String × Setting) :=
  [("-n", .name), ("-o", .output)]

/-- The setting that an argument names, with the value joined to it if there is one: behind an
equals sign, and for a short name also right behind the name. -/
def setting? (text : String) : Option (Setting × Option String) :=
  let cs := text.toList
  let (long, rest) := (cs.takeWhile fun c => c != '=', cs.dropWhile fun c => c != '=')
  match longNames.find? fun entry => entry.1.toList == long with
  | some (_, setting) =>
    some (setting, if rest.isEmpty then none else some (String.ofList (rest.drop 1)))
  | none =>
    (shortNames.find? fun entry => entry.1.toList.isPrefixOf cs).map fun (_, setting) =>
      match cs.drop 2 with
      | [] => (setting, none)
      | '=' :: value => (setting, some (String.ofList value))
      | value => (setting, some (String.ofList value))

namespace Invocation

def has (invocation : Invocation) : Setting → Bool
  | .options => invocation.optionsPath.isSome
  | .name => invocation.name.isSome
  | .output => invocation.outputPath.isSome

def put (invocation : Invocation) (value : String) : Setting → Invocation
  | .options => { invocation with optionsPath := some value }
  | .name => { invocation with name := some value }
  | .output => { invocation with outputPath := some value }

def putGraph (invocation : Invocation) (text : String) : Except Misuse Invocation :=
  if invocation.graphPath.isSome then .error (.unknownArgument text)
  else .ok { invocation with graphPath := some text }

def putOnce (invocation : Invocation) (text value : String) (setting : Setting) :
    Except Misuse Invocation :=
  if invocation.has setting then .error (.repeated text) else .ok (invocation.put value setting)

end Invocation

/-- Whether an argument can only be the name of a setting or flag. -/
def looksNamed (text : String) : Bool :=
  text.toList.head? == some '-' && text != "-"

/-- Understand arguments in addition to what was understood before.  Behind two dashes there are
only paths. -/
def understand (invocation : Invocation) : List String → Except Misuse Invocation
  | [] => .ok invocation
  | "--" :: rest => rest.foldlM Invocation.putGraph invocation
  | "--json" :: rest =>
    if invocation.json then .error (.repeated "--json")
    else understand { invocation with json := true } rest
  | "--strict" :: rest =>
    if invocation.strict then .error (.repeated "--strict")
    else understand { invocation with strict := true } rest
  | text :: rest =>
    if looksNamed text then
      match setting? text, rest with
      | some (setting, some value), rest => do
        let invocation ← invocation.putOnce text value setting
        understand invocation rest
      | some (_, none), [] => .error (.missingValue text)
      | some (setting, none), value :: rest =>
        if looksNamed value then .error (.missingValue text)
        else do
          let invocation ← invocation.putOnce text value setting
          understand invocation rest
      | none, _ => .error (.unknownArgument text)
    else do
      let invocation ← invocation.putGraph text
      understand invocation rest

/-- Digits behind a point without the zeros at the end; none if there is nothing behind it. -/
def fractionText (width value : Nat) : String :=
  let digits := Nat.toDigits 10 (Number.powerOfTen width + value)
  match (digits.drop 1).reverse.dropWhile fun digit => digit == '0' with
  | [] => ""
  | rest => "." ++ String.ofList rest.reverse

/-- A span of time, given in nanoseconds, in the largest unit of which it holds one. -/
def spanText (span : Nat) : String :=
  if span < 1000 then toString span ++ "ns"
  else if span < 1000000 then toString (span / 1000) ++ fractionText 3 (span % 1000) ++ "µs"
  else if span < 1000000000 then
    toString (span / 1000000) ++ fractionText 6 (span % 1000000) ++ "ms"
  else toString (span / 1000000000) ++ fractionText 9 (span % 1000000000) ++ "s"

/-- What a run leaves behind: its exit code and what it prints. -/
structure Transcript where
  exit : Nat
  out : String := ""
  err : String := ""
  deriving DecidableEq

/-- The files and clocks that a run uses.  Reading and writing answer with a reason when they
fail. -/
structure Host (m : Type → Type) where
  read : String → m (Except String String)
  write : String → String → m (Except String Unit)
  generatedAt : m String
  elapsed : m String

def failure (message : String) : Transcript :=
  { exit := 1, err := "\nError: " ++ message ++ "\n" }

/-- The transcript of arguments that cannot be understood. -/
def misuse (cause : Misuse) : Transcript :=
  { exit := 2, err := "error: " ++ cause.message ++ "\n" }

/-- The exit code for a result; in a strict run warnings count as failures. -/
def exitCode (invocation : Invocation) (result : Result) : Nat :=
  if !result.success || (invocation.strict && !result.warnings.isEmpty) then 1 else 0

/-- The lines about a result: its errors, its warnings and its counts. -/
def summary (result : Result) (elapsed : String) : String :=
  String.join (result.errors.map fun error => "error: " ++ error.message ++ "\n") ++
    String.join (result.warnings.map fun warning => "warning: " ++ warning.message ++ "\n") ++
    "\n" ++ toString result.metadata.nodeCount ++ " nodes, " ++
    toString result.metadata.edgeCount ++ " edges, " ++
    toString result.metadata.inputCount ++ " inputs compiled in " ++ elapsed ++ "\n"

/-- The options of a run, with the given text of the options file if one is named. -/
def optionsOf (invocation : Invocation) (file : Option (String × Except String String)) :
    Except String Options := do
  let options ←
    match file with
    | none => .ok ({} : Options)
    | some (path, .error reason) =>
      .error ("Failed to read options file '" ++ path ++ "': " ++ reason)
    | some (path, .ok text) =>
      (Options.ofText text).mapError fun fault =>
        "Failed to parse options file '" ++ path ++ "': " ++ fault.message
  return { options with strategyName := invocation.name.getD options.strategyName }

/-- The graph of a run, from the text of the graph file. -/
def graphOf (path : String) (file : Except String String) : Except String Graph := do
  let text ← file.mapError fun reason =>
    "Failed to read graph file '" ++ path ++ "': " ++ reason
  let document ← (Graph.Document.ofText text).mapError Graph.Document.Problem.message
  document.toGraph.mapError fun problem => "Failed to convert graph: " ++ problem.message

variable {m : Type → Type} [Monad m]

def Host.deliver (host : Host m) (invocation : Invocation) (result : Result) : m Transcript := do
  let exit := exitCode invocation result
  if invocation.json then
    return { exit, out := (result.toJson (← host.generatedAt)).pretty ++ "\n" }
  match invocation.outputPath with
  | none => return { exit, out := result.code, err := summary result (← host.elapsed) }
  | some path =>
    match ← host.write path result.code with
    | .error reason => return failure ("Failed to write '" ++ path ++ "': " ++ reason)
    | .ok _ =>
      let written :=
        "Wrote " ++ toString result.metadata.lineCount ++ " lines to '" ++ path ++ "'\n"
      return { exit, err := written ++ summary result (← host.elapsed) }

def Host.carryOut (host : Host m) (invocation : Invocation) (graphPath : String) :
    m Transcript := do
  let file ← invocation.optionsPath.mapM fun path => return (path, ← host.read path)
  match optionsOf invocation file with
  | .error message => return failure message
  | .ok options =>
    match graphOf graphPath (← host.read graphPath) with
    | .error message => return failure message
    | .ok graph => host.deliver invocation (Compilation.compile .builtin options graph)

def Host.run (host : Host m) (arguments : List String) : m Transcript :=
  match understand {} arguments with
  | .error cause => return misuse cause
  | .ok invocation =>
    match invocation.graphPath with
    | none => return misuse .missingGraph
    | some path => host.carryOut invocation path

end StrategyCompiler.CommandLine
