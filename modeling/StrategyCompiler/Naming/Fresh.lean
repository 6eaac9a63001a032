import StrategyCompiler.Naming.Identifier
/-!
The search for names that are not taken yet.  A candidate may stand for several names, which are
taken together.
-/

set_option autoImplicit false

namespace StrategyCompiler.Naming

def areFree (taken names : List String) : Bool :=
  names.all fun name => !taken.contains name

/-- The first number, from `start` on, whose candidate is free; at most `fuel` are tried. -/
def firstFreeFrom (taken : List String) (candidate : Nat → List String) : Nat → Nat → Nat
  | 0, start => start
  | fuel + 1, start =>
    if areFree taken (candidate start) then start
    else firstFreeFrom taken candidate fuel (start + 1)

/-- The number of the first free candidate.  Every taken name can rule out one numbered candidate,
and two more candidates stand in front of them. -/
def firstFree (taken : List String) (candidate : Nat → List String) : Nat :=
  firstFreeFrom taken candidate (taken.length + 2) 0

def numbered (base : String) (number : Nat) : String :=
  base ++ "_" ++ toString number

/-- The candidates for a name: the base, then the base with the numbers from two on. -/
def numberedStem (base : String) (index : Nat) : String :=
  if index == 0 then base else numbered base (index + 1)

/-- The candidates for the names of a node: the base, then the base with the fragment of the node's
id if it has one, then the last of these with the numbers from two on. -/
def nodeStem (base fragment : String) (index : Nat) : String :=
  if fragment == "" then numberedStem base index
  else if index == 0 then base
  else numberedStem (base ++ "_" ++ fragment) (index - 1)

/-- The names that a stem stands for: itself, or one for each output. -/
def expand (outputs : List String) (stem : String) : List String :=
  if outputs.isEmpty then [stem] else outputs.map fun output => stem ++ "_" ++ sanitize output

def freshName (taken : List String) (base : String) : String :=
  numberedStem base (firstFree taken fun index => [numberedStem base index])

def freshStem (taken : List String) (base fragment : String) (outputs : List String) : String :=
  nodeStem base fragment
    (firstFree taken fun index => expand outputs (nodeStem base fragment index))

end StrategyCompiler.Naming
