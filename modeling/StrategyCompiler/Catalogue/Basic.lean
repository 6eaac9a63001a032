import StrategyCompiler.Catalogue.Signature
/-!
The catalogue of functions that graphs can refer to, by name or by an alias.  Names and aliases are
kept in lower case.
-/

set_option autoImplicit false

namespace StrategyCompiler

open Catalogue (Signature)

/-- Signatures in the order in which their names were first registered, the positions at which the
names stand, and other names for them. -/
structure Catalogue where
  signatures : List Signature := []
  positions : List (String × Nat) := []
  aliases : List (String × String) := []

namespace Catalogue

def empty : Catalogue := {}

def position? (catalogue : Catalogue) (name : String) : Option Nat :=
  (catalogue.positions.find? fun entry => entry.1 == name).map Prod.snd

/-- Add a signature, in place of the one of the same name if there is one. -/
def register (catalogue : Catalogue) (signature : Signature) : Catalogue :=
  match catalogue.position? signature.name with
  | some position =>
    { catalogue with signatures := catalogue.signatures.set position signature }
  | none =>
    { catalogue with
      signatures := catalogue.signatures ++ [signature]
      positions := (signature.name, catalogue.signatures.length) :: catalogue.positions }

def defines (catalogue : Catalogue) (name : String) : Bool :=
  (catalogue.position? (Text.lower name)).isSome

/-- Let an alias stand for a name.  An alias for a name that is not registered changes nothing. -/
def withAlias (catalogue : Catalogue) (newName name : String) : Catalogue :=
  if catalogue.defines name then
    { catalogue with
      aliases := (Text.lower newName, Text.lower name) ::
        catalogue.aliases.filter fun entry => entry.1 != Text.lower newName }
  else catalogue

/-- The name that a lower-case name stands for: the one it is an alias of, else itself. -/
def resolveAlias (catalogue : Catalogue) (name : String) : String :=
  match catalogue.aliases.find? fun entry => entry.1 == name with
  | some (_, target) => target
  | none => name

/-- The signature that a name or alias stands for, in any case, with white space around it. -/
def lookup? (catalogue : Catalogue) (name : String) : Option Signature :=
  (catalogue.position? (catalogue.resolveAlias (Text.lower (Text.trim name)))).bind
    fun position => catalogue.signatures[position]?

def size (catalogue : Catalogue) : Nat := catalogue.signatures.length

def extend (catalogue : Catalogue) (signatures : List Signature)
    (aliases : List (String × String)) : Catalogue :=
  aliases.foldl (fun catalogue entry => catalogue.withAlias entry.1 entry.2)
    (signatures.foldl register catalogue)

end Catalogue

end StrategyCompiler
