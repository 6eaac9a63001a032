import StrategyCompiler.Proofs.Compilation.Assigned
import StrategyCompiler.Proofs.Compilation.Definitions
import StrategyCompiler.Proofs.Validation.Resolution
/-!
The values that scripts are written with.  A configured value was checked when it was read, while a
default is taken as it is, so that the values of a signature are legal exactly when its checks cover
what it declares and the defaults that are used are legal themselves.  Those of the functions known
from the start are.
-/

set_option autoImplicit false

namespace StrategyCompiler.Catalogue.Parameter

open Number (Double)
open Validation (KnownSeries)

variable {parameter : Parameter} {value : Setting}

/-- A value is what its parameter declares: of its type, between its bounds, one of its options when
it has any, and a price series when it is a source. -/
structure Legal (parameter : Parameter) (value : Setting) : Prop where
  type : value.type = parameter.type
  within : parameter.Within value
  option : parameter.options = [] ∨ ∃ text ∈ parameter.options, value.text? = some text
  series : KnownSeries value

/-- The checks of a configured value cover what the parameter declares: an integer can reach the
minimum, and there are options for texts alone, if the value is not one of them anyway. -/
def Covers (parameter : Parameter) (value : Setting) : Prop :=
  ¬ parameter.MinimumBeyond ∧
    (parameter.type = .string ∨ parameter.options = [] ∨
      ∃ text ∈ parameter.options, value.text? = some text)

instance : Decidable (parameter.Within value) := inferInstanceAs (Decidable (_ → _ ∧ _))

theorem legal_iff_of_coerce {raw : Json.Value}
    (accepted : parameter.coerce raw = .ok value) :
    parameter.Legal value ↔ parameter.Covers value := by
  have admits := admits_of_coerce accepted
  have within := within_of_coerce accepted
  constructor
  · intro legal
    exact ⟨within.1 legal.within, .inr legal.option⟩
  · rintro ⟨reached, covered⟩
    refine ⟨admits.type, within.2 reached, ?_, admits.series⟩
    rcases covered with text | option
    · cases value with
      | string value =>
        rcases admits.option value rfl with none | member
        · exact .inl none
        · exact .inr ⟨value, member, rfl⟩
      | int _ => exact nomatch admits.type.trans text
      | float _ => exact nomatch admits.type.trans text
      | bool _ => exact nomatch admits.type.trans text
      | source _ => exact nomatch admits.type.trans text
    · exact option

end StrategyCompiler.Catalogue.Parameter

namespace StrategyCompiler.Compilation

open Catalogue (Parameter Setting Settings Signature builtin)
open Number (Double)
open StrategyCompiler.Graph (Node Placed)
open Script (Argument Call Operand Statement)
open Validation (resolve settle)

variable {catalogue : Catalogue} {graph : Graph} {signature : Signature} {node : Node}
  {parameter : Parameter} {value : Setting}

/-! ### Declarations -/

def Operand.place? : Operand → Option Int
  | .setting value => value.place?
  | .expr (.number value) => value.place?
  | _ => none

/-- A value agrees with an argument of a declaration: it is not below a minimum, not above a maximum
and one of the options that the argument states. -/
structure Agrees (default : Setting) (argument : Argument) : Prop where
  least : argument.name = some "minval" →
    ∀ low ∈ Operand.place? argument.value, ∃ place ∈ default.place?, low ≤ place
  most : argument.name = some "maxval" →
    ∀ high ∈ Operand.place? argument.value, ∃ place ∈ default.place?, place ≤ high
  option : ∀ texts, argument.name = some "options" → argument.value = .texts texts →
    ∃ text ∈ texts, default.text? = some text

/-- The default of a declaration, which is its first argument, agrees with all its arguments. -/
def DefaultAgrees (call : Call) : Prop :=
  ∀ first ∈ call.arguments.head?, ∀ default, first.value = .setting default →
    ∀ argument ∈ call.arguments, Agrees default argument

private theorem name_ne {argument : Argument} {label other : String}
    (named : argument.name = some label)
    (apart : label ≠ other) : argument.name ≠ some other :=
  fun same => apart (Option.some.inj (named.symm.trans same))

private theorem agrees_of_name {argument : Argument} (least : argument.name ≠ some "minval")
    (most : argument.name ≠ some "maxval") (option : argument.name ≠ some "options") :
    Agrees value argument :=
  ⟨fun same => absurd same least, fun same => absurd same most,
    fun _ same => absurd same option⟩

private theorem place?_boundArgument (name : String) (bound : Double) :
    Operand.place? (boundArgument parameter name bound).value = bound.place? := by
  unfold boundArgument
  split
  · rfl
  · rfl

private theorem agrees_boundArguments (legal : parameter.Legal value) {argument : Argument}
    (member : argument ∈ boundArguments parameter) : Agrees value argument := by
  unfold boundArguments at member
  split at member
  · rename_i numeric
    obtain ⟨least, most⟩ := legal.within (legal.type ▸ numeric)
    simp only [List.mem_append, Option.mem_toList, Option.map_eq_some_iff] at member
    rcases member with (⟨bound, given, rfl⟩ | ⟨bound, given, rfl⟩) | ⟨bound, -, rfl⟩
    · have named : (boundArgument parameter "minval" bound).name = some "minval" := rfl
      refine ⟨fun _ low shown => ?_, fun same => ?_, fun _ same => ?_⟩
      · rw [place?_boundArgument] at shown
        exact least bound given low shown
      · exact absurd same (name_ne named (by decide))
      · exact absurd same (name_ne named (by decide))
    · have named : (boundArgument parameter "maxval" bound).name = some "maxval" := rfl
      refine ⟨fun same => ?_, fun _ high shown => ?_, fun _ same => ?_⟩
      · exact absurd same (name_ne named (by decide))
      · rw [place?_boundArgument] at shown
        exact most bound given high shown
      · exact absurd same (name_ne named (by decide))
    · have named : (boundArgument parameter "step" bound).name = some "step" := rfl
      exact agrees_of_name (name_ne named (by decide)) (name_ne named (by decide))
        (name_ne named (by decide))
  · exact absurd member List.not_mem_nil

private theorem agrees_optionArguments (legal : parameter.Legal value) {argument : Argument}
    (member : argument ∈ optionArguments parameter) : Agrees value argument := by
  unfold optionArguments at member
  split at member
  · exact absurd member List.not_mem_nil
  · rename_i given
    obtain rfl := List.mem_singleton.1 member
    have named : ({ name := some "options", value := .texts parameter.options } : Argument).name =
        some "options" := rfl
    refine ⟨fun same => absurd same (name_ne named (by decide)),
      fun same => absurd same (name_ne named (by decide)), fun texts _ shown => ?_⟩
    obtain rfl := Operand.texts.inj shown
    exact legal.option.resolve_left fun none => given (List.isEmpty_iff.2 none)

/-- A declaration calls the function of the parameter's type, with the value and a title in front of
the bounds and the options. -/
theorem call_of_declaration {name label : String} {target : Script.Target} {call : Call}
    (declared : inputDeclaration? name label parameter value =
      some (.assign target (.call call))) :
    parameter.type.inputFunction? = some call.function ∧
      call.arguments = [{ value := .setting value },
          Argument.named "title" (.string (label ++ " " ++ parameter.title))] ++
        boundArguments parameter ++ optionArguments parameter := by
  obtain ⟨function, own, same⟩ := Option.map_eq_some_iff.1 declared
  obtain ⟨-, shape⟩ := Statement.assign.inj same
  obtain rfl := Script.Source.call.inj shape
  exact ⟨own, rfl⟩

private theorem defaultAgrees_of_legal {name label : String} {target : Script.Target} {call : Call}
    (legal : parameter.Legal value)
    (declared : inputDeclaration? name label parameter value =
      some (.assign target (.call call))) : DefaultAgrees call := by
  unfold DefaultAgrees
  rw [(call_of_declaration declared).2]
  intro first found default shown argument member
  obtain rfl : { value := .setting value } = first := Option.some.inj found
  obtain rfl : value = default := Operand.setting.inj shown
  simp only [List.mem_append, List.mem_cons, List.not_mem_nil, or_false] at member
  rcases member with ((rfl | rfl) | bound) | options
  · exact agrees_of_name nofun nofun nofun
  · have named : (Argument.named "title" (.string (label ++ " " ++ parameter.title))).name =
        some "title" := rfl
    exact agrees_of_name (name_ne named (by decide)) (name_ne named (by decide))
      (name_ne named (by decide))
  · exact agrees_boundArguments legal bound
  · exact agrees_optionArguments legal options

/-! ### Values -/

/-- The value that a script is written with for a parameter of an indicator. -/
def valueIn (signature : Signature) (node : Node) (parameter : Parameter) : Setting :=
  Plan.valueOf (resolve signature node).values parameter

private theorem errors_of_valid (valid : (Validation.validate catalogue graph).errors = [])
    (member : node ∈ graph.nodes) (selected : Naming.signatureOf? catalogue node = some signature) :
    (resolve signature node).errors = [] := by
  have kind : node.kind = .indicator := kind_of_signatureOf? selected
  have accepted := (Validation.validate_errors_eq_nil_iff.1 valid).nodes node member
  rw [Validation.NodeAccepted, kind] at accepted
  obtain ⟨found, same, clean⟩ := signatureOf?_of_accepted kind accepted
  rw [selected] at same
  exact Option.some.inj same ▸ clean

/-- What a script is written with was accepted, or it is the default of what is not configured. -/
private theorem valueIn_cases (clean : (resolve signature node).errors = [])
    (distinct : (signature.parameters.map Parameter.name).Nodup)
    (member : parameter ∈ signature.parameters) :
    (∃ raw, parameter.configured? node.config = some raw ∧
        parameter.coerce raw = .ok (valueIn signature node parameter)) ∨
      parameter.configured? node.config = none ∧
        valueIn signature node parameter = parameter.default := by
  obtain ⟨value, settled⟩ := Validation.exists_settle clean member
  have found : valueIn signature node parameter = value := by
    rw [valueIn, Plan.valueOf, Validation.get?_resolve_values distinct member settled]
    rfl
  rw [found]
  rcases Validation.settle_eq_ok_iff.1 settled with supplied | ⟨absent, -, same⟩
  · exact .inl supplied
  · exact .inr ⟨absent, same.symm⟩

/-- The value of a parameter is legal exactly when the checks cover a configured one, and the
default that is used otherwise is legal. -/
private theorem legal_valueIn_iff (clean : (resolve signature node).errors = [])
    (distinct : (signature.parameters.map Parameter.name).Nodup)
    (member : parameter ∈ signature.parameters) :
    parameter.Legal (valueIn signature node parameter) ↔
      if (parameter.configured? node.config).isSome then
        parameter.Covers (valueIn signature node parameter)
      else parameter.Legal parameter.default := by
  rcases valueIn_cases clean distinct member with ⟨raw, given, accepted⟩ | ⟨absent, same⟩
  · rw [given, Option.isSome_some, if_pos rfl]
    exact Parameter.legal_iff_of_coerce accepted
  · rw [absent, same, Option.isSome_none, if_neg Bool.false_ne_true]

/-! ### Functions known from the start -/

/-- Whether the default of a parameter is legal and the checks cover all that it declares. -/
def isSound (parameter : Parameter) : Bool :=
  parameter.options.isEmpty && decide (parameter.Within parameter.default) &&
    Catalogue.hasKnownDefault parameter &&
      parameter.min.all fun bound =>
        bound.place? != some ((Double.greatestInt64 + 1) * Number.one)

private theorem isSound_builtin (known : signature ∈ builtin.signatures)
    (member : parameter ∈ signature.parameters) : isSound parameter = true := by
  have each : ∀ signature ∈ builtin.signatures, signature.parameters.all isSound = true :=
    Catalogue.forall_builtin (by decide +kernel)
  exact List.all_eq_true.1 (each signature known) parameter member

private theorem legal_of_isSound (sound : isSound parameter = true) :
    parameter.Legal parameter.default ∧ ∀ value, parameter.Covers value := by
  simp only [isSound, Bool.and_eq_true, List.isEmpty_iff, decide_eq_true_eq] at sound
  obtain ⟨⟨⟨none, within⟩, known⟩, reached⟩ := sound
  have default : parameter.Legal parameter.default :=
    ⟨Catalogue.type_of_hasKnownDefault known, within, .inl none,
      Catalogue.knownSeries_of_hasKnownDefault known⟩
  refine ⟨default, fun value => ⟨?_, .inr (.inl none)⟩⟩
  rintro ⟨-, bound, given, beyond⟩
  rw [Option.mem_def.1 given, Option.all_some, beyond, bne_self_eq_false] at reached
  exact Bool.false_ne_true reached

/-- In a graph that is accepted, the values that an indicator is written with are legal exactly as
far as checks cover configured values and the defaults that are used are legal.  Where they are, the
default of each of its declarations agrees with the bounds and options stated there.  The values of
functions known from the start are legal. -/
theorem legal_exact (valid : (Validation.validate catalogue graph).errors = []) {placed : Placed}
    (found : graph.nodes[placed.position]? = some placed.node)
    (selected : Naming.signatureOf? catalogue placed.node = some signature)
    (distinct : (signature.parameters.map Parameter.name).Nodup) :
    (∀ parameter ∈ signature.parameters,
      parameter.Legal (valueIn signature placed.node parameter) ↔
        if (parameter.configured? placed.node.config).isSome then
          parameter.Covers (valueIn signature placed.node parameter)
        else parameter.Legal parameter.default) ∧
    ((∀ parameter ∈ signature.parameters,
        parameter.Legal (valueIn signature placed.node parameter)) →
      ∀ target call, .assign target (.call call) ∈
        (planWith catalogue graph).inputsOf placed signature → DefaultAgrees call) ∧
    (signature ∈ builtin.signatures → ∀ parameter ∈ signature.parameters,
      parameter.Legal (valueIn signature placed.node parameter)) := by
  have clean := errors_of_valid valid (List.mem_of_getElem? found) selected
  refine ⟨fun parameter member => legal_valueIn_iff clean distinct member, ?_, ?_⟩
  · intro legal target call member
    obtain ⟨parameter, inside, bound⟩ := List.mem_filterMap.1 member
    obtain ⟨name, -, declared⟩ := Option.bind_eq_some_iff.1 bound
    exact defaultAgrees_of_legal (legal parameter inside) declared
  · intro known parameter member
    obtain ⟨default, covers⟩ := legal_of_isSound (isSound_builtin known member)
    rw [legal_valueIn_iff clean distinct member]
    split
    · exact covers _
    · exact default

theorem legal_exact_averageCrossing :
    (Validation.validate builtin averageCrossing).errors = [] ∧
      ∃ signature, Naming.signatureOf? builtin averageCrossing.nodes[4] = some signature ∧
        (signature.parameters.map Parameter.name).Nodup ∧
        (∀ parameter ∈ signature.parameters,
          parameter.Legal (valueIn signature averageCrossing.nodes[4] parameter)) ∧
        ∀ target call, .assign target (.call call) ∈
          (planWith builtin averageCrossing).inputsOf ⟨4, averageCrossing.nodes[4]⟩ signature →
            DefaultAgrees call := by
  have known : (Naming.signatureOf? builtin averageCrossing.nodes[4]).any (fun signature =>
      decide (signature.parameters.map Parameter.name).Nodup) = true := by decide +kernel
  obtain ⟨signature, selected, names⟩ := (Option.any_eq_true _ _).1 known
  have distinct := of_decide_eq_true names
  have found : averageCrossing.nodes[(⟨4, averageCrossing.nodes[4]⟩ : Placed).position]? =
      some averageCrossing.nodes[4] := rfl
  obtain ⟨-, declared, legal⟩ := legal_exact valid_averageCrossing found selected distinct
  have values := legal (mem_signatures_of_signatureOf? selected)
  exact ⟨valid_averageCrossing, signature, selected, distinct, values, declared values⟩

/-! ### Defaults that are not legal -/

def ownSignature (parameter : Parameter) : Signature :=
  { Signature.ofCall "own" .trend "own.trend" with parameters := [parameter] }

def ownCatalogue (parameter : Parameter) : Catalogue :=
  Catalogue.empty.register (ownSignature parameter)

def ownNode : Node where
  id := "trend"
  kind := .indicator
  label := "Trend"
  config := [("indicatorId", .string "own")]

def ownGraph : Graph where
  nodes := [⟨"price", .dataSource, "Price", []⟩, ownNode]

section Open

variable (optional : parameter.required = false)
  (absent : parameter.configured? ownNode.config = none)
include optional absent

private theorem resolve_ownSignature :
    resolve (ownSignature parameter) ownNode =
      { values := ({} : Settings).insert parameter.name parameter.default } := by
  have settled : settle (ownSignature parameter) ownNode parameter = .ok parameter.default := by
    simp [settle, absent, optional]
  have all : Validation.settleAll (ownSignature parameter) ownNode =
      { values := ({} : Settings).insert parameter.name parameter.default } := by
    change Validation.Resolution.enter {} parameter _ = _
    rw [settled]
    rfl
  rw [resolve, all]
  rfl

theorem default_taken :
    (Validation.validate (ownCatalogue parameter) ownGraph).errors = [] ∧
      Naming.signatureOf? (ownCatalogue parameter) ownNode = some (ownSignature parameter) ∧
      valueIn (ownSignature parameter) ownNode parameter = parameter.default := by
  have resolved := resolve_ownSignature optional absent
  have selected : (ownCatalogue parameter).lookup? "own" = some (ownSignature parameter) := rfl
  have accepted : Validation.NodeAccepted (ownCatalogue parameter) ownNode :=
    ⟨"own", ownSignature parameter, rfl, selected, nofun, by rw [resolved]⟩
  refine ⟨?_, selected, ?_⟩
  · refine (Validation.validate_errors_eq_nil_iff_of_unjoined rfl).2 ⟨?_, by decide, ?_⟩
    · exact ⟨_, List.mem_cons_self, rfl⟩
    · refine Validation.forall_nodeAccepted_iff.1 (List.forall_mem_cons.2 ⟨trivial, ?_⟩)
      exact List.forall_mem_singleton.2 accepted
  · rw [valueIn, Plan.valueOf, resolved]
    simp [Settings.get?, Settings.insert, Settings.insertEntry]

end Open

def ownLength : Parameter :=
  (Parameter.ofDefault "length" (.int 0)).between (Double.ofInt 1) (Double.ofInt 10)

def wholeAmount : Parameter :=
  { Parameter.ofDefault "amount" (.int 5) with type := .float }

/-- One default lies below the minimum, and another is not of the declared type. -/
theorem not_legal_default :
    ((Validation.validate (ownCatalogue ownLength) ownGraph).errors = [] ∧
      Naming.signatureOf? (ownCatalogue ownLength) ownNode = some (ownSignature ownLength) ∧
      ¬ ownLength.Within (valueIn (ownSignature ownLength) ownNode ownLength)) ∧
    (Validation.validate (ownCatalogue wholeAmount) ownGraph).errors = [] ∧
      Naming.signatureOf? (ownCatalogue wholeAmount) ownNode = some (ownSignature wholeAmount) ∧
      (valueIn (ownSignature wholeAmount) ownNode wholeAmount).type ≠ wholeAmount.type := by
  obtain ⟨valid, selected, value⟩ := @default_taken ownLength rfl (by decide +kernel)
  obtain ⟨valid', selected', value'⟩ :=
    @default_taken wholeAmount rfl (by decide +kernel)
  refine ⟨⟨valid, selected, ?_⟩, valid', selected', ?_⟩
  · rw [value]
    decide +kernel
  · rw [value']
    decide

end StrategyCompiler.Compilation
