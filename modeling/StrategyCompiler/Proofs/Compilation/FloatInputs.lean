import StrategyCompiler.Proofs.Compilation.Legality
import StrategyCompiler.Proofs.Number.Literal
/-!
The numbers that the declaration of a float input is written with: the value, the bounds and the
step.  The bounds and the step are written as float literals, which long numbers are not, and so is
a value that is a float; a default of another type is written as what it is.
-/

set_option autoImplicit false

namespace StrategyCompiler.Compilation

open Catalogue (Parameter Setting SettingType Signature)
open Number (Double IsFloatLiteral IsIntegerLiteral Writes)
open StrategyCompiler.Graph (Node Placed)
open Script (Argument Call Operand Statement)
open Validation (resolve setting?)

variable {catalogue : Catalogue} {graph : Graph} {signature : Signature} {node : Node}
  {parameter : Parameter} {value : Setting}

/-! ### The type of a value -/

private theorem cases_of_setting? {entry : String × Setting}
    (found : setting? node parameter = some entry) :
    entry.2.type = parameter.type ∨ entry.2 = parameter.default := by
  unfold setting? at found
  split at found
  · split at found
    · rename_i accepted
      rw [← Option.some.inj found]
      exact .inl (Parameter.admits_of_coerce accepted).type
    · exact nomatch found
  · split at found
    · exact nomatch found
    · exact .inr (Option.some.inj found ▸ rfl)

private theorem type_valueIn_or (node : Node)
    (distinct : (signature.parameters.map Parameter.name).Nodup)
    (member : parameter ∈ signature.parameters) :
    (valueIn signature node parameter).type = parameter.type ∨
      valueIn signature node parameter = parameter.default := by
  unfold valueIn Plan.valueOf
  cases found : (resolve signature node).values.get? parameter.name with
  | none => exact .inr rfl
  | some value =>
    obtain ⟨entry, named, rfl⟩ := Option.map_eq_some_iff.1 found
    have inside := List.mem_of_find?_eq_some named
    have name : entry.1 = parameter.name := by simpa using List.find?_some named
    rw [Validation.entries_resolve distinct] at inside
    obtain ⟨other, own, left⟩ := List.mem_filterMap.1 inside
    have same : other.name = parameter.name := (Validation.name_of_setting? left).symm.trans name
    obtain rfl := List.inj_on_of_nodup_map distinct own member same
    exact cases_of_setting? left

/-! ### Values that are float literals -/

/-- Whether a value is written as a float literal: a finite float that is not long is, and a source
that is the text of one. -/
def IsFloatWritten : Setting → Prop
  | .float x => x.isFinite = true ∧ ¬ x.IsLong
  | .source series => IsFloatLiteral series.toList
  | .int _ | .bool _ | .string _ => False

private theorem isFloatLiteral_setting_iff (value : Setting) :
    IsFloatLiteral value.literal.toList ↔ IsFloatWritten value := by
  cases value with
  | float x =>
    by_cases real : x.isFinite = true
    · exact (Double.literal_exact real).2.1.trans (and_iff_right real).symm
    · refine iff_of_false (fun literal => ?_) fun written => real written.1
      have point := literal.point_mem
      cases x with
      | nan => exact absurd point (by decide)
      | infinite negative => cases negative <;> exact absurd point (by decide)
      | finite => exact real rfl
  | int i =>
    refine iff_of_false (fun literal => ?_) id
    exact (Number.isIntegerLiteral_toString_int i).point_not_mem literal.point_mem
  | bool b =>
    refine iff_of_false (fun literal => ?_) id
    have point := literal.point_mem
    cases b <;> exact absurd point (by decide)
  | string text =>
    refine iff_of_false (fun literal => literal.quote_not_mem ?_) id
    simp [Setting.literal, Script.literal, Script.literalChars]
  | source series => exact Iff.rfl

/-! ### Numbers of declarations -/

/-- The numbers of a float input, by the name of the argument that holds them. -/
inductive Holds (parameter : Parameter) (value : Setting) : Option String → Setting → Prop
  | value : Holds parameter value none value
  | least {x : Double} : x ∈ parameter.min → Holds parameter value (some "minval") (.float x)
  | most {x : Double} : x ∈ parameter.max → Holds parameter value (some "maxval") (.float x)
  | step {x : Double} : x ∈ parameter.step → Holds parameter value (some "step") (.float x)

def IsNumber (argument : Argument) : Prop :=
  argument.name ∈ [none, some "minval", some "maxval", some "step"]

private theorem type_of_inputFunction? {type : SettingType}
    (function : type.inputFunction? = some "input.float") : type = .float := by
  cases type with
  | float => rfl
  | int => exact absurd function (by decide)
  | bool => exact absurd function (by decide)
  | string => exact absurd function (by decide)
  | source => exact absurd function (by decide)

private theorem boundArgument_of_float (type : parameter.type = .float) (name : String)
    (bound : Double) :
    boundArgument parameter name bound =
      { name := some name, value := .setting (.float bound) } := by
  rw [boundArgument, type]
  rfl

private theorem holds_boundArguments (type : parameter.type = .float) {argument : Argument}
    (member : argument ∈ boundArguments parameter) :
    ∃ number, Holds parameter value argument.name number ∧ argument.value = .setting number := by
  rw [boundArguments, type, SettingType.isNumeric, if_pos rfl] at member
  simp only [List.mem_append, Option.mem_toList, Option.map_eq_some_iff] at member
  rcases member with (⟨bound, given, rfl⟩ | ⟨bound, given, rfl⟩) | ⟨bound, given, rfl⟩
  · exact ⟨_, .least given, by rw [boundArgument_of_float type]⟩
  · exact ⟨_, .most given, by rw [boundArgument_of_float type]⟩
  · exact ⟨_, .step given, by rw [boundArgument_of_float type]⟩

private theorem holds_of_declaration {name label : String} {target : Script.Target} {call : Call}
    (type : parameter.type = .float)
    (declared : inputDeclaration? name label parameter value = some (.assign target (.call call)))
    {argument : Argument} (member : argument ∈ call.arguments) (number : IsNumber argument) :
    ∃ number, Holds parameter value argument.name number ∧ argument.value = .setting number := by
  rw [(call_of_declaration declared).2] at member
  simp only [List.mem_append, List.mem_cons, List.not_mem_nil, or_false] at member
  rcases member with ((rfl | rfl) | bound) | options
  · exact ⟨value, .value, rfl⟩
  · exact absurd number (by simp [IsNumber, Argument.named])
  · exact holds_boundArguments type bound
  · unfold optionArguments at options
    split at options
    · exact absurd options List.not_mem_nil
    · obtain rfl := List.mem_singleton.1 options
      exact absurd number (by simp [IsNumber])

/-- The literal of a finite float writes a decimal that the float is nearest to, and is a float
literal, with a point, exactly when the float is not long.  The numbers of a float input are its
value, its bounds and its step, and exactly those that are finite floats and not long are written as
float literals.  Its value is a float, unless it is a default of another type. -/
theorem float_literals_exact (catalogue : Catalogue) (graph : Graph) (placed : Placed)
    (signature : Signature) :
    (∀ x : Double, x.isFinite = true →
      (∃ decimal, Writes (Setting.float x).literal.toList decimal ∧
        decimal.fraction.nearest = x) ∧
      (IsFloatLiteral (Setting.float x).literal.toList ↔ ¬ x.IsLong) ∧
      ('.' ∈ (Setting.float x).literal.toList ↔ ¬ x.IsLong) ∧
      (IsIntegerLiteral (Setting.float x).literal.toList ↔ x.IsLong)) ∧
    ((signature.parameters.map Parameter.name).Nodup →
      ∀ target call, .assign target (.call call) ∈
          (planWith catalogue graph).inputsOf placed signature →
        call.function = "input.float" →
        ∃ parameter ∈ signature.parameters, parameter.type = .float ∧
          ((valueIn signature placed.node parameter).type = .float ∨
            valueIn signature placed.node parameter = parameter.default) ∧
          ∀ argument ∈ call.arguments, IsNumber argument →
            ∃ number, Holds parameter (valueIn signature placed.node parameter) argument.name
                number ∧
              argument.value = .setting number ∧
              (IsFloatLiteral argument.value.render.toList ↔ IsFloatWritten number)) := by
  refine ⟨fun x real => Double.literal_exact real, ?_⟩
  intro distinct target call member float
  obtain ⟨parameter, inside, bound⟩ := List.mem_filterMap.1 member
  obtain ⟨name, -, declared⟩ := Option.bind_eq_some_iff.1 bound
  have type : parameter.type = .float :=
    type_of_inputFunction? (float ▸ (call_of_declaration declared).1)
  refine ⟨parameter, inside, type, type ▸ type_valueIn_or placed.node distinct inside, ?_⟩
  intro argument given isNumber
  obtain ⟨number, holds, shown⟩ := holds_of_declaration type declared given isNumber
  refine ⟨number, holds, shown, ?_⟩
  rw [shown]
  exact isFloatLiteral_setting_iff number

def longAmount : Parameter := Parameter.ofDefault "amount" (.float (Double.ofInt 1000000000000000))

/-- The defaults of two float inputs are written as integers: one is long, and the other is an
integer. -/
theorem declarations_not_float :
    ((Validation.validate (ownCatalogue longAmount) ownGraph).errors = [] ∧
      ((planWith (ownCatalogue longAmount) ownGraph).inputsOf ⟨1, ownNode⟩
          (ownSignature longAmount)).map Statement.render =
        ["own_amount = input.float(1000000000000000, title=\"Trend Amount\")"] ∧
      ¬ IsFloatLiteral longAmount.default.literal.toList) ∧
    (Validation.validate (ownCatalogue wholeAmount) ownGraph).errors = [] ∧
      ((planWith (ownCatalogue wholeAmount) ownGraph).inputsOf ⟨1, ownNode⟩
          (ownSignature wholeAmount)).map Statement.render =
        ["own_amount = input.float(5, title=\"Trend Amount\")"] ∧
      ¬ IsFloatLiteral wholeAmount.default.literal.toList := by
  refine ⟨⟨(@default_taken longAmount rfl (by decide +kernel)).1, by decide +kernel, ?_⟩,
    (@default_taken wholeAmount rfl (by decide +kernel)).1, by decide +kernel, ?_⟩
  · have text : longAmount.default.literal = "1000000000000000" := by decide +kernel
    intro literal
    have point := literal.point_mem
    rw [text] at point
    exact absurd point (by decide)
  · exact (isFloatLiteral_setting_iff wholeAmount.default).not.2 id

end StrategyCompiler.Compilation
