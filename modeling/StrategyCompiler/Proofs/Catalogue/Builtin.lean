import StrategyCompiler.Catalogue.Builtin
import StrategyCompiler.Proofs.Catalogue.Template
import StrategyCompiler.Proofs.Script.Words
import StrategyCompiler.Proofs.Validation.Parameters
/-!
How the functions known from the start are written: by calls of named functions, except for one
that is written by two templates; their defaults are price series, and their colors constants.
-/

set_option autoImplicit false

namespace StrategyCompiler.Catalogue

open Template (fill fillChars fillChars_nil fillChars_placeholder fillChars_text replacement)

/-! ### Signatures of a catalogue -/

theorem mem_of_lookup? {catalogue : Catalogue} {name : String} {signature : Signature}
    (found : catalogue.lookup? name = some signature) : signature ∈ catalogue.signatures := by
  obtain ⟨position, -, stands⟩ := Option.bind_eq_some_iff.1 found
  exact List.mem_of_getElem? stands

private theorem mem_register {catalogue : Catalogue} {signature other : Signature}
    (member : other ∈ (catalogue.register signature).signatures) :
    other ∈ catalogue.signatures ∨ other = signature := by
  unfold register at member
  split at member
  · exact (List.mem_or_eq_of_mem_set member)
  · rcases List.mem_append.1 member with old | new
    · exact .inl old
    · exact .inr (List.mem_singleton.1 new)

private theorem mem_foldl_register {signatures : List Signature} {catalogue : Catalogue}
    {signature : Signature}
    (member : signature ∈ (signatures.foldl register catalogue).signatures) :
    signature ∈ catalogue.signatures ∨ signature ∈ signatures := by
  induction signatures generalizing catalogue with
  | nil => exact .inl member
  | cons first rest ih =>
    rcases ih member with old | later
    · rcases mem_register old with older | rfl
      · exact .inl older
      · exact .inr List.mem_cons_self
    · exact .inr (List.mem_cons_of_mem _ later)

private theorem signatures_withAlias (catalogue : Catalogue) (newName name : String) :
    (catalogue.withAlias newName name).signatures = catalogue.signatures := by
  unfold withAlias
  split <;> rfl

private theorem signatures_foldl_withAlias (aliases : List (String × String))
    (catalogue : Catalogue) :
    (aliases.foldl (fun catalogue entry => catalogue.withAlias entry.1 entry.2)
      catalogue).signatures = catalogue.signatures := by
  induction aliases generalizing catalogue with
  | nil => rfl
  | cons entry rest ih => rw [List.foldl_cons, ih, signatures_withAlias]

private theorem mem_extend {catalogue : Catalogue} {signatures : List Signature}
    {aliases : List (String × String)} {signature : Signature}
    (member : signature ∈ (catalogue.extend signatures aliases).signatures) :
    signature ∈ catalogue.signatures ∨ signature ∈ signatures := by
  rw [extend, signatures_foldl_withAlias] at member
  exact mem_foldl_register member

/-! ### The functions known from the start -/

def stochasticTemplates : List String :=
  [ "ta.sma(ta.stoch(\x7bsource\x7d, high, low, \x7bkLength\x7d), \x7bkSmoothing\x7d)",
    "ta.sma(\x7bout:k\x7d, \x7bdSmoothing\x7d)" ]

/-- Whether a signature is written by a function of the script language, or by the templates of the stochastic
oscillator for its outputs and parameters. -/
def hasKnownForm (signature : Signature) : Bool :=
  match signature.form with
  | .call function => Script.isFixed function
  | .templates texts =>
    texts == stochasticTemplates && signature.outputs == .tuple ["k", "d"] &&
      signature.parameters.map (fun parameter => (parameter.name, parameter.type)) ==
        [("source", .source), ("kLength", .int), ("kSmoothing", .int), ("dSmoothing", .int)]

def hasKnownDefault (parameter : Parameter) : Bool :=
  parameter.default.type == parameter.type &&
    match parameter.default with
    | .source series => Script.priceSeries.contains series
    | _ => true

theorem type_of_hasKnownDefault {parameter : Parameter} (known : hasKnownDefault parameter = true) :
    parameter.default.type = parameter.type :=
  beq_iff_eq.1 (Bool.and_eq_true_iff.1 known).1

theorem knownSeries_of_hasKnownDefault {parameter : Parameter}
    (known : hasKnownDefault parameter = true) : Validation.KnownSeries parameter.default := by
  intro series same
  have own := (Bool.and_eq_true_iff.1 known).2
  rw [same] at own
  exact List.contains_iff_mem.1 own

def isKnown (signature : Signature) : Bool :=
  hasKnownForm signature && signature.parameters.all hasKnownDefault &&
    signature.plot.referenceLines.all fun reference => Script.isFixed reference.color

theorem forall_builtin {P : Signature → Prop}
    (each : ∀ signature ∈ Builtin.windowedSignatures ++ Builtin.indicatorSignatures ++
      Builtin.operatorSignatures, P signature) :
    ∀ signature ∈ builtin.signatures, P signature := by
  intro signature member
  rcases mem_extend member with old | new
  · exact absurd old List.not_mem_nil
  · exact each signature new

theorem isKnown_builtin : ∀ signature ∈ builtin.signatures, isKnown signature = true :=
  forall_builtin (by decide +kernel)

theorem hasKnownDefault_of_isKnown {signature : Signature} (known : isKnown signature = true)
    {parameter : Parameter} (member : parameter ∈ signature.parameters) :
    hasKnownDefault parameter = true := by
  simp only [isKnown, Bool.and_eq_true] at known
  exact List.all_eq_true.1 known.1.2 parameter member

theorem isKnown_of_lookup? {name : String} {signature : Signature}
    (found : builtin.lookup? name = some signature) : isKnown signature = true :=
  isKnown_builtin signature (mem_of_lookup? found)

theorem form_of_isKnown {signature : Signature} (known : isKnown signature = true) :
    (∃ function, signature.form = .call function ∧ Script.isFixed function = true) ∨
      signature.form = .templates stochasticTemplates ∧ signature.outputs = .tuple ["k", "d"] ∧
        signature.parameters.map (fun parameter => (parameter.name, parameter.type)) =
          [("source", .source), ("kLength", .int), ("kSmoothing", .int), ("dSmoothing", .int)] := by
  simp only [isKnown, Bool.and_eq_true, hasKnownForm] at known
  cases form : signature.form with
  | call function =>
    rw [form] at known
    exact .inl ⟨function, rfl, known.1.1⟩
  | templates texts =>
    rw [form] at known
    simp only [Bool.and_eq_true, beq_iff_eq] at known
    exact .inr ⟨by rw [known.1.1.1.1], known.1.1.1.2, known.1.1.2⟩

/-! ### The stochastic oscillator -/

def stochasticLines (source length smoothing k period : String) : List String :=
  [ "ta.sma(ta.stoch(" ++ source ++ ", high, low, " ++ length ++ "), " ++ smoothing ++ ")",
    "ta.sma(" ++ k ++ ", " ++ period ++ ")" ]

private theorem replacement_of_eq_some {resolve : String → Option String} {key value : String}
    (found : resolve key = some value) :
    replacement (fun key => (resolve (String.ofList key)).map String.toList) key.toList =
      value.toList := by
  simp [replacement, found]

theorem fill_stochastic {resolve : String → Option String}
    {source length smoothing k period : String} (ofSource : resolve "source" = some source)
    (ofLength : resolve "kLength" = some length)
    (ofSmoothing : resolve "kSmoothing" = some smoothing)
    (ofOutput : resolve "out:k" = some k) (ofPeriod : resolve "dSmoothing" = some period) :
    stochasticTemplates.map (fun text => fill text resolve) =
      stochasticLines source length smoothing k period := by
  have first :
      "ta.sma(ta.stoch(\x7bsource\x7d, high, low, \x7bkLength\x7d), \x7bkSmoothing\x7d)".toList =
      "ta.sma(ta.stoch(".toList ++ '{' :: ("source".toList ++ '}' ::
        (", high, low, ".toList ++ '{' :: ("kLength".toList ++ '}' ::
          ("), ".toList ++ '{' :: ("kSmoothing".toList ++ '}' :: ")".toList))))) := by decide
  have second : ("ta.sma(\x7bout:k\x7d, \x7bdSmoothing\x7d)").toList =
      "ta.sma(".toList ++ '{' :: ("out:k".toList ++ '}' ::
        (", ".toList ++ '{' :: ("dSmoothing".toList ++ '}' :: ")".toList))) := by decide
  rw [stochasticTemplates, stochasticLines, List.map_cons, List.map_cons, List.map_nil, fill, fill,
    first, second]
  simp only [← String.toList_inj, List.cons.injEq, and_true, String.toList_ofList]
  constructor
  · rw [fillChars_text _ (by decide), fillChars_placeholder _ (by decide),
      fillChars_text _ (by decide), fillChars_placeholder _ (by decide),
      fillChars_text _ (by decide), fillChars_placeholder _ (by decide),
      ← List.append_nil ")".toList, fillChars_text _ (by decide), fillChars_nil,
      replacement_of_eq_some ofSource, replacement_of_eq_some ofLength,
      replacement_of_eq_some ofSmoothing]
    simp only [String.toList_append, List.append_assoc, List.append_nil]
  · rw [fillChars_text _ (by decide), fillChars_placeholder _ (by decide),
      fillChars_text _ (by decide), fillChars_placeholder _ (by decide),
      ← List.append_nil ")".toList, fillChars_text _ (by decide), fillChars_nil,
      replacement_of_eq_some ofOutput, replacement_of_eq_some ofPeriod]
    simp only [String.toList_append, List.append_assoc, List.append_nil]

section StochasticLines

variable {source length smoothing k period : String}

def firstRow (source length smoothing : String) : List (String × String) :=
  [ ("ta.sma", "("), ("ta.stoch", "("), (source, ", "), ("high", ", "), ("low", ", "),
    (length, "), "), (smoothing, ")") ]

def secondRow (k period : String) : List (String × String) :=
  [("ta.sma", "("), (k, ", "), (period, ")")]

theorem words_stochasticLines (ofSource : Script.isWord source = true)
    (ofLength : Script.isWord length = true) (ofSmoothing : Script.isWord smoothing = true)
    (ofOutput : Script.isWord k = true) (ofPeriod : Script.isWord period = true) :
    ∃ first second, stochasticLines source length smoothing k period = [first, second] ∧
      (∀ word ∈ Script.wordsOf first.toList,
        word ∈ ["ta.sma", "ta.stoch", source, "high", "low", length, smoothing]) ∧
      ∀ word ∈ Script.wordsOf second.toList, word ∈ ["ta.sma", k, period] := by
  have average : Script.isWord "ta.sma" = true := by decide
  have oscillator : Script.isWord "ta.stoch" = true := by decide
  have series : Script.isWord "high" = true ∧ Script.isWord "low" = true := by decide
  have opening : Script.isBreak "(" = true := by decide
  have comma : Script.isBreak ", " = true := by decide
  have closing : Script.isBreak "), " = true ∧ Script.isBreak ")" = true := by decide
  refine ⟨_, _, rfl, fun word member => ?_, fun word member => ?_⟩
  · have row : ("ta.sma(ta.stoch(" ++ source ++ ", high, low, " ++ length ++ "), " ++ smoothing ++
        ")").toList = Script.rowChars (firstRow source length smoothing) := by
      simp [Script.rowChars, firstRow]
    rw [row] at member
    refine Script.mem_of_mem_wordsOf_row ?_ member
    simp [firstRow, average, oscillator, series, ofSource, ofLength, ofSmoothing, opening, comma,
      closing]
  · have row : ("ta.sma(" ++ k ++ ", " ++ period ++ ")").toList =
        Script.rowChars (secondRow k period) := by
      simp [Script.rowChars, secondRow]
    rw [row] at member
    refine Script.mem_of_mem_wordsOf_row ?_ member
    simp [secondRow, average, ofOutput, ofPeriod, opening, comma, closing]

theorem clean_stochasticLines (ofSource : Script.isWord source = true)
    (ofLength : Script.isWord length = true) (ofSmoothing : Script.isWord smoothing = true)
    (ofOutput : Script.isWord k = true) (ofPeriod : Script.isWord period = true) :
    Script.CleanWords (stochasticLines source length smoothing k period) := by
  have average : Script.Clean "ta.sma".toList := Script.Clean.ofPlain (by decide)
  have oscillator : Script.Clean "ta.stoch".toList := Script.Clean.ofPlain (by decide)
  have comma : Script.Clean ", ".toList := Script.Clean.ofPlain (by decide)
  have series : Script.Clean ", high, low, ".toList := Script.Clean.ofPlain (by decide)
  have inner := oscillator.append (((Script.clean_of_isWord ofSource).append series).append
    (Script.clean_of_isWord ofLength)).round
  have ending := Script.clean_of_isWord ofSmoothing
  have first := average.append ((inner.append comma).append ending).round
  have second := average.append (((Script.clean_of_isWord ofOutput).append comma).append
    (Script.clean_of_isWord ofPeriod)).round
  rw [stochasticLines, Script.CleanWords, List.forall_mem_cons, List.forall_mem_singleton]
  constructor
  · simpa using first
  · simpa using second

end StochasticLines

end StrategyCompiler.Catalogue
