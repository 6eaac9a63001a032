import StrategyCompiler.Proofs.Compilation.Definitions
import StrategyCompiler.Proofs.Compilation.Sentence
import StrategyCompiler.Proofs.Number.Sign
import StrategyCompiler.Proofs.Script.Minus
/-!
Scripts are sentences.  With the functions known from the start, whatever the script of a graph
holds belongs to the vocabulary of phrases, so that each of its lines has its form and the whole is
a sentence.
-/

set_option autoImplicit false

namespace StrategyCompiler.Compilation

open Catalogue (Signature stochasticLines stochasticTemplates)
open StrategyCompiler.Graph (Levels Node Placed)
open Naming (hasWord isIdentifier)
open Number (Double IsDecimal)
open Script (Call Expr IsName MinusFits Operand Phrase grammar isDotted isIdent minusFits)
open Validation (validate)

/-! ### Numbers -/

section Numbers

variable {numeral : String → Prop} (decimals : ∀ text, IsDecimal text → numeral text)
include decimals

private theorem number_grammar {value : Double} (other : value ≠ .infinite true) :
    (grammar numeral).number value := by
  cases value with
  | nan => exact ⟨.word (by decide), .word (by decide)⟩
  | infinite sign =>
    cases sign with
    | false => exact ⟨.word (by decide), .word (by decide)⟩
    | true => exact absurd rfl other
  | finite sign units fits =>
    exact ⟨.numeral (decimals _ (Double.isDecimal_typed sign units fits)),
      .numeral (decimals _ (Double.isDecimal_literal sign units fits))⟩

end Numbers

private theorem unsigned_percentFactor {percent : Double}
    (base : ((Double.ofInt 1).add (percent.div (Double.ofInt 100))).Unsigned) :
    (percentFactor percent).Unsigned := by
  have scale : (Double.ofInt 10000000000).Unsigned := Double.unsigned_ofInt (by decide)
  unfold percentFactor
  dsimp only
  exact (base.mul scale).roundHalfAway.div scale

private theorem unsigned_lossFactor {node : Node} {percent : Double}
    (given : percent ∈ (Levels.of node).stopLoss) : (percentFactor percent.neg).Unsigned := by
  obtain ⟨stated, bounds⟩ := Option.filter_eq_some_iff.1 given
  rw [Bool.and_eq_true] at bounds
  exact unsigned_percentFactor
    (Double.unsigned_one_add_neg_div (isFinite_of_number? stated) bounds.1 bounds.2)

private theorem unsigned_profitFactor {node : Node} {percent : Double}
    (given : percent ∈ (Levels.of node).takeProfit) : (percentFactor percent).Unsigned := by
  obtain ⟨stated, above⟩ := Option.filter_eq_some_iff.1 given
  have own := Double.unsigned_of_positive (isFinite_of_number? stated) above
  refine unsigned_percentFactor (Double.Unsigned.add ?_ (own.div ?_))
  · exact Double.unsigned_ofInt (by decide)
  · exact Double.unsigned_ofInt (by decide)

/-! ### Names -/

private theorem isIdentChars_of_isIdentifier {name : String}
    (identifier : isIdentifier name = true) :
    Script.isIdentChars name.toList = true := by
  have names := List.all_eq_true.1 (Naming.all_isNameChar_of_isIdentifier identifier)
  have chars : ∀ c ∈ name.toList, (c.isAlphanum || c == '_') = true := by
    intro c member
    have own := names c member
    simp only [Naming.isNameChar, Bool.or_eq_true] at own
    rcases own with (lower | digit) | underscore
    · simp [Naming.isAlphanum_of_isLower lower]
    · simp [Naming.isAlphanum_of_isDigit digit]
    · simp [underscore]
  unfold isIdentifier at identifier
  cases shape : name.toList with
  | nil =>
    rw [shape] at identifier
    exact absurd identifier (by decide)
  | cons c rest =>
    rw [shape] at identifier chars
    rw [Script.isIdentChars, Bool.and_eq_true, List.all_eq_true]
    refine ⟨?_, (List.forall_mem_cons.1 chars).2⟩
    unfold Naming.isIdentifierChars at identifier
    split at identifier
    · rename_i same
      rw [(List.cons.inj same).1]
      rfl
    · rw [Naming.isWordChars, Bool.and_eq_true] at identifier
      simp [Naming.isAlpha_eq, identifier.1]

private theorem isName_of_isIdentifier {name : String} (identifier : isIdentifier name = true)
    (free : name ∉ Script.reservedWords) : IsName name := by
  have reserved : ∀ word ∈ Script.keywords, word ∈ Script.reservedWords := by decide
  have other : Script.keywords.contains name = false :=
    Bool.eq_false_iff.2 fun keyword => free (reserved name (List.contains_iff_mem.1 keyword))
  refine ⟨?_, free⟩
  rw [isIdent, isIdentChars_of_isIdentifier identifier, other]
  rfl

theorem isName_of_mem_identifiers {graph : Graph} {name : String}
    (member : name ∈ (Naming.bind Catalogue.builtin graph).identifiers) : IsName name := by
  have words : ∀ signature ∈ Catalogue.builtin.signatures, hasWord signature.name = true :=
    Catalogue.forall_builtin (by decide +kernel)
  have identifier : isIdentifier name = true :=
    Naming.isIdentifier_of_mem_identifiers
      (fun _ signature selected => words signature (mem_signatures_of_signatureOf? selected)) member
  have free := Naming.not_mem_initiallyTaken member
  exact isName_of_isIdentifier identifier fun taken => free (List.mem_append_left _ taken)

/-! ### Signatures -/

section Grammar

variable {numeral : String → Prop} (decimals : ∀ text, IsDecimal text → numeral text)
include decimals

private theorem number_of_isFinite {value : Double} (real : value.isFinite = true) :
    (grammar numeral).number value :=
  number_grammar decimals fun infinite => absurd real (by simp [infinite, Double.isFinite])

private theorem integer_numeral (value : Int) : numeral (toString value) :=
  decimals _ (Number.isDecimal_toString_int value)

private theorem signatureWithin_grammar {signature : Signature}
    (member : signature ∈ Catalogue.builtin.signatures) :
    SignatureWithin (grammar numeral) signature := by
  have each : ∀ signature ∈ Catalogue.builtin.signatures,
      (∀ word ∈ signatureWords signature, isDotted word = true) ∧
        ∀ number ∈ signatureNumbers signature, number.isFinite = true :=
    Catalogue.forall_builtin (by decide +kernel)
  obtain ⟨words, numbers⟩ := each signature member
  exact ⟨words, fun number inside => number_of_isFinite decimals (numbers number inside)⟩

/-! ### The stochastic oscillator -/

omit decimals in
private theorem phrase_of_isName {name : String} (own : IsName name) : Phrase numeral 7 name :=
  .word (Script.isDotted_of_isIdent own.1)

omit decimals in
private theorem phrase_stochasticLines {source length smoothing k period : String}
    (own : ∀ text ∈ [source, length, smoothing, k, period], Phrase numeral 1 text) :
    ∀ text ∈ stochasticLines source length smoothing k period, Phrase numeral 1 text := by
  have argument : ∀ text ∈ [source, length, smoothing, k, period], Phrase numeral 0 text :=
    fun text member => .loosen (by decide) (own text member)
  simp only [List.forall_mem_cons, List.not_mem_nil, false_implies, implies_true,
    and_true] at argument
  obtain ⟨ofSource, ofLength, ofSmoothing, ofOutput, ofPeriod⟩ := argument
  have extreme (series : String) (dotted : isDotted series = true) : Phrase numeral 0 series :=
    .loosen (by decide) (.word dotted)
  have inner : Phrase numeral 7 ("ta.stoch" ++ "(" ++
      ", ".intercalate [source, "high", "low", length] ++ ")") := by
    refine .call (by decide) ?_
    simp only [List.forall_mem_cons, List.not_mem_nil, false_implies, implies_true, and_true]
    exact ⟨ofSource, extreme "high" (by decide), extreme "low" (by decide), ofLength⟩
  have first : Phrase numeral 7 ("ta.sma" ++ "(" ++ ", ".intercalate ["ta.stoch" ++ "(" ++
      ", ".intercalate [source, "high", "low", length] ++ ")", smoothing] ++ ")") := by
    refine .call (by decide) (List.forall_mem_cons.2 ⟨.loosen (by decide) inner, ?_⟩)
    exact List.forall_mem_singleton.2 ofSmoothing
  have second : Phrase numeral 7 ("ta.sma" ++ "(" ++ ", ".intercalate [k, period] ++ ")") := by
    refine .call (by decide) (List.forall_mem_cons.2 ⟨ofOutput, ?_⟩)
    exact List.forall_mem_singleton.2 ofPeriod
  have firstShape : "ta.sma(ta.stoch(" ++ source ++ ", high, low, " ++ length ++ "), " ++
      smoothing ++ ")" = "ta.sma" ++ "(" ++ ", ".intercalate ["ta.stoch" ++ "(" ++
        ", ".intercalate [source, "high", "low", length] ++ ")", smoothing] ++ ")" := by
    simp [← String.toList_inj, String.intercalate_cons_cons, String.intercalate_singleton]
  have secondShape : "ta.sma(" ++ k ++ ", " ++ period ++ ")" =
      "ta.sma" ++ "(" ++ ", ".intercalate [k, period] ++ ")" := by
    simp [← String.toList_inj, String.intercalate_cons_cons, String.intercalate_singleton]
  rw [stochasticLines, firstShape, secondShape, List.forall_mem_cons, List.forall_mem_singleton]
  exact ⟨.loosen (by decide) first, .loosen (by decide) second⟩

private theorem phrase_filled {graph : Graph} {placed : Placed} {signature : Signature}
    {binding : Naming.Binding} {texts : List String}
    (found : graph.nodes[placed.position]? = some placed.node)
    (selected : Naming.signatureOf? Catalogue.builtin placed.node = some signature)
    (bound : (planOf graph).names.bindingAt? placed.position = some binding)
    (form : signature.form = .templates texts)
    (within : ∀ entry ∈ (planOf graph).argumentsOf placed signature,
      entry.2.Within (grammar numeral)) :
    ∀ text ∈ texts, Phrase numeral 1 ((planOf graph).filled placed signature binding text) := by
  have known := isKnown_of_signatureOf? selected
  rcases Catalogue.form_of_isKnown known with
    ⟨function, written, -⟩ | ⟨written, outputs, parameters⟩
  · rw [written] at form
    exact absurd form (by simp)
  · obtain rfl := Catalogue.Form.templates.inj (written.symm.trans form)
    obtain ⟨k, d, rfl⟩ := bindingAt?_pair found selected outputs bound
    have closed := Script.closed_grammar (integer_numeral decimals)
    have value (key : String) {type : Catalogue.SettingType}
        (member : (key, type) ∈ stochasticParameters) :
        ∃ text, placeholder? (.tuple [("k", k), ("d", d)])
          (((planOf graph).argumentsOf placed signature).map fun entry =>
            (entry.1, entry.2.render)) key = some text ∧ Phrase numeral 1 text := by
      obtain ⟨entry, inside, stands⟩ := placeholder_argument parameters _ key member
      exact ⟨entry.2.render, stands, Operand.fits_render closed (within entry inside)⟩
    obtain ⟨source, ofSource, first⟩ := value "source" (.head _)
    obtain ⟨length, ofLength, second⟩ := value "kLength" (.tail _ (.head _))
    obtain ⟨smoothing, ofSmoothing, third⟩ := value "kSmoothing" (.tail _ (.tail _ (.head _)))
    obtain ⟨period, ofPeriod, fourth⟩ :=
      value "dSmoothing" (.tail _ (.tail _ (.tail _ (.head _))))
    have own : IsName k :=
      isName_of_mem_identifiers (mem_identifiers_of_bindingAt? bound List.mem_cons_self)
    have filled := Catalogue.fill_stochastic ofSource ofLength ofSmoothing
      (show placeholder? _ _ "out:k" = some k from rfl) ofPeriod
    intro text member
    refine phrase_stochasticLines (k := k) ?_ _ (filled ▸ List.mem_map_of_mem member)
    simp only [List.forall_mem_cons, List.not_mem_nil, false_implies, implies_true, and_true]
    exact ⟨first, second, third, .loosen (by decide) (phrase_of_isName own), fourth⟩

end Grammar

/-! ### Scripts -/

theorem supplies_grammar {numeral : String → Prop}
    (decimals : ∀ text, IsDecimal text → numeral text) (graph : Graph) :
    Supplies (grammar numeral) Catalogue.builtin graph where
  words := by
    have each : ∀ word ∈ ownWords, isDotted word = true := by decide +kernel
    exact each
  labels := by
    have each : ∀ label ∈ ownLabels, isIdent label = true := by decide +kernel
    exact each
  effects := fun _ own => own
  numbers := fun _ real => number_of_isFinite decimals real
  losses := fun _ _ given =>
    number_grammar decimals (unsigned_lossFactor given).ne_infinite
  profits := fun _ _ given =>
    number_grammar decimals (unsigned_profitFactor given).ne_infinite
  signatures := fun _ member => signatureWithin_grammar decimals member
  names := by
    intro name member
    have own := isName_of_mem_identifiers member
    exact ⟨Script.isDotted_of_isIdent own.1, own⟩
  conditions := by
    have each : ∀ name ∈ combinedNames, isIdent name = true ∧ name ∉ Script.reservedWords := by
      decide
    exact ⟨each _ List.mem_cons_self, each _ (List.mem_cons_of_mem _ List.mem_cons_self)⟩
  filled := fun _ _ _ _ found selected bound form within =>
    phrase_filled decimals found selected bound form within

private theorem hasForm_banner {numeral : String → Prop} {title : String}
    (own : title ∈ sectionTitles) :
    ∀ line ∈ Line.banner title, HasForm numeral line.form line.render := by
  have slashes : ∀ title ∈ sectionTitles, ∀ text ∈ Script.bannerLines title,
      "//".toList.isPrefixOf text.toList = true := by
    decide
  refine List.forall_mem_cons.2 ⟨.blank, List.forall_mem_map.2 fun text member => ?_⟩
  obtain ⟨rest, shape⟩ := List.isPrefixOf_iff_prefix.1 (slashes title own text member)
  have same : text = "//" ++ String.ofList rest := by
    rw [← String.toList_inj, ← shape]
    simp
  rw [Line.form, Line.render, same]
  exact .comment _

section Options

variable {numeral : String → Prop} (decimals : ∀ text, IsDecimal text → numeral text)
  {options : Options} (graph : Graph)
include decimals

theorem isCall_declaration (capital : (grammar numeral).number options.initialCapital)
    (quantity : (grammar numeral).number options.quantityValue) :
    IsCall numeral "strategy" options.declaration.render :=
  isCall_render (integer_numeral decimals)
    ((supplies_grammar decimals {}).within_declaration capital quantity)

theorem hasForm_lines (call : IsCall numeral "strategy" options.declaration.render) :
    ∀ line ∈ (Program.ofPlan options (planOf graph)).lines,
      HasForm numeral line.form line.render := by
  have version : options.versionLine = "//" ++ ("@version=" ++ toString options.version) := by
    rw [← String.append_assoc]
    rfl
  rw [Program.lines_eq, List.forall_mem_cons, List.forall_mem_cons]
  refine ⟨?_, .call call, fun line member => ?_⟩
  · rw [Line.form, Line.render, Program.ofPlan, version]
    exact .comment _
  · obtain ⟨part, inside, stands⟩ := List.mem_flatMap.1 member
    rcases List.mem_append.1 stands with banner | body
    · exact hasForm_banner (Program.title_mem inside) line banner
    · have supplies := supplies_grammar decimals graph
      exact (supplies.within_sections options part inside line body).hasForm
        (integer_numeral decimals)

omit decimals

private theorem map_render_banner {title : String} {lines : List Line} :
    (Line.banner title ++ lines).map Line.render =
      titled ("// " ++ Text.upper title) (lines.map Line.render) := by
  simp [Line.banner, Script.bannerLines, titled, Line.render]

private theorem sections_lines (options : Options) :
    Sections IsDecimal (((Program.ofPlan options (planOf graph)).lines.map Line.render).drop 2) := by
  have supplies := supplies_grammar (fun _ => id) graph
  have body := fun part member => (grouped_sections (Program.ofPlan options (planOf graph)) part
    member).body Number.isDecimal_toString_int (supplies.within_sections options part member)
  have inputs : "// " ++ Text.upper "Inputs" = "// INPUTS" := by decide
  have calculations : "// " ++ Text.upper "Calculations" = "// CALCULATIONS" := by decide
  have logic : "// " ++ Text.upper "Strategy Logic" = "// STRATEGY LOGIC" := by decide
  have plots : "// " ++ Text.upper "Plots" = "// PLOTS" := by decide
  rw [Program.lines_eq, List.map_cons, List.map_cons, List.drop_succ_cons, List.drop_succ_cons,
    List.drop_zero, List.map_flatMap]
  simp only [Program.sections, List.forall_mem_cons, List.not_mem_nil, false_implies,
    implies_true, and_true] at body
  simp only [Program.sections, List.flatMap_cons, List.flatMap_nil, map_render_banner, inputs,
    calculations, logic, plots, List.append_nil, ← List.append_assoc]
  exact .intro body.1 body.2.1 body.2.2.1 body.2.2.2

end Options

/-! ### The amounts of a declaration -/

private theorem minusFits_plain (text : String)
    (each : (text.toList.all fun c => c != '-' && c != '"') = true) : MinusFits text.toList :=
  .of_all each (by decide) (by decide)

private theorem minusFits_typed {value : Double} (other : value ≠ .infinite true) :
    MinusFits value.typed.toList :=
  .of_phrase (number_grammar (fun _ => id) other).1

private theorem not_minusFits_infinite {front : List Char} (fits : MinusFits front)
    (rest : List Char) :
    minusFits false (front ++ ((Double.infinite true).typed.toList ++ rest)) = false := by
  rw [fits]
  rfl

/-- What a declaration has in front of its first amount. -/
private def Options.capitalFront (options : Options) : String :=
  "strategy(" ++ Script.literal options.strategyName ++ ", overlay=" ++
    (Expr.bool options.overlay).render ++ ", initial_capital="

/-- What a declaration has between its amounts. -/
private def Options.quantityFront (options : Options) : String :=
  ", default_qty_type=" ++ options.quantityType.constant ++ ", default_qty_value="

private theorem toList_declaration (options : Options) :
    options.declaration.render.toList =
      options.capitalFront.toList ++ (options.initialCapital.typed.toList ++
        (options.quantityFront.toList ++ (options.quantityValue.typed.toList ++ [')']))) := by
  unfold Options.declaration Options.capitalFront Options.quantityFront
  simp [Call.render, Script.Argument.render, Script.Argument.expr, Script.Argument.named,
    Operand.render, String.intercalate_cons_cons, String.intercalate_singleton, Expr.render,
    Expr.renderAt]

private theorem minusFits_capitalFront (options : Options) :
    MinusFits options.capitalFront.toList := by
  have name : MinusFits (Script.literal options.strategyName).toList :=
    .of_phrase (.literal (Script.isLiteral_literal options.strategyName))
  have overlay : MinusFits (Expr.bool options.overlay).render.toList := by
    cases options.overlay <;> exact minusFits_plain _ (by decide)
  exact ((((minusFits_plain "strategy(" (by decide)).appendText name).appendText
    (minusFits_plain ", overlay=" (by decide))).appendText overlay).appendText
    (minusFits_plain ", initial_capital=" (by decide))

private theorem minusFits_quantityFront (options : Options) :
    MinusFits options.quantityFront.toList := by
  have constant : MinusFits options.quantityType.constant.toList := by
    cases options.quantityType <;> exact minusFits_plain _ (by decide)
  exact ((minusFits_plain ", default_qty_type=" (by decide)).appendText constant).appendText
    (minusFits_plain ", default_qty_value=" (by decide))

/-- No numeral writes negative infinity, so a declaration is a call when neither amount is that
number. -/
private theorem isCall_declaration_iff {options : Options} :
    IsCall IsDecimal "strategy" options.declaration.render ↔
      options.initialCapital ≠ .infinite true ∧ options.quantityValue ≠ .infinite true := by
  constructor
  · rintro ⟨arguments, each, shape⟩
    have fits := MinusFits.of_phrase (.call (by decide : isDotted "strategy" = true) each) []
    rw [← shape, List.append_nil, toList_declaration] at fits
    have capital : options.initialCapital ≠ .infinite true := by
      intro infinite
      rw [infinite, not_minusFits_infinite (minusFits_capitalFront options)] at fits
      exact Bool.false_ne_true fits
    refine ⟨capital, fun infinite => ?_⟩
    rw [infinite, minusFits_capitalFront, minusFits_typed capital,
      not_minusFits_infinite (minusFits_quantityFront options)] at fits
    exact Bool.false_ne_true fits
  · rintro ⟨capital, quantity⟩
    exact isCall_declaration (fun _ => id) (number_grammar (fun _ => id) capital)
      (number_grammar (fun _ => id) quantity)

/-! ### The code -/

private theorem sections_ofPlan (options other : Options) (plan : Plan) :
    (Program.ofPlan other plan).sections = (Program.ofPlan options plan).sections := rfl

private theorem lines_code_of_valid (options : Options) {graph : Graph}
    (valid : (validate Catalogue.builtin graph).errors = []) :
    Text.lines (compile Catalogue.builtin options graph).code =
      (Program.ofPlan options (planOf graph)).lines.map Line.render := by
  obtain ⟨-, -, code⟩ := compile_of_valid options valid
  have sound := sound_lines options (supplied_of_valid valid)
  rw [code]
  exact Program.lines_render _ fun line member => (sound.tidy line member).flat

private theorem sentence_lines_iff {options : Options} {graph : Graph} :
    Sentence IsDecimal ((Program.ofPlan options (planOf graph)).lines.map Line.render) ↔
      IsCall IsDecimal "strategy" options.declaration.render := by
  have version : options.versionLine =
      "//@version=" ++ String.ofList (Nat.toDigits 10 options.version) := by
    rw [Options.versionLine, Nat.toString_eq_ofList_toDigits]
  have sections := sections_lines graph options
  rw [Program.lines_eq, List.map_cons, List.map_cons] at sections ⊢
  constructor
  · exact Sentence.call
  · intro call
    change Sentence IsDecimal (options.versionLine :: options.declaration.render :: _)
    rw [version]
    exact .intro (Number.isDigits_toDigits options.version) call sections

/-- The code of a graph without errors is a sentence exactly when neither amount of the options is
negative infinity; each of its lines then has its form, whatever the texts of the graph and of the
options are.  In any case the titles stand there once each and in their order, the lines behind the
declaration are four sections, and no option changes one of those. -/
theorem code_sentence (options : Options) (graph : Graph)
    (valid : (validate Catalogue.builtin graph).errors = []) :
    (Sentence IsDecimal (Text.lines (compile Catalogue.builtin options graph).code) ↔
        options.initialCapital ≠ .infinite true ∧ options.quantityValue ≠ .infinite true) ∧
      (options.initialCapital ≠ .infinite true → options.quantityValue ≠ .infinite true →
        List.Forall₂ (HasForm IsDecimal)
          ((Program.ofPlan options (planOf graph)).lines.map Line.form)
          (Text.lines (compile Catalogue.builtin options graph).code)) ∧
      (Text.lines (compile Catalogue.builtin options graph).code).filter titleLines.contains =
        titleLines ∧
      Sections IsDecimal ((Text.lines (compile Catalogue.builtin options graph).code).drop 2) ∧
      ∀ other : Options,
        (Text.lines (compile Catalogue.builtin other graph).code).drop 2 =
          (Text.lines (compile Catalogue.builtin options graph).code).drop 2 := by
  have sections := sections_lines graph options
  rw [lines_code_of_valid options valid]
  refine ⟨sentence_lines_iff.trans isCall_declaration_iff, fun capital quantity => ?_, ?_,
    sections, fun other => ?_⟩
  · rw [List.forall₂_map_left_iff, List.forall₂_map_right_iff, List.forall₂_same]
    exact hasForm_lines (fun _ => id) graph (isCall_declaration_iff.2 ⟨capital, quantity⟩)
  · rw [Program.lines_eq, List.map_cons, List.map_cons] at sections ⊢
    exact (filter_titleLines_header rfl).trans sections.filter_titleLines
  · simp only [lines_code_of_valid other valid, Program.lines_eq, sections_ofPlan options other,
      List.map_cons, List.drop_succ_cons, List.drop_zero]

theorem code_sentence_averageCrossing :
    (validate Catalogue.builtin averageCrossing).errors = [] ∧
      Sentence IsDecimal (Text.lines (compile Catalogue.builtin {} averageCrossing).code) := by
  have capital : ({} : Options).initialCapital ≠ .infinite true := by
    dsimp only
    exact (Double.unsigned_ofInt (by decide)).ne_infinite
  have quantity : ({} : Options).quantityValue ≠ .infinite true := by
    dsimp only
    exact (Double.unsigned_ofInt (by decide)).ne_infinite
  refine ⟨valid_averageCrossing, ?_⟩
  exact (code_sentence {} averageCrossing valid_averageCrossing).1.2 ⟨capital, quantity⟩

/-- An initial capital of negative infinity is written as `-inf`, which is no expression. -/
theorem not_sentence_infinite :
    (validate Catalogue.builtin averageCrossing).errors = [] ∧
      (Double.infinite true).typed = "-inf" ∧
      ¬ Sentence IsDecimal (Text.lines
        (compile Catalogue.builtin { initialCapital := .infinite true } averageCrossing).code) := by
  refine ⟨valid_averageCrossing, by decide, fun sentence => ?_⟩
  rw [lines_code_of_valid _ valid_averageCrossing] at sentence
  exact (isCall_declaration_iff.1 (sentence_lines_iff.1 sentence)).1 rfl

end StrategyCompiler.Compilation
