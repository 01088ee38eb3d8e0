import Reckoner.CommandLine.Run
import Reckoner.Proofs.CommandLine.Console

/-!
# What a run reports

Once there are settings, a run ends in one of two ways. A source that cannot be parsed is explained
in one line, and one that can be parsed is answered: its tree can be shown and has a value, since it
was parsed, and the value can be shown with any number of places up to the largest. The explanation
is a failure of the grammar, which quotes what it repeats of the source.
-/

namespace Reckoner

open Text (isVisible isPlain all_isVisible_quoted all_string_append all_string_intercalate)

/-! ### Legible failures -/

/-- The message and the alternatives hold no control characters. -/
structure Failure.Legible (failure : Failure) : Prop where
  message : failure.message.toList.all isVisible = true
  expected : ∀ item ∈ failure.expected, item.toList.all isVisible = true

theorem Failure.all_isVisible_position (remaining : Text) :
    (position remaining).toList.all isVisible = true := by
  unfold position
  split
  · decide
  · exact all_string_append (by decide) (all_isVisible_quoted _)

theorem Failure.Legible.describe {failure : Failure} (h : failure.Legible) :
    failure.describe.toList.all isVisible = true := by
  refine all_string_intercalate (by decide) fun part hpart => ?_
  rw [List.mem_append, List.mem_cons] at hpart
  rcases hpart with (rfl | halternatives) | hposition
  · exact h.message
  · split at halternatives
    · cases halternatives
    · obtain rfl := List.mem_singleton.mp halternatives
      exact all_string_append (by decide) (all_string_intercalate (by decide) h.expected)
  · obtain ⟨remaining, -, rfl⟩ := List.mem_map.mp hposition
    exact Failure.all_isVisible_position remaining

namespace Grammar

theorem legible_literal {wanted : Text} (h : wanted.all isVisible = true)
    (remaining : Option Text) :
    (⟨"Expected literal: " ++ String.ofList wanted, [Text.quoted wanted], remaining⟩ :
      Failure).Legible := by
  constructor
  · exact all_string_append (by decide) (by rwa [String.toList_ofList])
  · intro item hitem
    obtain rfl := List.mem_singleton.mp hitem
    exact all_isVisible_quoted wanted

section

variable {m : Type → Type} [Monad m] [LawfulMonad m] [MonadAttach m] [LawfulMonadAttach m]
  {nested : Parser m Expr} {text : Text} {failure : Failure}

theorem legible_of_functionName
    (h : (functionName : Parser m Trig).Gives text (.failure failure)) : failure.Legible := by
  rcases Parser.gives_oneOf h with ⟨_, _, _, _, _, _, _, _, heq⟩ | ⟨failures, hfailures, heq⟩
  · cases heq
  obtain rfl := Outcome.failure.inj heq
  have hmessage : "No parser matched in oneOf.".toList.all isVisible = true := by decide
  refine ⟨hmessage, fun item hitem => ?_⟩
  rw [Failure.merge, List.mem_eraseDups] at hitem
  obtain ⟨why, hwhy, hitem⟩ := List.mem_flatMap.mp hitem
  obtain ⟨p, hp, hfailed⟩ := Parser.exists_alternative_of_mem hfailures why hwhy
  obtain ⟨f, -, rfl⟩ := List.mem_map.mp hp
  have hname : f.name.toList.all isVisible = true := by cases f <;> decide
  obtain ⟨-, rfl⟩ := Parser.gives_literal_failure (Parser.gives_map_failure hfailed)
  exact (legible_literal hname _).expected item hitem

theorem legible_of_expression
    (hnested : ∀ inner failure, nested.Gives inner (.failure failure) → failure.Legible)
    (h : (expression nested).Gives text (.failure failure)) : failure.Legible := by
  rcases failure_of_call (failure_of_expression h) with hname | ⟨f, rest, -, hparens⟩
  · exact legible_of_functionName hname
  · rcases failure_of_betweenParens hparens with
      ⟨-, rfl⟩ | ⟨inner, -, hinner | ⟨tree, left, -, -, rfl⟩⟩
    · exact legible_literal (by decide) _
    · exact hnested inner failure hinner
    · exact legible_literal (by decide) _

end

theorem legible_of_expressionWithin_none (depth : Nat) :
    ∀ text failure, (expressionWithin (fun _ => none) depth : Parser Option Expr).Gives text
      (.failure failure) → failure.Legible := by
  induction depth with
  | zero => exact fun _ _ h => nomatch h
  | succ depth ih => exact fun _ _ h => legible_of_expression ih h

theorem legible_nestingFailure (source : Text) : (nestingFailure source).Legible := by
  have hmessage : "Expression nested too deeply".toList.all isVisible = true := by decide
  exact ⟨hmessage, fun item hitem => nomatch hitem⟩

theorem legible_trailingFailure (rest : Text) : (trailingFailure rest).Legible := by
  constructor
  · exact all_string_append (by decide) (all_isVisible_quoted rest)
  · intro item hitem
    obtain rfl := List.mem_singleton.mp hitem
    decide

theorem legible_of_parse {strict : Bool} {source : Text} {failure : Failure}
    (h : parse strict source = .failure failure) : failure.Legible := by
  rw [parse_eq_elim] at h
  cases hlimited : limitedExpression source with
  | none =>
    rw [hlimited] at h
    obtain rfl := Outcome.failure.inj h
    exact legible_nestingFailure source
  | some outcome =>
    rw [hlimited] at h
    cases outcome with
    | failure why =>
      obtain rfl := Outcome.failure.inj h
      exact legible_of_expressionWithin_none (maxNesting + 1) source why hlimited
    | success tree rest =>
      dsimp only [Option.elim_some, Reading.ofOutcome] at h
      split at h
      · obtain rfl := Outcome.failure.inj h
        exact legible_trailingFailure rest
      · cases h

end Grammar

/-! ### The report -/

namespace CommandLine

/-- What a run logs: the reading of the source, and if it can be parsed, what is left over and the
value. -/
def runRecords (strict : Bool) (source : Text) : List Record :=
  let reading := Grammar.read strict source
  reading.record source :: match reading.outcome source with
    | .success tree rest =>
      trailingRecords rest ++ Evaluation.records tree (Evaluation.evaluate tree)
    | .failure _ => []

theorem thresholdFor_ok {settings : Settings} (h : settings.logLevel ∈ Level.all.map Level.name)
    (verbose : Bool) : ∃ threshold, thresholdFor settings verbose = .ok threshold := by
  obtain ⟨level, -, hlevel⟩ := List.mem_map.mp h
  rw [thresholdFor, ← hlevel]
  cases verbose with
  | true => exact ⟨_, rfl⟩
  | false =>
    refine ⟨level.rank, ?_⟩
    cases level <;> rfl

theorem shown?_ok {places : Option Nat} (h : ∀ n, places = some n → n ≤ Double.maxPlaces)
    (x : Double) : ∃ text, x.shown? places = some text := by
  cases places with
  | none => exact ⟨_, rfl⟩
  | some n => exact ⟨_, if_neg (Nat.not_lt.mpr (h n rfl))⟩

theorem render?_of_fits {tree : Expr} (h : tree.Fits Expr.maxDepth) :
    (Subject.expression tree).render? = some tree.render :=
  if_pos h.depth_le

section

variable {console : Console} {settings : Settings} {command : Command} {threshold : Nat}

/-- Whether text left over counts against the expression: the option comes before the settings. -/
def strictness (settings : Settings) (command : Command) : Bool :=
  command.strict.getD settings.strict

/-- The places of the result: the option comes before the settings. -/
def placesWanted (settings : Settings) (command : Command) : Option Nat :=
  command.precision <|> settings.precision

def explanation (verbose : Bool) (failure : Failure) : String :=
  if verbose then failure.describe else failure.message

theorem all_isVisible_explanation (verbose : Bool) {strict : Bool} {source : Text}
    {failure : Failure} (h : Grammar.parse strict source = .failure failure) :
    (explanation verbose failure).toList.all isVisible = true := by
  have hlegible := Grammar.legible_of_parse h
  cases verbose with
  | true => exact hlegible.describe
  | false => exact hlegible.message

/-- The line that shows the expression, if the settings show it. -/
def shownExpression (console : Console) (settings : Settings) (tree : Expr) : String :=
  if settings.showExpression then console.line "Expression: " tree.render else ""

theorem expressionLine_ok {tree : Expr} (h : tree.Fits Expr.maxDepth) :
    expressionLine console settings (.expression tree) =
      .ok (shownExpression console settings tree) := by
  rw [expressionLine, shownExpression, render?_of_fits h]
  cases settings.showExpression with
  | true => rfl
  | false => rfl

theorem runWith_of_failure (hthreshold : thresholdFor settings command.verbose = .ok threshold)
    {failure : Failure}
    (hparse : Grammar.parse (strictness settings command) command.expression = .failure failure) :
    runWith console settings command parseLogged = .ok ⟨1, "",
      logLines threshold (runRecords (strictness settings command) command.expression) ++
        console.line "Error parsing expression: " (explanation command.verbose failure)⟩ := by
  rw [Grammar.parse] at hparse
  rw [runRecords, hparse]
  rw [strictness] at hparse
  rw [runWith, hthreshold, parseLogged, hparse]
  rfl

theorem runWith_of_success (hthreshold : thresholdFor settings command.verbose = .ok threshold)
    {tree : Expr} {rest : Text}
    (hparse : Grammar.parse (strictness settings command) command.expression = .success tree rest)
    {value : Double} (hvalue : Evaluation.evaluate tree = .ok value) {text : Text}
    (hshown : value.shown? (placesWanted settings command) = some text) :
    runWith console settings command parseLogged = .ok ⟨0,
      shownExpression console settings tree ++ console.print ("Result: " ++ String.ofList text),
      logLines threshold (runRecords (strictness settings command) command.expression)⟩ := by
  have hline : expressionLine console settings (.expression tree) =
      .ok (shownExpression console settings tree) :=
    expressionLine_ok (Grammar.fits_of_parse hparse)
  rw [Grammar.parse] at hparse
  rw [runRecords, hparse]
  rw [strictness] at hparse
  rw [placesWanted] at hshown
  rw [runWith, hthreshold, parseLogged, hparse]
  show showValue console settings command threshold (.expression tree) _ = _
  rw [showValue, hline, Evaluation.evaluateSubject, Evaluation.subjectRecords, hvalue]
  simp only [bind, Except.bind, hshown, hvalue]
  rfl

/-! ### What the console shows of it -/

variable (hconsole : console.ShowsEscaped)

include hconsole

theorem shownExpression_eq {tree : Expr} (h : tree.WellFormed) :
    shownExpression console settings tree =
      if settings.showExpression then "Expression: " ++ tree.render ++ "\n" else "" := by
  have hplain : tree.render.toList.all isPlain = true := by
    rw [Expr.render, String.toList_ofList]
    exact Expr.all_isPlain_text h
  have hvisible := Text.all_isVisible_of_isPlain hplain
  rw [shownExpression, hconsole.line_of_visible (by decide) hvisible]

theorem print_result {x : Double} {places : Option Nat} {text : Text}
    (h : x.shown? places = some text) :
    console.print ("Result: " ++ String.ofList text) =
      "Result: " ++ String.ofList text ++ "\n" := by
  have hplain : (String.ofList text).toList.all isPlain = true := by
    rw [String.toList_ofList]
    exact Double.all_isPlain_of_subset (Double.shown?_subset h)
  exact hconsole.print_of_plain (by decide) hplain

end

/-- On a console that shows escaped text as it is, a run with settings ends with an answer or with
the explanation why the source cannot be parsed, and with nothing else. The answer is the value of
the calculation in the places wanted, after the expression if the settings show it, and no
explanation goes with it. The explanation is one line, and no answer goes with it. -/
theorem runWith_answers_or_explains (console : Console) (hconsole : console.ShowsEscaped)
    (settings : Settings) (command : Command)
    (hlevel : settings.logLevel ∈ Level.all.map Level.name)
    (hplaces : ∀ n, placesWanted settings command = some n → n ≤ 2147483647) :
    ∃ report log, runWith console settings command parseLogged = .ok report ∧
      (∃ threshold, thresholdFor settings command.verbose = .ok threshold ∧
        log = logLines threshold (runRecords (strictness settings command) command.expression)) ∧
      (report.exit = 0 ∨ report.exit = 1) ∧
      (report.exit = 1 ↔ ∃ failure,
        Grammar.parse (strictness settings command) command.expression = .failure failure) ∧
      match Grammar.parse (strictness settings command) command.expression with
      | .failure failure =>
        let detail := explanation command.verbose failure
        report.output = "" ∧ '\n' ∉ detail.toList ∧
          report.errors = log ++ ("Error parsing expression: " ++ detail ++ "\n")
      | .success tree _ =>
        ∃ value text,
          Evaluation.calculate (strictness settings command) command.expression = .ok value ∧
          value.shown? (placesWanted settings command) = some text ∧
          report.output =
            (if settings.showExpression then "Expression: " ++ tree.render ++ "\n" else "") ++
              ("Result: " ++ String.ofList text ++ "\n") ∧
          report.errors = log := by
  obtain ⟨threshold, hthreshold⟩ := thresholdFor_ok hlevel command.verbose
  cases hparse : Grammar.parse (strictness settings command) command.expression with
  | failure failure =>
    have hvisible := all_isVisible_explanation command.verbose hparse
    refine ⟨_, _, runWith_of_failure hthreshold hparse, ⟨threshold, hthreshold, rfl⟩, .inr rfl,
      ⟨fun _ => ⟨failure, rfl⟩, fun _ => rfl⟩, rfl, fun hmem => ?_, ?_⟩
    · exact absurd (List.all_eq_true.mp hvisible _ hmem) (by decide)
    · rw [hconsole.line_of_visible (by decide) hvisible]
  | success tree rest =>
    obtain ⟨value, hvalue⟩ := Evaluation.evaluate_ok (Grammar.fits_of_parse hparse)
    obtain ⟨text, htext⟩ := shown?_ok hplaces value
    have hcalculate :
        Evaluation.calculate (strictness settings command) command.expression = .ok value := by
      rw [Evaluation.calculate, hparse]
      exact congrArg (Except.mapError _) hvalue
    have hwellFormed := (Grammar.fits_of_parse hparse).wellFormed
    refine ⟨_, _, runWith_of_success hthreshold hparse hvalue htext, ⟨threshold, hthreshold, rfl⟩,
      .inl rfl, ?_, value, text, hcalculate, htext, ?_, rfl⟩
    · constructor
      · intro hexit
        cases hexit
      · intro hfailed
        obtain ⟨failure, heq⟩ := hfailed
        cases heq
    · show shownExpression console settings tree ++ _ = _
      rw [shownExpression_eq hconsole hwellFormed, print_result hconsole htext]

/-- The option to be strict comes before settings that are not. -/
theorem runWith_answers_or_explains_left_over :
    Console.plain.ShowsEscaped ∧ "WARNING" ∈ Level.all.map Level.name ∧
      placesWanted { logLevel := "WARNING" } ⟨"e)".toList, some true, some 2, none, false⟩ =
        some 2 ∧
      ∃ report, runWith .plain { logLevel := "WARNING" }
          ⟨"e)".toList, some true, some 2, none, false⟩ parseLogged = .ok report ∧
        report.exit = 1 ∧ report.output = "" := by
  have hparse : Grammar.parse true "e)".toList = .failure (Grammar.trailingFailure [')']) := rfl
  obtain ⟨report, log, hrun, -, -, hexit, hreport⟩ :=
    runWith_answers_or_explains .plain Console.plain_showsEscaped { logLevel := "WARNING" }
      ⟨"e)".toList, some true, some 2, none, false⟩ (by decide)
      (fun n h => by obtain rfl : 2 = n := Option.some.inj h; decide)
  exact ⟨Console.plain_showsEscaped, by decide, rfl, report, hrun, hexit.mpr ⟨_, hparse⟩,
    hreport.1⟩

end CommandLine

end Reckoner
