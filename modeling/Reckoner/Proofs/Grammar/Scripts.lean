import Reckoner.Evaluation
import Reckoner.Proofs.Grammar.Number
import Reckoner.Proofs.Parsing.Alike
/-!
# Digits of different scripts

No rule looks at a digit otherwise than by its value, so a source may be written in the digits of any
scripts, mixed at will. Two sources that differ in nothing else are parsed side by side: the words of
the grammar have no digits in them, the runs of digits have the same length, and the numbers they
write have the same digits by value, so they are the same numbers.
-/

namespace Reckoner

/-! ### Texts in other digits -/

namespace Text

/-- The same character, or two digits of the same value. -/
def SameDigit (c d : Char) : Prop :=
  c = d ∨ ∃ n, digitValue? c = some n ∧ digitValue? d = some n

/-- The same text, but for the scripts of its digits. -/
def SameButScripts (text text' : Text) : Prop :=
  List.Forall₂ SameDigit text text'

theorem SameDigit.symm {c d : Char} (h : SameDigit c d) : SameDigit d c := by
  rcases h with rfl | ⟨n, hc, hd⟩
  · exact .inl rfl
  · exact .inr ⟨n, hd, hc⟩

theorem SameDigit.digitValue?_eq {c d : Char} (h : SameDigit c d) :
    digitValue? c = digitValue? d := by
  rcases h with rfl | ⟨n, hc, hd⟩
  · rfl
  · rw [hc, hd]

theorem SameDigit.isDigit_eq {c d : Char} (h : SameDigit c d) : isDigit c = isDigit d := by
  rw [isDigit, isDigit, h.digitValue?_eq]

/-- What is no digit stays as it is. -/
theorem SameDigit.eq_of_not_isDigit {c d : Char} (h : SameDigit c d) (hc : isDigit c = false) :
    c = d := by
  rcases h with heq | ⟨n, hvalue, -⟩
  · exact heq
  · rw [isDigit, hvalue] at hc
    cases hc

theorem SameDigit.eq_iff {c d x : Char} (h : SameDigit c d) (hx : isDigit x = false) :
    c = x ↔ d = x := by
  constructor
  · rintro rfl
    exact (h.eq_of_not_isDigit hx).symm
  · rintro rfl
    exact (h.symm.eq_of_not_isDigit hx).symm

namespace SameButScripts

variable {text text' : Text}

theorem symm (h : SameButScripts text text') : SameButScripts text' text :=
  List.Forall₂.flip (h.imp fun _ _ => SameDigit.symm)

theorem length_eq (h : SameButScripts text text') : text.length = text'.length :=
  List.Forall₂.length_eq h

theorem isEmpty_eq (h : SameButScripts text text') : text.isEmpty = text'.isEmpty := by
  cases h with
  | nil => rfl
  | cons _ _ => rfl

theorem append {more more' : Text} (h : SameButScripts text text')
    (hmore : SameButScripts more more') : SameButScripts (text ++ more) (text' ++ more') :=
  List.rel_append h hmore

theorem digitsValue_eq (h : SameButScripts text text') : digitsValue text = digitsValue text' := by
  have hfold : ∀ n, text.foldl (fun n c => 10 * n + digitValue c) n =
      text'.foldl (fun n c => 10 * n + digitValue c) n := by
    induction h with
    | nil => exact fun _ => rfl
    | cons hfirst _ ih =>
      intro n
      rw [List.foldl_cons, List.foldl_cons, digitValue, digitValue, hfirst.digitValue?_eq, ih]
  exact hfold 0

theorem takeWhile (h : SameButScripts text text') :
    SameButScripts (text.takeWhile isDigit) (text'.takeWhile isDigit) := by
  induction h with
  | nil => exact .nil
  | @cons c d text text' hfirst _ ih =>
    rw [List.takeWhile_cons, List.takeWhile_cons, hfirst.isDigit_eq]
    split
    · exact .cons hfirst ih
    · exact .nil

theorem dropWhile (h : SameButScripts text text') :
    SameButScripts (text.dropWhile isDigit) (text'.dropWhile isDigit) := by
  induction h with
  | nil => exact .nil
  | @cons c d text text' hfirst hrest ih =>
    rw [List.dropWhile_cons, List.dropWhile_cons, hfirst.isDigit_eq]
    split
    · exact ih
    · exact .cons hfirst hrest

/-- A word without digits is there in both texts or in neither. -/
theorem stripped? {wanted : Text} (hwanted : ∀ c ∈ wanted, isDigit c = false)
    (h : SameButScripts text text') :
    Option.Rel SameButScripts (Parser.literal.stripped? wanted text)
      (Parser.literal.stripped? wanted text') := by
  induction wanted generalizing text text' with
  | nil => exact .some h
  | cons c wanted ih =>
    obtain ⟨hc, hwanted⟩ := List.forall_mem_cons.mp hwanted
    cases h with
    | nil => exact .none
    | @cons d d' text text' hfirst hrest =>
      rw [Parser.literal.stripped?, Parser.literal.stripped?]
      simp only [eq_comm (a := c), hfirst.eq_iff hc]
      split
      · exact ih hwanted hrest
      · exact .none

end SameButScripts

end Text

namespace Grammar

open Reckoner.Parser (TakesAlike)
open Reckoner.Text (SameButScripts)

/-! ### Numbers -/

section

variable {text text' : Text}

theorem splitSign_of_ne {c : Char} (hminus : c ≠ '-') (hplus : c ≠ '+') (after : Text) :
    Text.splitSign (c :: after) = (false, c :: after) := by
  simp [Text.splitSign, hminus, hplus]

theorem splitSign_sameButScripts (h : SameButScripts text text') :
    (Text.splitSign text).1 = (Text.splitSign text').1 ∧
      SameButScripts (Text.splitSign text).2 (Text.splitSign text').2 := by
  cases h with
  | nil => exact ⟨rfl, .nil⟩
  | @cons c d text text' hfirst hrest =>
    have hminus : c = '-' ↔ d = '-' := hfirst.eq_iff (by decide)
    have hplus : c = '+' ↔ d = '+' := hfirst.eq_iff (by decide)
    by_cases hnegative : d = '-'
    · rw [hnegative, hminus.mpr hnegative]
      exact ⟨rfl, hrest⟩
    · by_cases hpositive : d = '+'
      · rw [hpositive, hplus.mpr hpositive]
        exact ⟨rfl, hrest⟩
      · rw [splitSign_of_ne (mt hminus.mp hnegative) (mt hplus.mp hpositive),
          splitSign_of_ne hnegative hpositive]
        exact ⟨rfl, .cons hfirst hrest⟩

theorem scanFraction_of_ne_point {c : Char} (hc : c ≠ '.') (after : Text) :
    scanFraction (c :: after) = ([], c :: after) := by
  simp [scanFraction, hc]

theorem scanFraction_sameButScripts (h : SameButScripts text text') :
    SameButScripts (scanFraction text).1 (scanFraction text').1 ∧
      SameButScripts (scanFraction text).2 (scanFraction text').2 := by
  cases h with
  | nil => exact ⟨.nil, .nil⟩
  | @cons c d after after' hfirst hrest =>
    have hpoint : c = '.' ↔ d = '.' := hfirst.eq_iff (by decide)
    by_cases hd : d = '.'
    · rw [hpoint.mpr hd, hd, scanFraction_point, scanFraction_point]
      have hdigits : SameButScripts (after.takeWhile Text.isDigit)
          (after'.takeWhile Text.isDigit) := .takeWhile hrest
      rw [hdigits.isEmpty_eq]
      split
      · exact ⟨.nil, .cons (.inl rfl) hrest⟩
      · exact ⟨hdigits, .dropWhile hrest⟩
    · rw [scanFraction_of_ne_point hd, scanFraction_of_ne_point (mt hpoint.mp hd)]
      exact ⟨.nil, .cons hfirst hrest⟩

/-- A number has the same value in the digits of any script. -/
theorem scanNumber_sameButScripts (h : SameButScripts text text') :
    Option.Rel (fun found found' => found.1 = found'.1 ∧ SameButScripts found.2 found'.2)
      (scanNumber text) (scanNumber text') := by
  obtain ⟨hsign, hunsigned⟩ := splitSign_sameButScripts h
  have hwhole := hunsigned.takeWhile
  obtain ⟨hfraction, hrest⟩ := scanFraction_sameButScripts hunsigned.dropWhile
  rw [scanNumber_eq, scanNumber_eq]
  dsimp only
  rw [hsign, hwhole.isEmpty_eq, (hwhole.append hfraction).digitsValue_eq, hfraction.length_eq]
  split
  · exact .none
  · exact .some ⟨rfl, hrest⟩

end

/-! ### The rules -/

section

variable {nested operand : Parser Option Expr}

theorem takesAlike_literal {wanted : Text} (hwanted : wanted.any Text.isDigit = false) :
    TakesAlike SameButScripts (Parser.literal wanted) := by
  refine .literal fun _ _ h => h.stripped? fun c hc => ?_
  simpa using List.any_eq_false.mp hwanted c hc

theorem takesAlike_number : TakesAlike SameButScripts number :=
  (TakesAlike.matching numberPattern fun _ _ => scanNumber_sameButScripts).map _

theorem takesAlike_constant : TakesAlike SameButScripts constant := by
  refine .oneOf SameButScripts.length_eq fun p hp => ?_
  simp only [List.mem_cons, List.not_mem_nil, or_false] at hp
  rcases hp with rfl | rfl
  · exact ((takesAlike_literal (by decide)).orElse (takesAlike_literal (by decide))).map _
  · exact (takesAlike_literal (by decide)).map _

theorem takesAlike_binaryOperator : TakesAlike SameButScripts binaryOperator := by
  refine .oneOf SameButScripts.length_eq fun p hp => ?_
  obtain ⟨op, -, rfl⟩ := List.mem_map.mp hp
  have hsymbol : op.symbol.toList.any Text.isDigit = false := by cases op <;> decide
  exact (takesAlike_literal hsymbol).map _

theorem takesAlike_functionName : TakesAlike SameButScripts functionName := by
  refine .oneOf SameButScripts.length_eq fun p hp => ?_
  obtain ⟨f, -, rfl⟩ := List.mem_map.mp hp
  have hname : f.name.toList.any Text.isDigit = false := by cases f <;> decide
  exact (takesAlike_literal hname).map _

theorem takesAlike_betweenParens (h : TakesAlike SameButScripts nested) :
    TakesAlike SameButScripts (betweenParens nested) :=
  (takesAlike_literal (by decide)).andThen fun _ =>
    h.andThen fun _ => (takesAlike_literal (by decide)).map _

theorem takesAlike_singleApplication {allowed : Operator → Bool} {message : String}
    (h : TakesAlike SameButScripts operand) :
    TakesAlike SameButScripts (singleApplication operand allowed message) :=
  h.andThen fun first =>
    ((takesAlike_binaryOperator.filter _ _).andThen fun _ => h.map _).orElse (.succeed first)

theorem takesAlike_factor (h : TakesAlike SameButScripts nested) :
    TakesAlike SameButScripts (factor nested) :=
  ((takesAlike_number.orElse takesAlike_constant).orElse (takesAlike_betweenParens h)).orElse
    (takesAlike_functionName.andThen fun _ => (takesAlike_betweenParens h).map _)

theorem takesAlike_expression (h : TakesAlike SameButScripts nested) :
    TakesAlike SameButScripts (expression nested) :=
  takesAlike_singleApplication (takesAlike_singleApplication (takesAlike_factor h))

/-- At the nesting limit both runs give up. -/
theorem takesAlike_expressionWithin (depth : Nat) :
    TakesAlike SameButScripts (expressionWithin (fun _ => none) depth) := by
  induction depth with
  | zero => exact fun _ _ _ => .none
  | succ depth ih => exact takesAlike_expression ih

end

/-! ### Parsing and calculating -/

theorem parse_sameButScripts {source source' : Text} (h : SameButScripts source source') :
    (parse false source).Alike SameButScripts (parse false source') := by
  have hlimited : Option.Rel (Outcome.Alike SameButScripts) (limitedExpression source)
      (limitedExpression source') := takesAlike_expressionWithin (maxNesting + 1) source source' h
  rw [parse_eq_elim, parse_eq_elim]
  generalize limitedExpression source = run at hlimited ⊢
  generalize limitedExpression source' = run' at hlimited ⊢
  cases hlimited with
  | none => exact .failure ⟨rfl, rfl, .some h⟩
  | some halike => simpa using halike

theorem success_of_sameButScripts {source source' : Text} (h : SameButScripts source source')
    {tree : Expr} {rest : Text} (hparse : parse false source = .success tree rest) :
    ∃ rest', parse false source' = .success tree rest' ∧ SameButScripts rest rest' := by
  have halike := parse_sameButScripts h
  rw [hparse] at halike
  generalize parse false source' = outcome at halike
  cases halike with
  | success hrest => exact ⟨_, rfl, hrest⟩

theorem failure_of_sameButScripts {source source' : Text} (h : SameButScripts source source')
    {why : Failure} (hparse : parse false source = .failure why) :
    ∃ why', parse false source' = .failure why' ∧ why.Alike SameButScripts why' := by
  have halike := parse_sameButScripts h
  rw [hparse] at halike
  generalize parse false source' = outcome at halike
  cases halike with
  | failure hwhy => exact ⟨_, rfl, hwhy⟩

theorem length_remaining_eq {why why' : Failure} (h : why.Alike SameButScripts why') :
    why'.remaining.map List.length = why.remaining.map List.length := by
  have hremaining := h.remaining
  generalize why.remaining = unread at hremaining ⊢
  generalize why'.remaining = unread' at hremaining ⊢
  cases hremaining with
  | none => rfl
  | some hsame => exact congrArg some hsame.symm.length_eq

/-- In strict mode a source is parsed if it is parsed to its end. -/
theorem parse_eq_success_iff {strict : Bool} {source : Text} {tree : Expr} {rest : Text} :
    parse strict source = .success tree rest ↔
      parse false source = .success tree rest ∧ (strict = true → rest = []) := by
  rw [parse_eq_elim, parse_eq_elim]
  cases limitedExpression source with
  | none => exact ⟨fun heq => (nomatch heq), fun h => (nomatch h.1)⟩
  | some outcome =>
    rw [Option.elim_some, Option.elim_some, Reading.outcome_ofOutcome_false]
    exact Reading.outcome_ofOutcome_eq_success_iff

end Grammar

namespace Evaluation

open Reckoner.Grammar (parse parse_eq_success_iff success_of_sameButScripts
  failure_of_sameButScripts length_remaining_eq)
open Reckoner.Text (SameButScripts)

theorem calculate_eq_ok_iff {strict : Bool} {source : Text} {value : Double} :
    calculate strict source = .ok value ↔
      ∃ tree rest, parse strict source = .success tree rest ∧ evaluate tree = .ok value := by
  cases hparse : parse strict source with
  | failure why =>
    have hfailed : calculate strict source = .error (.unreadable why) := by
      delta calculate
      rw [hparse]
      rfl
    rw [hfailed]
    constructor
    · intro heq
      cases heq
    · rintro ⟨tree, rest, heq, -⟩
      cases heq
  | success tree rest =>
    have hsucceeded : calculate strict source = (evaluate tree).mapError .senseless := by
      delta calculate
      rw [hparse]
    have hmapped : (evaluate tree).mapError CalcError.senseless = .ok value ↔
        evaluate tree = .ok value := by
      cases evaluate tree with
      | error error =>
        constructor
        · intro heq
          cases heq
        · intro heq
          cases heq
      | ok found => exact ⟨fun heq => congrArg _ (Except.ok.inj heq), fun heq => by rw [heq]; rfl⟩
    rw [hsucceeded]
    refine hmapped.trans ⟨fun hvalue => ⟨tree, rest, rfl, hvalue⟩, ?_⟩
    rintro ⟨tree', rest', heq, hvalue⟩
    obtain ⟨rfl, rfl⟩ := Outcome.success.inj heq
    exact hvalue

theorem calculate_of_sameButScripts {source source' : Text} (h : SameButScripts source source')
    {strict : Bool} {value : Double} (hvalue : calculate strict source = .ok value) :
    calculate strict source' = .ok value := by
  obtain ⟨tree, rest, hparse, htree⟩ := calculate_eq_ok_iff.mp hvalue
  obtain ⟨hloose, hall⟩ := parse_eq_success_iff.mp hparse
  obtain ⟨rest', hloose', hrest⟩ := success_of_sameButScripts h hloose
  have hall' : strict = true → rest' = [] := by
    intro hstrict
    obtain rfl := hall hstrict
    exact List.forall₂_nil_left_iff.mp hrest
  exact calculate_eq_ok_iff.mpr ⟨tree, rest', parse_eq_success_iff.mpr ⟨hloose', hall'⟩, htree⟩

/-- Digits of the same value can be exchanged one by one, whatever their scripts. Parsing then fails
on both sources or on neither. A success gives the same tree and leaves as much, a failure has the
same message and the same alternatives and points as far from the end, and calculating either source
gives the same number. -/
theorem digit_scripts_interchangeable {source source' : Text}
    (h : SameButScripts source source') :
    ((∃ why, parse false source = .failure why) ↔ ∃ why, parse false source' = .failure why) ∧
    (∀ tree rest, parse false source = .success tree rest →
      ∃ rest', parse false source' = .success tree rest' ∧ rest'.length = rest.length) ∧
    (∀ why, parse false source = .failure why → ∃ why', parse false source' = .failure why' ∧
      why'.message = why.message ∧ why'.expected = why.expected ∧
      why'.remaining.map List.length = why.remaining.map List.length) ∧
    ∀ strict value, calculate strict source = .ok value ↔ calculate strict source' = .ok value := by
  refine ⟨⟨?_, ?_⟩, fun tree rest hparse => ?_, fun why hparse => ?_, fun strict value => ?_⟩
  · rintro ⟨why, hparse⟩
    obtain ⟨why', hparse', -⟩ := failure_of_sameButScripts h hparse
    exact ⟨why', hparse'⟩
  · rintro ⟨why, hparse⟩
    obtain ⟨why', hparse', -⟩ := failure_of_sameButScripts h.symm hparse
    exact ⟨why', hparse'⟩
  · obtain ⟨rest', hparse', hrest⟩ := success_of_sameButScripts h hparse
    exact ⟨rest', hparse', hrest.symm.length_eq⟩
  · obtain ⟨why', hparse', hwhy⟩ := failure_of_sameButScripts h hparse
    exact ⟨why', hparse', hwhy.message.symm, hwhy.expected.symm, length_remaining_eq hwhy⟩
  · exact ⟨calculate_of_sameButScripts h, calculate_of_sameButScripts h.symm⟩

/-- A number in Arabic-Indic and ASCII digits, with more behind it that is no part of it. -/
theorem digit_scripts_interchangeable_mixed :
    SameButScripts "1.٢0(3".toList "١.2٠(٣".toList ∧
      ∃ rest, parse false "١.2٠(٣".toList = .success (.literal (.ofDecimal false 120 (-2))) rest ∧
        rest.length = 2 := by
  have hsame : SameButScripts "1.٢0(3".toList "١.2٠(٣".toList :=
    .cons (.inr ⟨1, by decide, by decide⟩) (.cons (.inl rfl)
      (.cons (.inr ⟨2, by decide, by decide⟩) (.cons (.inr ⟨0, by decide, by decide⟩)
        (.cons (.inl rfl) (.cons (.inr ⟨3, by decide, by decide⟩) .nil)))))
  have hparse : parse false "1.٢0(3".toList =
      .success (.literal (.ofDecimal false 120 (-2))) "(3".toList := by rfl
  obtain ⟨-, hsuccess, -, -⟩ := digit_scripts_interchangeable hsame
  exact ⟨hsame, hsuccess _ _ hparse⟩

end Evaluation

end Reckoner
