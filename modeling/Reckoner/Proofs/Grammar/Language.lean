import Reckoner.Grammar.Rule
import Reckoner.Proofs.Grammar.Longest
import Reckoner.Proofs.Grammar.Nesting
/-!
# The language that is parsed

What a rule finds is the longest word of its nonterminal at the front of the text, with the tree the
grammar gives it, and it fails only where the text starts with no word at all. The grammar is
unambiguous for the same reason: a word with two trees would be found with both.
-/

namespace Reckoner.Grammar

/-- The outcome is a success exactly with the longest word at the front of the text and its tree,
and a failure exactly if there is no word. -/
structure FindsLongest (n : Nonterminal) (text : Text) (outcome : Outcome Expr) : Prop where
  success_iff : ∀ tree rest, outcome = .success tree rest ↔ StartsAtLongest n text tree rest
  failure_iff : (∃ failure, outcome = .failure failure) ↔
    ∀ w rest, text = w ++ rest → ∀ tree, ¬ Derives n w tree

section

variable {n : Nonterminal} {extending : Char → Bool} {text : Text}

/-- The longest word leaves the shortest rest. -/
theorem startsAtLongest_iff {tree : Expr} {rest : Text} :
    StartsAtLongest n text tree rest ↔ Starts n text tree rest ∧
      ∀ tree' rest', Starts n text tree' rest' → rest.length ≤ rest'.length := by
  constructor
  · rintro ⟨w, htext, hw, hlongest⟩
    refine ⟨⟨w, htext, hw⟩, ?_⟩
    rintro tree' rest' ⟨w', htext', hw'⟩
    have hlength : ¬ w.length < w'.length := fun hlonger =>
      hlongest w' rest' htext' hlonger tree' hw'
    have hboth := congrArg List.length (htext.symm.trans htext')
    simp only [List.length_append] at hboth
    omega
  · rintro ⟨⟨w, htext, hw⟩, hshortest⟩
    refine ⟨w, htext, hw, fun w' rest' htext' hlonger tree' hw' => ?_⟩
    have hrest : rest.length ≤ rest'.length := hshortest tree' rest' ⟨w', htext', hw'⟩
    have hboth := congrArg List.length (htext.symm.trans htext')
    simp only [List.length_append] at hboth
    omega

/-- A word that is the whole text is the longest there is. -/
theorem startsAtLongest_nil_iff {tree : Expr} :
    StartsAtLongest n text tree [] ↔ Derives n text tree := by
  rw [startsAtLongest_iff]
  constructor
  · rintro ⟨⟨w, htext, hw⟩, -⟩
    rwa [htext, List.append_nil]
  · intro hw
    exact ⟨⟨text, by simp, hw⟩, fun _ _ _ => Nat.zero_le _⟩

theorem Best.success_iff {outcome : Outcome Expr} (h : Best (Starts n) extending text outcome)
    (tree : Expr) (rest : Text) :
    outcome = .success tree rest ↔ StartsAtLongest n text tree rest := by
  rw [startsAtLongest_iff]
  cases outcome with
  | success found left =>
    constructor
    · intro heq
      obtain ⟨rfl, rfl⟩ := Outcome.success.inj heq
      refine ⟨h.1, fun tree' rest' hstarts => ?_⟩
      rcases h.2 tree' rest' hstarts with ⟨-, rfl⟩ | ⟨hlonger, -⟩
      · exact Nat.le_refl _
      · exact Nat.le_of_lt hlonger
    · rintro ⟨hstarts, hshortest⟩
      rcases h.2 tree rest hstarts with ⟨rfl, rfl⟩ | ⟨hlonger, -⟩
      · rfl
      · exact absurd (hshortest found left h.1) (Nat.not_le_of_lt hlonger)
  | failure why =>
    constructor
    · exact fun heq => nomatch heq
    · exact fun hlongest => absurd hlongest.1 (h tree rest)

theorem Best.failure_iff {outcome : Outcome Expr} (h : Best (Starts n) extending text outcome) :
    (∃ failure, outcome = .failure failure) ↔
      ∀ w rest, text = w ++ rest → ∀ tree, ¬ Derives n w tree := by
  cases outcome with
  | success found left =>
    obtain ⟨w, htext, hw⟩ := h.1
    refine ⟨?_, fun hnone => absurd hw (hnone w left htext found)⟩
    rintro ⟨why, heq⟩
    cases heq
  | failure why =>
    exact ⟨fun _ w rest htext tree hw => h tree rest ⟨w, htext, hw⟩, fun _ => ⟨why, rfl⟩⟩

theorem Best.findsLongest {outcome : Outcome Expr} (h : Best (Starts n) extending text outcome) :
    FindsLongest n text outcome :=
  ⟨h.success_iff, h.failure_iff⟩

/-- No word has two trees: both would be the longest way to start it. -/
theorem Best.tree_unique {w : Text} {outcome : Outcome Expr}
    (h : Best (Starts n) extending w outcome) {tree tree' : Expr} (hw : Derives n w tree)
    (hw' : Derives n w tree') : tree' = tree := by
  have hfound : ∀ {tree}, Derives n w tree → outcome = .success tree [] := fun hw =>
    (h.success_iff _ _).mpr (startsAtLongest_nil_iff.mpr hw)
  exact (Outcome.success.inj ((hfound hw').symm.trans (hfound hw))).1

end

theorem best_unlimited (source : Text) :
    Best (Starts .expression) extendsExpression source (unlimited source) :=
  Best.unlimitedExpression (m := Id) rfl

theorem run_factor_findsLongest (text : Text) :
    ∃ outcome, Rule.factor.run text = outcome.map .tree ∧ FindsLongest .factor text outcome := by
  have hbest : Best (Starts .factor) extendsNumber text
      (Id.run (factor unlimitedExpression text)) :=
    Best.factor (m := Id) (fun _ _ _ => Best.unlimitedExpression) rfl
  exact ⟨_, rfl, hbest.findsLongest⟩

theorem run_term_findsLongest (text : Text) :
    ∃ outcome, Rule.term.run text = outcome.map .tree ∧ FindsLongest .term text outcome := by
  have hbest : Best (Starts .term) extendsTerm text (Id.run (term unlimitedExpression text)) :=
    Best.term (m := Id) unlimitedExpression_staysWithin
      (fun _ _ _ => Best.unlimitedExpression) rfl
  exact ⟨_, rfl, hbest.findsLongest⟩

/-- Within the nesting limit, the limit does not show. -/
theorem parse_eq_of_ne_nestingFailure {source : Text}
    (h : parse false source ≠ .failure (nestingFailure source)) (strict : Bool) :
    parse strict source = (Reading.ofOutcome strict (unlimited source)).outcome source := by
  by_cases hopen : openAtOnce source ≤ maxNesting
  · rw [parse_eq, if_pos hopen]
  · rw [parse_eq, if_neg hopen] at h
    exact absurd rfl h

/-- Where nesting is not too deep, parsing finds the longest expression at the front of the source,
in strict mode the one that is all of it; no expression has two trees; and the rules of factors and
of terms find the longest words of their own. -/
theorem parse_findsLongest :
    (∀ source, parse false source ≠ .failure (nestingFailure source) →
      FindsLongest .expression source (parse false source) ∧
      ∀ tree rest, parse true source = .success tree rest ↔
        rest = [] ∧ Derives .expression source tree) ∧
    (∀ w tree tree', Derives .expression w tree → Derives .expression w tree' → tree' = tree) ∧
    ∀ text,
      (∃ outcome, Rule.factor.run text = outcome.map .tree ∧ FindsLongest .factor text outcome) ∧
      ∃ outcome, Rule.term.run text = outcome.map .tree ∧ FindsLongest .term text outcome := by
  refine ⟨fun source hdepth => ?_, fun w tree tree' => (best_unlimited w).tree_unique,
    fun text => ⟨run_factor_findsLongest text, run_term_findsLongest text⟩⟩
  have hbest := best_unlimited source
  constructor
  · rw [parse_eq_of_ne_nestingFailure hdepth, Reading.outcome_ofOutcome_false]
    exact hbest.findsLongest
  · intro tree rest
    rw [parse_eq_of_ne_nestingFailure hdepth, Reading.outcome_ofOutcome_eq_success_iff,
      hbest.success_iff]
    constructor
    · rintro ⟨hlongest, hall⟩
      obtain rfl := hall rfl
      exact ⟨rfl, startsAtLongest_nil_iff.mp hlongest⟩
    · rintro ⟨rfl, hderives⟩
      exact ⟨startsAtLongest_nil_iff.mpr hderives, fun _ => rfl⟩

/-- A product whose second factor is not closed is given up, and its first factor is found. -/
theorem parse_findsLongest_unclosed :
    parse false "e*(pi".toList ≠ .failure (nestingFailure "e*(pi".toList) ∧
      StartsAtLongest .expression "e*(pi".toList (.literal .e) "*(pi".toList ∧
      (¬ ∃ tree, Derives .expression "e*(pi".toList tree) ∧
      ∀ tree, Derives .expression "(e)".toList tree → tree = .literal .e := by
  have hparse : parse false "e*(pi".toList = .success (.literal .e) "*(pi".toList := by rfl
  have hstrict : parse true "e*(pi".toList = .failure (trailingFailure "*(pi".toList) := by rfl
  have hdepth : parse false "e*(pi".toList ≠ .failure (nestingFailure "e*(pi".toList) := by
    rw [hparse]
    exact fun heq => nomatch heq
  obtain ⟨hfinds, hwhole⟩ := parse_findsLongest.1 _ hdepth
  refine ⟨hdepth, (hfinds.success_iff _ _).mp hparse, ?_, fun tree htree => ?_⟩
  · rintro ⟨tree, hderives⟩
    have hsuccess := (hwhole tree []).mpr ⟨rfl, hderives⟩
    rw [hstrict] at hsuccess
    cases hsuccess
  · have hderives : Derives .expression "(e)".toList (.literal .e) :=
      .term (.factor (.parens (.term (.factor (.constant .e)))))
    exact parse_findsLongest.2.1 _ _ _ hderives htree

end Reckoner.Grammar
