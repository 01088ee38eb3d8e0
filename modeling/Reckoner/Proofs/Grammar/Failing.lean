import Reckoner.Proofs.Grammar.Language
/-!
# Where a failing parse points

Of all that goes wrong while an expression is looked for, only the last alternative of the innermost
factor is reported, and that is a call. A failure therefore passes through the openings of calls and
through nothing else: it stands at a name that is not there, behind a name that is not followed by
its parenthesis, or behind an argument that is not closed. Which of the three it is, and behind
which calls, the source alone decides, since an expression that fails makes the call around it fail
the same way.
-/

namespace Reckoner.Grammar

open Reckoner.Parser (Gives gives_oneOf gives_map_failure gives_literal_failure)

/-- Calls that are opened one inside another, and the text behind the last opening. -/
def opened : List Trig → Text → Text
  | [], text => text
  | f :: names, text => f.name.toList ++ '(' :: opened names text

/-! ### The three failures -/

/-- No name of a function is there, nor anything else that an expression starts with. -/
def LacksName (text : Text) (failure : Failure) : Prop :=
  (∀ (f : Trig) (rest : Text), text ≠ f.name.toList ++ rest) ∧
    (∃ why, Rule.expression.run text = .failure why) ∧
    failure = ⟨"No parser matched in oneOf.",
      ["'sen'", "'cos'", "'tang'", "'arcsen'", "'arccos'", "'arctang'"], some text⟩

/-- The name of a function is there, but not its parenthesis. -/
def LacksOpening (text : Text) (failure : Failure) : Prop :=
  ∃ (f : Trig) (rest : Text), text = f.name.toList ++ rest ∧ (∀ inner, rest ≠ '(' :: inner) ∧
    failure = ⟨"Expected literal: (", ["'('"], some rest⟩

/-- An expression is there, but not the parenthesis that closes it. -/
def LacksClosing (text : Text) (failure : Failure) : Prop :=
  ∃ tree rest, Rule.expression.run text = .success (.tree tree) rest ∧
    (∀ left, rest ≠ ')' :: left) ∧ failure = ⟨"Expected literal: )", ["')'"], some rest⟩

/-- The failure of a call whose parenthesis opens right before the text. -/
inductive FailsInside (text : Text) (failure : Failure) : Prop where
  | name (h : LacksName text failure)
  | opening (h : LacksOpening text failure)
  | closing (h : LacksClosing text failure)

theorem missing_opening (text : Text) :
    missing '(' text = ⟨"Expected literal: (", ["'('"], some text⟩ :=
  rfl

theorem missing_closing (text : Text) :
    missing ')' text = ⟨"Expected literal: )", ["')'"], some text⟩ :=
  rfl

theorem run_expression (text : Text) :
    Rule.expression.run text = (unlimited text).map .tree := by
  rw [unlimited, unlimitedExpression_eq]
  rfl

theorem run_expression_failure_iff {text : Text} :
    (∃ why, Rule.expression.run text = .failure why) ↔ ∃ why, unlimited text = .failure why := by
  rw [run_expression]
  cases unlimited text with
  | success tree rest => simp [Outcome.map]
  | failure why => simp [Outcome.map]

theorem run_expression_success_iff {text rest : Text} {tree : Expr} :
    Rule.expression.run text = .success (.tree tree) rest ↔
      unlimited text = .success tree rest := by
  rw [run_expression]
  cases unlimited text with
  | success tree rest => simp [Outcome.map]
  | failure why => simp [Outcome.map]

/-! ### The failure of a call -/

section

variable {m : Type → Type} [Monad m] [LawfulMonad m] [MonadAttach m] [LawfulMonadAttach m]
  {text : Text} {failure : Failure}

/-- Words that are not there fail one by one, each in the same place. -/
theorem failures_of_keywords {κ : Type} {all : List κ} {word : κ → Text}
    {failures : List Failure}
    (h : List.Forall₂ (fun (p : Parser m κ) why => p.Gives text (.failure why))
      (all.map fun k => (Parser.literal (word k)).map fun _ => k) failures) :
    failures = all.map fun k =>
      ⟨"Expected literal: " ++ String.ofList (word k), [Text.quoted (word k)], some text⟩ := by
  induction all generalizing failures with
  | nil =>
    cases h
    rfl
  | cons k all ih =>
    cases h with
    | cons hfirst hrest =>
      rw [List.map_cons, ← ih hrest]
      rw [(gives_literal_failure (gives_map_failure hfirst)).2]

theorem failure_of_functionName
    (h : (functionName : Parser m Trig).Gives text (.failure failure)) :
    failure = ⟨"No parser matched in oneOf.",
      ["'sen'", "'cos'", "'tang'", "'arcsen'", "'arccos'", "'arctang'"], some text⟩ := by
  rcases gives_oneOf h with ⟨_, _, _, _, _, _, _, _, heq⟩ | ⟨failures, hfailures, heq⟩
  · cases heq
  · rw [Outcome.failure.inj heq, failures_of_keywords hfailures]
    have hexpected : (Trig.all.map fun f => Text.quoted f.name.toList).eraseDups =
        ["'sen'", "'cos'", "'tang'", "'arcsen'", "'arccos'", "'arctang'"] := by decide +kernel
    simpa [Failure.merge, Trig.all, Failure.shortest?] using hexpected

end

/-- The rule of expressions, around itself, fails where a call does: without a name, or between the
parentheses behind one. -/
theorem unlimited_failure {text : Text} {failure : Failure}
    (h : unlimited text = .failure failure) :
    LacksName text failure ∨ ∃ (f : Trig) (rest : Text), text = f.name.toList ++ rest ∧
      (betweenParens (unlimitedExpression : Parser Id Expr)).Gives rest (.failure failure) := by
  have hgives : (unlimitedExpression : Parser Id Expr).Gives text (.failure failure) := h
  rw [unlimitedExpression_eq] at hgives
  rcases failure_of_call (failure_of_expression hgives) with hname | ⟨f, rest, hname, hparens⟩
  · rcases gives_keyword hname with ⟨f, rest, -, heq⟩ | ⟨-, hnone⟩
    · cases heq
    · refine .inl ⟨fun f rest => ?_, run_expression_failure_iff.mpr ⟨failure, h⟩,
        failure_of_functionName hname⟩
      exact hnone f (by cases f <;> simp [Trig.all]) rest
  · rcases gives_keyword hname with ⟨g, later, htext, heq⟩ | ⟨⟨why, heq⟩, -⟩
    · obtain ⟨rfl, rfl⟩ := Outcome.success.inj heq
      exact .inr ⟨f, rest, htext, hparens⟩
    · cases heq

theorem starts_factor_of_starts_expression {text rest : Text} {tree : Expr}
    (h : Starts .expression text tree rest) : ∃ tree rest, Starts .factor text tree rest := by
  have hterm : ∃ tree rest, Starts .term text tree rest := by
    rcases starts_expression_iff.mp h with hterm | ⟨_, left, _, _, _, hleft, _, _⟩
    · exact ⟨_, _, hterm⟩
    · exact ⟨_, _, hleft⟩
  obtain ⟨tree, rest, hterm⟩ := hterm
  rcases starts_term_iff.mp hterm with hfactor | ⟨_, left, _, _, _, hleft, _, _⟩
  · exact ⟨_, _, hfactor⟩
  · exact ⟨_, _, hleft⟩

/-- An expression that starts with the name of a function is a call of it. -/
theorem enclosed_of_starts_name {f : Trig} {later rest : Text} {tree : Expr}
    (h : Starts .expression (f.name.toList ++ later) tree rest) :
    ∃ arg rest, Enclosed later arg rest := by
  obtain ⟨tree, rest, hfactor⟩ := starts_factor_of_starts_expression h
  rcases starts_factor_iff.mp hfactor with ((hnumber | hconstant) | ⟨inner, htext, -⟩) | hcall
  · cases f <;> exact absurd hnumber (not_starts_number (by decide) _ _ _)
  · cases f <;> simp [starts_constant_iff, Trig.name] at hconstant
  · cases f <;> simp [Trig.name] at htext
  · obtain ⟨g, later', arg, htext, henclosed, -⟩ := starts_call_iff.mp hcall
    obtain ⟨-, rfl⟩ := name_append_inj htext
    exact ⟨arg, rest, henclosed⟩

/-- What fails between the parentheses of a call fails the call, and with it every expression that
starts with it. -/
theorem unlimited_of_failing_parens {f : Trig} {rest : Text} {failure : Failure}
    (h : (betweenParens (unlimitedExpression : Parser Id Expr)).Gives rest (.failure failure)) :
    unlimited (f.name.toList ++ rest) = .failure failure := by
  have hclose : extendsExpression ')' = false := by decide
  have hnone : Best Enclosed extendsExpression rest (.failure failure) :=
    .betweenParens hclose (fun _ _ _ => Best.unlimitedExpression) h
  cases houtcome : unlimited (f.name.toList ++ rest) with
  | success tree left =>
    have hbest := best_unlimited (f.name.toList ++ rest)
    rw [houtcome] at hbest
    obtain ⟨arg, left, henclosed⟩ := enclosed_of_starts_name hbest.1
    exact absurd henclosed (hnone arg left)
  | failure why =>
    rcases unlimited_failure houtcome with ⟨hname, -⟩ | ⟨g, later, htext, hgives⟩
    · exact absurd rfl (hname f rest)
    · obtain ⟨-, rfl⟩ := name_append_inj htext
      exact hgives.symm.trans h

/-! ### The failure between parentheses -/

section

variable {nested : Parser Id Expr} {inner : Text} {failure : Failure}

theorem parens_unopened (h : ∀ left, inner ≠ '(' :: left) :
    (betweenParens nested).Gives inner (.failure (missing '(' inner)) := by
  show betweenParens nested inner = _
  rw [betweenParens, Parser.andThen, Parser.literal_fails h]
  rfl

theorem parens_open (nested : Parser Id Expr) (inner : Text) :
    betweenParens nested ('(' :: inner) =
      (nested.andThen fun tree => (Parser.literal [')']).map fun _ => tree) inner :=
  rfl

theorem parens_failing (h : nested.Gives inner (.failure failure)) :
    (betweenParens nested).Gives ('(' :: inner) (.failure failure) := by
  have hinner : nested inner = Outcome.failure failure := h
  show betweenParens nested ('(' :: inner) = _
  rw [parens_open, Parser.andThen, hinner]
  rfl

theorem parens_unclosed {tree : Expr} {rest : Text} (h : nested.Gives inner (.success tree rest))
    (hnot : ∀ left, rest ≠ ')' :: left) :
    (betweenParens nested).Gives ('(' :: inner) (.failure (missing ')' rest)) := by
  have hinner : nested inner = Outcome.success tree rest := h
  show betweenParens nested ('(' :: inner) = _
  rw [parens_open, Parser.andThen, hinner]
  show ((Parser.literal [')']).map fun _ => tree) rest = _
  rw [Parser.map, Parser.literal_fails hnot]
  rfl

end

/-! ### The failure of the source -/

section

variable {text : Text} {failure : Failure}

theorem unlimited_of_lacksName (h : LacksName text failure) :
    unlimited text = .failure failure := by
  obtain ⟨hnone, hfails, rfl⟩ := h
  obtain ⟨why, hwhy⟩ := run_expression_failure_iff.mp hfails
  rcases unlimited_failure hwhy with ⟨-, -, rfl⟩ | ⟨f, rest, htext, -⟩
  · exact hwhy
  · exact absurd htext (hnone f rest)

theorem unlimited_of_lacksOpening (h : LacksOpening text failure) :
    unlimited text = .failure failure := by
  obtain ⟨f, rest, rfl, hnot, rfl⟩ := h
  rw [← missing_opening]
  exact unlimited_of_failing_parens (parens_unopened hnot)

theorem FailsInside.parens (h : FailsInside text failure) :
    (betweenParens (unlimitedExpression : Parser Id Expr)).Gives ('(' :: text)
      (.failure failure) := by
  cases h with
  | name h => exact parens_failing (unlimited_of_lacksName h)
  | opening h => exact parens_failing (unlimited_of_lacksOpening h)
  | closing h =>
    obtain ⟨tree, rest, hfound, hnot, rfl⟩ := h
    rw [← missing_closing]
    exact parens_unclosed (run_expression_success_iff.mp hfound) hnot

/-- A failure passes through all the calls around it. -/
theorem FailsInside.unlimited_opened (h : FailsInside text failure) (f : Trig)
    (names : List Trig) : unlimited (opened (f :: names) text) = .failure failure := by
  induction names generalizing f with
  | nil => exact unlimited_of_failing_parens h.parens
  | cons g names ih => exact unlimited_of_failing_parens (parens_failing (ih g))

/-- The place of a failure, behind which calls and how, is determined by the source. -/
theorem FailsInside.place_unique {text' : Text} {failure' : Failure} {names names' : List Trig}
    (h : FailsInside text failure) (h' : FailsInside text' failure')
    (heq : opened names text = opened names' text') : names = names' ∧ text = text' := by
  -- A failure right behind fewer calls would be a call that is opened and does not fail.
  have hnever : ∀ {text text' : Text} {failure failure' : Failure} (g : Trig) (names : List Trig),
      FailsInside text failure → FailsInside text' failure' → text ≠ opened (g :: names) text' := by
    intro text text' failure failure' g names h h' htext
    cases h with
    | name h => exact h.1 g _ htext
    | opening h =>
      obtain ⟨f, rest, hrest, hnot, -⟩ := h
      exact hnot _ (name_append_inj (hrest.symm.trans htext)).2
    | closing h =>
      obtain ⟨tree, rest, hfound, -, -⟩ := h
      rw [htext, run_expression_success_iff, h'.unlimited_opened g names] at hfound
      cases hfound
  induction names generalizing names' with
  | nil =>
    cases names' with
    | nil => exact ⟨rfl, heq⟩
    | cons g names' => exact absurd heq (hnever g names' h h')
  | cons f names ih =>
    cases names' with
    | nil => exact absurd heq.symm (hnever f names h' h)
    | cons g names' =>
      obtain ⟨rfl, hrest⟩ := name_append_inj heq
      obtain ⟨rfl, rfl⟩ := ih (List.cons.inj hrest).2
      exact ⟨rfl, rfl⟩

/-- Every failure of the rule of expressions stands behind the openings of some calls. -/
theorem exists_place_of_failure (h : unlimited text = .failure failure) :
    ∃ names inside, text = opened names inside ∧
      (LacksName inside failure ∨ LacksOpening inside failure ∨
        names ≠ [] ∧ LacksClosing inside failure) := by
  -- The induction is on the length of the text, which each call makes shorter.
  induction hlength : text.length using Nat.strongRecOn generalizing text with
  | _ length ih =>
    subst hlength
    rcases unlimited_failure h with hname | ⟨f, rest, rfl, hparens⟩
    · exact ⟨[], text, rfl, .inl hname⟩
    · rcases failure_of_betweenParens hparens with
        ⟨hnot, rfl⟩ | ⟨inner, rfl, hinner | ⟨tree, left, hfound, hnot, rfl⟩⟩
      · exact ⟨[], _, rfl, .inr (.inl ⟨f, rest, rfl, hnot, missing_opening rest⟩)⟩
      · have hshorter : inner.length < (f.name.toList ++ '(' :: inner).length := by
          rw [List.length_append, List.length_cons]
          omega
        obtain ⟨names, inside, rfl, hinside⟩ := ih inner.length hshorter hinner rfl
        refine ⟨f :: names, inside, rfl, ?_⟩
        rcases hinside with hname | hopening | ⟨-, hclosing⟩
        · exact .inl hname
        · exact .inr (.inl hopening)
        · exact .inr (.inr ⟨List.cons_ne_nil f names, hclosing⟩)
      · exact ⟨[f], inner, rfl, .inr (.inr ⟨List.cons_ne_nil f [],
          tree, left, run_expression_success_iff.mpr hfound, hnot, missing_closing left⟩)⟩

theorem LacksName.message (h : LacksName text failure) :
    failure.message = "No parser matched in oneOf." := by
  rw [h.2.2]

theorem LacksOpening.message (h : LacksOpening text failure) :
    failure.message = "Expected literal: (" := by
  obtain ⟨f, rest, -, -, rfl⟩ := h
  rfl

theorem LacksClosing.message (h : LacksClosing text failure) :
    failure.message = "Expected literal: )" := by
  obtain ⟨tree, rest, -, -, rfl⟩ := h
  rfl

/-- Inside a group that fails, nothing is reported: the failure is that of the group as a whole. -/
theorem lacksName_of_failing_group {names : List Trig} {inner : Text}
    (h : unlimited (opened names ('(' :: inner)) = .failure failure)
    (hgroup : ∃ why, Rule.expression.run ('(' :: inner) = .failure why) :
    LacksName ('(' :: inner) failure := by
  have hlacks : LacksName ('(' :: inner) _ :=
    ⟨fun f rest => paren_ne_name f inner rest, hgroup, rfl⟩
  suffices hsame : unlimited (opened names ('(' :: inner)) = .failure _ by
    rw [Outcome.failure.inj (h.symm.trans hsame)]
    exact hlacks
  cases names with
  | nil => exact unlimited_of_lacksName hlacks
  | cons f names => exact (FailsInside.name hlacks).unlimited_opened f names

theorem unlimited_of_parse_failure (h : parse false text = .failure failure)
    (hdepth : failure ≠ nestingFailure text) : unlimited text = .failure failure := by
  have hlimit : parse false text ≠ .failure (nestingFailure text) := by
    rw [h]
    exact fun heq => hdepth (Outcome.failure.inj heq)
  rwa [parse_eq_of_ne_nestingFailure hlimit, Reading.outcome_ofOutcome_false] at h

end

/-- A parse that fails, and not for its nesting, fails behind the openings of some calls, in exactly
one of three ways and in one place: nothing is there that could be an expression, or a name is there
without its parenthesis, or an argument is not closed. What is said of operators and of numbers never
shows, nor does anything inside a group in parentheses. -/
theorem parse_failure_points {source : Text} {failure : Failure}
    (h : parse false source = .failure failure) (hdepth : failure ≠ nestingFailure source) :
    (∃ names text, source = opened names text ∧
      (LacksName text failure ∨ LacksOpening text failure ∨
        names ≠ [] ∧ LacksClosing text failure) ∧
      ¬ (LacksName text failure ∧ LacksOpening text failure) ∧
      ¬ (LacksName text failure ∧ LacksClosing text failure) ∧
      ¬ (LacksOpening text failure ∧ LacksClosing text failure) ∧
      ∀ names' text', source = opened names' text' → FailsInside text' failure →
        names' = names ∧ text' = text) ∧
    failure.message ∉ ["Expected operator: *, /, or %", "Expected operator: + or -",
      "No match for regex: " ++ numberPattern] ∧
    ∀ names inner, source = opened names ('(' :: inner) →
      (∃ why, Rule.expression.run ('(' :: inner) = .failure why) →
        LacksName ('(' :: inner) failure := by
  have hfails := unlimited_of_parse_failure h hdepth
  obtain ⟨names, text, hsource, hplace⟩ := exists_place_of_failure hfails
  have hinside : FailsInside text failure := by
    rcases hplace with hname | hopening | ⟨-, hclosing⟩
    · exact .name hname
    · exact .opening hopening
    · exact .closing hclosing
  refine ⟨⟨names, text, hsource, hplace, ?_, ?_, ?_, fun names' text' hsource' hinside' => ?_⟩, ?_,
    fun names inner hsource hgroup => ?_⟩
  · exact fun ⟨hname, hopening⟩ => absurd (hname.message.symm.trans hopening.message) (by decide)
  · exact fun ⟨hname, hclosing⟩ => absurd (hname.message.symm.trans hclosing.message) (by decide)
  · exact fun ⟨hopening, hclosing⟩ =>
      absurd (hopening.message.symm.trans hclosing.message) (by decide)
  · exact hinside'.place_unique hinside (hsource'.symm.trans hsource)
  · cases hinside with
    | name h => rw [h.message]; decide
    | opening h => rw [h.message]; decide
    | closing h => rw [h.message]; decide
  · exact lacksName_of_failing_group (hsource ▸ hfails) hgroup

/-- Behind two calls an argument is not closed. -/
theorem parse_failure_points_unclosed :
    ∃ failure, parse false "sen(cos(e".toList = .failure failure ∧
      failure ≠ nestingFailure "sen(cos(e".toList ∧
      ∃ names text, "sen(cos(e".toList = opened names text ∧ names ≠ [] ∧
        LacksClosing text failure := by
  have hfound : (parse false "sen(cos(e".toList).map (fun _ => ()) =
      .failure ⟨"Expected literal: )", ["')'"], some []⟩ := by decide +kernel
  cases hparse : parse false "sen(cos(e".toList with
  | success tree rest =>
    rw [hparse] at hfound
    cases hfound
  | failure failure =>
    rw [hparse] at hfound
    have hmessage : failure.message = "Expected literal: )" := by rw [Outcome.failure.inj hfound]
    have hdepth : failure ≠ nestingFailure "sen(cos(e".toList := by
      intro heq
      rw [heq] at hmessage
      exact absurd hmessage (by decide)
    obtain ⟨⟨names, text, hsource, hplace, -⟩, -⟩ := parse_failure_points hparse hdepth
    rcases hplace with hname | hopening | ⟨hnames, hclosing⟩
    · exact absurd (hname.message.symm.trans hmessage) (by decide)
    · exact absurd (hopening.message.symm.trans hmessage) (by decide)
    · exact ⟨failure, rfl, hdepth, names, text, hsource, hnames, hclosing⟩

end Reckoner.Grammar
