import Reckoner.Proofs.Grammar.Number
/-!
# Every success reads something

The rules end in parsers that read nothing and go round through themselves, but whatever a rule does
first reads a character: a digit or a sign of a number, a letter of a name, a symbol or a parenthesis.
So what a success leaves is shorter than its text, whatever comes after, and a rule that is run again
on what it left comes to an end before the characters run out.
-/

namespace Reckoner

namespace Parser

variable {m : Type → Type} [MonadAttach m] {α β : Type}

/-- A success of the parser reads at least one character. -/
def Advances (p : Parser m α) : Prop :=
  ∀ text value rest, p.Gives text (.success value rest) → ∃ piece, piece ≠ [] ∧ text = piece ++ rest

namespace Advances

variable [Monad m] [LawfulMonad m] [LawfulMonadAttach m] {handMade : Bool} {p q : Parser m α}

theorem literal {wanted : Text} (hwanted : wanted ≠ []) :
    (Parser.literal wanted : Parser m Text).Advances := by
  intro text value rest hgives
  exact ⟨wanted, hwanted, gives_literal_success hgives⟩

/-- What comes second may read nothing, as long as it does not give text back. -/
theorem andThen {next : α → Parser m β} (hp : p.Advances)
    (hnext : ∀ value, (next value).StaysWithin handMade) : (p.andThen next).Advances := by
  intro text result rest hgives
  rcases gives_andThen hgives with ⟨value, later, hfirst, hthen⟩ | ⟨failure, -, heq⟩
  · obtain ⟨piece, hpiece, rfl⟩ := hp text value later hfirst
    obtain ⟨further, rfl⟩ : rest <:+ later := hnext value later _ hthen
    refine ⟨piece ++ further, ?_, by rw [List.append_assoc]⟩
    exact fun hnil => hpiece (List.append_eq_nil_iff.mp hnil).1
  · cases heq

theorem orElse (hp : p.Advances) (hq : q.Advances) : (p.orElse q).Advances := by
  intro text value rest hgives
  rcases gives_orElse_success hgives with hfirst | hsecond
  · exact hp text value rest hfirst
  · exact hq text value rest hsecond

theorem map (hp : p.Advances) (f : α → β) : (p.map f).Advances := by
  intro text result rest hgives
  obtain ⟨value, hfirst, -⟩ := gives_map_success hgives
  exact hp text value rest hfirst

theorem oneOf {alternatives : List (Parser m α)} (hall : ∀ p ∈ alternatives, p.Advances) :
    (Parser.oneOf alternatives).Advances := by
  intro text value rest hgives
  rcases gives_oneOf hgives with ⟨before, p, after, rfl, -, _, _, hfirst, heq⟩ | ⟨_, -, heq⟩
  · obtain ⟨rfl, rfl⟩ := Outcome.success.inj heq
    exact hall p (by simp) text value rest hfirst
  · cases heq

end Advances

end Parser

namespace Grammar

open Reckoner.Parser (Advances gives_map_success gives_matching)

/-! ### The rules -/

theorem ne_nil_of_derives_number {w : Text} {tree : Expr} (h : Derives .number w tree) :
    w ≠ [] := by
  cases h with
  | numeral hsign hwhole hpoint =>
    intro hnil
    exact hwhole.1 (List.append_eq_nil_iff.mp (List.append_eq_nil_iff.mp hnil).1).2

section

variable {m : Type → Type} [Monad m] [MonadAttach m] [LawfulMonad m] [LawfulMonadAttach m]
  {handMade : Bool} {nested operand : Parser m Expr}

theorem number_advances : (number : Parser m Expr).Advances := by
  intro text tree rest hgives
  obtain ⟨x, hscanned, rfl⟩ := gives_map_success hgives
  rcases gives_matching hscanned with ⟨y, left, hscan, heq⟩ | ⟨-, heq⟩
  · obtain ⟨rfl, rfl⟩ := Outcome.success.inj heq
    obtain ⟨w, htext, hw⟩ := starts_number_of_scanNumber hscan
    exact ⟨w, ne_nil_of_derives_number hw, htext⟩
  · cases heq

theorem constant_advances : (constant : Parser m Expr).Advances := by
  refine .oneOf fun p hp => ?_
  simp only [List.mem_cons, List.not_mem_nil, or_false] at hp
  rcases hp with rfl | rfl
  · exact ((Advances.literal (by decide)).orElse (.literal (by decide))).map _
  · exact (Advances.literal (by decide)).map _

theorem binaryOperator_advances : (binaryOperator : Parser m Operator).Advances := by
  refine .oneOf fun p hp => ?_
  obtain ⟨op, -, rfl⟩ := List.mem_map.mp hp
  have hsymbol : op.symbol.toList ≠ [] := by cases op <;> decide
  exact (Advances.literal hsymbol).map _

theorem functionName_advances : (functionName : Parser m Trig).Advances := by
  refine .oneOf fun p hp => ?_
  obtain ⟨f, -, rfl⟩ := List.mem_map.mp hp
  have hname : f.name.toList ≠ [] := by cases f <;> decide
  exact (Advances.literal hname).map _

/-- The opening is read before anything nested is looked for. -/
theorem betweenParens_advances (h : nested.StaysWithin handMade) :
    (betweenParens nested).Advances :=
  (Advances.literal (by decide)).andThen fun _ => h.andThen fun _ => (.map (.literal _) _)

theorem call_advances (h : nested.StaysWithin handMade) : (call nested).Advances :=
  functionName_advances.andThen fun _ => (betweenParens_staysWithin h).map _

theorem factor_advances (h : nested.StaysWithin handMade) : (factor nested).Advances :=
  ((number_advances.orElse constant_advances).orElse (betweenParens_advances h)).orElse
    (call_advances h)

/-- The first operand is read before anything falls back to reading nothing. -/
theorem singleApplication_advances {allowed : Operator → Bool} {message : String}
    (hoperand : operand.Advances) (h : operand.StaysWithin handMade) :
    (singleApplication operand allowed message).Advances :=
  hoperand.andThen fun first =>
    ((binaryOperator_staysWithin.filter _ _).andThen fun _ => h.map _).orElse (.succeed first)

theorem term_advances (h : nested.StaysWithin handMade) : (term nested).Advances :=
  singleApplication_advances (factor_advances h) (factor_staysWithin h)

theorem expression_advances (h : nested.StaysWithin handMade) : (expression nested).Advances :=
  singleApplication_advances (term_advances h) (term_staysWithin h)

theorem Rule.parser_advances (rule : Rule) : (rule.parser : Parser m Value).Advances := by
  have hnested : (unlimitedExpression : Parser m Expr).StaysWithin false :=
    unlimitedExpression_staysWithin
  cases rule with
  | number => exact number_advances.map _
  | constant => exact constant_advances.map _
  | binaryOperator => exact binaryOperator_advances.map _
  | functionName => exact functionName_advances.map _
  | call => exact (call_advances hnested).map _
  | parenthesized => exact (betweenParens_advances hnested).map _
  | factor => exact (factor_advances hnested).map _
  | term => exact (term_advances hnested).map _
  | expression => exact (expression_advances hnested).map _

end

/-! ### Running a rule again on what it left -/

namespace Rule

/-- The rule was run on a text, then on what each success left, until a failure or the end of the
text: what the runs came to, the pieces that the successes read, and the text that is left. -/
inductive Exhausts (rule : Rule) : Text → List (Outcome Value) → List Text → Text → Prop where
  | failed {text : Text} {failure : Failure} (h : rule.run text = .failure failure) :
      Exhausts rule text [.failure failure] [] text
  | ended {piece : Text} {value : Value} (h : rule.run piece = .success value []) :
      Exhausts rule piece [.success value []] [piece] []
  | further {piece rest last : Text} {value : Value} {outcomes : List (Outcome Value)}
      {pieces : List Text} (h : rule.run (piece ++ rest) = .success value rest) (hrest : rest ≠ [])
      (hthen : Exhausts rule rest outcomes pieces last) :
      Exhausts rule (piece ++ rest) (.success value rest :: outcomes) (piece :: pieces) last

theorem run_advances {rule : Rule} {text rest : Text} {value : Value}
    (h : rule.run text = .success value rest) : ∃ piece, piece ≠ [] ∧ text = piece ++ rest :=
  Rule.parser_advances (m := Id) rule text value rest h

/-- The runs come to an end, since each success leaves less to read. -/
theorem exists_exhausts (rule : Rule) (source : Text) :
    ∃ outcomes pieces last, rule.Exhausts source outcomes pieces last := by
  induction hlength : source.length using Nat.strongRecOn generalizing source with
  | _ length ih =>
    subst hlength
    cases hrun : rule.run source with
    | failure failure => exact ⟨_, _, _, .failed hrun⟩
    | success value rest =>
      obtain ⟨piece, hpiece, rfl⟩ := run_advances hrun
      by_cases hrest : rest = []
      · subst hrest
        rw [List.append_nil] at hrun ⊢
        exact ⟨_, _, _, .ended hrun⟩
      · have hshorter : rest.length < (piece ++ rest).length := by
          have hpos := List.length_pos_of_ne_nil hpiece
          rw [List.length_append]
          omega
        obtain ⟨outcomes, pieces, last, hthen⟩ := ih rest.length hshorter rest rfl
        exact ⟨_, _, _, .further hrun hrest hthen⟩

namespace Exhausts

variable {rule : Rule} {source last : Text} {outcomes : List (Outcome Value)} {pieces : List Text}

/-- A chain of so many runs is the start of all of them. -/
theorem chain_eq (h : rule.Exhausts source outcomes pieces last) (runs : Nat) :
    rule.chain runs source = outcomes.take runs := by
  induction h generalizing runs with
  | failed h =>
    cases runs with
    | zero => rfl
    | succ runs => simp [chain, h]
  | ended h =>
    cases runs with
    | zero => rfl
    | succ runs => simp [chain, h]
  | further h hrest hthen ih =>
    cases runs with
    | zero => rfl
    | succ runs => simp [chain, h, hrest, ih]

theorem source_eq (h : rule.Exhausts source outcomes pieces last) :
    source = pieces.flatten ++ last := by
  induction h with
  | failed h => rfl
  | ended h => simp
  | further h hrest hthen ih => rw [List.flatten_cons, List.append_assoc, ← ih]

theorem stops (h : rule.Exhausts source outcomes pieces last) :
    last = [] ∨ ∃ failure, rule.run last = .failure failure := by
  induction h with
  | failed h => exact .inr ⟨_, h⟩
  | ended h => exact .inl rfl
  | further h hrest hthen ih => exact ih

/-- Each success takes at least one character off what is left in the end. -/
theorem length_pieces_add_le (h : rule.Exhausts source outcomes pieces last) :
    pieces.length + last.length ≤ source.length := by
  induction h with
  | failed h => simp
  | ended h =>
    obtain ⟨first, hfirst, rfl⟩ := run_advances h
    have hpos := List.length_pos_of_ne_nil hfirst
    rw [List.length_singleton, List.length_append, List.length_nil]
    omega
  | further h hrest hthen ih =>
    obtain ⟨first, hfirst, hpiece⟩ := run_advances h
    have hpos := List.length_pos_of_ne_nil hfirst
    rw [List.append_cancel_right hpiece, List.length_cons, List.length_append]
    omega

/-- As many successes as there are pieces, and one failure at most. -/
theorem length_outcomes_le (h : rule.Exhausts source outcomes pieces last) :
    outcomes.length ≤ pieces.length + 1 := by
  induction h with
  | failed h => simp
  | ended h => simp
  | further h hrest hthen ih =>
    rw [List.length_cons, List.length_cons]
    omega

end Exhausts

end Rule

/-- A success of a rule reads at least one character. A rule that is run on a source, then on what
each success left, therefore stops, at a failure or at the end of the source, after no more
successes than the source has characters; the source is what the successes read, in order, and then
what is left. A chain of so many runs is the start of these runs. -/
theorem runs_read_and_stop (rule : Rule) :
    (∀ text value rest, rule.run text = .success value rest →
      ∃ piece, piece ≠ [] ∧ text = piece ++ rest) ∧
    ∀ source, ∃ outcomes pieces last, rule.Exhausts source outcomes pieces last ∧
      (last = [] ∨ ∃ failure, rule.run last = .failure failure) ∧
      pieces.length ≤ source.length ∧ outcomes.length ≤ pieces.length + 1 ∧
      source = pieces.flatten ++ last ∧
      ∀ runs, rule.chain runs source = outcomes.take runs := by
  refine ⟨fun text value rest => Rule.run_advances, fun source => ?_⟩
  obtain ⟨outcomes, pieces, last, hruns⟩ := rule.exists_exhausts source
  have hlength := hruns.length_pieces_add_le
  exact ⟨outcomes, pieces, last, hruns, hruns.stops, by omega, hruns.length_outcomes_le,
    hruns.source_eq, hruns.chain_eq⟩

/-- A product whose second factor is not closed leaves its operator, which starts no expression. -/
theorem runs_read_and_stop_unclosed :
    Rule.expression.run "e*(pi".toList = .success (.tree (.literal .e)) "*(pi".toList ∧
      (∃ piece, piece ≠ [] ∧ "e*(pi".toList = piece ++ "*(pi".toList) ∧
      ∃ failure, Rule.expression.run "*(pi".toList = .failure failure := by
  have hrun : Rule.expression.run "e*(pi".toList =
      .success (.tree (.literal .e)) "*(pi".toList := by rfl
  exact ⟨hrun, (runs_read_and_stop .expression).1 _ _ _ hrun, _, rfl⟩

end Grammar

end Reckoner
