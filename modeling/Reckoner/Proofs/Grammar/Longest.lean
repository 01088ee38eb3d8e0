import Reckoner.Proofs.Grammar.Number
import Reckoner.Proofs.Grammar.Recursion
import Reckoner.Proofs.Grammar.Returns
/-!
# Ordered choice finds the longest word

The parsers commit to the first alternative that works and never reconsider, yet they find the
longest word that the grammar has at the front of a text. The reason is what can follow a word that
is shorter than the one found: a digit, a point or an operator of the level at hand. None of these
closes a parenthesis, and none is an operator of another level, so nothing is lost by going on as
long as possible, at any level. `Best` carries this through the rules.
-/

namespace Reckoner.Grammar

open Reckoner.Parser (Gives StaysWithin gives_orElse gives_map_failure gives_matching)

/-- The outcome of a step is the only longest way to start its text, and each shorter way is one
that an `extending` character follows. If the step fails, the text starts in no such way at all. -/
def Best (Way : Text → Expr → Text → Prop) (extending : Char → Bool) (text : Text) :
    Outcome Expr → Prop
  | .success tree rest => Way text tree rest ∧ ∀ tree' rest', Way text tree' rest' →
      (tree' = tree ∧ rest' = rest) ∨
        rest.length < rest'.length ∧ ∃ c more, rest' = c :: more ∧ extending c = true
  | .failure _ => ∀ tree rest, ¬ Way text tree rest

section

variable {Way Way' : Text → Expr → Text → Prop} {extending extending' : Char → Bool} {text : Text}
  {outcome : Outcome Expr}

theorem Best.congr (h : Best Way extending text outcome)
    (hway : ∀ tree rest, Way text tree rest ↔ Way' text tree rest) :
    Best Way' extending text outcome := by
  cases outcome with
  | success tree rest =>
    exact ⟨(hway _ _).mp h.1, fun tree' rest' h' => h.2 tree' rest' ((hway _ _).mpr h')⟩
  | failure why => exact fun tree rest h' => h tree rest ((hway _ _).mpr h')

/-- A way that can only go on as it does is best whatever extends others. -/
theorem Best.of_unique {tree : Expr} {rest : Text} (h : Way text tree rest)
    (hunique : ∀ tree' rest', Way text tree' rest' → tree' = tree ∧ rest' = rest) :
    Best Way extending text (.success tree rest) :=
  ⟨h, fun tree' rest' h' => .inl (hunique tree' rest' h')⟩

/-- In front of a character that extends no way there is only the way that was found. -/
theorem Best.eq_of_not_extending {tree tree' : Expr} {rest more : Text} {c : Char}
    (h : Best Way extending text (.success tree rest)) (hc : extending c = false)
    (hway : Way text tree' (c :: more)) : tree' = tree ∧ c :: more = rest := by
  rcases h.2 _ _ hway with hsame | ⟨-, c', more', heq, hextending⟩
  · exact hsame
  · obtain ⟨rfl, -⟩ := List.cons.inj heq
    rw [hc] at hextending
    cases hextending

/-- Alternatives that exclude each other can be tried in any order. -/
theorem Best.orElse {m : Type → Type} [Monad m] [LawfulMonad m] [MonadAttach m]
    [LawfulMonadAttach m] {p q : Parser m Expr}
    (hp : ∀ outcome, p.Gives text outcome → Best Way extending text outcome)
    (hq : ∀ outcome, q.Gives text outcome → Best Way' extending text outcome)
    (hexcludes : ∀ tree rest tree' rest', Way text tree rest → ¬ Way' text tree' rest')
    (h : (p.orElse q).Gives text outcome) :
    Best (fun text tree rest => Way text tree rest ∨ Way' text tree rest) extending text
      outcome := by
  rcases gives_orElse h with ⟨tree, rest, hfirst, rfl⟩ | ⟨why, hfailed, hsecond⟩
  · have hbest := hp _ hfirst
    refine ⟨.inl hbest.1, fun tree' rest' hway => ?_⟩
    rcases hway with hway | hway
    · exact hbest.2 tree' rest' hway
    · exact absurd hway (hexcludes _ _ _ _ hbest.1)
  · have hnone := hp _ hfailed
    exact (hq outcome hsecond).congr fun tree rest =>
      ⟨.inr, fun hway => hway.resolve_left (hnone tree rest)⟩

end

/-! ### One application of an operator -/

/-- Whether a character is the symbol of one of the allowed operators. -/
def marks (allowed : Operator → Bool) (c : Char) : Bool :=
  Operator.all.any fun op => allowed op && op.symbol.toList == [c]

theorem marks_of_symbol {allowed : Operator → Bool} {op : Operator} {c : Char}
    (hop : allowed op = true) (hc : op.symbol.toList = [c]) : marks allowed c = true := by
  refine List.any_eq_true.mpr ⟨op, ?_, by simp [hop, hc]⟩
  cases op <;> simp [Operator.all]

section

variable {Way : Text → Expr → Text → Prop} {extending : Char → Bool} {allowed : Operator → Bool}
  {text : Text}

/-- An operator extends no operand, so the one in front of it is the one that was found. -/
theorem Best.eq_of_operator {op : Operator} {first left : Expr} {rest later : Text}
    (h : Best Way extending text (.success first rest))
    (hmarks : ∀ c, marks allowed c = true → extending c = false) (hop : allowed op = true)
    (hway : Way text left (op.symbol.toList ++ later)) :
    left = first ∧ op.symbol.toList ++ later = rest := by
  obtain ⟨c, hc⟩ := symbol_toList op
  rw [hc] at hway ⊢
  exact h.eq_of_not_extending (hmarks c (marks_of_symbol hop hc)) hway

/-- Two operands found at their longest with an operator between them. -/
theorem Best.applied {op : Operator} {first second : Expr} {later rest : Text}
    (hfirst : Best Way extending text (.success first (op.symbol.toList ++ later)))
    (hsecond : Best Way extending later (.success second rest)) (hrest : rest.length ≤ later.length)
    (hmarks : ∀ c, marks allowed c = true → extending c = false) (hop : allowed op = true) :
    Best (Applied Way allowed) (fun c => extending c || marks allowed c) text
      (.success (.binary op first second) rest) := by
  obtain ⟨c, hc⟩ := symbol_toList op
  have hshorter : rest.length < (op.symbol.toList ++ later).length := by
    rw [hc, List.length_append, List.length_singleton]
    omega
  refine ⟨.inr ⟨op, first, second, later, hop, hfirst.1, hsecond.1, rfl⟩, ?_⟩
  rintro tree' rest' (hway | ⟨op', left', right', later', hop', hway, hway', rfl⟩)
  · rcases hfirst.2 _ _ hway with ⟨-, rfl⟩ | ⟨hlonger, c', more, rfl, hextending⟩
    · exact .inr ⟨hshorter, c, later, by rw [hc]; rfl, by simp [marks_of_symbol hop hc]⟩
    · exact .inr ⟨Nat.lt_trans hshorter hlonger, c', more, rfl, by simp [hextending]⟩
  · obtain ⟨rfl, heq⟩ := hfirst.eq_of_operator hmarks hop' hway
    obtain ⟨rfl, rfl⟩ := symbol_append_inj heq
    rcases hsecond.2 _ _ hway' with ⟨rfl, rfl⟩ | ⟨hlonger, c', more, rfl, hextending⟩
    · exact .inl ⟨rfl, rfl⟩
    · exact .inr ⟨hlonger, c', more, rfl, by simp [hextending]⟩

/-- An operand found at its longest that no operator and second operand follow. -/
theorem Best.unapplied {first : Expr} {rest : Text}
    (hfirst : Best Way extending text (.success first rest))
    (hmarks : ∀ c, marks allowed c = true → extending c = false)
    (hnone : ∀ op later, allowed op = true → rest = op.symbol.toList ++ later →
      ∀ tree left, ¬ Way later tree left) :
    Best (Applied Way allowed) (fun c => extending c || marks allowed c) text
      (.success first rest) := by
  refine ⟨.inl hfirst.1, ?_⟩
  rintro tree' rest' (hway | ⟨op', left', right', later', hop', hway, hway', rfl⟩)
  · rcases hfirst.2 _ _ hway with hsame | ⟨hlonger, c', more, rfl, hextending⟩
    · exact .inl hsame
    · exact .inr ⟨hlonger, c', more, rfl, by simp [hextending]⟩
  · obtain ⟨rfl, rfl⟩ := hfirst.eq_of_operator hmarks hop' hway
    exact absurd hway' (hnone op' later' hop' rfl _ _)

/-- If the operand is found at its longest, so is one application of an operator that does not
extend operands. -/
theorem Best.singleApplication {m : Type → Type} [Monad m] [LawfulMonad m] [MonadAttach m]
    [LawfulMonadAttach m] {operand : Parser m Expr} {message : String} {outcome : Outcome Expr}
    (hstays : operand.StaysWithin false)
    (hoperand : ∀ part : Text, part.length ≤ text.length →
      ∀ outcome, operand.Gives part outcome → Best Way extending part outcome)
    (hmarks : ∀ c, marks allowed c = true → extending c = false)
    (h : (singleApplication operand allowed message).Gives text outcome) :
    Best (Applied Way allowed) (fun c => extending c || marks allowed c) text outcome := by
  rcases gives_singleApplication h with ⟨why, hfailed, rfl⟩ | ⟨first, rest, hfirst, hthen⟩
  · have hnone := hoperand text (Nat.le_refl _) _ hfailed
    rintro tree rest (hway | ⟨op, left, right, later, -, hleft, -, -⟩)
    · exact hnone _ _ hway
    · exact hnone _ _ hleft
  · have hbest := hoperand text (Nat.le_refl _) _ hfirst
    have hrest : rest.length ≤ text.length := (hstays text _ hfirst).length_le
    have hlater : ∀ {op : Operator} {later}, rest = op.symbol.toList ++ later →
        later.length ≤ text.length := by
      rintro op later rfl
      rw [List.length_append] at hrest
      omega
    rcases hthen with ⟨op, later, second, left, hop, rfl, hsecond, rfl⟩ | ⟨hnone, rfl⟩
    · exact hbest.applied (hoperand later (hlater rfl) _ hsecond)
        (hstays later _ hsecond).length_le hmarks hop
    · refine hbest.unapplied hmarks fun op later hop heq => ?_
      obtain ⟨why, hfailed⟩ := hnone op later hop heq
      exact hoperand later (hlater heq) _ hfailed

end

/-! ### The alternatives of a factor -/

section

variable {m : Type → Type} [Monad m] [LawfulMonad m] [MonadAttach m] [LawfulMonadAttach m]
  {nested : Parser m Expr} {extending : Char → Bool} {text : Text} {outcome : Outcome Expr}

theorem Best.number (h : (number : Parser m Expr).Gives text outcome) :
    Best (Starts .number) extendsNumber text outcome := by
  cases outcome with
  | success tree rest =>
    obtain ⟨x, rfl, hscan⟩ := success_of_number h
    refine ⟨starts_number_of_scanNumber hscan, fun tree' rest' hstarts => ?_⟩
    obtain ⟨y, left, hscan', hlongest⟩ := scanNumber_longest hstarts
    rw [hscan, Option.some.injEq, Prod.mk.injEq] at hscan'
    obtain ⟨rfl, rfl⟩ := hscan'
    exact hlongest
  | failure why =>
    intro tree rest hstarts
    obtain ⟨x, left, hscan, -⟩ := scanNumber_longest hstarts
    rcases gives_matching (gives_map_failure h) with ⟨y, other, -, heq⟩ | ⟨hnone, -⟩
    · cases heq
    · rw [hscan] at hnone
      cases hnone

theorem starts_constant_unique {tree tree' : Expr} {rest rest' : Text}
    (h : Starts .constant text tree rest) (h' : Starts .constant text tree' rest') :
    tree' = tree ∧ rest' = rest := by
  rw [starts_constant_iff] at h h'
  rcases h with ⟨rfl, rfl⟩ | ⟨rfl, rfl⟩ | ⟨rfl, rfl⟩ <;>
    rcases h' with ⟨htext, rfl⟩ | ⟨htext, rfl⟩ | ⟨htext, rfl⟩ <;> simp_all

theorem Best.constant (h : (constant : Parser m Expr).Gives text outcome) :
    Best (Starts .constant) extending text outcome := by
  cases outcome with
  | success tree rest =>
    have hstarts : Starts .constant text tree rest :=
      starts_constant_iff.mpr (success_of_constant h)
    exact .of_unique hstarts fun _ _ => starts_constant_unique hstarts
  | failure why =>
    intro tree rest hstarts
    obtain ⟨hsmall, hbig, he⟩ := failure_of_constant h rest
    rcases starts_constant_iff.mp hstarts with ⟨htext, -⟩ | ⟨htext, -⟩ | ⟨htext, -⟩
    · exact hsmall htext
    · exact hbig htext
    · exact he htext

/-- A parenthesis extends no expression, so the expression in front of it is the longest. -/
theorem Best.betweenParens {extending' : Char → Bool} (hclose : extending ')' = false)
    (hnested : ∀ inner : Text, inner.length < text.length →
      ∀ outcome, nested.Gives inner outcome → Best (Starts .expression) extending inner outcome)
    (h : (betweenParens nested).Gives text outcome) : Best Enclosed extending' text outcome := by
  cases outcome with
  | success tree rest =>
    obtain ⟨inner, rfl, hgives⟩ := success_of_betweenParens h
    have hbest := hnested inner (by simp) _ hgives
    refine .of_unique ⟨inner, rfl, hbest.1⟩ ?_
    rintro tree' rest' ⟨inner', heq, hstarts⟩
    obtain ⟨-, rfl⟩ := List.cons.inj heq
    obtain ⟨rfl, hrest⟩ := hbest.eq_of_not_extending hclose hstarts
    exact ⟨rfl, (List.cons.inj hrest).2⟩
  | failure why =>
    rintro tree rest ⟨inner, rfl, hstarts⟩
    rcases failure_of_betweenParens h with
      ⟨hnot, -⟩ | ⟨inner', heq, hfailed | ⟨found, left, hfound, hnot, -⟩⟩
    · exact hnot inner rfl
    · obtain ⟨-, rfl⟩ := List.cons.inj heq
      exact hnested inner (by simp) _ hfailed _ _ hstarts
    · obtain ⟨-, rfl⟩ := List.cons.inj heq
      have hbest := hnested inner (by simp) _ hfound
      exact hnot rest (hbest.eq_of_not_extending hclose hstarts).2.symm

theorem Best.call {extending' : Char → Bool} (hclose : extending ')' = false)
    (hnested : ∀ inner : Text, inner.length < text.length →
      ∀ outcome, nested.Gives inner outcome → Best (Starts .expression) extending inner outcome)
    (h : (call nested).Gives text outcome) : Best (Starts .call) extending' text outcome := by
  have hparens : ∀ {f : Trig} {later : Text} {outcome}, text = f.name.toList ++ later →
      (Grammar.betweenParens nested).Gives later outcome →
        Best Enclosed extending' later outcome := by
    intro f later outcome htext hgives
    refine .betweenParens hclose (fun inner hinner => hnested inner ?_) hgives
    rw [htext, List.length_append]
    omega
  cases outcome with
  | success tree rest =>
    obtain ⟨f, later, arg, rfl, hgives, rfl⟩ := success_of_call h
    have hbest := hparens rfl hgives
    refine ⟨starts_call_iff.mpr ⟨f, later, arg, rfl, hbest.1, rfl⟩, fun tree' rest' hstarts => ?_⟩
    obtain ⟨g, later', arg', htext, henclosed, rfl⟩ := starts_call_iff.mp hstarts
    obtain ⟨rfl, rfl⟩ := name_append_inj htext
    rcases hbest.2 _ _ henclosed with ⟨rfl, rfl⟩ | hlonger
    · exact .inl ⟨rfl, rfl⟩
    · exact .inr hlonger
  | failure why =>
    intro tree rest hstarts
    obtain ⟨f, later, arg, rfl, henclosed, rfl⟩ := starts_call_iff.mp hstarts
    rcases failure_of_call h with hname | ⟨g, left, hname, hgives⟩
    · rcases gives_keyword hname with ⟨g, left, -, heq⟩ | ⟨-, hnone⟩
      · cases heq
      · exact hnone f (by cases f <;> simp [Trig.all]) later rfl
    · rcases gives_keyword hname with ⟨g', left', htext, heq⟩ | ⟨⟨why, heq⟩, -⟩
      · obtain ⟨rfl, rfl⟩ := Outcome.success.inj heq
        obtain ⟨rfl, rfl⟩ := name_append_inj htext
        exact hparens rfl hgives _ _ henclosed
      · cases heq

end

/-! ### Factors, terms and expressions -/

/-- Whether a number can start with the character. -/
def opensNumber (c : Char) : Bool := c == '+' || c == '-' || Text.isDigit c

theorem not_starts_number {c : Char} (hc : opensNumber c = false) (more : Text) (tree : Expr)
    (rest : Text) : ¬ Starts .number (c :: more) tree rest := by
  rintro ⟨w, htext, hw⟩
  cases hw with
  | @numeral sign whole point fraction negative hsign hwhole hpoint =>
    have hopens : ∀ c' more', sign ++ whole = c' :: more' → opensNumber c' = true := by
      intro c' more' hfront
      cases hsign with
      | none =>
        have hdigit : Text.isDigit c' = true := hwhole.2 c' (by simp [show whole = _ from hfront])
        simp [opensNumber, hdigit]
      | plus =>
        obtain ⟨rfl, -⟩ := List.cons.inj hfront
        decide
      | minus =>
        obtain ⟨rfl, -⟩ := List.cons.inj hfront
        decide
    cases hfront : sign ++ whole with
    | nil => exact hwhole.1 (List.append_eq_nil_iff.mp hfront).2
    | cons c' more' =>
      rw [hfront] at htext
      obtain ⟨rfl, -⟩ := List.cons.inj htext
      rw [hopens c more' hfront] at hc
      cases hc

theorem not_starts_number_of_constant {text : Text} {tree tree' : Expr} {rest rest' : Text}
    (h : Starts .constant text tree rest) : ¬ Starts .number text tree' rest' := by
  rcases starts_constant_iff.mp h with ⟨rfl, -⟩ | ⟨rfl, -⟩ | ⟨rfl, -⟩
  · exact not_starts_number (by decide) _ _ _
  · exact not_starts_number (by decide) _ _ _
  · exact not_starts_number (by decide) _ _ _

theorem not_starts_of_enclosed {text : Text} {tree tree' : Expr} {rest rest' : Text}
    (h : Enclosed text tree rest) :
    ¬ (Starts .number text tree' rest' ∨ Starts .constant text tree' rest') := by
  obtain ⟨inner, rfl, -⟩ := h
  rintro (hnumber | hconstant)
  · exact not_starts_number (by decide) _ _ _ hnumber
  · simp [starts_constant_iff] at hconstant

theorem not_starts_of_call {text : Text} {tree tree' : Expr} {rest rest' : Text}
    (h : Starts .call text tree rest) :
    ¬ ((Starts .number text tree' rest' ∨ Starts .constant text tree' rest') ∨
      Enclosed text tree' rest') := by
  obtain ⟨f, later, arg, rfl, -, -⟩ := starts_call_iff.mp h
  rintro ((hnumber | hconstant) | ⟨inner, htext, -⟩)
  · cases f <;> exact not_starts_number (by decide) _ _ _ hnumber
  · cases f <;> simp [starts_constant_iff, Trig.name] at hconstant
  · cases f <;> simp [Trig.name] at htext

/-- The characters that can follow a term, or an expression, that is shorter than it could be. -/
def extendsTerm (c : Char) : Bool := extendsNumber c || marks isMultiplicative c

def extendsExpression (c : Char) : Bool := extendsTerm c || marks isAdditive c

theorem extendsNumber_of_marks {c : Char} (h : marks isMultiplicative c = true) :
    extendsNumber c = false := by
  have hc : '*' = c ∨ '/' = c ∨ '%' = c := by
    simpa [marks, Operator.all, isMultiplicative, Operator.symbol] using h
  rcases hc with rfl | rfl | rfl <;> decide

theorem extendsTerm_of_marks {c : Char} (h : marks isAdditive c = true) :
    extendsTerm c = false := by
  have hc : '+' = c ∨ '-' = c := by
    simpa [marks, Operator.all, isAdditive, Operator.symbol] using h
  rcases hc with rfl | rfl <;> decide

section

variable {m : Type → Type} [Monad m] [LawfulMonad m] [MonadAttach m] [LawfulMonadAttach m]
  {nested : Parser m Expr} {text : Text} {outcome : Outcome Expr}

theorem Best.factor
    (hnested : ∀ inner : Text, inner.length < text.length → ∀ outcome,
      nested.Gives inner outcome → Best (Starts .expression) extendsExpression inner outcome)
    (h : (factor nested).Gives text outcome) :
    Best (Starts .factor) extendsNumber text outcome := by
  have hclose : extendsExpression ')' = false := by decide
  have hbest := Best.orElse
    (fun _ => Best.orElse
      (fun _ => Best.orElse (fun _ => Best.number) (fun _ => Best.constant)
        fun _ _ _ _ hnumber hconstant => not_starts_number_of_constant hconstant hnumber)
      (fun _ => Best.betweenParens hclose hnested)
      fun _ _ _ _ hstarts henclosed => not_starts_of_enclosed henclosed hstarts)
    (fun _ => Best.call hclose hnested)
    (fun _ _ _ _ hstarts hcall => not_starts_of_call hcall hstarts) h
  exact hbest.congr fun _ _ => starts_factor_iff.symm

theorem Best.term (hstays : nested.StaysWithin false)
    (hnested : ∀ inner : Text, inner.length < text.length → ∀ outcome,
      nested.Gives inner outcome → Best (Starts .expression) extendsExpression inner outcome)
    (h : (term nested).Gives text outcome) : Best (Starts .term) extendsTerm text outcome := by
  have hfactor : ∀ part : Text, part.length ≤ text.length → ∀ outcome,
      (Grammar.factor nested).Gives part outcome →
        Best (Starts .factor) extendsNumber part outcome := fun part hpart outcome =>
    .factor fun inner hinner => hnested inner (Nat.lt_of_lt_of_le hinner hpart)
  have hbest := Best.singleApplication (factor_staysWithin hstays) hfactor
    (fun _ => extendsNumber_of_marks) h
  exact hbest.congr fun _ _ => starts_term_iff.symm

theorem Best.expression (hstays : nested.StaysWithin false)
    (hnested : ∀ inner : Text, inner.length < text.length → ∀ outcome,
      nested.Gives inner outcome → Best (Starts .expression) extendsExpression inner outcome)
    (h : (expression nested).Gives text outcome) :
    Best (Starts .expression) extendsExpression text outcome := by
  have hterm : ∀ part : Text, part.length ≤ text.length → ∀ outcome,
      (Grammar.term nested).Gives part outcome →
        Best (Starts .term) extendsTerm part outcome := fun part hpart outcome =>
    .term hstays fun inner hinner => hnested inner (Nat.lt_of_lt_of_le hinner hpart)
  have hbest := Best.singleApplication (term_staysWithin hstays) hterm
    (fun _ => extendsTerm_of_marks) h
  exact hbest.congr fun _ _ => starts_expression_iff.symm

/-- Around itself, the rule of expressions finds the longest one at every depth. -/
theorem Best.unlimitedExpression (h : (unlimitedExpression : Parser m Expr).Gives text outcome) :
    Best (Starts .expression) extendsExpression text outcome := by
  -- The induction is on the length of the text, which each opening makes shorter.
  induction hlength : text.length using Nat.strongRecOn generalizing text outcome with
  | _ length ih =>
    rw [unlimitedExpression_eq] at h
    subst hlength
    exact .expression unlimitedExpression_staysWithin
      (fun inner hinner outcome hinside => ih inner.length hinner hinside rfl) h

end

end Reckoner.Grammar
