import Reckoner.Proofs.Grammar.Within
/-!
# What the rules give

Each rule's outcomes in terms of those of its parts. Most failures inside a rule are recovered from:
an operator without its second operand falls back to the first, and an alternative that fails is
followed by another. What is left to fail is the last alternative of the innermost rule, a call.
-/

namespace Reckoner.Grammar

open Reckoner.Parser (Gives gives_andThen gives_orElse gives_orElse_success gives_map_success
  gives_map_failure gives_literal_success gives_literal_failure gives_matching gives_succeed
  gives_oneOf gives_filter)

/-! ### Symbols and names -/

theorem symbol_toList (op : Operator) : ∃ c, op.symbol.toList = [c] := by
  cases op <;> exact ⟨_, rfl⟩

theorem symbol_append_inj {op op' : Operator} {rest rest' : Text}
    (h : op.symbol.toList ++ rest = op'.symbol.toList ++ rest') : op = op' ∧ rest = rest' := by
  cases op <;> cases op' <;> simp_all [Operator.symbol]

theorem name_append_inj {f g : Trig} {rest rest' : Text}
    (h : f.name.toList ++ rest = g.name.toList ++ rest') : f = g ∧ rest = rest' := by
  cases f <;> cases g <;> simp_all [Trig.name]

theorem paren_ne_name (f : Trig) (more more' : Text) : '(' :: more ≠ f.name.toList ++ more' := by
  cases f <;> simp [Trig.name]

section

variable {m : Type → Type} [Monad m] [LawfulMonad m] [MonadAttach m] [LawfulMonadAttach m]
  {nested operand : Parser m Expr} {allowed : Operator → Bool} {message : String} {text : Text}
  {outcome : Outcome Expr} {failure : Failure}

/-- The words are tried in order: the one found is at the front of the text, and if none is found,
none is there. -/
theorem gives_keyword {κ : Type} {all : List κ} {word : κ → Text} {outcome : Outcome κ}
    (h : (Parser.oneOf (all.map fun k => (Parser.literal (word k)).map fun _ => k) :
      Parser m κ).Gives text outcome) :
    (∃ k rest, text = word k ++ rest ∧ outcome = .success k rest) ∨
      (∃ why, outcome = .failure why) ∧ ∀ k ∈ all, ∀ rest, text ≠ word k ++ rest := by
  rcases gives_oneOf h with
    ⟨before, p, after, hall, -, k, rest, hfound, rfl⟩ | ⟨failures, hfailures, rfl⟩
  · have hp : p ∈ all.map fun k => (Parser.literal (word k)).map fun _ => k := by
      rw [hall]
      simp
    obtain ⟨found, -, rfl⟩ := List.mem_map.mp hp
    obtain ⟨_, hfirst, rfl⟩ := gives_map_success hfound
    exact .inl ⟨_, rest, gives_literal_success hfirst, rfl⟩
  · refine .inr ⟨⟨_, rfl⟩, fun k hk rest htext => ?_⟩
    obtain ⟨why, -, hfailed⟩ := Parser.exists_failure_of_mem hfailures _ (List.mem_map_of_mem hk)
    exact (gives_literal_failure (gives_map_failure hfailed)).1 rest htext

/-! ### One application of an operator -/

theorem gives_allowed {outcome : Outcome Operator}
    (h : (binaryOperator.filter allowed message : Parser m Operator).Gives text outcome) :
    (∃ op rest, allowed op = true ∧ text = op.symbol.toList ++ rest ∧
      outcome = .success op rest) ∨
      (∃ why, outcome = .failure why) ∧
        ∀ op rest, allowed op = true → text ≠ op.symbol.toList ++ rest := by
  rcases gives_filter h with ⟨hfound, hallowed⟩ | ⟨op, rest, hfound, hnot, rfl⟩
  · rcases gives_keyword hfound with ⟨op, rest, htext, rfl⟩ | ⟨hfailed, hnone⟩
    · exact .inl ⟨op, rest, hallowed op rest rfl, htext, rfl⟩
    · refine .inr ⟨hfailed, fun op rest _ => hnone op ?_ rest⟩
      cases op <;> simp [Operator.all]
  · rcases gives_keyword hfound with ⟨found, left, htext, heq⟩ | ⟨⟨why, heq⟩, -⟩
    · obtain ⟨rfl, rfl⟩ := Outcome.success.inj heq
      refine .inr ⟨⟨_, rfl⟩, fun other later hother htext' => ?_⟩
      obtain ⟨rfl, -⟩ := symbol_append_inj (htext.symm.trans htext')
      rw [hnot] at hother
      cases hother
    · cases heq

/-- The operand fails, or it is followed by an allowed operator and another operand, or what follows
it does not start that way. -/
theorem gives_singleApplication
    (h : (singleApplication operand allowed message).Gives text outcome) :
    (∃ why, operand.Gives text (.failure why) ∧ outcome = .failure why) ∨
      ∃ first rest, operand.Gives text (.success first rest) ∧
        ((∃ op later second left, allowed op = true ∧ rest = op.symbol.toList ++ later ∧
          operand.Gives later (.success second left) ∧
          outcome = .success (.binary op first second) left) ∨
        (∀ op later, allowed op = true → rest = op.symbol.toList ++ later →
          ∃ why, operand.Gives later (.failure why)) ∧ outcome = .success first rest) := by
  rcases gives_andThen h with ⟨first, rest, hfirst, hthen⟩ | ⟨why, hfailed, rfl⟩
  · refine .inr ⟨first, rest, hfirst, ?_⟩
    rcases gives_orElse hthen with ⟨tree, left, hboth, rfl⟩ | ⟨why, hneither, hfallback⟩
    · rcases gives_andThen hboth with ⟨op, later, hop, hmapped⟩ | ⟨why, -, heq⟩
      · obtain ⟨second, hsecond, rfl⟩ := gives_map_success hmapped
        rcases gives_allowed hop with ⟨found, after, hallowed, hrest, heq⟩ | ⟨⟨why, heq⟩, -⟩
        · obtain ⟨rfl, rfl⟩ := Outcome.success.inj heq
          exact .inl ⟨op, later, second, left, hallowed, hrest, hsecond, rfl⟩
        · cases heq
      · cases heq
    · -- The first operand is the fallback, so an operator that follows has no second one.
      refine .inr ⟨fun op later hop hrest => ?_, gives_succeed hfallback⟩
      rcases gives_andThen hneither with ⟨found, after, hfound, hmapped⟩ | ⟨why', hfound, -⟩
      · rcases gives_allowed hfound with ⟨op', after', -, hrest', heq⟩ | ⟨⟨why, heq⟩, -⟩
        · obtain ⟨rfl, rfl⟩ := Outcome.success.inj heq
          obtain ⟨rfl, rfl⟩ := symbol_append_inj (hrest.symm.trans hrest')
          exact ⟨why, gives_map_failure hmapped⟩
        · cases heq
      · rcases gives_allowed hfound with ⟨op', after', -, -, heq⟩ | ⟨-, hnone⟩
        · cases heq
        · exact absurd hrest (hnone op later hop)
  · exact .inl ⟨why, hfailed, rfl⟩

theorem failure_of_singleApplication
    (h : (singleApplication operand allowed message).Gives text (.failure failure)) :
    operand.Gives text (.failure failure) := by
  rcases gives_singleApplication h with
    ⟨why, hfailed, heq⟩ | ⟨_, _, _, ⟨_, _, _, _, _, _, _, heq⟩ | ⟨_, heq⟩⟩
  · obtain rfl := Outcome.failure.inj heq
    exact hfailed
  · cases heq
  · cases heq

/-! ### Parentheses and calls -/

/-- The failure to find a character. -/
def missing (c : Char) (text : Text) : Failure :=
  ⟨"Expected literal: " ++ String.ofList [c], [Text.quoted [c]], some text⟩

/-- What stands between parentheses fails at one of them or inside. -/
theorem failure_of_betweenParens (h : (betweenParens nested).Gives text (.failure failure)) :
    (∀ inner, text ≠ '(' :: inner) ∧ failure = missing '(' text ∨
      ∃ inner, text = '(' :: inner ∧ (nested.Gives inner (.failure failure) ∨
        ∃ tree rest, nested.Gives inner (.success tree rest) ∧ (∀ left, rest ≠ ')' :: left) ∧
          failure = missing ')' rest) := by
  rcases gives_andThen h with ⟨_, inner, hopen, hinside⟩ | ⟨why, hopen, heq⟩
  · refine .inr ⟨inner, gives_literal_success hopen, ?_⟩
    rcases gives_andThen hinside with ⟨tree, rest, htree, hclose⟩ | ⟨why, hnested, heq⟩
    · exact .inr ⟨tree, rest, htree, gives_literal_failure (gives_map_failure hclose)⟩
    · obtain rfl := Outcome.failure.inj heq
      exact .inl hnested
  · obtain rfl := Outcome.failure.inj heq
    exact .inl (gives_literal_failure hopen)

theorem success_of_betweenParens {tree : Expr} {rest : Text}
    (h : (betweenParens nested).Gives text (.success tree rest)) :
    ∃ inner, text = '(' :: inner ∧ nested.Gives inner (.success tree (')' :: rest)) := by
  rcases gives_andThen h with ⟨_, inner, hopen, hinside⟩ | ⟨why, -, heq⟩
  · rcases gives_andThen hinside with ⟨found, left, hfound, hclose⟩ | ⟨why, -, heq⟩
    · obtain ⟨_, hclosed, rfl⟩ := gives_map_success hclose
      obtain rfl : left = ')' :: rest := gives_literal_success hclosed
      exact ⟨inner, gives_literal_success hopen, hfound⟩
    · cases heq
  · cases heq

/-- A call fails at its name or between its parentheses. -/
theorem failure_of_call (h : (call nested).Gives text (.failure failure)) :
    (functionName : Parser m Trig).Gives text (.failure failure) ∨
      ∃ f rest, (functionName : Parser m Trig).Gives text (.success f rest) ∧
        (betweenParens nested).Gives rest (.failure failure) := by
  rcases gives_andThen h with ⟨f, rest, hname, hparens⟩ | ⟨why, hname, heq⟩
  · exact .inr ⟨f, rest, hname, gives_map_failure hparens⟩
  · obtain rfl := Outcome.failure.inj heq
    exact .inl hname

theorem success_of_call {tree : Expr} {rest : Text}
    (h : (call nested).Gives text (.success tree rest)) :
    ∃ f later arg, text = f.name.toList ++ later ∧
      (betweenParens nested).Gives later (.success arg rest) ∧ tree = .call f arg := by
  rcases gives_andThen h with ⟨f, later, hname, hmapped⟩ | ⟨why, -, heq⟩
  · obtain ⟨arg, hparens, rfl⟩ := gives_map_success hmapped
    rcases gives_keyword hname with ⟨found, left, rfl, heq⟩ | ⟨⟨why, heq⟩, -⟩
    · obtain ⟨rfl, rfl⟩ := Outcome.success.inj heq
      exact ⟨f, later, arg, rfl, hparens, rfl⟩
    · cases heq
  · cases heq

/-! ### Numbers, factors and expressions -/

theorem success_of_number {tree : Expr} {rest : Text}
    (h : (number : Parser m Expr).Gives text (.success tree rest)) :
    ∃ x, tree = .literal x ∧ scanNumber text = some (x, rest) := by
  obtain ⟨x, hscanned, rfl⟩ := gives_map_success h
  rcases gives_matching hscanned with ⟨y, left, hscan, heq⟩ | ⟨-, heq⟩
  · obtain ⟨rfl, rfl⟩ := Outcome.success.inj heq
    exact ⟨x, rfl, hscan⟩
  · cases heq

theorem success_of_constant {tree : Expr} {rest : Text}
    (h : (constant : Parser m Expr).Gives text (.success tree rest)) :
    (text = "pi".toList ++ rest ∧ tree = .literal .pi) ∨
      (text = "PI".toList ++ rest ∧ tree = .literal .pi) ∨
      text = "e".toList ++ rest ∧ tree = .literal .e := by
  rcases gives_oneOf h with ⟨before, p, after, hall, -, _, _, hfound, heq⟩ | ⟨_, -, heq⟩
  · obtain ⟨rfl, rfl⟩ := Outcome.success.inj heq
    have hp : p ∈ before ++ p :: after := by simp
    rw [← hall, List.mem_pair] at hp
    rcases hp with rfl | rfl
    · obtain ⟨_, heither, rfl⟩ := gives_map_success hfound
      rcases gives_orElse_success heither with hsmall | hbig
      · exact .inl ⟨gives_literal_success hsmall, rfl⟩
      · exact .inr (.inl ⟨gives_literal_success hbig, rfl⟩)
    · obtain ⟨_, hliteral, rfl⟩ := gives_map_success hfound
      exact .inr (.inr ⟨gives_literal_success hliteral, rfl⟩)
  · cases heq

theorem failure_of_constant (h : (constant : Parser m Expr).Gives text (.failure failure))
    (rest : Text) :
    text ≠ "pi".toList ++ rest ∧ text ≠ "PI".toList ++ rest ∧ text ≠ "e".toList ++ rest := by
  rcases gives_oneOf h with ⟨_, _, _, _, _, _, _, _, heq⟩ | ⟨failures, hfailures, -⟩
  · cases heq
  · obtain ⟨why, -, hpi⟩ := Parser.exists_failure_of_mem hfailures _ List.mem_cons_self
    obtain ⟨why', -, he⟩ := Parser.exists_failure_of_mem hfailures _
      (List.mem_cons_of_mem _ List.mem_cons_self)
    rcases gives_orElse (gives_map_failure hpi) with ⟨_, _, -, heq⟩ | ⟨why'', hsmall, hbig⟩
    · cases heq
    · exact ⟨(gives_literal_failure hsmall).1 rest, (gives_literal_failure hbig).1 rest,
        (gives_literal_failure (gives_map_failure he)).1 rest⟩

theorem success_of_factor {tree : Expr} {rest : Text}
    (h : (factor nested).Gives text (.success tree rest)) :
    (∃ x, tree = .literal x) ∨ (betweenParens nested).Gives text (.success tree rest) ∨
      (call nested).Gives text (.success tree rest) := by
  rcases gives_orElse_success h with hthree | hcall
  · rcases gives_orElse_success hthree with htwo | hparens
    · rcases gives_orElse_success htwo with hnumber | hconstant
      · obtain ⟨x, htree, -⟩ := success_of_number hnumber
        exact .inl ⟨x, htree⟩
      · rcases success_of_constant hconstant with ⟨-, htree⟩ | ⟨-, htree⟩ | ⟨-, htree⟩
        · exact .inl ⟨_, htree⟩
        · exact .inl ⟨_, htree⟩
        · exact .inl ⟨_, htree⟩
    · exact .inr (.inl hparens)
  · exact .inr (.inr hcall)

theorem failure_of_factor (h : (factor nested).Gives text (.failure failure)) :
    (call nested).Gives text (.failure failure) := by
  rcases gives_orElse h with ⟨value, rest, -, heq⟩ | ⟨-, -, hcall⟩
  · cases heq
  · exact hcall

theorem failure_of_expression (h : (expression nested).Gives text (.failure failure)) :
    (call nested).Gives text (.failure failure) :=
  failure_of_factor (failure_of_singleApplication (failure_of_singleApplication h))

/-! ### Messages -/

theorem message_of_functionName
    (h : (functionName : Parser m Trig).Gives text (.failure failure)) :
    failure.message = "No parser matched in oneOf." := by
  rcases gives_oneOf h with ⟨_, _, _, _, _, _, _, _, heq⟩ | ⟨failures, _, heq⟩
  · cases heq
  · rw [Outcome.failure.inj heq, Failure.merge]

/-- If the failures of nested expressions do not speak of nesting, neither do those of
expressions. -/
theorem message_of_expression
    (hnested : ∀ inner failure, nested.Gives inner (.failure failure) →
      failure.message ≠ "Expression nested too deeply")
    (h : (expression nested).Gives text (.failure failure)) :
    failure.message ≠ "Expression nested too deeply" := by
  rcases failure_of_call (failure_of_expression h) with hname | ⟨f, rest, -, hparens⟩
  · rw [message_of_functionName hname]
    decide
  · rcases failure_of_betweenParens hparens with
      ⟨-, rfl⟩ | ⟨inner, -, hinner | ⟨tree, left, -, -, rfl⟩⟩
    · change "Expected literal: (" ≠ "Expression nested too deeply"
      decide
    · exact hnested inner failure hinner
    · change "Expected literal: )" ≠ "Expression nested too deeply"
      decide

end

end Reckoner.Grammar
