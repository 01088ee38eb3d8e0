import Reckoner.Grammar.Parse
import Reckoner.Proofs.Parsing.Choice
import Reckoner.Proofs.Text.Quoted

/-!
# What an expectation says

A failure lists what was expected where it failed, and drops what it has listed before. What it
lists stands for the parsers that look at the text themselves: those for a given text, which is
listed between quotes, and those for a pattern, listed between slashes. Neither can be taken for
another, so nothing is dropped but what comes from the same parser.
-/

namespace Reckoner

/-- A parser that looks at the text itself. -/
inductive Primitive where
  | literal (wanted : Text)
  | pattern (source : String)
deriving DecidableEq

namespace Primitive

variable {m : Type → Type} [Monad m]

/-- How failures list the parser. -/
def expectation : Primitive → String
  | literal wanted => Text.quoted wanted
  | pattern source => "/" ++ source ++ "/"

/-- The parser, given what each pattern finds at the front of a text. -/
def parser (scan : String → Text → Option (Text × Text)) : Primitive → Parser m Text
  | literal wanted => .literal wanted
  | pattern source => .matching source (scan source)

/-- The text does not start with what the parser looks for. -/
def Misses (scan : String → Text → Option (Text × Text)) (text : Text) : Primitive → Prop
  | literal wanted => ¬ wanted <+: text
  | pattern source => scan source text = none

instance (scan : String → Text → Option (Text × Text)) (text : Text) :
    ∀ p : Primitive, Decidable (p.Misses scan text)
  | literal wanted => inferInstanceAs (Decidable (¬ wanted <+: text))
  | pattern source => inferInstanceAs (Decidable (scan source text = none))

/-! ### Telling expectations apart -/

theorem toList_expectation_pattern (source : String) :
    (pattern source).expectation.toList = '/' :: source.toList ++ ['/'] := by
  simp [expectation]

theorem expectation_literal_ne_pattern (wanted : Text) (source : String) :
    (literal wanted).expectation ≠ (pattern source).expectation := by
  intro h
  have htexts := congrArg String.toList h
  rw [toList_expectation_pattern, expectation, Text.quoted, String.toList_ofList] at htexts
  -- A text in quotes starts with one of them, and neither is a slash.
  have hfront : Text.quoteMark wanted = '/' := (List.cons.inj htexts).1
  rcases Text.quoteMark_cases wanted with hmark | hmark
  · rw [hmark] at hfront
    cases hfront
  · rw [hmark] at hfront
    cases hfront

theorem expectation_injective : expectation.Injective := by
  intro p q h
  cases p with
  | literal wanted =>
    cases q with
    | literal other => rw [Text.quoted_injective h]
    | pattern source => exact absurd h (expectation_literal_ne_pattern wanted source)
  | pattern source =>
    cases q with
    | literal wanted => exact absurd h.symm (expectation_literal_ne_pattern wanted source)
    | pattern other =>
      have htexts := congrArg String.toList h
      rw [toList_expectation_pattern, toList_expectation_pattern] at htexts
      have hsource := List.append_cancel_right (List.cons.inj htexts).2
      rw [String.toList_inj.mp hsource]

/-! ### Failures -/

/-- A primitive that misses fails and lists itself. -/
theorem parser_of_misses {scan : String → Text → Option (Text × Text)} {text : Text}
    {p : Primitive} (h : p.Misses scan text) :
    ∃ message, (p.parser scan : Parser m Text) text =
      pure (.failure ⟨message, [p.expectation], some text⟩) := by
  cases p with
  | literal wanted =>
    have hmissing : ∀ rest, text ≠ wanted ++ rest := by
      rintro rest rfl
      exact h (List.prefix_append _ _)
    exact ⟨_, Parser.literal_fails hmissing⟩
  | pattern source =>
    have hnone : scan source text = none := h
    refine ⟨"No match for regex: " ++ source, ?_⟩
    rw [parser, Parser.matching, hnone]
    rfl

/-- Primitives that all miss fail with failures that list them one after another. -/
theorem failures_of_misses {scan : String → Text → Option (Text × Text)} {text : Text}
    {primitives : List Primitive} (h : ∀ p ∈ primitives, p.Misses scan text) :
    ∃ failures, List.Forall₂ (fun (q : Parser m Text) failure => q text = pure (.failure failure))
        (primitives.map (·.parser scan)) failures ∧
      failures.flatMap (·.expected) = primitives.map expectation := by
  induction primitives with
  | nil => exact ⟨[], .nil, rfl⟩
  | cons p primitives ih =>
    obtain ⟨failures, hfail, hlisted⟩ := ih fun q hq => h q (List.mem_cons_of_mem _ hq)
    obtain ⟨message, hfirst⟩ := parser_of_misses (m := m) (h p List.mem_cons_self)
    exact ⟨_ :: failures, .cons hfirst hfail, by rw [List.flatMap_cons, hlisted]; rfl⟩

theorem eraseDups_map_expectation (primitives : List Primitive) :
    (primitives.map expectation).eraseDups = primitives.eraseDups.map expectation := by
  induction primitives using List.reverseRecOn with
  | nil => rfl
  | append_singleton primitives p ih =>
    rw [List.map_append, List.map_singleton]
    by_cases hmem : p ∈ primitives
    · rw [Failure.eraseDups_concat_of_mem hmem,
        Failure.eraseDups_concat_of_mem (List.mem_map_of_mem hmem), ih]
    · have hnew : p.expectation ∉ primitives.map expectation := by
        rwa [List.mem_map_of_injective expectation_injective]
      rw [Failure.eraseDups_concat_of_notMem hmem, Failure.eraseDups_concat_of_notMem hnew, ih,
        List.map_append, List.map_singleton]

/-- Merged failures list each of the primitives that they listed once, as long as it is the same. -/
theorem expected_merge {failures : List Failure} {primitives : List Primitive} (text : Text)
    (h : failures.flatMap (·.expected) = primitives.map expectation) :
    (Failure.merge text failures).expected = primitives.eraseDups.map expectation := by
  rw [Failure.merge, h, eraseDups_map_expectation]

theorem oneOf_of_misses [LawfulMonad m] {scan : String → Text → Option (Text × Text)} {text : Text}
    {primitives : List Primitive} (h : ∀ p ∈ primitives, p.Misses scan text) :
    ∃ why, (Parser.oneOf (primitives.map (·.parser scan)) : Parser m Text) text =
        pure (.failure why) ∧ why.expected = primitives.eraseDups.map expectation := by
  obtain ⟨failures, hfail, hlisted⟩ := failures_of_misses (m := m) h
  have hchoice := (Parser.failInTurn_of_pure hfail (pure ())).oneOf_failure
  rw [Parser.comesTo_pure_iff, pure_bind] at hchoice
  exact ⟨_, hchoice, expected_merge text hlisted⟩

theorem message_trailingFailure_injective {rest rest' : Text}
    (h : (Grammar.trailingFailure rest).message = (Grammar.trailingFailure rest').message) :
    rest = rest' := by
  have hquoted : ∀ front : String, front ++ Text.quoted rest = front ++ Text.quoted rest' →
      Text.quoted rest = Text.quoted rest' := by
    intro front hfront
    have htexts := congrArg String.toList hfront
    rw [String.toList_append, String.toList_append] at htexts
    exact String.toList_inj.mp (List.append_cancel_left htexts)
  exact Text.quoted_injective (hquoted _ h)

/-- Different primitives have different expectations. A primitive that misses lists its own, so that
failures that are merged, those of a choice in particular, lose none but repeated ones. In the same
way the text left over can be told from the message about it. -/
theorem expectations_identify_primitives [LawfulMonad m]
    (scan : String → Text → Option (Text × Text)) :
    Function.Injective expectation ∧
    (∀ (p : Primitive) (text : Text), p.Misses scan text → ∃ message,
      (p.parser scan : Parser m Text) text =
        pure (.failure ⟨message, [p.expectation], some text⟩)) ∧
    (∀ (text : Text) (failures : List Failure) (primitives : List Primitive),
      failures.flatMap (·.expected) = primitives.map expectation →
      (Failure.merge text failures).expected = primitives.eraseDups.map expectation) ∧
    (∀ (text : Text) (primitives : List Primitive), (∀ p ∈ primitives, p.Misses scan text) → ∃ why,
      (Parser.oneOf (primitives.map (·.parser scan)) : Parser m Text) text =
        pure (.failure why) ∧ why.expected = primitives.eraseDups.map expectation) ∧
    ∀ rest rest' : Text, (Grammar.trailingFailure rest).message =
      (Grammar.trailingFailure rest').message → rest = rest' :=
  ⟨expectation_injective, fun _ _ => parser_of_misses, fun text _ _ => expected_merge text,
    fun _ _ => oneOf_of_misses, fun _ _ => message_trailingFailure_injective⟩

/-- Both quotes, each between the other, and a pattern: four alternatives and three expectations. -/
theorem expectations_identify_primitives_quotes :
    (∀ p ∈ [literal ['\''], literal ['"'], pattern "\\d+", literal ['\'']],
      p.Misses (fun source text => (Pattern.read? source.toList).bind (·.match? text)) ['x']) ∧
    ∃ why, (Parser.oneOf ([literal ['\''], literal ['"'], pattern "\\d+", literal ['\'']].map
        (·.parser fun source text => (Pattern.read? source.toList).bind (·.match? text))) :
          Parser Id Text) ['x'] = .failure why ∧
      why.expected = ["\"'\"", "'\"'", "/\\d+/"] := by
  have hmisses : ∀ p ∈ [literal ['\''], literal ['"'], pattern "\\d+", literal ['\'']],
      p.Misses (fun source text => (Pattern.read? source.toList).bind (·.match? text)) ['x'] := by
    decide +kernel
  obtain ⟨-, -, -, hchoice, -⟩ := expectations_identify_primitives (m := Id)
    fun source text => (Pattern.read? source.toList).bind (·.match? text)
  exact ⟨hmisses, hchoice _ _ hmisses⟩

end Primitive

end Reckoner
