import Mathlib.Data.List.Forall2
import Reckoner.Parsing.Parser
/-!
# What a parser can come to

A parser runs in some monad, and all that most facts about it need is which outcomes a run can end
in. `Gives` says so through `MonadAttach.CanReturn`: in `Id` it is the outcome itself, in `Option`
the one that is there, and in a monad with state and exceptions the one that some state leads to
without an exception. Each combinator has one lemma that traces an outcome of the whole back to
outcomes of its operands, and one that says on which texts its operands matter.
-/

namespace Reckoner.Parser

open MonadAttach LawfulMonadAttach

variable {m : Type → Type} [MonadAttach m] {α β : Type}

/-- Some run of the parser on the text ends in the outcome. -/
def Gives (p : Parser m α) (text : Text) (outcome : Outcome α) : Prop :=
  CanReturn (p text) outcome

theorem exists_failure_of_mem {alternatives : List (Parser m α)} {failures : List Failure}
    {text : Text}
    (h : List.Forall₂ (fun q failure => q.Gives text (.failure failure)) alternatives failures) :
    ∀ p ∈ alternatives, ∃ failure ∈ failures, p.Gives text (.failure failure) := by
  induction h with
  | nil => simp
  | cons hfirst _ ih =>
    intro p hp
    rcases List.mem_cons.mp hp with rfl | hp
    · exact ⟨_, List.mem_cons_self, hfirst⟩
    · obtain ⟨failure, hmem, hgives⟩ := ih p hp
      exact ⟨failure, List.mem_cons_of_mem _ hmem, hgives⟩

theorem exists_alternative_of_mem {alternatives : List (Parser m α)} {failures : List Failure}
    {text : Text}
    (h : List.Forall₂ (fun q failure => q.Gives text (.failure failure)) alternatives failures) :
    ∀ failure ∈ failures, ∃ p ∈ alternatives, p.Gives text (.failure failure) := by
  induction h with
  | nil => simp
  | cons hfirst _ ih =>
    intro failure hfailure
    rcases List.mem_cons.mp hfailure with rfl | hfailure
    · exact ⟨_, List.mem_cons_self, hfirst⟩
    · obtain ⟨p, hmem, hgives⟩ := ih failure hfailure
      exact ⟨p, List.mem_cons_of_mem _ hmem, hgives⟩

variable [Monad m]

/-- An outcome that is given without effects is the only one. -/
theorem eq_of_gives_pure [LawfulMonad m] [LawfulMonadAttach m] {p : Parser m α} {text : Text}
    {given outcome : Outcome α} (hpure : p text = pure given) (h : p.Gives text outcome) :
    outcome = given := by
  rw [Gives, hpure] at h
  exact (eq_of_canReturn_pure h).symm

/-! ### Outcomes of the combinators -/

section

variable [LawfulMonad m] [LawfulMonadAttach m] {p q : Parser m α} {text : Text}

theorem gives_succeed {value : α} {outcome : Outcome α}
    (h : (succeed value : Parser m α).Gives text outcome) : outcome = .success value text :=
  eq_of_gives_pure rfl h

theorem gives_fail {failure : Failure} {outcome : Outcome α}
    (h : (fail failure : Parser m α).Gives text outcome) : outcome = .failure failure :=
  eq_of_gives_pure rfl h

theorem gives_andThen {next : α → Parser m β} {outcome : Outcome β}
    (h : (p.andThen next).Gives text outcome) :
    (∃ value rest, p.Gives text (.success value rest) ∧ (next value).Gives rest outcome) ∨
      ∃ failure, p.Gives text (.failure failure) ∧ outcome = .failure failure := by
  obtain ⟨first, hfirst, hthen⟩ := canReturn_bind_imp' h
  cases first with
  | success value rest => exact .inl ⟨value, rest, hfirst, hthen⟩
  | failure failure => exact .inr ⟨failure, hfirst, (eq_of_canReturn_pure hthen).symm⟩

theorem gives_orElse {outcome : Outcome α} (h : (p.orElse q).Gives text outcome) :
    (∃ value rest, p.Gives text (.success value rest) ∧ outcome = .success value rest) ∨
      ∃ failure, p.Gives text (.failure failure) ∧ q.Gives text outcome := by
  obtain ⟨first, hfirst, hthen⟩ := canReturn_bind_imp' h
  cases first with
  | success value rest => exact .inl ⟨value, rest, hfirst, (eq_of_canReturn_pure hthen).symm⟩
  | failure failure => exact .inr ⟨failure, hfirst, hthen⟩

theorem gives_orElse_success {value : α} {rest : Text}
    (h : (p.orElse q).Gives text (.success value rest)) :
    p.Gives text (.success value rest) ∨ q.Gives text (.success value rest) := by
  rcases gives_orElse h with ⟨_, _, hfirst, heq⟩ | ⟨_, -, hsecond⟩
  · rw [heq]
    exact .inl hfirst
  · exact .inr hsecond

theorem gives_map {f : α → β} {outcome : Outcome β} (h : (p.map f).Gives text outcome) :
    ∃ first, p.Gives text first ∧ outcome = first.map f := by
  obtain ⟨first, hfirst, hthen⟩ := canReturn_bind_imp' h
  exact ⟨first, hfirst, (eq_of_canReturn_pure hthen).symm⟩

theorem gives_map_success {f : α → β} {result : β} {rest : Text}
    (h : (p.map f).Gives text (.success result rest)) :
    ∃ value, p.Gives text (.success value rest) ∧ result = f value := by
  obtain ⟨first, hfirst, heq⟩ := gives_map h
  cases first with
  | success value left =>
    obtain ⟨rfl, rfl⟩ := Outcome.success.inj heq
    exact ⟨value, hfirst, rfl⟩
  | failure why => cases heq

theorem gives_map_failure {f : α → β} {failure : Failure}
    (h : (p.map f).Gives text (.failure failure)) : p.Gives text (.failure failure) := by
  obtain ⟨first, hfirst, heq⟩ := gives_map h
  cases first with
  | success value rest => cases heq
  | failure why =>
    obtain rfl := Outcome.failure.inj heq
    exact hfirst

theorem gives_filter {accepts : α → Bool} {message : String} {outcome : Outcome α}
    (h : (p.filter accepts message).Gives text outcome) :
    p.Gives text outcome ∧ (∀ value rest, outcome = .success value rest → accepts value) ∨
      ∃ value rest, p.Gives text (.success value rest) ∧ accepts value = false ∧
        outcome = .failure ⟨message, [], some text⟩ := by
  obtain ⟨first, hfirst, hthen⟩ := canReturn_bind_imp' h
  cases first with
  | failure failure =>
    have heq := eq_of_canReturn_pure hthen
    subst heq
    exact .inl ⟨hfirst, by simp⟩
  | success value rest =>
    by_cases haccepts : accepts value
    · simp only [if_pos haccepts] at hthen
      have heq := eq_of_canReturn_pure hthen
      subst heq
      refine .inl ⟨hfirst, fun other left hother => ?_⟩
      cases hother
      exact haccepts
    · simp only [if_neg haccepts] at hthen
      exact .inr ⟨value, rest, hfirst, by simpa using haccepts, (eq_of_canReturn_pure hthen).symm⟩

/-- What the alternatives left to try can come to: the success of one after the failures of those
before it, or all their failures. The failures before them are only passed on to be merged. -/
theorem canReturn_attempt {alternatives : List (Parser m α)} {failures : List Failure}
    {outcome : Outcome α} (h : CanReturn (oneOf.attempt text failures alternatives) outcome) :
    (∃ before p after, alternatives = before ++ p :: after ∧
      (∀ q ∈ before, ∃ failure, q.Gives text (.failure failure)) ∧
      ∃ value rest, p.Gives text (.success value rest) ∧ outcome = .success value rest) ∨
      ∃ further,
        List.Forall₂ (fun q failure => q.Gives text (.failure failure)) alternatives further ∧
        outcome = .failure (.merge text (failures ++ further)) := by
  induction alternatives generalizing failures with
  | nil => exact .inr ⟨[], .nil, by simpa using (eq_of_canReturn_pure h).symm⟩
  | cons p alternatives ih =>
    obtain ⟨first, hfirst, hthen⟩ := canReturn_bind_imp' h
    cases first with
    | success value rest =>
      exact .inl ⟨[], p, alternatives, rfl, by simp, value, rest, hfirst,
        (eq_of_canReturn_pure hthen).symm⟩
    | failure failure =>
      rcases ih hthen with
        ⟨before, q, after, rfl, hbefore, hsuccess⟩ | ⟨further, hfurther, houtcome⟩
      · refine .inl ⟨p :: before, q, after, rfl, ?_, hsuccess⟩
        intro other hother
        rcases List.mem_cons.mp hother with rfl | hother
        · exact ⟨failure, hfirst⟩
        · exact hbefore other hother
      · exact .inr ⟨failure :: further, .cons hfirst hfurther, by simpa using houtcome⟩

theorem gives_oneOf {alternatives : List (Parser m α)} {outcome : Outcome α}
    (h : (oneOf alternatives).Gives text outcome) :
    (∃ before p after, alternatives = before ++ p :: after ∧
      (∀ q ∈ before, ∃ failure, q.Gives text (.failure failure)) ∧
      ∃ value rest, p.Gives text (.success value rest) ∧ outcome = .success value rest) ∨
      ∃ failures,
        List.Forall₂ (fun q failure => q.Gives text (.failure failure)) alternatives failures ∧
        outcome = .failure (.merge text failures) :=
  canReturn_attempt h

end

/-! ### Where the operands matter

Two runs that can only reach the same texts are the same, so an operand may be exchanged for one
that behaves alike on those texts. -/

section

variable [LawfulMonad m] [WeaklyLawfulMonadAttach m] {p q : Parser m α} {text : Text}

theorem bind_congr_of_canReturn {x : m α} {f g : α → m β} (h : ∀ a, CanReturn x a → f a = g a) :
    x >>= f = x >>= g := by
  rw [← WeaklyLawfulMonadAttach.attach_bind_val (f := f),
    ← WeaklyLawfulMonadAttach.attach_bind_val (f := g)]
  exact congrArg _ (funext fun a => h a.val a.property)

theorem andThen_congr {next following : α → Parser m β} (hfirst : p text = q text)
    (hnext : ∀ value rest, p.Gives text (.success value rest) →
      next value rest = following value rest) :
    (p.andThen next) text = (q.andThen following) text := by
  rw [andThen, andThen, ← hfirst]
  refine bind_congr_of_canReturn fun first hgives => ?_
  cases first with
  | success value rest => exact hnext value rest hgives
  | failure failure => rfl

end

/-! ### Literals and scanners -/

theorem stripped?_eq_some_iff {wanted text rest : Text} :
    literal.stripped? wanted text = some rest ↔ text = wanted ++ rest := by
  induction wanted generalizing text with
  | nil => simp [literal.stripped?]
  | cons c wanted ih =>
    cases text with
    | nil => simp [literal.stripped?]
    | cons d text =>
      by_cases hcd : c = d
      · simp [literal.stripped?, hcd, ih]
      · simp [literal.stripped?, hcd, Ne.symm hcd]

omit [MonadAttach m] in
theorem literal_fails {wanted text : Text} (h : ∀ rest, text ≠ wanted ++ rest) :
    (literal wanted : Parser m Text) text = pure (.failure
      ⟨"Expected literal: " ++ String.ofList wanted, [Text.quoted wanted], some text⟩) := by
  have hstripped : literal.stripped? wanted text = none := by
    rw [Option.eq_none_iff_forall_ne_some]
    exact fun rest hrest => h rest (stripped?_eq_some_iff.mp hrest)
  rw [literal, hstripped]

theorem gives_literal [LawfulMonad m] [LawfulMonadAttach m] {wanted text : Text}
    {outcome : Outcome Text} (h : (literal wanted : Parser m Text).Gives text outcome) :
    (∃ rest, text = wanted ++ rest ∧ outcome = .success wanted rest) ∨
      (∀ rest, text ≠ wanted ++ rest) ∧ outcome = .failure
        ⟨"Expected literal: " ++ String.ofList wanted, [Text.quoted wanted], some text⟩ := by
  have houtcome := eq_of_gives_pure rfl h
  cases hstripped : literal.stripped? wanted text with
  | some rest =>
    rw [hstripped] at houtcome
    exact .inl ⟨rest, stripped?_eq_some_iff.mp hstripped, houtcome⟩
  | none =>
    rw [hstripped] at houtcome
    refine .inr ⟨fun rest htext => ?_, houtcome⟩
    rw [stripped?_eq_some_iff.mpr htext] at hstripped
    cases hstripped

theorem gives_literal_success [LawfulMonad m] [LawfulMonadAttach m] {wanted text found rest : Text}
    (h : (literal wanted : Parser m Text).Gives text (.success found rest)) :
    text = wanted ++ rest := by
  rcases gives_literal h with ⟨left, htext, heq⟩ | ⟨-, heq⟩
  · obtain ⟨-, rfl⟩ := Outcome.success.inj heq
    exact htext
  · cases heq

theorem gives_literal_failure [LawfulMonad m] [LawfulMonadAttach m] {wanted text : Text}
    {failure : Failure} (h : (literal wanted : Parser m Text).Gives text (.failure failure)) :
    (∀ rest, text ≠ wanted ++ rest) ∧ failure =
      ⟨"Expected literal: " ++ String.ofList wanted, [Text.quoted wanted], some text⟩ := by
  rcases gives_literal h with ⟨left, -, heq⟩ | ⟨hnot, heq⟩
  · cases heq
  · exact ⟨hnot, Outcome.failure.inj heq⟩

theorem gives_matching [LawfulMonad m] [LawfulMonadAttach m] {description : String}
    {scan : Text → Option (α × Text)} {text : Text} {outcome : Outcome α}
    (h : (matching description scan : Parser m α).Gives text outcome) :
    (∃ value rest, scan text = some (value, rest) ∧ outcome = .success value rest) ∨
      scan text = none ∧ outcome = .failure
        ⟨"No match for regex: " ++ description, ["/" ++ description ++ "/"], some text⟩ := by
  have houtcome := eq_of_gives_pure rfl h
  cases hscan : scan text with
  | some found =>
    rw [hscan] at houtcome
    exact .inl ⟨found.1, found.2, rfl, houtcome⟩
  | none =>
    rw [hscan] at houtcome
    exact .inr ⟨rfl, houtcome⟩

end Reckoner.Parser
