import Mathlib.Data.List.Forall2
import Reckoner.Parsing.Parser
/-!
# Texts that parsers take alike

Two runs of a parser on texts that resemble each other are followed side by side. The parser takes
the texts alike if both runs succeed with the same value, or both fail with the same words, or both
give up, and the texts they leave resemble each other again. Every combinator keeps this. All it
needs of the resemblance is that texts that resemble each other have the same length, since that is
how the furthest of several failures is chosen.
-/

namespace Reckoner

variable {α β : Type} {Resembles : Text → Text → Prop}

/-- The same words, about texts that resemble each other. -/
structure Failure.Alike (Resembles : Text → Text → Prop) (why why' : Failure) : Prop where
  message : why.message = why'.message
  expected : why.expected = why'.expected
  remaining : Option.Rel Resembles why.remaining why'.remaining

/-- The same value or the same words, and texts that resemble each other. -/
inductive Outcome.Alike (Resembles : Text → Text → Prop) : Outcome α → Outcome α → Prop where
  | success {value : α} {rest rest' : Text} (h : Resembles rest rest') :
      Alike Resembles (.success value rest) (.success value rest')
  | failure {why why' : Failure} (h : why.Alike Resembles why') :
      Alike Resembles (.failure why) (.failure why')

/-! ### The furthest of several failures -/

theorem Failure.shortest?_alike
    (hlength : ∀ {text text'}, Resembles text text' → text.length = text'.length)
    {texts texts' : List Text} (h : List.Forall₂ Resembles texts texts') :
    Option.Rel Resembles (shortest? texts) (shortest? texts') := by
  induction h with
  | nil => exact .none
  | cons hfirst hrest ih =>
    rw [shortest?, shortest?]
    generalize shortest? _ = shortest at ih ⊢
    generalize shortest? _ = shortest' at ih ⊢
    cases ih with
    | none => exact .some hfirst
    | some hother =>
      simp only [hlength hfirst, hlength hother]
      split
      · exact .some hother
      · exact .some hfirst

/-- Failures that are alike one by one are merged alike. -/
theorem Failure.merge_alike
    (hlength : ∀ {text text'}, Resembles text text' → text.length = text'.length)
    {text text' : Text} (htext : Resembles text text') {failures failures' : List Failure}
    (h : List.Forall₂ (Alike Resembles) failures failures') :
    (merge text failures).Alike Resembles (merge text' failures') where
  message := rfl
  expected := by
    have hexpected : failures.flatMap (·.expected) = failures'.flatMap (·.expected) := by
      induction h with
      | nil => rfl
      | cons hfirst _ ih => rw [List.flatMap_cons, List.flatMap_cons, hfirst.expected, ih]
    rw [merge, merge, hexpected]
  remaining := by
    have hpoints : List.Forall₂ Resembles (failures.filterMap (·.remaining))
        (failures'.filterMap (·.remaining)) := by
      induction h with
      | nil => exact .nil
      | @cons why why' failures failures' hfirst _ ih =>
        rw [List.filterMap_cons, List.filterMap_cons]
        have hpoint := hfirst.remaining
        generalize why.remaining = point at hpoint ⊢
        generalize why'.remaining = point' at hpoint ⊢
        cases hpoint with
        | none => exact ih
        | some hresembles => exact .cons hresembles ih
    rw [merge, merge]
    have hshortest := shortest?_alike hlength hpoints
    generalize shortest? _ = shortest at hshortest ⊢
    generalize shortest? _ = shortest' at hshortest ⊢
    cases hshortest with
    | none => exact .some htext
    | some hresembles => exact .some hresembles

/-! ### Parsers -/

namespace Parser

/-- Runs on texts that resemble each other are alike, or both give up. -/
def TakesAlike (Resembles : Text → Text → Prop) (p : Parser Option α) : Prop :=
  ∀ text text', Resembles text text' →
    Option.Rel (Outcome.Alike Resembles) (p text) (p text')

theorem rel_bind {S : Outcome α → Outcome α → Prop} {T : Outcome β → Outcome β → Prop}
    {x x' : Option (Outcome α)} {f f' : Outcome α → Option (Outcome β)} (hx : Option.Rel S x x')
    (hf : ∀ first first', S first first' → Option.Rel T (f first) (f' first')) :
    Option.Rel T (x >>= f) (x' >>= f') := by
  cases hx with
  | none => exact .none
  | some hfirst => exact hf _ _ hfirst

namespace TakesAlike

variable {p q : Parser Option α}

theorem succeed (value : α) : TakesAlike Resembles (Parser.succeed value) :=
  fun _ _ h => .some (.success h)

theorem literal {wanted : Text} (hwanted : ∀ text text', Resembles text text' →
    Option.Rel Resembles (literal.stripped? wanted text) (literal.stripped? wanted text')) :
    TakesAlike Resembles (Parser.literal wanted) := by
  intro text text' h
  have hstripped := hwanted text text' h
  rw [Parser.literal, Parser.literal]
  generalize literal.stripped? wanted text = left at hstripped ⊢
  generalize literal.stripped? wanted text' = left' at hstripped ⊢
  cases hstripped with
  | none => exact .some (.failure ⟨rfl, rfl, .some h⟩)
  | some hrest => exact .some (.success hrest)

theorem matching (description : String) {scan : Text → Option (α × Text)}
    (hscan : ∀ text text', Resembles text text' →
      Option.Rel (fun found found' => found.1 = found'.1 ∧ Resembles found.2 found'.2)
        (scan text) (scan text')) :
    TakesAlike Resembles (Parser.matching description scan) := by
  intro text text' h
  have hfound := hscan text text' h
  rw [Parser.matching, Parser.matching]
  generalize scan text = found at hfound ⊢
  generalize scan text' = found' at hfound ⊢
  cases hfound with
  | none => exact .some (.failure ⟨rfl, rfl, .some h⟩)
  | @some a a' hboth =>
    obtain ⟨value, rest⟩ := a
    obtain ⟨value', rest'⟩ := a'
    obtain ⟨rfl, hrest⟩ := hboth
    exact .some (.success hrest)

theorem andThen {next : α → Parser Option β} (hp : TakesAlike Resembles p)
    (hnext : ∀ value, TakesAlike Resembles (next value)) :
    TakesAlike Resembles (p.andThen next) := by
  intro text text' h
  refine rel_bind (hp text text' h) fun first first' halike => ?_
  cases halike with
  | success hrest => exact hnext _ _ _ hrest
  | failure hwhy => exact .some (.failure hwhy)

theorem orElse (hp : TakesAlike Resembles p) (hq : TakesAlike Resembles q) :
    TakesAlike Resembles (p.orElse q) := by
  intro text text' h
  refine rel_bind (hp text text' h) fun first first' halike => ?_
  cases halike with
  | success hrest => exact .some (.success hrest)
  | failure _ => exact hq text text' h

theorem map (hp : TakesAlike Resembles p) (f : α → β) : TakesAlike Resembles (p.map f) := by
  intro text text' h
  refine rel_bind (hp text text' h) fun first first' halike => ?_
  cases halike with
  | success hrest => exact .some (.success hrest)
  | failure hwhy => exact .some (.failure hwhy)

theorem filter (hp : TakesAlike Resembles p) (accepts : α → Bool) (message : String) :
    TakesAlike Resembles (p.filter accepts message) := by
  intro text text' h
  refine rel_bind (hp text text' h) fun first first' halike => ?_
  cases halike with
  | @success value rest rest' hrest =>
    by_cases haccepts : accepts value = true
    · simp only [haccepts, if_true]
      exact .some (.success hrest)
    · simp only [haccepts]
      exact .some (.failure ⟨rfl, rfl, .some h⟩)
  | failure hwhy => exact .some (.failure hwhy)

theorem attempt (hlength : ∀ {text text'}, Resembles text text' → text.length = text'.length)
    {alternatives : List (Parser Option α)} (hall : ∀ p ∈ alternatives, TakesAlike Resembles p)
    {text text' : Text} (h : Resembles text text') {failures failures' : List Failure}
    (hfailures : List.Forall₂ (Failure.Alike Resembles) failures failures') :
    Option.Rel (Outcome.Alike Resembles) (oneOf.attempt text failures alternatives)
      (oneOf.attempt text' failures' alternatives) := by
  induction alternatives generalizing failures failures' with
  | nil => exact .some (.failure (Failure.merge_alike hlength h hfailures))
  | cons p alternatives ih =>
    refine rel_bind (hall p List.mem_cons_self text text' h) fun first first' halike => ?_
    cases halike with
    | success hrest => exact .some (.success hrest)
    | failure hwhy =>
      refine ih (fun q hq => hall q (List.mem_cons_of_mem _ hq)) ?_
      exact List.rel_append hfailures (.cons hwhy .nil)

theorem oneOf (hlength : ∀ {text text'}, Resembles text text' → text.length = text'.length)
    {alternatives : List (Parser Option α)} (hall : ∀ p ∈ alternatives, TakesAlike Resembles p) :
    TakesAlike Resembles (Parser.oneOf alternatives) :=
  fun _ _ h => attempt hlength hall h .nil

end TakesAlike

end Parser

end Reckoner
