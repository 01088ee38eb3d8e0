import Reckoner.Proofs.Parsing.Returns
/-!
# Parsers stay within their text

What a step leaves, and where it says that it failed, are suffixes of the text it was given. Every
combinator keeps this, whatever its operands do otherwise. The one thing that breaks it is a failure
made by hand, which may point anywhere or nowhere; what a success leaves is not affected by those.
-/

namespace Reckoner

/-- The outcome of a step lies within its text. A failure made by hand is let pass if there may be
any. -/
def Outcome.Within {α : Type} (handMade : Bool) (text : Text) : Outcome α → Prop
  | success _ rest => rest <:+ text
  | failure why => handMade = true ∨ ∃ unread, why.remaining = some unread ∧ unread <:+ text

namespace Outcome.Within

variable {α β : Type} {handMade : Bool} {text : Text}

theorem of_suffix {rest : Text} {outcome : Outcome α} (h : outcome.Within handMade rest)
    (hrest : rest <:+ text) : outcome.Within handMade text := by
  cases outcome with
  | success value left => exact List.IsSuffix.trans h hrest
  | failure why =>
    rcases h with hmade | ⟨unread, hremaining, hunread⟩
    · exact .inl hmade
    · exact .inr ⟨unread, hremaining, hunread.trans hrest⟩

theorem map {outcome : Outcome α} (h : outcome.Within handMade text) (f : α → β) :
    (outcome.map f).Within handMade text := by
  cases outcome with
  | success value rest => exact h
  | failure why => exact h

/-- A failure says the same whatever the step was to give. -/
theorem failure_cast {why : Failure} (h : (.failure why : Outcome α).Within handMade text) :
    (.failure why : Outcome β).Within handMade text := h

theorem of_remaining {message : String} {expected : List String} :
    (.failure ⟨message, expected, some text⟩ : Outcome α).Within handMade text :=
  .inr ⟨text, rfl, List.suffix_rfl⟩

end Outcome.Within

/-! ### The furthest point of several failures -/

theorem Failure.mem_of_shortest? {texts : List Text} {text : Text}
    (h : Failure.shortest? texts = some text) : text ∈ texts := by
  induction texts generalizing text with
  | nil => simp [shortest?] at h
  | cons first texts ih =>
    rw [shortest?] at h
    cases hothers : shortest? texts with
    | none =>
      simp only [hothers, Option.some.injEq] at h
      simp [h]
    | some other =>
      simp only [hothers] at h
      split at h
      · exact List.mem_cons_of_mem _ (ih (hothers.trans h))
      · simp only [Option.some.injEq] at h
        simp [h]

theorem Failure.merge_within {α : Type} {handMade : Bool} {text : Text} {failures : List Failure}
    (h : ∀ failure ∈ failures, (.failure failure : Outcome α).Within handMade text) :
    (.failure (merge text failures) : Outcome α).Within handMade text := by
  cases hshortest : shortest? (failures.filterMap (·.remaining)) with
  | none => exact .inr ⟨text, by simp [merge, hshortest], List.suffix_rfl⟩
  | some unread =>
    have hremaining : (merge text failures).remaining = some unread := by simp [merge, hshortest]
    obtain ⟨failure, hmem, hunread⟩ := List.mem_filterMap.mp (mem_of_shortest? hshortest)
    rcases h failure hmem with hmade | ⟨point, hpoint, hsuffix⟩
    · exact .inl hmade
    · rw [hunread, Option.some.injEq] at hpoint
      subst hpoint
      exact .inr ⟨unread, hremaining, hsuffix⟩

namespace Parser

variable {m : Type → Type} [Monad m] [MonadAttach m] {α β : Type}

/-- Whatever a run of the parser on a text comes to lies within the text. -/
def StaysWithin (handMade : Bool) (p : Parser m α) : Prop :=
  ∀ text outcome, p.Gives text outcome → outcome.Within handMade text

namespace StaysWithin

variable [LawfulMonad m] [LawfulMonadAttach m] {handMade : Bool} {p q : Parser m α}

theorem succeed (value : α) : (Parser.succeed value : Parser m α).StaysWithin handMade := by
  intro text outcome hgives
  rw [gives_succeed hgives]
  exact List.suffix_rfl

theorem fail (hmade : handMade = true) (failure : Failure) :
    (Parser.fail failure : Parser m α).StaysWithin handMade := by
  intro text outcome hgives
  rw [gives_fail hgives]
  exact .inl hmade

theorem literal (wanted : Text) : (Parser.literal wanted : Parser m Text).StaysWithin handMade := by
  intro text outcome hgives
  rcases gives_literal hgives with ⟨rest, htext, rfl⟩ | ⟨-, rfl⟩
  · exact ⟨wanted, htext.symm⟩
  · exact .of_remaining

theorem matching (description : String) {scan : Text → Option (α × Text)}
    (hscan : ∀ text value rest, scan text = some (value, rest) → rest <:+ text) :
    (Parser.matching description scan : Parser m α).StaysWithin handMade := by
  intro text outcome hgives
  rcases gives_matching hgives with ⟨value, rest, hfound, rfl⟩ | ⟨-, rfl⟩
  · exact hscan text value rest hfound
  · exact .of_remaining

theorem andThen {next : α → Parser m β} (hp : p.StaysWithin handMade)
    (hnext : ∀ value, (next value).StaysWithin handMade) :
    (p.andThen next).StaysWithin handMade := by
  intro text outcome hgives
  rcases gives_andThen hgives with ⟨value, rest, hfirst, hthen⟩ | ⟨failure, hfirst, rfl⟩
  · exact (hnext value rest outcome hthen).of_suffix (hp text _ hfirst)
  · exact (hp text _ hfirst).failure_cast

theorem orElse (hp : p.StaysWithin handMade) (hq : q.StaysWithin handMade) :
    (p.orElse q).StaysWithin handMade := by
  intro text outcome hgives
  rcases gives_orElse hgives with ⟨value, rest, hfirst, rfl⟩ | ⟨failure, -, hsecond⟩
  · exact hp text _ hfirst
  · exact hq text outcome hsecond

theorem map (hp : p.StaysWithin handMade) (f : α → β) : (p.map f).StaysWithin handMade := by
  intro text outcome hgives
  obtain ⟨first, hfirst, rfl⟩ := gives_map hgives
  exact (hp text first hfirst).map f

theorem filter (hp : p.StaysWithin handMade) (accepts : α → Bool) (message : String) :
    (p.filter accepts message).StaysWithin handMade := by
  intro text outcome hgives
  rcases gives_filter hgives with ⟨hfirst, -⟩ | ⟨-, -, -, -, rfl⟩
  · exact hp text outcome hfirst
  · exact .of_remaining

theorem oneOf {alternatives : List (Parser m α)}
    (hall : ∀ p ∈ alternatives, p.StaysWithin handMade) :
    (Parser.oneOf alternatives).StaysWithin handMade := by
  intro text outcome hgives
  rcases gives_oneOf hgives with
    ⟨before, p, after, rfl, -, value, rest, hfirst, rfl⟩ | ⟨failures, hfailures, rfl⟩
  · exact hall p (by simp) text _ hfirst
  · refine Failure.merge_within fun failure hmem => ?_
    obtain ⟨p, hp, hfailed⟩ := exists_alternative_of_mem hfailures failure hmem
    exact hall p hp text _ hfailed

end StaysWithin

end Parser

end Reckoner
