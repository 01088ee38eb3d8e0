import Reckoner.Proofs.Parsing.Merging
import Reckoner.Recipe.Session

/-!
# Choices among parsers

A choice runs its alternatives on its own text, one after another, up to the first that succeeds. To
say which of them are run, runs are compared by their effects: what a run does after some history is
to extend the history, and the history behind a success is the one that the successful alternative
left, whatever alternatives come later. A choice inside another is run where it stands, so the same
alternatives are tried in the same order as without it, and their failures are merged in stages.
-/

namespace Reckoner.Parser

section

variable {m : Type → Type} [Monad m] {α : Type} {text : Text} {p : Parser m α}
  {history reached : m Unit} {outcome : Outcome α}

/-- After a history, a run of the parser on the text ends in the outcome, and the history is then
the one reached. -/
def ComesTo (p : Parser m α) (text : Text) (history : m Unit) (outcome : Outcome α)
    (reached : m Unit) : Prop :=
  (history >>= fun _ => p text) = reached >>= fun _ => pure outcome

/-- After a history, the parsers fail on the text, each after those before it. -/
inductive FailInTurn (text : Text) :
    (history : m Unit) → List (Parser m α) → List Failure → (reached : m Unit) → Prop
  | nil (history : m Unit) : FailInTurn text history [] [] history
  | cons {history next reached : m Unit} {p : Parser m α} {alternatives : List (Parser m α)}
      {failure : Failure} {failures : List Failure} :
      p.ComesTo text history (.failure failure) next →
      FailInTurn text next alternatives failures reached →
      FailInTurn text history (p :: alternatives) (failure :: failures) reached

/-- A run without effects leaves the history as it is. -/
theorem comesTo_of_pure (h : p text = pure outcome) (history : m Unit) :
    p.ComesTo text history outcome history := by
  rw [ComesTo, h]

theorem failInTurn_of_pure {alternatives : List (Parser m α)} {failures : List Failure}
    (h : List.Forall₂ (fun q failure => q text = pure (.failure failure)) alternatives failures)
    (history : m Unit) : FailInTurn text history alternatives failures history := by
  induction h with
  | nil => exact .nil history
  | cons hfirst _ ih => exact .cons (comesTo_of_pure hfirst history) ih

variable [LawfulMonad m]

theorem comesTo_pure_iff {effect : m Unit} :
    p.ComesTo text (pure ()) outcome effect ↔ p text = effect >>= fun _ => pure outcome := by
  rw [ComesTo, pure_bind]

/-- A run that returns by itself returns after every history. -/
theorem ComesTo.after {effect : m Unit} (h : p.ComesTo text (pure ()) outcome effect)
    (history : m Unit) : p.ComesTo text history outcome (history >>= fun _ => effect) := by
  rw [ComesTo, comesTo_pure_iff.mp h, bind_assoc]

/-! ### The first success -/

/-- Alternatives that all return fail in turn, or there is a first one that succeeds. -/
theorem failInTurn_or_first_success {alternatives : List (Parser m α)}
    (h : ∀ p ∈ alternatives, ∃ outcome effect, p.ComesTo text (pure ()) outcome effect)
    (history : m Unit) :
    (∃ failures reached, FailInTurn text history alternatives failures reached) ∨
      ∃ before p later failures reached value rest final, alternatives = before ++ p :: later ∧
        FailInTurn text history before failures reached ∧
        p.ComesTo text reached (.success value rest) final := by
  induction alternatives generalizing history with
  | nil => exact .inl ⟨[], history, .nil history⟩
  | cons first alternatives ih =>
    obtain ⟨outcome, effect, heffect⟩ := h first List.mem_cons_self
    have hfirst := heffect.after history
    cases outcome with
    | success value rest =>
      exact .inr ⟨[], first, alternatives, [], history, value, rest, _, rfl, .nil history, hfirst⟩
    | failure failure =>
      rcases ih (fun p hp => h p (List.mem_cons_of_mem _ hp)) (history >>= fun _ => effect) with
        ⟨failures, reached, hall⟩ |
          ⟨before, p, later, failures, reached, value, rest, final, rfl, hbefore, hp⟩
      · exact .inl ⟨failure :: failures, reached, .cons hfirst hall⟩
      · exact .inr ⟨first :: before, p, later, failure :: failures, reached, value, rest, final,
          rfl, .cons hfirst hbefore, hp⟩

/-- Alternatives that fail in turn are passed over, and their failures kept. -/
theorem FailInTurn.attempt {before : List (Parser m α)} {failures : List Failure}
    (h : FailInTurn text history before failures reached) (earlier : List Failure)
    (later : List (Parser m α)) :
    (history >>= fun _ => oneOf.attempt text earlier (before ++ later)) =
      reached >>= fun _ => oneOf.attempt text (earlier ++ failures) later := by
  induction h generalizing earlier with
  | nil history => rw [List.nil_append, List.append_nil]
  | @cons history next reached p alternatives failure failures hfirst _ ih =>
    rw [List.cons_append, oneOf.attempt, ← bind_assoc, hfirst, bind_assoc]
    simp only [pure_bind]
    rw [ih, List.append_assoc, List.singleton_append]

theorem FailInTurn.oneOf_failure {alternatives : List (Parser m α)} {failures : List Failure}
    (h : FailInTurn text history alternatives failures reached) :
    (oneOf alternatives).ComesTo text history (.failure (.merge text failures)) reached := by
  have hattempt := h.attempt [] []
  rwa [List.append_nil, List.nil_append] at hattempt

theorem FailInTurn.oneOf_success {before : List (Parser m α)} {failures : List Failure}
    (h : FailInTurn text history before failures reached) {value : α} {rest : Text}
    {final : m Unit} (hp : p.ComesTo text reached (.success value rest) final)
    (later : List (Parser m α)) :
    (oneOf (before ++ p :: later)).ComesTo text history (.success value rest) final := by
  have hattempt := h.attempt [] (p :: later)
  rw [oneOf.attempt, ← bind_assoc, hp, bind_assoc] at hattempt
  simp only [pure_bind] at hattempt
  exact hattempt

/-- A choice whose alternatives all fail comes to one failure that sums theirs up. If there is a
first one that succeeds, the choice comes to its success with the history that it left, so that the
later ones are not run. One of the two is the case if every alternative returns. -/
theorem oneOf_first_success_or_summary (alternatives : List (Parser m α)) (text : Text)
    (history : m Unit) :
    (∀ failures reached, FailInTurn text history alternatives failures reached →
      ∃ failure, (oneOf alternatives).ComesTo text history (.failure failure) reached ∧
        failure.Summarizes text failures) ∧
    (∀ before p later failures reached value rest final, alternatives = before ++ p :: later →
      FailInTurn text history before failures reached →
      p.ComesTo text reached (.success value rest) final →
      (oneOf alternatives).ComesTo text history (.success value rest) final) ∧
    ((∀ p ∈ alternatives, ∃ outcome effect, p.ComesTo text (pure ()) outcome effect) →
      (∃ failures reached, FailInTurn text history alternatives failures reached) ∨
        ∃ before p later failures reached value rest final, alternatives = before ++ p :: later ∧
          FailInTurn text history before failures reached ∧
          p.ComesTo text reached (.success value rest) final) := by
  refine ⟨fun failures reached hfail => ?_, ?_, fun hreturn => ?_⟩
  · exact ⟨_, hfail.oneOf_failure, Failure.summarizes_merge text failures⟩
  · intro before p later failures reached value rest final hsplit hbefore hp
    rw [hsplit]
    exact hbefore.oneOf_success hp later
  · exact failInTurn_or_first_success hreturn history

end

/-- In sessions, a history is known by the session that it led to. -/
theorem comesTo_set_iff {α : Type} {p : Parser Run α} {text : Text} {outcome : Outcome α}
    {session reached : Session} :
    p.ComesTo text (set session) outcome (set reached) ↔
      (p text).run session = (.ok outcome, reached) := by
  constructor
  · intro h
    exact congrFun h session
  · intro h
    funext start
    exact h

/-- A word whose runs leave a mark. -/
def markedWord (word : String) : Parser Run Value :=
  Recipe.parser (Recipe.named [] 0) (.spy word (.literal word.toList))

/-- The third word is not tried. If no word is found, the first of two failures at the same point
says where. -/
theorem oneOf_first_success_or_summary_marked :
    (oneOf [markedWord "sen", markedWord "cos", markedWord "c"] "cos".toList).run {} =
      (.ok (.success (.text "cos".toList) []),
        { events := [.run "sen" "cos".toList, .run "cos" "cos".toList] }) ∧
    ∃ failure,
      (oneOf [markedWord "sen", .fail ⟨"", ["'e'", "'sen'"], none⟩, .fail ⟨"", [], some ['s']⟩,
          .fail ⟨"", ["'e'"], some ['o']⟩] "cos".toList).run {} =
        (.ok (.failure failure), { events := [.run "sen" "cos".toList] }) ∧
      failure.Summarizes "cos".toList
        [⟨"Expected literal: sen", ["'sen'"], some "cos".toList⟩, ⟨"", ["'e'", "'sen'"], none⟩,
          ⟨"", [], some ['s']⟩, ⟨"", ["'e'"], some ['o']⟩] := by
  have hsen : (markedWord "sen").ComesTo "cos".toList (set ({} : Session))
      (.failure ⟨"Expected literal: sen", ["'sen'"], some "cos".toList⟩)
      (set ({ events := [.run "sen" "cos".toList] } : Session)) := comesTo_set_iff.mpr rfl
  have hcos : (markedWord "cos").ComesTo "cos".toList
      (set ({ events := [.run "sen" "cos".toList] } : Session))
      (.success (.text "cos".toList) [])
      (set ({ events := [.run "sen" "cos".toList, .run "cos" "cos".toList] } : Session)) :=
    comesTo_set_iff.mpr rfl
  constructor
  · exact comesTo_set_iff.mp ((oneOf_first_success_or_summary _ _ _).2.1 [markedWord "sen"]
      (markedWord "cos") [markedWord "c"] _ _ _ _ _ rfl (.cons hsen (.nil _)) hcos)
  · have hothers : FailInTurn "cos".toList
        (set ({ events := [.run "sen" "cos".toList] } : Session) : Run Unit)
        [(.fail ⟨"", ["'e'", "'sen'"], none⟩ : Parser Run Value), .fail ⟨"", [], some ['s']⟩,
          .fail ⟨"", ["'e'"], some ['o']⟩]
        [⟨"", ["'e'", "'sen'"], none⟩, ⟨"", [], some ['s']⟩, ⟨"", ["'e'"], some ['o']⟩] _ :=
      failInTurn_of_pure (.cons rfl (.cons rfl (.cons rfl .nil))) _
    obtain ⟨failure, hfailure, hsummary⟩ :=
      (oneOf_first_success_or_summary _ _ _).1 _ _ (.cons hsen hothers)
    exact ⟨failure, comesTo_set_iff.mp hfailure, hsummary⟩

/-! ### A choice inside another -/

section

variable {m : Type → Type} [MonadAttach m] {α : Type} {text : Text}

/-- Where the parser's failures on the text point, they point within it. -/
def PointsWithin (p : Parser m α) (text : Text) : Prop :=
  ∀ failure, p.Gives text (.failure failure) → failure.PointsWithin text

theorem StaysWithin.pointsWithin {p : Parser m α} (h : p.StaysWithin false) (text : Text) :
    p.PointsWithin text := by
  intro failure hgives unread hunread
  rcases h text _ hgives with hmade | ⟨point, hpoint, hsuffix⟩
  · cases hmade
  · rw [hunread, Option.some.injEq] at hpoint
    rwa [hpoint]

variable [Monad m] [LawfulMonad m] [WeaklyLawfulMonadAttach m]

/-- Failures may be exchanged for others that merge alike with all that can follow. -/
theorem attempt_congr {alternatives : List (Parser m α)}
    (h : ∀ p ∈ alternatives, p.PointsWithin text) {failures others : List Failure}
    (hmerge : ∀ further : List Failure, (∀ failure ∈ further, failure.PointsWithin text) →
      Failure.merge text (failures ++ further) = Failure.merge text (others ++ further)) :
    oneOf.attempt text failures alternatives = oneOf.attempt text others alternatives := by
  induction alternatives generalizing failures others with
  | nil =>
    have hnone := hmerge [] (fun _ hmem => nomatch hmem)
    rw [List.append_nil, List.append_nil] at hnone
    rw [oneOf.attempt, oneOf.attempt, hnone]
  | cons p alternatives ih =>
    rw [oneOf.attempt, oneOf.attempt]
    refine bind_congr_of_canReturn fun first hgives => ?_
    cases first with
    | success value rest => rfl
    | failure failure =>
      refine ih (fun q hq => h q (List.mem_cons_of_mem _ hq)) fun further hfurther => ?_
      rw [List.append_assoc, List.append_assoc]
      refine hmerge (failure :: further) fun why hwhy => ?_
      rcases List.mem_cons.mp hwhy with rfl | hwhy
      · exact h p List.mem_cons_self why hgives
      · exact hfurther why hwhy

/-- After the failures `inside` an inner choice, what is left of its alternatives may as well be
alternatives of the outer one. -/
theorem attempt_inner {inner after : List (Parser m α)}
    (h : ∀ p ∈ inner ++ after, p.PointsWithin text) (failures inside : List Failure)
    (hfailures : ∀ failure ∈ failures ++ inside, failure.PointsWithin text) :
    (oneOf.attempt text inside inner >>= fun
      | .success value rest => pure (.success value rest)
      | .failure failure => oneOf.attempt text (failures ++ [failure]) after) =
      oneOf.attempt text (failures ++ inside) (inner ++ after) := by
  induction inner generalizing inside with
  | nil =>
    rw [oneOf.attempt, pure_bind, List.nil_append]
    refine attempt_congr h fun further hfurther => ?_
    rw [List.append_assoc, List.singleton_append]
    refine Failure.merge_staged fun failure hmem => ?_
    rcases List.mem_append.mp hmem with hmem | hmem
    · exact hfailures failure hmem
    · exact hfurther failure hmem
  | cons p inner ih =>
    rw [List.cons_append, oneOf.attempt, oneOf.attempt, bind_assoc]
    refine bind_congr_of_canReturn fun first hgives => ?_
    cases first with
    | success value rest => exact pure_bind _ _
    | failure failure =>
      have hmore : ∀ why ∈ failures ++ (inside ++ [failure]), why.PointsWithin text := by
        intro why hwhy
        rw [← List.append_assoc, List.mem_append, List.mem_singleton] at hwhy
        rcases hwhy with hwhy | rfl
        · exact hfailures why hwhy
        · exact h p List.mem_cons_self why hgives
      have hrest := ih (fun q hq => h q (List.mem_cons_of_mem _ hq)) (inside ++ [failure]) hmore
      rw [← List.append_assoc] at hrest
      exact hrest

theorem attempt_nested {before inner after : List (Parser m α)}
    (h : ∀ p ∈ before ++ inner ++ after, p.PointsWithin text) {failures : List Failure}
    (hfailures : ∀ failure ∈ failures, failure.PointsWithin text) :
    oneOf.attempt text failures (before ++ oneOf inner :: after) =
      oneOf.attempt text failures (before ++ inner ++ after) := by
  induction before generalizing failures with
  | nil =>
    have hinner := attempt_inner h failures [] (by rwa [List.append_nil])
    rwa [List.append_nil] at hinner
  | cons p before ih =>
    rw [List.cons_append, List.cons_append, List.cons_append, oneOf.attempt, oneOf.attempt]
    refine bind_congr_of_canReturn fun first hgives => ?_
    cases first with
    | success value rest => rfl
    | failure failure =>
      refine ih (fun q hq => h q (List.mem_cons_of_mem _ hq)) fun why hwhy => ?_
      rcases List.mem_append.mp hwhy with hwhy | hwhy
      · exact hfailures why hwhy
      · obtain rfl := List.mem_singleton.mp hwhy
        exact h p List.mem_cons_self why hgives

/-- A choice inside another may be replaced by its alternatives: the runs are the same, in what they
do and in what they come to. -/
theorem oneOf_nested (before inner after : List (Parser m α)) (text : Text)
    (h : ∀ p ∈ before ++ inner ++ after, ∀ failure, p.Gives text (.failure failure) →
      ∀ unread, failure.remaining = some unread → unread <:+ text) :
    oneOf (before ++ oneOf inner :: after) text = oneOf (before ++ inner ++ after) text :=
  attempt_nested h (fun _ hmem => nomatch hmem)

end

/-- A choice of nothing points at its whole text, which does not count against a point further
on. -/
theorem oneOf_nested_empty :
    (oneOf [literal "sen".toList, oneOf [], .fail ⟨"", ["'e'"], none⟩,
        (literal "co".toList).andThen fun _ => literal "n".toList] : Parser Id Text) "cos".toList =
      .failure ⟨"No parser matched in oneOf.", ["'sen'", "'e'", "'n'"], some ['s']⟩ := by
  have hnested := oneOf_nested (m := Id) [literal "sen".toList] []
    [.fail ⟨"", ["'e'"], none⟩, (literal "co".toList).andThen fun _ => literal "n".toList]
    "cos".toList (by
      intro p hp
      rcases List.mem_cons.mp hp with rfl | hp
      · exact (StaysWithin.literal _).pointsWithin _
      rcases List.mem_cons.mp hp with rfl | hp
      · intro failure hgives unread hunread
        obtain rfl := Outcome.failure.inj (gives_fail hgives)
        cases hunread
      · obtain rfl := List.mem_singleton.mp hp
        exact ((StaysWithin.literal _).andThen fun _ => .literal _).pointsWithin _)
  exact hnested.trans rfl

end Reckoner.Parser
