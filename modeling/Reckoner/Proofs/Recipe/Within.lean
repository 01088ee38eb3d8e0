import Reckoner.Proofs.Grammar.Within
import Reckoner.Recipe.Session
/-!
# Assembled parsers stay within their text

`Assembled` collects the parsers that can be put together at all: from the primitives, the
combinators with any functions and continuations, the rules of the grammar and references by name.
They stay within their text, by induction on how they are assembled, as long as the references do;
and those do by induction on how many of them are inside each other, since what a name stands for is
assembled too. The parsers of recipes are a special case.
-/

namespace Reckoner

open MonadAttach LawfulMonadAttach
open Reckoner.Parser (StaysWithin)

/-! ### Patterns -/

namespace Pattern

theorem mem_upTo_succ {step : Text → List Text} {greedy : Bool} {count : Nat} {text rest : Text}
    (h : rest ∈ upTo step greedy (count + 1) text) :
    rest = text ∨ ∃ middle ∈ step text, rest ∈ upTo step greedy count middle := by
  have hcases : rest = text ∨
      rest ∈ ((step text).filter (·.length < text.length)).flatMap (upTo step greedy count) := by
    cases greedy with
    | false => exact List.mem_cons.mp h
    | true =>
      rcases List.mem_append.mp h with hfurther | hstop
      · exact .inr hfurther
      · exact .inl (List.mem_singleton.mp hstop)
  rcases hcases with hstop | hfurther
  · exact .inl hstop
  · obtain ⟨middle, hmiddle, hrest⟩ := List.mem_flatMap.mp hfurther
    exact .inr ⟨middle, (List.mem_filter.mp hmiddle).1, hrest⟩

variable {step : Text → List Text} (hstep : ∀ text, ∀ rest ∈ step text, rest <:+ text)

include hstep

theorem exactly_suffix {count : Nat} :
    ∀ {text : Text}, ∀ rest ∈ exactly step count text, rest <:+ text := by
  induction count with
  | zero =>
    intro text rest hrest
    obtain rfl := List.mem_singleton.mp hrest
    exact List.suffix_rfl
  | succ count ih =>
    intro text rest hrest
    obtain ⟨middle, hmiddle, hrest⟩ := List.mem_flatMap.mp hrest
    exact (ih rest hrest).trans (hstep text middle hmiddle)

theorem upTo_suffix {greedy : Bool} {count : Nat} :
    ∀ {text : Text}, ∀ rest ∈ upTo step greedy count text, rest <:+ text := by
  induction count with
  | zero =>
    intro text rest hrest
    obtain rfl := List.mem_singleton.mp hrest
    exact List.suffix_rfl
  | succ count ih =>
    intro text rest hrest
    rcases mem_upTo_succ hrest with rfl | ⟨middle, hmiddle, hrest⟩
    · exact List.suffix_rfl
    · exact (ih rest hrest).trans (hstep text middle hmiddle)

omit hstep

theorem rests_suffix (pattern : Pattern) : ∀ text, ∀ rest ∈ pattern.rests text, rest <:+ text := by
  induction pattern with
  | empty =>
    intro text rest hrest
    obtain rfl := List.mem_singleton.mp hrest
    exact List.suffix_rfl
  | one cls =>
    intro text rest hrest
    cases text with
    | nil => simp [rests] at hrest
    | cons c text =>
      rw [rests] at hrest
      split at hrest
      · rw [List.mem_singleton.mp hrest]
        exact List.suffix_cons _ _
      · simp at hrest
  | seq first second ihfirst ihsecond =>
    intro text rest hrest
    obtain ⟨middle, hmiddle, hrest⟩ := List.mem_flatMap.mp hrest
    exact (ihsecond middle rest hrest).trans (ihfirst text middle hmiddle)
  | alt preferred other ihpreferred ihother =>
    intro text rest hrest
    rcases List.mem_append.mp hrest with hrest | hrest
    · exact ihpreferred text rest hrest
    · exact ihother text rest hrest
  | repeated body least extra greedy ih =>
    intro text rest hrest
    obtain ⟨middle, hmiddle, hrest⟩ := List.mem_flatMap.mp hrest
    exact (upTo_suffix ih rest hrest).trans (exactly_suffix ih middle hmiddle)

theorem match?_suffix (pattern : Pattern) (text matched rest : Text)
    (h : pattern.match? text = some (matched, rest)) : rest <:+ text := by
  obtain ⟨left, hleft, heq⟩ := Option.map_eq_some_iff.mp h
  obtain ⟨-, rfl⟩ := Prod.mk.inj heq
  exact pattern.rests_suffix text left (List.mem_of_head? hleft)

end Pattern

/-! ### Functions and tests that may break off -/

theorem Recipe.tested_staysWithin {α : Type} {handMade : Bool} {p : Parser Run α}
    (hp : p.StaysWithin handMade) (passes : α → Run Bool) (message : String) :
    (tested p passes message).StaysWithin handMade := by
  intro text outcome hgives
  obtain ⟨first, hfirst, hthen⟩ := canReturn_bind_imp' hgives
  cases first with
  | failure why =>
    rw [← eq_of_canReturn_pure hthen]
    exact hp text _ hfirst
  | success value rest =>
    obtain ⟨passed, -, hthen⟩ := canReturn_bind_imp' hthen
    cases passed with
    | true =>
      rw [← eq_of_canReturn_pure hthen]
      exact hp text _ hfirst
    | false =>
      rw [← eq_of_canReturn_pure hthen]
      exact .of_remaining

/-! ### Assembled parsers -/

/-- The parsers assembled from the primitives, the combinators, the rules of the grammar and the
references that `deref` resolves. Functions, tests and continuations are arbitrary, and may break
off. `handMade` says whether failures made by hand may be among the alternatives. -/
inductive Assembled (handMade : Bool) {ω : Type} (deref : String → Parser Run ω) :
    {α : Type} → Parser Run α → Prop where
  | literal (wanted : Text) : Assembled handMade deref (.literal wanted)
  /-- Of the scanner it is only assumed that what it finds starts the text and ends within it. -/
  | matching {α : Type} (description : String) (scan : Text → Option (α × Text))
      (hscan : ∀ text value rest, scan text = some (value, rest) → rest <:+ text) :
      Assembled handMade deref (.matching description scan)
  | succeed {α : Type} (value : α) : Assembled handMade deref (.succeed value)
  | fail {α : Type} (hmade : handMade = true) (failure : Failure) :
      Assembled handMade deref (.fail failure : Parser Run α)
  | oneOf {α : Type} {alternatives : List (Parser Run α)}
      (hall : ∀ p ∈ alternatives, Assembled handMade deref p) :
      Assembled handMade deref (.oneOf alternatives)
  | andThen {α β : Type} {p : Parser Run α} {next : α → Parser Run β}
      (hp : Assembled handMade deref p) (hnext : ∀ value, Assembled handMade deref (next value)) :
      Assembled handMade deref (p.andThen next)
  | orElse {α : Type} {p q : Parser Run α} (hp : Assembled handMade deref p)
      (hq : Assembled handMade deref q) : Assembled handMade deref (p.orElse q)
  | map {α β : Type} {p : Parser Run α} (hp : Assembled handMade deref p) (f : α → β) :
      Assembled handMade deref (p.map f)
  | filter {α : Type} {p : Parser Run α} (hp : Assembled handMade deref p) (accepts : α → Bool)
      (message : String) : Assembled handMade deref (p.filter accepts message)
  | tested {α : Type} {p : Parser Run α} (hp : Assembled handMade deref p)
      (passes : α → Run Bool) (message : String) :
      Assembled handMade deref (Recipe.tested p passes message)
  /-- Does something first that may break off, and that the parser then depends on. -/
  | after {α γ : Type} (act : Text → Run γ) {next : γ → Parser Run α}
      (hnext : ∀ result, Assembled handMade deref (next result)) :
      Assembled handMade deref fun text => do next (← act text) text
  | rule (rule : Grammar.Rule) : Assembled handMade deref rule.parser
  | ref (name : String) : Assembled handMade deref (deref name)

theorem Assembled.staysWithin {handMade : Bool} {ω α : Type} {deref : String → Parser Run ω}
    {p : Parser Run α} (hderef : ∀ name, (deref name).StaysWithin handMade)
    (h : Assembled handMade deref p) : p.StaysWithin handMade := by
  induction h with
  | literal wanted => exact .literal wanted
  | matching description scan hscan => exact .matching description hscan
  | succeed value => exact .succeed value
  | fail hmade failure => exact .fail hmade failure
  | oneOf _ ih => exact .oneOf ih
  | andThen _ _ ihp ihnext => exact ihp.andThen ihnext
  | orElse _ _ ihp ihq => exact ihp.orElse ihq
  | map _ f ih => exact ih.map f
  | filter _ accepts message ih => exact ih.filter accepts message
  | tested _ passes message ih => exact Recipe.tested_staysWithin ih passes message
  | after act _ ih =>
    intro text outcome hgives
    obtain ⟨result, -, hthen⟩ := canReturn_bind_imp' hgives
    exact ih result text outcome hthen
  | rule rule => exact rule.parser_staysWithin
  | ref name => exact hderef name

/-! ### References -/

theorem not_canReturn_throw {α : Type} {fault : Fault} {value : α} :
    ¬ CanReturn (throw fault : Run α) value := by
  rintro ⟨session, session', h⟩
  exact nomatch (Prod.mk.inj h).1

theorem Recipe.resolved_staysWithin {handMade : Bool} {ω : Type}
    {definition? : String → Option ((String → Parser Run ω) → Parser Run ω)}
    (hdefined : ∀ name definition, definition? name = some definition →
      ∀ deref, Assembled handMade deref (definition deref))
    (depth : Nat) : ∀ name, (resolved definition? depth name).StaysWithin handMade := by
  -- A reference followed too far breaks off and gives nothing, whatever the definitions are.
  induction depth with
  | zero =>
    intro name text outcome hgives
    exact absurd hgives not_canReturn_throw
  | succ depth ih =>
    intro name text outcome hgives
    rw [Parser.Gives, resolved] at hgives
    cases hname : definition? name with
    | none =>
      simp only [hname] at hgives
      exact absurd hgives not_canReturn_throw
    | some definition =>
      simp only [hname] at hgives
      obtain ⟨-, -, hthen⟩ := canReturn_bind_imp' hgives
      exact (hdefined name definition hname _).staysWithin ih text outcome hthen

/-! ### Recipes -/

namespace Recipe

mutual

/-- Whether a failure made by hand is among the alternatives of a recipe. -/
def hasFail : Recipe → Bool
  | literal _ | pattern _ _ | succeed _ | rule _ | ref _ => false
  | fail _ => true
  | oneOf alternatives => anyHasFail alternatives
  | orElse first second | next first second | pair first second => hasFail first || hasFail second
  | same first | map first _ | filter first _ _ | spy _ first => hasFail first
  | switch first _ branches otherwise =>
    hasFail first || anyHasFail branches || hasFail otherwise

def anyHasFail : List Recipe → Bool
  | [] => false
  | recipe :: rest => hasFail recipe || anyHasFail rest

end

theorem chosen_assembled {handMade : Bool} {deref : String → Parser Run Value} {keys : List Text}
    {branches : List (Parser Run Value)} {otherwise : Parser Run Value}
    (hbranches : ∀ p ∈ branches, Assembled handMade deref p)
    (hotherwise : Assembled handMade deref otherwise) (key : Text) :
    Assembled handMade deref (chosen keys branches otherwise key) := by
  unfold chosen
  cases hlookup : (keys.zip branches).lookup key with
  | none => exact hotherwise
  | some branch =>
    obtain ⟨before, after, hzip, -⟩ := List.lookup_eq_some_iff.mp hlookup
    have hmem : (key, branch) ∈ keys.zip branches := by simp [hzip]
    exact hbranches branch (List.of_mem_zip hmem).2

section

variable {handMade : Bool} (deref : String → Parser Run Value)

mutual

theorem parser_assembled :
    ∀ recipe : Recipe, (recipe.hasFail = true → handMade = true) →
      Assembled handMade deref (parser deref recipe)
  | literal wanted, _ => by
    rw [parser]
    exact .map (.literal wanted) _
  | pattern source p, _ => by
    rw [parser]
    exact .map (.matching source _ p.match?_suffix) _
  | succeed value, _ => by
    rw [parser]
    exact .succeed value
  | oneOf alternatives, h => by
    rw [parser]
    exact .oneOf (parsers_assembled alternatives h)
  | orElse first second, h => by
    simp only [hasFail, Bool.or_eq_true] at h
    rw [parser]
    exact .orElse (parser_assembled first (h ∘ .inl)) (parser_assembled second (h ∘ .inr))
  | next first second, h => by
    simp only [hasFail, Bool.or_eq_true] at h
    rw [parser]
    exact .andThen (parser_assembled first (h ∘ .inl)) fun _ =>
      parser_assembled second (h ∘ .inr)
  | pair first second, h => by
    simp only [hasFail, Bool.or_eq_true] at h
    rw [parser]
    exact .andThen (parser_assembled first (h ∘ .inl)) fun _ =>
      .map (parser_assembled second (h ∘ .inr)) _
  | same first, h => by
    rw [parser]
    exact .andThen (parser_assembled first h) fun value =>
      .after (fun _ => expectText value) fun wanted => .map (.literal wanted) _
  | switch first keys branches otherwise, h => by
    simp only [hasFail, Bool.or_eq_true] at h
    rw [parser]
    exact .andThen (parser_assembled first (h ∘ .inl ∘ .inl)) fun value =>
      .after (fun _ => expectText value) fun key =>
        chosen_assembled (parsers_assembled branches (h ∘ .inl ∘ .inr))
          (parser_assembled otherwise (h ∘ .inr)) key
  | map first f, h => by
    rw [parser]
    exact .andThen (parser_assembled first h) fun value =>
      .after (fun _ => f.apply value) fun result => .succeed result
  | filter first test message, h => by
    rw [parser]
    exact .tested (parser_assembled first h) test.apply message
  | fail failure, h => by
    rw [parser]
    exact .fail (h rfl) failure
  | rule r, _ => by
    rw [parser]
    exact .rule r
  | ref name, _ => by
    rw [parser]
    exact .ref name
  | spy id first, h => by
    rw [parser]
    exact .after (fun text => Session.note (.run id text)) fun _ => parser_assembled first h

theorem parsers_assembled :
    ∀ recipes : List Recipe, (anyHasFail recipes = true → handMade = true) →
      ∀ p ∈ parsers deref recipes, Assembled handMade deref p
  | [], _, p, hp => by simp [parsers] at hp
  | recipe :: rest, h, p, hp => by
    simp only [anyHasFail, Bool.or_eq_true] at h
    rw [parsers, List.mem_cons] at hp
    rcases hp with rfl | hp
    · exact parser_assembled recipe (h ∘ .inl)
    · exact parsers_assembled rest (h ∘ .inr) p hp

end

end

theorem named_staysWithin {recipes : Recipes} {handMade : Bool}
    (h : ∀ entry ∈ recipes, entry.2.hasFail = true → handMade = true) (depth : Nat)
    (name : String) : (named recipes depth name).StaysWithin handMade := by
  refine resolved_staysWithin (fun name definition hdefinition deref => ?_) depth name
  obtain ⟨recipe, hlookup, rfl⟩ := Option.map_eq_some_iff.mp hdefinition
  obtain ⟨before, after, hrecipes, -⟩ := List.lookup_eq_some_iff.mp hlookup
  have hmem : (name, recipe) ∈ recipes := by simp [hrecipes]
  exact parser_assembled deref recipe (h _ hmem)

end Recipe

/-! ### Runs that come to an end -/

/-- A run that comes to an end without breaking off lies within its text, for every assembled parser
with any definitions behind its references, and so for every recipe. -/
theorem outcome_within_text :
    (∀ (handMade : Bool) {ω α : Type}
      (definition? : String → Option ((String → Parser Run ω) → Parser Run ω)),
      (∀ name definition, definition? name = some definition →
        ∀ deref, Assembled handMade deref (definition deref)) →
      ∀ (depth : Nat) (p : Parser Run α), Assembled handMade (Recipe.resolved definition? depth) p →
        ∀ text before outcome after, (p text).run.run before = (.ok outcome, after) →
          outcome.Within handMade text) ∧
    ∀ (recipes : Recipes) (recipe : Recipe) (text : Text) (before : Session)
      (outcome : Outcome Value) (after : Session),
      (Recipe.run recipes recipe text).run.run before = (.ok outcome, after) →
        outcome.Within (recipe.hasFail || recipes.any (·.2.hasFail)) text := by
  constructor
  · intro handMade ω α definition? hdefined depth p hp text before outcome after hrun
    exact hp.staysWithin (Recipe.resolved_staysWithin hdefined depth) text outcome
      ⟨before, after, hrun⟩
  · intro recipes recipe text before outcome after hrun
    refine (Recipe.parser_assembled _ recipe fun h => ?_).staysWithin
      (Recipe.named_staysWithin (fun entry hentry h => ?_) _) text outcome ⟨before, after, hrun⟩
    · simp [h]
    · exact Bool.or_eq_true_iff.mpr (.inr (List.any_eq_true.mpr ⟨entry, hentry, h⟩))

/-- The letters `a` and `b` in turn, by two definitions that use each other. -/
def inTurn (name : String) : Option ((String → Parser Run Text) → Parser Run Text) :=
  if name = "a" then
    some fun deref => ((Parser.literal ['a']).andThen fun _ => deref "b").orElse (.succeed [])
  else if name = "b" then
    some fun deref => ((Parser.literal ['b']).andThen fun _ => deref "a").orElse (.succeed [])
  else none

theorem inTurn_assembled (name : String) (definition : (String → Parser Run Text) → Parser Run Text)
    (h : inTurn name = some definition) (deref : String → Parser Run Text) :
    Assembled false deref (definition deref) := by
  unfold inTurn at h
  split at h
  · obtain rfl := Option.some.inj h
    exact .orElse (.andThen (.literal _) fun _ => .ref "b") (.succeed _)
  · split at h
    · obtain rfl := Option.some.inj h
      exact .orElse (.andThen (.literal _) fun _ => .ref "a") (.succeed _)
    · cases h

/-- The letters in turn and then a `c`, which is missing, and the letters in turn as a recipe. -/
theorem outcome_within_text_inTurn :
    (((((Recipe.resolved inTurn 4 "a").andThen fun _ => Parser.literal ['c'])
        ['a', 'b', 'd']).run.run ⟨[], [], []⟩).1 = .ok (.failure ⟨"Expected literal: c", ["'c'"], some ['d']⟩) ∧
      (.failure ⟨"Expected literal: c", ["'c'"], some ['d']⟩ : Outcome Text).Within false
        ['a', 'b', 'd']) ∧
    (((Recipe.run [("a", .orElse (.next (.literal ['a']) (.ref "b")) (.succeed .nothing)),
        ("b", .orElse (.next (.literal ['b']) (.ref "a")) (.succeed .nothing))] (.ref "a")
        ['a', 'b', 'd']).run.run ⟨[], [], []⟩).1 = .ok (.success .nothing ['d']) ∧
      (.success .nothing ['d'] : Outcome Value).Within false ['a', 'b', 'd']) := by
  refine ⟨⟨rfl, ?_⟩, rfl, ?_⟩
  · exact outcome_within_text.1 false inTurn inTurn_assembled 4
      ((Recipe.resolved inTurn 4 "a").andThen fun _ => Parser.literal ['c'])
      (.andThen (.ref "a") fun _ => .literal _) ['a', 'b', 'd'] ⟨[], [], []⟩ _ _ rfl
  · exact outcome_within_text.2
      [("a", .orElse (.next (.literal ['a']) (.ref "b")) (.succeed .nothing)),
        ("b", .orElse (.next (.literal ['b']) (.ref "a")) (.succeed .nothing))]
      (.ref "a") ['a', 'b', 'd'] ⟨[], [], []⟩ _ _ rfl

end Reckoner
