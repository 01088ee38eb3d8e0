import Mathlib.Data.List.Forall2
import Reckoner.Proofs.Grammar.Recursion
import Reckoner.Recipe.Session

/-!
# Building once does not show

A session builds a name the first time it is used and remembers that. The proof compares it with
runs that remember nothing and build a name anew at every use, so that each of their build events
marks a use. Whatever is run, and however it ends, a session leaves the same trace with only the
first build of each name kept. Nothing but the builds depends on what was read before.
-/

namespace Reckoner

open Reckoner.Parser (translated)

/-! ### Rules of the grammar have no effects -/

namespace Grammar

/-- A run without effects, among the runs that can have some. -/
def withoutEffects : Translation Id Run where
  apply x := pure x.run
  apply_pure _ := rfl
  apply_bind x f := (pure_bind x.run fun a => pure (f a).run).symm

theorem Rule.parser_eq_pure (rule : Rule) (text : Text) :
    (rule.parser : Parser Run Value) text = pure (rule.run text) :=
  (congrFun (translated_rule withoutEffects rule) text).symm

end Grammar

/-! ### Traces -/

namespace Event

def isBuild : Event → Bool
  | build _ => true
  | run _ _ => false

/-- The events that are left when a name is not built again, given the names built before. -/
def firstBuilds (built : List String) : List Event → List Event
  | [] => []
  | build name :: rest =>
    if name ∈ built then firstBuilds built rest
    else build name :: firstBuilds (name :: built) rest
  | run id text :: rest => run id text :: firstBuilds built rest

/-- The names built after some events. -/
def builtAfter (built : List String) : List Event → List String
  | [] => built
  | build name :: rest =>
    if name ∈ built then builtAfter built rest else builtAfter (name :: built) rest
  | run _ _ :: rest => builtAfter built rest

theorem builtAfter_append (built : List String) (before after : List Event) :
    builtAfter built (before ++ after) = builtAfter (builtAfter built before) after := by
  fun_induction builtAfter built before with
  | case1 built => rfl
  | case2 built name rest hknown ih => rw [List.cons_append, builtAfter, if_pos hknown, ih]
  | case3 built name rest hnew ih => rw [List.cons_append, builtAfter, if_neg hnew, ih]
  | case4 built id text rest ih => rw [List.cons_append, builtAfter, ih]

theorem firstBuilds_append (built : List String) (before after : List Event) :
    firstBuilds built (before ++ after) =
      firstBuilds built before ++ firstBuilds (builtAfter built before) after := by
  fun_induction builtAfter built before with
  | case1 built => rfl
  | case2 built name rest hknown ih => simp [firstBuilds, hknown, ih]
  | case3 built name rest hnew ih => simp [firstBuilds, hnew, ih]
  | case4 built id text rest ih => simp [firstBuilds, ih]

theorem mem_builtAfter {name : String} (built : List String) (events : List Event) :
    name ∈ builtAfter built events ↔ name ∈ built ∨ build name ∈ events := by
  fun_induction builtAfter built events with
  | case1 built => simp
  | case2 built other rest hknown ih =>
    rw [ih]
    by_cases hname : name = other
    · simp [hname, hknown]
    · simp [hname]
  | case3 built other rest hnew ih =>
    rw [ih]
    simp [or_assoc, or_left_comm]
  | case4 built id text rest ih => simp [ih]

theorem filter_firstBuilds (built : List String) (events : List Event) :
    (firstBuilds built events).filter (!·.isBuild) = events.filter (!·.isBuild) := by
  fun_induction firstBuilds built events with
  | case1 built => rfl
  | case2 built name rest hknown ih => simpa [isBuild] using ih
  | case3 built name rest hnew ih => simpa [isBuild] using ih
  | case4 built id text rest ih => simpa [isBuild] using ih

/-- A name is built once if it is used and was not built before, and otherwise not at all. -/
theorem count_firstBuilds (name : String) (built : List String) (events : List Event) :
    (firstBuilds built events).count (build name) =
      if build name ∈ events ∧ name ∉ built then 1 else 0 := by
  fun_induction firstBuilds built events with
  | case1 built => simp
  | case2 built other rest hknown ih =>
    rw [ih]
    by_cases hname : name = other
    · simp [hname, hknown]
    · simp [hname]
  | case3 built other rest hnew ih =>
    rw [List.count_cons, ih]
    by_cases hname : name = other
    · simp [hname, hnew]
    · simp [hname, Ne.symm hname]
  | case4 built id text rest ih => simpa using ih

end Event

/-! ### Runs that build once and runs that build anew -/

section

variable {α β : Type}

theorem Run.run_bind_ok {x : Run α} {f : α → Run β} {before after : Session} {a : α}
    (h : x.run.run before = (.ok a, after)) : (x >>= f).run.run before = (f a).run.run after := by
  simp only [ExceptT.run_bind, StateT.run_bind, h]
  rfl

theorem Run.run_bind_error {x : Run α} {f : α → Run β} {before after : Session} {fault : Fault}
    (h : x.run.run before = (.error fault, after)) :
    (x >>= f).run.run before = (.error fault, after) := by
  simp only [ExceptT.run_bind, StateT.run_bind, h]
  rfl

/-- Two runs with the same result and records, whose events differ only in the builds: those of
`anew` are the same in every session, and `once` leaves out what was built before. -/
def BuildsOnce (once anew : Run α) : Prop :=
  ∃ result events records,
    (∀ session, anew.run.run session =
      (result, ⟨session.built, session.events ++ events, session.records ++ records⟩)) ∧
    ∀ session, once.run.run session =
      (result, ⟨Event.builtAfter session.built events,
        session.events ++ Event.firstBuilds session.built events, session.records ++ records⟩)

namespace BuildsOnce

theorem pure (a : α) : BuildsOnce (pure a) (pure a) := by
  refine ⟨.ok a, [], [], fun session => ?_, fun session => ?_⟩
  · simp only [List.append_nil]
    rfl
  · simp only [List.append_nil, Event.firstBuilds, Event.builtAfter]
    rfl

theorem throw (fault : Fault) : BuildsOnce (throw fault : Run α) (throw fault) := by
  refine ⟨.error fault, [], [], fun session => ?_, fun session => ?_⟩
  · simp only [List.append_nil]
    rfl
  · simp only [List.append_nil, Event.firstBuilds, Event.builtAfter]
    rfl

theorem bind {x y : Run α} {f g : α → Run β} (hfirst : BuildsOnce x y)
    (hthen : ∀ a, BuildsOnce (f a) (g a)) : BuildsOnce (x >>= f) (y >>= g) := by
  obtain ⟨result, events, records, hanew, honce⟩ := hfirst
  cases result with
  | error fault =>
    exact ⟨.error fault, events, records, fun session => Run.run_bind_error (hanew session),
      fun session => Run.run_bind_error (honce session)⟩
  | ok a =>
    obtain ⟨result, later, laterRecords, hanewLater, honceLater⟩ := hthen a
    refine ⟨result, events ++ later, records ++ laterRecords, fun session => ?_,
      fun session => ?_⟩
    · rw [Run.run_bind_ok (hanew session), hanewLater]
      simp only [List.append_assoc]
    · rw [Run.run_bind_ok (honce session), honceLater, Event.builtAfter_append,
        Event.firstBuilds_append]
      simp only [List.append_assoc]

theorem elim {γ : Type} (found : Option γ) (fault : Fault) (f : γ → α) :
    BuildsOnce (found.elim (MonadExcept.throw fault) fun c => Pure.pure (f c) : Run α)
      (found.elim (MonadExcept.throw fault) fun c => Pure.pure (f c)) := by
  cases found with
  | none => exact .throw fault
  | some c => exact .pure (f c)

theorem note_run (id : String) (text : Text) :
    BuildsOnce (Session.note (.run id text)) (Session.note (.run id text)) := by
  refine ⟨.ok (), [.run id text], [], fun session => ?_, fun session => ?_⟩
  · simp only [List.append_nil]
    rfl
  · simp only [List.append_nil, Event.firstBuilds, Event.builtAfter]
    rfl

theorem log (record : Record) : BuildsOnce (Session.log record) (Session.log record) := by
  refine ⟨.ok (), [], [record], fun session => ?_, fun session => ?_⟩
  · simp only [List.append_nil]
    rfl
  · simp only [List.append_nil, Event.firstBuilds, Event.builtAfter]
    rfl

theorem ensureBuilt (name : String) :
    BuildsOnce (Session.ensureBuilt name) (Session.note (.build name)) := by
  refine ⟨.ok (), [.build name], [], fun session => ?_, fun session => ?_⟩
  · simp only [List.append_nil]
    rfl
  · have hget : (get : Run Session).run.run session = (.ok session, session) := rfl
    rw [Session.ensureBuilt, Run.run_bind_ok hget]
    by_cases hknown : name ∈ session.built
    · simp [Event.firstBuilds, Event.builtAfter, hknown]
      rfl
    · simp [Event.firstBuilds, Event.builtAfter, hknown]
      rfl

end BuildsOnce

end

/-! ### Parsers -/

section

variable {α β : Type}

/-- The runs of two parsers, text by text. -/
def ParsesOnce (once anew : Parser Run α) : Prop := ∀ text, BuildsOnce (once text) (anew text)

namespace ParsesOnce

theorem of_pure {p : Parser Run α} {outcome : Text → Outcome α}
    (h : ∀ text, p text = pure (outcome text)) : ParsesOnce p p := by
  intro text
  rw [h text]
  exact .pure _

theorem andThen {p q : Parser Run α} {next following : α → Parser Run β} (hfirst : ParsesOnce p q)
    (hnext : ∀ value, ParsesOnce (next value) (following value)) :
    ParsesOnce (p.andThen next) (q.andThen following) := by
  intro text
  refine (hfirst text).bind fun outcome => ?_
  cases outcome with
  | success value rest => exact hnext value rest
  | failure failure => exact .pure _

theorem orElse {p q p' q' : Parser Run α} (hfirst : ParsesOnce p p') (hsecond : ParsesOnce q q') :
    ParsesOnce (p.orElse q) (p'.orElse q') := by
  intro text
  refine (hfirst text).bind fun outcome => ?_
  cases outcome with
  | success value rest => exact .pure _
  | failure failure => exact hsecond text

theorem map {p q : Parser Run α} (h : ParsesOnce p q) (f : α → β) :
    ParsesOnce (p.map f) (q.map f) := by
  intro text
  exact (h text).bind fun outcome => .pure _

theorem oneOf {ps qs : List (Parser Run α)} (h : List.Forall₂ ParsesOnce ps qs) :
    ParsesOnce (.oneOf ps) (.oneOf qs) := by
  intro text
  have hattempt : ∀ failures, BuildsOnce (Parser.oneOf.attempt text failures ps)
      (Parser.oneOf.attempt text failures qs) := by
    induction h with
    | nil => exact fun failures => .pure _
    | cons hfirst _ ih =>
      intro failures
      refine (hfirst text).bind fun outcome => ?_
      cases outcome with
      | success value rest => exact .pure _
      | failure failure => exact ih (failures ++ [failure])
  exact hattempt []

theorem transformed {p q : Parser Run α} (h : ParsesOnce p q) {f : α → Run β}
    (hf : ∀ value, BuildsOnce (f value) (f value)) :
    ParsesOnce (Recipe.transformed p f) (Recipe.transformed q f) := by
  intro text
  refine (h text).bind fun outcome => ?_
  cases outcome with
  | success value rest => exact (hf value).bind fun _ => .pure _
  | failure failure => exact .pure _

theorem tested {p q : Parser Run α} (h : ParsesOnce p q) {passes : α → Run Bool}
    (hpasses : ∀ value, BuildsOnce (passes value) (passes value)) (message : String) :
    ParsesOnce (Recipe.tested p passes message) (Recipe.tested q passes message) := by
  intro text
  refine (h text).bind fun outcome => ?_
  cases outcome with
  | failure failure => exact .pure _
  | success value rest =>
    refine (hpasses value).bind fun passed => ?_
    cases passed with
    | true => exact .pure _
    | false => exact .pure _

end ParsesOnce

end

/-! ### Functions and tests on values -/

namespace Value

theorem length_buildsOnce (value : Value) : BuildsOnce value.length value.length := by
  fun_cases length value with
  | case1 t => exact .pure _
  | case2 items => exact .pure _
  | case3 => exact .throw _

theorem toInteger_buildsOnce (value : Value) : BuildsOnce value.toInteger value.toInteger := by
  fun_cases toInteger value with
  | case1 t => exact .elim _ _ _
  | case2 n => exact .pure _
  | case3 => exact .throw _

theorem toNumber_buildsOnce (value : Value) : BuildsOnce value.toNumber value.toNumber := by
  fun_cases toNumber value with
  | case1 t => exact .elim _ _ _
  | case2 n => exact .pure _
  | case3 x => exact .pure _
  | case4 => exact .throw _

theorem twice_buildsOnce (value : Value) : BuildsOnce value.twice value.twice := by
  fun_cases twice value with
  | case1 t => exact .pure _
  | case2 n => exact .pure _
  | case3 x => exact .pure _
  | case4 items => exact .pure _
  | case5 => exact .throw _

theorem evaluate_buildsOnce (value : Value) : BuildsOnce value.evaluate value.evaluate := by
  fun_cases evaluate value with
  | case1 kind _ => exact .throw _
  | case2 t _ x _ => exact (BuildsOnce.log _).bind fun _ => .pure _
  | case3 t _ error _ => exact .throw _

end Value

theorem Transform.apply_buildsOnce (f : Transform) (value : Value) :
    BuildsOnce (f.apply value) (f.apply value) := by
  fun_cases apply f value with
  | case1 value => exact value.length_buildsOnce.bind fun _ => .pure _
  | case2 value => exact value.toInteger_buildsOnce
  | case3 value => exact value.toNumber_buildsOnce
  | case4 text => exact .pure _
  | case5 => exact .throw _
  | case6 value => exact value.twice_buildsOnce
  | case7 value => exact value.evaluate_buildsOnce
  | case8 value => exact .pure _
  | case9 => exact .pure _
  | case10 tree => exact .pure _
  | case11 => exact .throw _

theorem Test.apply_buildsOnce (test : Test) (value : Value) :
    BuildsOnce (test.apply value) (test.apply value) := by
  fun_cases apply test value with
  | case1 => exact .pure _
  | case2 => exact .pure _
  | case3 text => exact .pure _
  | case4 => exact .pure _
  | case5 value => exact value.length_buildsOnce.bind fun _ => .pure _
  | case6 text => exact .pure _
  | case7 => exact .pure _
  | case8 value => exact value.length_buildsOnce.bind fun _ => .pure _
  | case9 value => exact .pure _
  | case10 => exact .pure _

namespace Recipe

theorem expectText_buildsOnce (value : Value) :
    BuildsOnce (expectText value) (expectText value) := by
  fun_cases expectText value with
  | case1 text => exact .pure _
  | case2 => exact .throw _

/-! ### Recipes -/

theorem chosen_parsesOnce {keys : List Text} {branches branches' : List (Parser Run Value)}
    {otherwise otherwise' : Parser Run Value} (hbranches : List.Forall₂ ParsesOnce branches branches')
    (hotherwise : ParsesOnce otherwise otherwise') (key : Text) :
    ParsesOnce (chosen keys branches otherwise key) (chosen keys branches' otherwise' key) := by
  unfold chosen
  induction hbranches generalizing keys with
  | nil => simpa using hotherwise
  | @cons branch branch' rest rest' hfirst _ ih =>
    cases keys with
    | nil => simpa using hotherwise
    | cons first keys =>
      rw [List.zip_cons_cons, List.zip_cons_cons, List.lookup_cons, List.lookup_cons]
      cases hkey : key == first with
      | true => exact hfirst
      | false => exact ih

section

variable {once anew : String → Parser Run Value}

mutual

theorem parser_parsesOnce (hderef : ∀ name, ParsesOnce (once name) (anew name)) :
    ∀ recipe : Recipe, ParsesOnce (parser once recipe) (parser anew recipe)
  | literal wanted => by
    rw [parser, parser]
    exact .map (.of_pure fun text => rfl) _
  | pattern source p => by
    rw [parser, parser]
    exact .map (.of_pure fun text => rfl) _
  | succeed value => by
    rw [parser, parser]
    exact .of_pure fun text => rfl
  | oneOf alternatives => by
    rw [parser, parser]
    exact .oneOf (parsers_parsesOnce hderef alternatives)
  | orElse first second => by
    rw [parser, parser]
    exact (parser_parsesOnce hderef first).orElse (parser_parsesOnce hderef second)
  | next first second => by
    rw [parser, parser]
    exact (parser_parsesOnce hderef first).andThen fun _ => parser_parsesOnce hderef second
  | pair first second => by
    rw [parser, parser]
    exact (parser_parsesOnce hderef first).andThen fun _ => (parser_parsesOnce hderef second).map _
  | same first => by
    rw [parser, parser]
    refine (parser_parsesOnce hderef first).andThen fun value text => ?_
    exact (expectText_buildsOnce value).bind fun wanted => .pure _
  | switch first keys branches otherwise => by
    rw [parser, parser]
    refine (parser_parsesOnce hderef first).andThen fun value text => ?_
    exact (expectText_buildsOnce value).bind fun key =>
      chosen_parsesOnce (parsers_parsesOnce hderef branches) (parser_parsesOnce hderef otherwise) key text
  | map first f => by
    rw [parser, parser]
    exact (parser_parsesOnce hderef first).transformed f.apply_buildsOnce
  | filter first test message => by
    rw [parser, parser]
    exact (parser_parsesOnce hderef first).tested test.apply_buildsOnce message
  | fail failure => by
    rw [parser, parser]
    exact .of_pure fun text => rfl
  | rule r => by
    rw [parser, parser]
    exact .of_pure r.parser_eq_pure
  | ref name => by
    rw [parser, parser]
    exact hderef name
  | spy id first => by
    rw [parser, parser]
    exact fun text => (BuildsOnce.note_run id text).bind fun _ => parser_parsesOnce hderef first text

theorem parsers_parsesOnce (hderef : ∀ name, ParsesOnce (once name) (anew name)) :
    ∀ recipes : List Recipe, List.Forall₂ ParsesOnce (parsers once recipes) (parsers anew recipes)
  | [] => by
    rw [parsers, parsers]
    exact .nil
  | recipe :: rest => by
    rw [parsers, parsers]
    exact .cons (parser_parsesOnce hderef recipe) (parsers_parsesOnce hderef rest)

end

end

/-! ### References -/

/-- The parser that a name refers to, built anew whenever it is used. -/
def rebuilt {α : Type} (definition? : String → Option ((String → Parser Run α) → Parser Run α)) :
    (depth : Nat) → String → Parser Run α
  | 0, _ => fun _ => throw .endless
  | depth + 1, name => fun text => do
    match definition? name with
    | none => throw (.undefinedName name)
    | some definition =>
      Session.note (.build name)
      definition (rebuilt definition? depth) text

theorem resolved_parsesOnce {α : Type}
    {definition? : String → Option ((String → Parser Run α) → Parser Run α)}
    (hdefined : ∀ name definition, definition? name = some definition → ∀ once anew,
      (∀ name, ParsesOnce (once name) (anew name)) → ParsesOnce (definition once) (definition anew))
    (depth : Nat) :
    ∀ name, ParsesOnce (resolved definition? depth name) (rebuilt definition? depth name) := by
  induction depth with
  | zero => exact fun name text => .throw _
  | succ depth ih =>
    intro name text
    rw [resolved, rebuilt]
    cases hname : definition? name with
    | none => exact .throw _
    | some definition =>
      exact (BuildsOnce.ensureBuilt name).bind fun _ => hdefined name definition hname _ _ ih text

/-- Runs a recipe on a text like `run`, except that a name is built anew whenever it is used. -/
def runAnew (recipes : Recipes) (recipe : Recipe) (text : Text) : Run (Outcome Value) :=
  parser (rebuilt (fun name => (recipes.lookup name).map fun recipe deref => parser deref recipe)
    (recipes.length * (text.length + 1) + 1)) recipe text

theorem run_buildsOnce (recipes : Recipes) (recipe : Recipe) (text : Text) :
    BuildsOnce (run recipes recipe text) (runAnew recipes recipe text) := by
  refine parser_parsesOnce (resolved_parsesOnce ?_ _) recipe text
  intro name definition hdefinition once anew hderef
  obtain ⟨found, -, rfl⟩ := Option.map_eq_some_iff.mp hdefinition
  exact parser_parsesOnce hderef found

/-! ### One text after another -/

/-- What a run on a text comes to when nothing is remembered: each of its build events is a use. -/
def stepAnew (recipes : Recipes) (recipe : Recipe) (text : Text) : Step :=
  let (result, session) := (runAnew recipes recipe text).run ⟨[], [], []⟩
  ⟨result, session.events, session.records⟩

def Step.withoutBuilds (step : Step) : Step :=
  { step with trace := step.trace.filter (!·.isBuild) }

/-- The step that a text takes in a session, and the names that are built after it. -/
theorem runAll_cons (recipes : Recipes) (recipe : Recipe) (built : List String) (text : Text)
    (rest : List Text) :
    runAll recipes recipe built (text :: rest) =
      { stepAnew recipes recipe text with
        trace := Event.firstBuilds built (stepAnew recipes recipe text).trace } ::
      runAll recipes recipe (Event.builtAfter built (stepAnew recipes recipe text).trace) rest := by
  obtain ⟨result, events, records, hanew, honce⟩ := run_buildsOnce recipes recipe text
  have hstep : stepAnew recipes recipe text = ⟨result, events, records⟩ := by
    rw [stepAnew, show (runAnew recipes recipe text).run ⟨[], [], []⟩ = _ from hanew ⟨[], [], []⟩]
    rfl
  rw [runAll, show (run recipes recipe text).run ⟨built, [], []⟩ = _ from honce ⟨built, [], []⟩,
    hstep]
  rfl

theorem map_withoutBuilds_runAll (recipes : Recipes) (recipe : Recipe) (built : List String)
    (texts : List Text) :
    (runAll recipes recipe built texts).map Step.withoutBuilds =
      texts.map fun text => (stepAnew recipes recipe text).withoutBuilds := by
  induction texts generalizing built with
  | nil => rfl
  | cons text rest ih =>
    rw [runAll_cons, List.map_cons, ih, List.map_cons]
    simp only [Step.withoutBuilds, Event.filter_firstBuilds]

theorem flatMap_trace_runAll (recipes : Recipes) (recipe : Recipe) (built : List String)
    (texts : List Text) :
    (runAll recipes recipe built texts).flatMap (·.trace) =
      Event.firstBuilds built (texts.flatMap fun text => (stepAnew recipes recipe text).trace) := by
  induction texts generalizing built with
  | nil => rfl
  | cons text rest ih =>
    rw [runAll_cons, List.flatMap_cons, ih, List.flatMap_cons, Event.firstBuilds_append]

/-- That names are built once does not show except in the build events. In a session, each text
comes to what it comes to alone in a session of its own, and to what it comes to when names are
built anew at every use. Of the build events at every use, over all texts, the session keeps
exactly the first for each name, in its place. -/
theorem runAll_builds_at_first_use (recipes : Recipes) (recipe : Recipe) (texts : List Text) :
    ((runAll recipes recipe [] texts).map Step.withoutBuilds =
      texts.flatMap fun text => (runAll recipes recipe [] [text]).map Step.withoutBuilds) ∧
    ((runAll recipes recipe [] texts).map Step.withoutBuilds =
      texts.map fun text => (stepAnew recipes recipe text).withoutBuilds) ∧
    ∀ name,
      ((runAll recipes recipe [] texts).flatMap (·.trace)).count (.build name) ≤ 1 ∧
      (∀ before after,
        (texts.flatMap fun text => (stepAnew recipes recipe text).trace) =
          before ++ .build name :: after → .build name ∉ before →
        ∃ later, (runAll recipes recipe [] texts).flatMap (·.trace) =
          Event.firstBuilds [] before ++ .build name :: later) ∧
      ((∀ text ∈ texts, .build name ∉ (stepAnew recipes recipe text).trace) →
        .build name ∉ (runAll recipes recipe [] texts).flatMap (·.trace)) := by
  refine ⟨?_, map_withoutBuilds_runAll recipes recipe [] texts, fun name => ?_⟩
  · simp only [map_withoutBuilds_runAll, List.map_cons, List.map_nil]
    exact List.map_eq_flatMap
  rw [flatMap_trace_runAll]
  refine ⟨?_, fun before after huses hfirst => ?_, fun hunused => ?_⟩
  · rw [Event.count_firstBuilds]
    split
    · exact Nat.le_refl 1
    · exact Nat.zero_le 1
  · have hnew : name ∉ Event.builtAfter [] before := by
      simpa [Event.mem_builtAfter] using hfirst
    rw [huses, Event.firstBuilds_append, Event.firstBuilds, if_neg hnew]
    exact ⟨_, rfl⟩
  · have hnone : Event.build name ∉ texts.flatMap fun text => (stepAnew recipes recipe text).trace := by
      simpa [List.mem_flatMap] using hunused
    rw [← List.count_eq_zero, Event.count_firstBuilds, if_neg fun h => hnone h.1]

/-- A letter and then a number, which no letter is, so that reading one breaks off. -/
def letterAndNumber : Recipes :=
  [("a", .next (.literal ['a']) (.ref "b")), ("b", .map (.literal ['b']) .toInteger)]

/-- Both names are built for the first text, though it breaks off, and not again for the second. -/
theorem runAll_builds_at_first_use_broken_off :
    ([['a', 'b'], ['a', 'b']].flatMap fun text => (stepAnew letterAndNumber (.ref "a") text).trace) =
        [.build "a"] ++ .build "b" :: [.build "a", .build "b"] ∧
      Event.build "b" ∉ [Event.build "a"] ∧
      (∃ later, (runAll letterAndNumber (.ref "a") [] [['a', 'b'], ['a', 'b']]).flatMap (·.trace) =
        Event.firstBuilds [] [.build "a"] ++ .build "b" :: later) ∧
      (∀ text ∈ [['a', 'b'], ['a', 'b']],
        .build "c" ∉ (stepAnew letterAndNumber (.ref "a") text).trace) ∧
      .build "c" ∉
        (runAll letterAndNumber (.ref "a") [] [['a', 'b'], ['a', 'b']]).flatMap (·.trace) := by
  have huses : ([['a', 'b'], ['a', 'b']].flatMap fun text =>
      (stepAnew letterAndNumber (.ref "a") text).trace) =
        [.build "a"] ++ .build "b" :: [.build "a", .build "b"] := by
    rfl
  have hunused : ∀ text ∈ [['a', 'b'], ['a', 'b']],
      .build "c" ∉ (stepAnew letterAndNumber (.ref "a") text).trace := by
    decide
  have hbuilds := (runAll_builds_at_first_use letterAndNumber (.ref "a") [['a', 'b'], ['a', 'b']]).2.2
  exact ⟨huses, by decide, (hbuilds "b").2.1 _ _ huses (by decide), hunused,
    (hbuilds "c").2.2 hunused⟩

end Recipe

end Reckoner
