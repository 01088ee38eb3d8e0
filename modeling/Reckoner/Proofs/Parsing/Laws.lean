import Reckoner.Proofs.Parsing.Choice

/-!
# Laws of the combinators

One parser after another and one parser instead of another can be regrouped as one likes. The laws
are equations between parsers, whatever effects their runs have, so both sides run the same parsers
on the same texts in the same order and come to the same, be it a success, a failure or the end of
the whole run. A choice among several parsers is no such grouping, as it sums its failures up where
a chain of alternatives keeps the last; all else about the two is the same.
-/

namespace Reckoner

/-- The value and the rest of a success; why a failure failed is left out. -/
def Outcome.success? {α : Type} : Outcome α → Option (α × Text)
  | success value rest => some (value, rest)
  | failure _ => none

namespace Parser

variable {m : Type → Type} [Monad m] {α β γ : Type}

/-! ### One after another -/

theorem map_eq_andThen (p : Parser m α) (f : α → β) :
    p.map f = p.andThen fun value => succeed (f value) := by
  funext text
  rw [map, andThen]
  refine bind_congr fun outcome => ?_
  cases outcome with
  | success value rest => rfl
  | failure failure => rfl

variable [LawfulMonad m]

theorem succeed_andThen (value : α) (next : α → Parser m β) :
    (succeed value).andThen next = next value := by
  funext text
  rw [andThen, succeed, pure_bind]

theorem andThen_succeed (p : Parser m α) : p.andThen succeed = p := by
  funext text
  refine Eq.trans (bind_congr fun outcome => ?_) (bind_pure (p text))
  cases outcome with
  | success value rest => rfl
  | failure failure => rfl

theorem andThen_assoc (p : Parser m α) (next : α → Parser m β) (last : β → Parser m γ) :
    (p.andThen next).andThen last = p.andThen fun value => (next value).andThen last := by
  funext text
  rw [andThen, andThen, andThen, bind_assoc]
  refine bind_congr fun outcome => ?_
  cases outcome with
  | success value rest => rfl
  | failure failure => exact pure_bind _ _

/-- To change the value of a success is to go on with a parser that reads nothing, also when the
change may break off. -/
theorem transformed_eq_andThen (p : Parser Run α) (change : α → Run β) :
    Recipe.transformed p change = p.andThen (fun x text => do succeed (← change x) text) := by
  funext text
  refine bind_congr (x := p text) fun outcome => ?_
  cases outcome with
  | success value rest => rfl
  | failure failure => rfl

/-! ### One instead of another -/

theorem orElse_assoc (p q r : Parser m α) : (p.orElse q).orElse r = p.orElse (q.orElse r) := by
  funext text
  rw [orElse, orElse, orElse, bind_assoc]
  refine bind_congr fun outcome => ?_
  cases outcome with
  | success value rest => exact pure_bind _ _
  | failure failure => rfl

instance : Std.Associative (orElse : Parser m α → Parser m α → Parser m α) := ⟨orElse_assoc⟩

/-- A choice that still has alternatives to try runs like the chain of them, whatever the failures
before. -/
theorem success?_attempt (text : Text) (failures : List Failure) (p : Parser m α)
    (alternatives : List (Parser m α)) :
    Outcome.success? <$> oneOf.attempt text failures (p :: alternatives) =
      Outcome.success? <$> alternatives.foldl orElse p text := by
  induction alternatives generalizing p failures with
  | nil =>
    rw [List.foldl_nil, oneOf.attempt, map_bind, map_eq_pure_bind]
    refine bind_congr fun outcome => ?_
    cases outcome with
    | success value rest => exact map_pure _ _
    | failure failure => exact map_pure _ _
  | cons q alternatives ih =>
    rw [List.foldl_cons, List.foldl_assoc, oneOf.attempt, orElse, map_bind, map_bind]
    refine bind_congr fun outcome => ?_
    cases outcome with
    | success value rest => rfl
    | failure failure => exact ih (failures ++ [failure]) q

/-- Sequences and alternatives regroup, a value that is handed on as it is changes nothing, and a
changed value is one that is handed on changed, also when the change may break off. A choice among
parsers and the chain of them run the same parsers up to the first success, and have it in
common. -/
theorem regrouped_runs_are_equal (a b c : Parser m α) (f : α → Parser m β) (g : β → Parser m γ)
    (h : α → β) (value : α) (alternatives : List (Parser m α)) :
    (a.andThen f).andThen g = a.andThen (fun x => (f x).andThen g) ∧
    (succeed value).andThen f = f value ∧
    a.andThen succeed = a ∧
    a.map h = a.andThen (fun x => succeed (h x)) ∧
    (∀ (p : Parser Run α) (change : α → Run β),
      Recipe.transformed p change = p.andThen fun x text => do succeed (← change x) text) ∧
    (a.orElse b).orElse c = a.orElse (b.orElse c) ∧
    ∀ text, Outcome.success? <$> oneOf (a :: alternatives) text =
      Outcome.success? <$> alternatives.foldl orElse a text :=
  ⟨andThen_assoc a f g, succeed_andThen value f, andThen_succeed a, map_eq_andThen a h,
    transformed_eq_andThen, orElse_assoc a b c, fun text => success?_attempt text [] a alternatives⟩

/-- Three words in turn are read at the same places however they are grouped. Of three alternatives
the second is the last that is run, in a choice as in a chain. -/
theorem regrouped_runs_are_equal_marked :
    LawfulMonad Run ∧
    ((((markedWord "c").andThen fun _ => markedWord "o").andThen fun _ => markedWord "s")
        "cos".toList).run {} =
      (.ok (.success (.text ['s']) []),
        { events := [.run "c" "cos".toList, .run "o" "os".toList, .run "s" "s".toList] }) ∧
    (Outcome.success? <$>
        oneOf [markedWord "sen", markedWord "cos", markedWord "c"] "cos".toList).run {} =
      (.ok (some (.text "cos".toList, [])),
        { events := [.run "sen" "cos".toList, .run "cos" "cos".toList] }) := by
  obtain ⟨hgrouped, -, -, -, -, -, -⟩ :=
    regrouped_runs_are_equal (markedWord "c") (markedWord "c") (markedWord "c")
      (fun _ => markedWord "o") (fun _ => markedWord "s") id .nothing []
  obtain ⟨-, -, -, -, -, -, hchain⟩ :=
    regrouped_runs_are_equal (markedWord "sen") (markedWord "sen") (markedWord "sen")
      (fun _ => markedWord "sen") (fun _ => markedWord "sen") id .nothing
      [markedWord "cos", markedWord "c"]
  refine ⟨inferInstance, ?_, ?_⟩
  · rw [hgrouped]
    rfl
  · rw [hchain]
    rfl

end Parser

end Reckoner
