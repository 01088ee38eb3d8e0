import Reckoner.Proofs.Evaluation.Safety

/-!
# The first defect stops an evaluation

The walk through a tree is written down as a list of moments, at each of which one thing can be
wrong. An evaluation is compared with the first wrong moment of that list: it reports it, and if
there is none it gives the value, in which arguments beyond those a name takes have no part. The
comparison composes along the walk, so it is one induction over trees and lists of arguments.
-/

namespace Reckoner

/-- Every application in the tree has a name of the language and at least the arguments it takes. -/
inductive Expr.Applicable : Expr → Prop where
  | literal (x : Double) : Applicable (.literal x)
  | apply {name : String} {args : List Expr} {needed : Nat} (harity : arity? name = some needed)
      (hneeded : needed ≤ args.length) (hargs : ∀ arg ∈ args, Applicable arg) :
      Applicable (.apply name args)

namespace Evaluation

/-! ### The walk -/

/-- A node is entered, on a level counted from the root, or applied to so many arguments. -/
inductive Moment where
  | entry (level : Nat)
  | application (name : String) (count : Nat)

mutual

/-- The walk through a tree whose root is on a level. -/
def walk (level : Nat) : Expr → List Moment
  | .literal _ => [.entry level]
  | .apply name args =>
    .entry level :: walkArgs (level + 1) args ++ [.application name args.length]

def walkArgs (level : Nat) : List Expr → List Moment
  | [] => []
  | arg :: rest => walk level arg ++ walkArgs level rest

end

/-- What is wrong at a moment, if levels beyond the limit are too deep. -/
def Moment.defect? (limit : Nat) : Moment → Option EvalError
  | entry level => if limit < level then some .nestedTooDeeply else none
  | application name count =>
    match arity? name with
    | none => some (.unsupported name)
    | some needed => if count < needed then some .missingArgument else none

def firstDefect? (limit : Nat) (moments : List Moment) : Option EvalError :=
  moments.findSome? (·.defect? limit)

theorem firstDefect?_append (limit : Nat) (before after : List Moment) :
    firstDefect? limit (before ++ after) =
      (firstDefect? limit before).or (firstDefect? limit after) :=
  List.findSome?_append

theorem firstDefect?_entry {limit level : Nat} (h : level ≤ limit) (moments : List Moment) :
    firstDefect? limit (.entry level :: moments) = firstDefect? limit moments := by
  have hroom : ¬ limit < level := by omega
  simp [firstDefect?, Moment.defect?, hroom]

theorem firstDefect?_too_deep {limit level : Nat} (h : limit < level) (moments : List Moment) :
    firstDefect? limit (.entry level :: moments) = some .nestedTooDeeply := by
  simp [firstDefect?, Moment.defect?, h]

/-! ### Values -/

/-- The value of a tree: operations apply to the values of their first arguments. -/
inductive HasValue : Expr → Double → Prop where
  | literal (x : Double) : HasValue (.literal x) x
  | operator {op : Operator} {left right : Expr} {x y value : Double} (more : List Expr)
      (hleft : HasValue left x) (hright : HasValue right y) (hvalue : op.value? x y = some value) :
      HasValue (.apply op.symbol (left :: right :: more)) value
  | function {f : Trig} {arg : Expr} {x value : Double} (more : List Expr) (harg : HasValue arg x)
      (hvalue : f.value? x = some value) : HasValue (.apply f.name (arg :: more)) value

theorem symbol_injective : Function.Injective Operator.symbol := by
  intro op op' h
  cases op <;> cases op' <;> simp_all [Operator.symbol]

theorem name_injective : Function.Injective Trig.name := by
  intro f g h
  cases f <;> cases g <;> simp_all [Trig.name]

theorem symbol_ne_name (op : Operator) (f : Trig) : op.symbol ≠ f.name := by
  cases op <;> cases f <;> simp [Operator.symbol, Trig.name]

/-! ### An evaluation against its walk -/

section

variable {α β : Type} {defect later : Option EvalError} {Good : α → Prop} {Fine : β → Prop}

/-- The result is the defect, or a good value if there is no defect. -/
def Reports (defect : Option EvalError) (Good : α → Prop) : Except EvalError α → Prop
  | .ok value => defect = none ∧ Good value
  | .error error => defect = some error

theorem Reports.bind {x : Except EvalError α} {f : α → Except EvalError β}
    (hfirst : Reports defect Good x) (hthen : ∀ a, Good a → Reports later Fine (f a)) :
    Reports (defect.or later) Fine (x >>= f) := by
  cases x with
  | error error =>
    have hdefect : defect = some error := hfirst
    rw [hdefect]
    rfl
  | ok a =>
    obtain ⟨hdefect, hgood⟩ := hfirst
    rw [hdefect, Option.none_or]
    exact hthen a hgood

theorem Reports.error_iff {x : Except EvalError α} (h : Reports defect Good x)
    (error : EvalError) : x = .error error ↔ defect = some error := by
  cases x with
  | error found =>
    have hdefect : defect = some found := h
    simp [hdefect]
  | ok a => simp [h.1]

theorem Reports.ok_iff {x : Except EvalError α} (h : Reports defect Good x) :
    (∃ value, x = .ok value) ↔ defect = none := by
  cases x with
  | error found =>
    have hdefect : defect = some found := h
    simp [hdefect]
  | ok a => simp [h.1]

end

theorem firstDefect?_application {limit count needed : Nat} {name : String}
    (harity : arity? name = some needed) :
    firstDefect? limit [.application name count] =
      if count < needed then some .missingArgument else none := by
  by_cases hcount : count < needed
  · simp [firstDefect?, Moment.defect?, harity, hcount]
  · simp [firstDefect?, Moment.defect?, harity, hcount]

/-- A name applied to the values of some arguments. -/
theorem applyName_reports (limit : Nat) (name : String) {args : List Expr} {values : List Double}
    (hvalues : List.Forall₂ HasValue args values) :
    Reports (firstDefect? limit [.application name args.length]) (HasValue (.apply name args))
      (applyName name values) := by
  rw [applyName]
  cases hop : Operator.ofSymbol? name with
  | some op =>
    have harity : arity? name = some 2 := by simp [arity?, hop]
    obtain rfl := Operator.symbol_of_ofSymbol? hop
    rw [firstDefect?_application harity]
    cases hvalues with
    | nil => exact rfl
    | @cons left x _ _ hx hrest =>
      cases hrest with
      | nil => exact rfl
      | @cons right y more _ hy _ =>
        obtain ⟨value, hvalue⟩ := op.value?_eq_some x y
        simp only [hvalue]
        exact ⟨if_neg (by simp), .operator more hx hy hvalue⟩
  | none =>
    cases hf : Trig.ofName? name with
    | some f =>
      have harity : arity? name = some 1 := by simp [arity?, hop, hf]
      obtain rfl := Trig.name_of_ofName? hf
      rw [firstDefect?_application harity]
      cases hvalues with
      | nil => exact rfl
      | @cons arg x more _ hx _ =>
        obtain ⟨value, hvalue⟩ := f.value?_eq_some x
        simp only [hvalue]
        exact ⟨if_neg (by simp), .function more hx hvalue⟩
    | none =>
      have harity : arity? name = none := by simp [arity?, hop, hf]
      simp [firstDefect?, Moment.defect?, harity, Reports]
      rfl

theorem valuesWithin_reports {limit depth level : Nat}
    (h : ∀ arg, Reports (firstDefect? limit (walk level arg)) (HasValue arg)
      (valueWithin depth arg)) (args : List Expr) :
    Reports (firstDefect? limit (walkArgs level args)) (List.Forall₂ HasValue args)
      (valuesWithin depth args) := by
  induction args with
  | nil => exact ⟨rfl, .nil⟩
  | cons arg rest ih =>
    rw [walkArgs, firstDefect?_append, valuesWithin]
    refine (h arg).bind fun value hvalue => ?_
    rw [← Option.or_none (o := firstDefect? limit (walkArgs level rest))]
    refine ih.bind fun values hvalues => ?_
    exact ⟨rfl, .cons hvalue hvalues⟩

theorem valueWithin_reports {limit depth level : Nat} (hlevel : level + depth = limit + 1)
    (tree : Expr) :
    Reports (firstDefect? limit (walk level tree)) (HasValue tree) (valueWithin depth tree) := by
  -- The induction is on the room that is left, and the level grows as it shrinks.
  induction depth generalizing level tree with
  | zero =>
    have hdeep : limit < level := by omega
    cases tree with
    | literal x => exact firstDefect?_too_deep hdeep _
    | apply name args => exact firstDefect?_too_deep hdeep _
  | succ depth ih =>
    have hroom : level ≤ limit := by omega
    cases tree with
    | literal x => exact ⟨firstDefect?_entry hroom _, .literal x⟩
    | apply name args =>
      rw [walk, List.cons_append, firstDefect?_entry hroom, firstDefect?_append, valueWithin]
      refine (valuesWithin_reports (ih (by omega)) args).bind fun values hvalues => ?_
      exact applyName_reports limit name hvalues

/-! ### Trees without a defect -/

theorem applicable_apply_iff (limit : Nat) {name : String} {args : List Expr} :
    (Expr.apply name args).Applicable ↔ (∀ arg ∈ args, arg.Applicable) ∧
      firstDefect? limit [.application name args.length] = none := by
  constructor
  · rintro (_ | ⟨harity, hneeded, hargs⟩)
    refine ⟨hargs, ?_⟩
    rw [firstDefect?_application harity, if_neg (by omega)]
  · rintro ⟨hargs, hnone⟩
    cases harity : arity? name with
    | none => simp [firstDefect?, Moment.defect?, harity] at hnone
    | some needed =>
      refine .apply harity ?_ hargs
      rw [firstDefect?_application harity] at hnone
      by_contra hfew
      rw [if_pos (by omega)] at hnone
      cases hnone

mutual

theorem firstDefect?_walk_eq_none_iff (limit : Nat) :
    ∀ (level : Nat) (tree : Expr), firstDefect? limit (walk level tree) = none ↔
      level + tree.depth ≤ limit + 1 ∧ tree.Applicable
  | level, .literal x => by
    rw [walk, Expr.depth]
    by_cases hroom : level ≤ limit
    · rw [firstDefect?_entry hroom]
      exact ⟨fun _ => ⟨by omega, .literal x⟩, fun _ => rfl⟩
    · rw [firstDefect?_too_deep (by omega)]
      exact ⟨fun h => (nomatch h), fun h => absurd h.1 (by omega)⟩
  | level, .apply name args => by
    rw [walk, Expr.depth, List.cons_append]
    by_cases hroom : level ≤ limit
    · have hargs := firstDefect?_walkArgs_eq_none_iff limit (level + 1) args (by omega)
      rw [firstDefect?_entry hroom, firstDefect?_append, Option.or_eq_none_iff, hargs,
        applicable_apply_iff limit, and_assoc, Nat.add_assoc, Nat.add_comm 1]
    · rw [firstDefect?_too_deep (by omega)]
      exact ⟨fun h => (nomatch h), fun h => absurd h.1 (by omega)⟩

theorem firstDefect?_walkArgs_eq_none_iff (limit : Nat) :
    ∀ (level : Nat) (args : List Expr), level ≤ limit + 1 →
      (firstDefect? limit (walkArgs level args) = none ↔
        level + Expr.argsDepth args ≤ limit + 1 ∧ ∀ arg ∈ args, arg.Applicable)
  | level, [], hlevel => by
    simp [walkArgs, firstDefect?, Expr.argsDepth, hlevel]
  | level, arg :: rest, hlevel => by
    rw [walkArgs, firstDefect?_append, Option.or_eq_none_iff,
      firstDefect?_walk_eq_none_iff limit level arg,
      firstDefect?_walkArgs_eq_none_iff limit level rest hlevel,
      Expr.argsDepth, List.forall_mem_cons]
    constructor
    · rintro ⟨⟨hfirst, harg⟩, hdepth, hrest⟩
      exact ⟨by omega, harg, hrest⟩
    · rintro ⟨hdepth, harg, hrest⟩
      exact ⟨⟨by omega, harg⟩, by omega, hrest⟩

end

/-! ### The first defect decides -/

theorem HasValue.of_operator {op : Operator} {left right : Expr} {more : List Expr}
    {value : Double} (h : HasValue (.apply op.symbol (left :: right :: more)) value) :
    ∃ x y, HasValue left x ∧ HasValue right y ∧ op.value? x y = some value := by
  generalize hname : op.symbol = name at h
  cases h with
  | operator more hleft hright hvalue =>
    obtain rfl := symbol_injective hname
    exact ⟨_, _, hleft, hright, hvalue⟩
  | function => exact absurd hname (symbol_ne_name _ _)

theorem HasValue.of_function {f : Trig} {arg : Expr} {more : List Expr} {value : Double}
    (h : HasValue (.apply f.name (arg :: more)) value) :
    ∃ x, HasValue arg x ∧ f.value? x = some value := by
  generalize hname : f.name = name at h
  cases h with
  | operator => exact absurd hname.symm (symbol_ne_name _ _)
  | function more harg hvalue =>
    obtain rfl := name_injective hname
    exact ⟨_, harg, hvalue⟩

theorem HasValue.unique {tree : Expr} {x y : Double} (hx : HasValue tree x)
    (hy : HasValue tree y) : x = y := by
  induction hx generalizing y with
  | literal x =>
    cases hy
    rfl
  | operator more hleft hright hvalue ihleft ihright =>
    obtain ⟨x', y', hleft', hright', hvalue'⟩ := hy.of_operator
    rw [← ihleft hleft', ← ihright hright', hvalue] at hvalue'
    exact Option.some.inj hvalue'
  | function more harg hvalue ih =>
    obtain ⟨x', harg', hvalue'⟩ := hy.of_function
    rw [← ih harg', hvalue] at hvalue'
    exact Option.some.inj hvalue'

/-- With room for any number of levels, evaluation succeeds exactly on the trees that have no more
levels than that and in which every name can be applied, and it then gives their value. On every
other tree it reports the first defect of the walk through it. -/
theorem evaluation_stops_at_first_defect (limit : Nat) (tree : Expr) :
    ((∃ value, valueWithin limit tree = .ok value) ↔ tree.depth ≤ limit ∧ tree.Applicable) ∧
    (∀ value, valueWithin limit tree = .ok value ↔
      tree.depth ≤ limit ∧ tree.Applicable ∧ HasValue tree value) ∧
    (∀ error, valueWithin limit tree = .error error ↔
      firstDefect? limit (walk 1 tree) = some error) ∧
    evaluate tree = valueWithin Expr.maxDepth tree ∧ 110 ≤ Expr.maxDepth ∧ Expr.maxDepth < 1000 := by
  have hreports := valueWithin_reports (Nat.add_comm 1 limit) tree
  have hok : (∃ value, valueWithin limit tree = .ok value) ↔
      tree.depth ≤ limit ∧ tree.Applicable := by
    rw [hreports.ok_iff, firstDefect?_walk_eq_none_iff, Nat.add_comm 1, Nat.add_le_add_iff_right]
  refine ⟨hok, fun value => ⟨fun hvalue => ?_, ?_⟩, hreports.error_iff, rfl, by decide, by decide⟩
  · rw [hvalue] at hreports
    obtain ⟨hdepth, happlicable⟩ := hok.mp ⟨value, hvalue⟩
    exact ⟨hdepth, happlicable, hreports.2⟩
  · rintro ⟨hdepth, happlicable, hvalue⟩
    obtain ⟨found, hfound⟩ := hok.mpr ⟨hdepth, happlicable⟩
    rw [hfound] at hreports ⊢
    rw [hreports.2.unique hvalue]

end Evaluation

end Reckoner
