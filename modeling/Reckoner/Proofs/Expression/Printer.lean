import Reckoner.Proofs.Double.Reader
import Reckoner.Proofs.Grammar.Printed

/-!
# Printed expressions can be read in one way only

A printed number ends at the first character that numbers are not printed with, and a printed
application is closed by its own parenthesis, so where a subexpression ends is settled by the text
alone. Two expressions printed alike therefore have the same operators and functions around the same
numbers; only the signs of zeros are not printed, so without `nan` the two are equal.
-/

namespace Reckoner.Expr

mutual

/-- The tree with the signs of its zeros dropped. -/
def plain : Expr → Expr
  | literal x => literal x.plain
  | apply name args => apply name (plainArgs args)

def plainArgs : List Expr → List Expr
  | [] => []
  | arg :: rest => arg.plain :: plainArgs rest

end

theorem plain_binary (op : Operator) (left right : Expr) :
    (binary op left right).plain = binary op left.plain right.plain := by
  simp [binary, plain, plainArgs]

theorem plain_call (f : Trig) (arg : Expr) : (call f arg).plain = call f arg.plain := by
  simp [call, plain, plainArgs]

/-! ### The printed forms -/

theorem text_binary (op : Operator) (left right : Expr) :
    (binary op left right).text =
      '(' :: (left.text ++ ' ' :: (op.symbol.toList ++ ' ' :: (right.text ++ [')']))) := by
  have hop : Operator.ofSymbol? op.symbol = some op := by cases op <;> decide
  simp [binary, text, argTexts, applicationText, hop]

theorem text_call (f : Trig) (arg : Expr) :
    (call f arg).text = f.name.toList ++ '(' :: (arg.text ++ [')']) := by
  have hop : Operator.ofSymbol? f.name = none := by cases f <;> decide
  simp [call, text, argTexts, applicationText, hop]

mutual

theorem text_plain : ∀ tree : Expr, tree.plain.text = tree.text
  | literal x => by rw [plain, text, text, x.literalText_plain]
  | apply name args => by rw [plain, text, text, argTexts_plainArgs args]

theorem argTexts_plainArgs : ∀ args : List Expr, argTexts (plainArgs args) = argTexts args
  | [] => rfl
  | arg :: rest => by
    rw [plainArgs, argTexts, argTexts, text_plain arg, argTexts_plainArgs rest]

end

/-! ### Where a printed expression ends -/

/-- What can follow an expression inside a printed one: a blank, a closing parenthesis or nothing. -/
def Ends (rest : Text) : Prop := ∀ c more, rest = c :: more → c = ' ' ∨ c = ')'

/-- What follows the characters that numbers are printed with. -/
def afterNumber (text : Text) : Text := text.dropWhile (· ∈ Double.printedCharacters)

theorem ends_nil : Ends [] := fun _ _ h => nomatch h

theorem ends_cons {c : Char} {more : Text} : Ends (c :: more) ↔ c = ' ' ∨ c = ')' := by
  constructor
  · exact fun h => h c more rfl
  · rintro h c' more' heq
    obtain ⟨rfl, -⟩ := List.cons.inj heq
    exact h

theorem afterNumber_literalText (x : Double) {rest : Text} (h : Ends rest) :
    afterNumber (x.literalText ++ rest) = rest := by
  rw [afterNumber, List.dropWhile_append_of_pos fun c hc => by simpa using x.literalText_subset hc]
  cases rest with
  | nil => rfl
  | cons c more =>
    rcases ends_cons.mp h with rfl | rfl
    · exact List.dropWhile_cons_of_neg (by decide)
    · exact List.dropWhile_cons_of_neg (by decide)

theorem literalText_append_inj {x y : Double} {rest rest' : Text} (hrest : Ends rest)
    (hrest' : Ends rest') (h : x.literalText ++ rest = y.literalText ++ rest') :
    x.plain = y.plain ∧ rest = rest' := by
  have hends : rest = rest' := by
    rw [← afterNumber_literalText x hrest, h, afterNumber_literalText y hrest']
  rw [hends] at h
  exact ⟨Double.literalText_eq_iff.mp (List.append_cancel_right h), hends⟩

theorem not_ends_paren (more : Text) : ¬ Ends (afterNumber ('(' :: more)) := by
  have hafter : afterNumber ('(' :: more) = '(' :: more := List.dropWhile_cons_of_neg (by decide)
  rw [hafter, ends_cons]
  decide

theorem not_ends_name (f : Trig) (more : Text) : ¬ Ends (afterNumber (f.name.toList ++ more)) := by
  have hafter : ∃ c tail, afterNumber (f.name.toList ++ more) = c :: tail ∧
      ¬ (c = ' ' ∨ c = ')') := by
    cases f <;> exact ⟨_, _, rfl, by decide⟩
  obtain ⟨c, tail, heq, hc⟩ := hafter
  rw [heq, ends_cons]
  exact hc

theorem literalText_append_ne {x : Double} {rest other : Text} (hrest : Ends rest)
    (hother : ¬ Ends (afterNumber other)) : x.literalText ++ rest ≠ other := by
  rintro rfl
  rw [afterNumber_literalText x hrest] at hother
  exact hother hrest

/-! ### One way to read -/

theorem WellFormed.forms {tree : Expr} (h : tree.WellFormed) :
    (∃ x, tree = .literal x) ∨
      (∃ op left right, left.WellFormed ∧ right.WellFormed ∧ tree = .binary op left right) ∨
      ∃ f arg, arg.WellFormed ∧ tree = .call f arg := by
  cases h with
  | literal x => exact .inl ⟨x, rfl⟩
  | @apply name args harity hargs =>
    rcases symbol_or_name_of_arity? harity with ⟨op, rfl, hlength⟩ | ⟨f, rfl, hlength⟩
    · obtain ⟨left, right, rfl⟩ := List.length_eq_two.mp hlength
      exact .inr (.inl ⟨op, left, right, hargs left (by simp), hargs right (by simp), rfl⟩)
    · obtain ⟨arg, rfl⟩ := List.length_eq_one_iff.mp hlength
      exact .inr (.inr ⟨f, arg, hargs arg (by simp), rfl⟩)

theorem wellFormed_binary (op : Operator) {left right : Expr} (hleft : left.WellFormed)
    (hright : right.WellFormed) : (binary op left right).WellFormed := by
  have harity : arity? op.symbol = some 2 := by cases op <;> decide
  refine .apply harity fun arg harg => ?_
  rcases List.mem_pair.mp harg with rfl | rfl
  · exact hleft
  · exact hright

theorem wellFormed_call (f : Trig) {arg : Expr} (h : arg.WellFormed) : (call f arg).WellFormed := by
  have harity : arity? f.name = some 1 := by cases f <;> decide
  refine .apply harity fun arg' harg => ?_
  obtain rfl := List.mem_singleton.mp harg
  exact h

/-- In front of something that can follow it, a printed expression is known by its text. -/
theorem text_append_inj {tree : Expr} (h : tree.WellFormed) :
    ∀ tree' : Expr, tree'.WellFormed → ∀ rest rest' : Text, Ends rest → Ends rest' →
      tree.text ++ rest = tree'.text ++ rest' → tree.plain = tree'.plain ∧ rest = rest' := by
  refine WellFormed.shape (fun x => ?_) (fun op left right ihleft ihright => ?_)
    (fun f arg ih => ?_) h
  · intro tree' h' rest rest' hrest hrest' heq
    rw [text] at heq
    rcases h'.forms with ⟨y, rfl⟩ | ⟨op', left', right', -, -, rfl⟩ | ⟨f', arg', -, rfl⟩
    · obtain ⟨hplain, hends⟩ := literalText_append_inj hrest hrest' heq
      exact ⟨by rw [plain, plain, hplain], hends⟩
    · rw [text_binary] at heq
      exact absurd heq (literalText_append_ne hrest (not_ends_paren _))
    · rw [text_call, List.append_assoc] at heq
      exact absurd heq (literalText_append_ne hrest (not_ends_name f' _))
  · intro tree' h' rest rest' hrest hrest' heq
    rw [text_binary] at heq
    rcases h'.forms with ⟨y, rfl⟩ | ⟨op', left', right', hleft', hright', rfl⟩ | ⟨f', arg', -, rfl⟩
    · exact absurd heq.symm (literalText_append_ne hrest' (not_ends_paren _))
    · rw [text_binary] at heq
      simp only [List.cons_append, List.append_assoc, List.cons.injEq, true_and] at heq
      obtain ⟨hleft, hmiddle⟩ := ihleft left' hleft' _ _ (ends_cons.mpr (.inl rfl))
        (ends_cons.mpr (.inl rfl)) heq
      obtain ⟨rfl, hlater⟩ := Grammar.symbol_append_inj (List.cons.inj hmiddle).2
      obtain ⟨hright, hends⟩ := ihright right' hright' _ _ (ends_cons.mpr (.inr rfl))
        (ends_cons.mpr (.inr rfl)) (List.cons.inj hlater).2
      exact ⟨by rw [plain_binary, plain_binary, hleft, hright], (List.cons.inj hends).2⟩
    · rw [text_call, List.append_assoc] at heq
      exact absurd heq (Grammar.paren_ne_name f' _ _)
  · intro tree' h' rest rest' hrest hrest' heq
    rw [text_call, List.append_assoc] at heq
    rcases h'.forms with ⟨y, rfl⟩ | ⟨op', left', right', -, -, rfl⟩ | ⟨f', arg', harg', rfl⟩
    · exact absurd heq.symm (literalText_append_ne hrest' (not_ends_name f _))
    · rw [text_binary] at heq
      exact absurd heq.symm (Grammar.paren_ne_name f _ _)
    · rw [text_call, List.append_assoc] at heq
      obtain ⟨rfl, hinner⟩ := Grammar.name_append_inj heq
      simp only [List.cons_append, List.append_assoc, List.cons.injEq, true_and] at hinner
      obtain ⟨harg, hends⟩ := ih arg' harg' _ _ (ends_cons.mpr (.inr rfl))
        (ends_cons.mpr (.inr rfl)) hinner
      exact ⟨by rw [plain_call, plain_call, harg], (List.cons.inj hends).2⟩

/-- Two expressions are printed alike exactly if they are the same up to the signs of zeros. -/
theorem text_eq_iff {tree tree' : Expr} (h : tree.WellFormed) (h' : tree'.WellFormed) :
    tree.text = tree'.text ↔ tree.plain = tree'.plain := by
  constructor
  · intro heq
    exact (text_append_inj h tree' h' [] [] ends_nil ends_nil (by rw [heq])).1
  · intro heq
    rw [← text_plain, heq, text_plain]

/-! ### The signs of zeros -/

mutual

theorem literals_plain : ∀ tree : Expr, tree.plain.literals = tree.literals.map Double.plain
  | literal x => by rw [plain, literals, literals, List.map_singleton]
  | apply name args => by rw [plain, literals, literals, argLiterals_plainArgs args]

theorem argLiterals_plainArgs :
    ∀ args : List Expr, argLiterals (plainArgs args) = (argLiterals args).map Double.plain
  | [] => rfl
  | arg :: rest => by
    rw [plainArgs, argLiterals, argLiterals, List.map_append, literals_plain arg,
      argLiterals_plainArgs rest]

end

mutual

/-- A tree is known by its numbers and what is left of it without the signs of zeros. -/
theorem eq_of_plain_eq :
    ∀ {a b : Expr}, a.plain = b.plain → a.literals = b.literals → a = b
  | literal x, literal y, _, hliterals => by simpa [literals] using hliterals
  | literal _, apply _ _, hplain, _ => by simp [plain] at hplain
  | apply _ _, literal _, hplain, _ => by simp [plain] at hplain
  | apply name args, apply name' args', hplain, hliterals => by
    simp only [plain, apply.injEq] at hplain
    rw [hplain.1, args_eq_of_plainArgs_eq hplain.2 hliterals]

theorem args_eq_of_plainArgs_eq : ∀ {xs ys : List Expr}, plainArgs xs = plainArgs ys →
    argLiterals xs = argLiterals ys → xs = ys
  | [], [], _, _ => rfl
  | [], _ :: _, hplain, _ => by simp [plainArgs] at hplain
  | _ :: _, [], hplain, _ => by simp [plainArgs] at hplain
  | x :: xs, y :: ys, hplain, hliterals => by
    simp only [plainArgs, List.cons.injEq] at hplain
    have hlength : x.literals.length = y.literals.length := by
      have hmapped := congrArg List.length (congrArg literals hplain.1)
      rwa [literals_plain, literals_plain, List.length_map, List.length_map] at hmapped
    obtain ⟨hfirst, hrest⟩ := List.append_inj hliterals hlength
    rw [eq_of_plain_eq hplain.1 hfirst, args_eq_of_plainArgs_eq hplain.2 hrest]

end

theorem isZero_plain (x : Double) : x.plain.isZero = x.isZero := by
  rw [Double.plain]
  split
  · next hzero => rw [hzero]; rfl
  · rfl

/-- Numbers are the same if they are up to the signs of zeros and the zeros are. -/
theorem eq_of_zeros_eq : ∀ {xs ys : List Double}, xs.map Double.plain = ys.map Double.plain →
    xs.filter Double.isZero = ys.filter Double.isZero → xs = ys
  | [], [], _, _ => rfl
  | [], _ :: _, hplain, _ => by simp at hplain
  | _ :: _, [], hplain, _ => by simp at hplain
  | x :: xs, y :: ys, hplain, hzeros => by
    obtain ⟨hfirst, hrest⟩ := List.cons.inj hplain
    have hkind : x.isZero = y.isZero := by rw [← isZero_plain, hfirst, isZero_plain]
    cases hzero : x.isZero with
    | true =>
      rw [List.filter_cons_of_pos hzero, List.filter_cons_of_pos (hkind ▸ hzero)] at hzeros
      obtain ⟨hsame, hzeros⟩ := List.cons.inj hzeros
      rw [hsame, eq_of_zeros_eq hrest hzeros]
    | false =>
      have hzero' : y.isZero = false := hkind ▸ hzero
      rw [List.filter_cons_of_neg (by simp [hzero]), List.filter_cons_of_neg (by simp [hzero'])]
        at hzeros
      rw [Double.plain, Double.plain, hzero, hzero'] at hfirst
      rw [eq_of_zeros_eq hrest hzeros]
      exact congrArg (· :: ys) hfirst

theorem eq_of_text_eq {tree tree' : Expr} (h : tree.WellFormed) (h' : tree'.WellFormed)
    (htext : tree.text = tree'.text)
    (hzeros : tree.literals.filter Double.isZero = tree'.literals.filter Double.isZero) :
    tree = tree' := by
  have hplain := (text_eq_iff h h').mp htext
  have hliterals := congrArg literals hplain
  rw [literals_plain, literals_plain] at hliterals
  exact eq_of_plain_eq hplain (eq_of_zeros_eq hliterals hzeros)

/-! ### Equality -/

mutual

/-- Without `nan`, trees are equal if they are the same up to the signs of zeros. -/
theorem equals_iff_plain_eq : ∀ {a b : Expr}, (∀ x ∈ a.literals, x.isNaN = false) →
    (a.equals b = true ↔ a.plain = b.plain)
  | literal x, literal y, hnumbers => by
    rw [equals, plain, plain, literal.injEq,
      Double.equals_iff_plain_eq (hnumbers x (by rw [literals]; exact List.mem_singleton_self x))]
  | literal _, apply _ _, _ => by simp [equals, plain]
  | apply _ _, literal _, _ => by simp [equals, plain]
  | apply name args, apply name' args', hnumbers => by
    rw [literals] at hnumbers
    rw [equals, plain, plain, apply.injEq, Bool.and_eq_true, beq_iff_eq,
      equalArgs_iff_plainArgs_eq hnumbers]

theorem equalArgs_iff_plainArgs_eq : ∀ {xs ys : List Expr},
    (∀ x ∈ argLiterals xs, x.isNaN = false) →
    (equalArgs xs ys = true ↔ plainArgs xs = plainArgs ys)
  | [], [], _ => by simp [equalArgs, plainArgs]
  | [], _ :: _, _ => by simp [equalArgs, plainArgs]
  | _ :: _, [], _ => by simp [equalArgs, plainArgs]
  | x :: xs, y :: ys, hnumbers => by
    rw [argLiterals, List.forall_mem_append] at hnumbers
    rw [equalArgs, plainArgs, plainArgs, List.cons.injEq, Bool.and_eq_true,
      equals_iff_plain_eq hnumbers.1, equalArgs_iff_plainArgs_eq hnumbers.2]

end

theorem text_eq_of_render_eq {tree tree' : Expr} (h : tree.render = tree'.render) :
    tree.text = tree'.text := by
  have hlists := congrArg String.toList h
  rwa [render, render, String.toList_ofList, String.toList_ofList] at hlists

theorem render_eq_iff_plain_eq {tree tree' : Expr} (h : tree.WellFormed) (h' : tree'.WellFormed) :
    tree.render = tree'.render ↔ tree.plain = tree'.plain := by
  rw [← text_eq_iff h h']
  exact ⟨text_eq_of_render_eq, congrArg String.ofList⟩

/-- Expressions without `nan` are printed alike exactly if they are equal. -/
theorem render_eq_iff_equals {tree tree' : Expr} (h : tree.WellFormed) (h' : tree'.WellFormed)
    (hnumbers : ∀ x ∈ tree.literals, x.isNaN = false) :
    tree.render = tree'.render ↔ tree.equals tree' = true := by
  rw [equals_iff_plain_eq hnumbers, render_eq_iff_plain_eq h h']

/-- Two expressions with a zero of either sign and a number that is printed with an exponent. -/
theorem render_eq_iff_equals_zeros :
    ∃ tree tree' : Expr, tree.WellFormed ∧ tree'.WellFormed ∧
      (∀ x ∈ tree.literals, x.isNaN = false) ∧ tree.render = "(0 - sen(1e-05))" ∧
      tree'.render = "(0 - sen(1e-05))" ∧ tree ≠ tree' ∧ tree.equals tree' = true := by
  have hwellFormed : ∀ negative, (binary .sub (literal (.zero negative))
      (call .sine (literal (.ofDecimal false 1 (-5))))).WellFormed := fun negative =>
    wellFormed_binary .sub (.literal _) (wellFormed_call .sine (.literal _))
  have hnumbers : ∀ x ∈ (binary .sub (literal (.zero true))
      (call .sine (literal (.ofDecimal false 1 (-5))))).literals, x.isNaN = false := by
    decide +kernel
  have hrender : ∀ negative, (binary .sub (literal (.zero negative))
      (call .sine (literal (.ofDecimal false 1 (-5))))).render = "(0 - sen(1e-05))" := by
    decide +kernel
  refine ⟨_, _, hwellFormed true, hwellFormed false, hnumbers, hrender true, hrender false, ?_,
    (render_eq_iff_equals (hwellFormed true) (hwellFormed false) hnumbers).mp ?_⟩
  · simp [binary, Double.zero]
  · rw [hrender, hrender]

/-- The comparison of two trees answers whether they are printed alike, if there are not more levels
than it has room for. -/
theorem equals?_eq_some_render {tree tree' : Expr} (h : tree.WellFormed) (h' : tree'.WellFormed)
    (hnumbers : ∀ x ∈ tree.literals, x.isNaN = false) (hdepth : tree.depth ≤ maxDepth) :
    tree.equals? tree' = some (decide (tree.render = tree'.render)) := by
  have hsame := (render_eq_iff_plain_eq h h').trans (equals_iff_plain_eq hnumbers).symm
  have hdecide : decide (tree.equals tree' = true) = decide (tree.render = tree'.render) :=
    decide_eq_decide.mpr hsame.symm
  rw [equals?_eq_some hdepth, ← hdecide, Bool.decide_eq_true]

end Reckoner.Expr
