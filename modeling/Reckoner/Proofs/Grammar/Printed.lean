import Mathlib.Data.List.Chain
import Mathlib.Data.List.Pairwise
import Reckoner.Proofs.Double.Printer
import Reckoner.Proofs.Evaluation.Safety
import Reckoner.Proofs.Grammar.Language

/-!
# Parsing what was printed

Without its blanks, a printed expression is a word of the grammar as soon as its numbers are: every
operator comes with its own parentheses, so precedence never matters. Some numbers are printed in a
form the grammar does not have, with an exponent or as a word. Each of these brings two characters
together that never meet in a word of the grammar, whatever stands around them, so one of them
anywhere keeps the whole from being parsed.
-/

namespace Reckoner

/-! ### Printed trees -/

namespace Expr

mutual

/-- The numbers in a tree, from left to right. -/
def literals : Expr → List Double
  | literal x => [x]
  | apply _ args => argLiterals args

def argLiterals : List Expr → List Double
  | [] => []
  | arg :: rest => arg.literals ++ argLiterals rest

end

/-- The printed tree without its blanks. -/
def compactText (tree : Expr) : Text := tree.text.filter (· != ' ')

/-- A well-formed tree is a number, an operator between two trees or a function of one. -/
@[elab_as_elim]
theorem WellFormed.shape {motive : Expr → Prop} (literal : ∀ x, motive (.literal x))
    (binary : ∀ op left right, motive left → motive right → motive (.binary op left right))
    (call : ∀ f arg, motive arg → motive (.call f arg)) {tree : Expr} (h : tree.WellFormed) :
    motive tree := by
  induction h with
  | literal x => exact literal x
  | @apply name args harity _ ih =>
    rcases symbol_or_name_of_arity? harity with ⟨op, rfl, hlength⟩ | ⟨f, rfl, hlength⟩
    · obtain ⟨left, right, rfl⟩ := List.length_eq_two.mp hlength
      exact binary op left right (ih left (by simp)) (ih right (by simp))
    · obtain ⟨arg, rfl⟩ := List.length_eq_one_iff.mp hlength
      exact call f arg (ih arg (by simp))

theorem literals_binary (op : Operator) (left right : Expr) :
    (binary op left right).literals = left.literals ++ right.literals := by
  simp [binary, literals, argLiterals]

theorem literals_call (f : Trig) (arg : Expr) : (call f arg).literals = arg.literals := by
  simp [call, literals, argLiterals]

theorem compactText_literal (x : Double) : (literal x).compactText = x.literalText := by
  rw [compactText, text, List.filter_eq_self]
  intro c hc
  have hcharacters : Double.printedCharacters.all (· != ' ') = true := by decide
  exact List.all_eq_true.mp hcharacters c (x.literalText_subset hc)

theorem compactText_binary (op : Operator) (left right : Expr) :
    (binary op left right).compactText =
      ['('] ++ (left.compactText ++ op.symbol.toList ++ right.compactText) ++ [')'] := by
  have hop : Operator.ofSymbol? op.symbol = some op := by cases op <;> decide
  have hsymbol : op.symbol.toList.filter (· != ' ') = op.symbol.toList := by cases op <;> decide
  simp [compactText, binary, text, argTexts, applicationText, hop, hsymbol]

theorem compactText_call (f : Trig) (arg : Expr) :
    (call f arg).compactText = f.name.toList ++ ['('] ++ arg.compactText ++ [')'] := by
  have hop : Operator.ofSymbol? f.name = none := by cases f <;> decide
  have hname : f.name.toList.filter (· != ' ') = f.name.toList := by cases f <;> decide
  simp [compactText, call, text, argTexts, applicationText, hop, hname]

end Expr

/-- What is printed in a form the grammar has: a finite number that is zero or not below the one
nearest to a ten-thousandth. -/
def Double.Readable (x : Double) : Prop :=
  x.isFinite = true ∧ (x.isZero = true ∨ (Double.ofDecimal false 1 (-4)).units ≤ x.units)

instance (x : Double) : Decidable x.Readable := inferInstanceAs (Decidable (_ ∧ _))

namespace Grammar

/-! ### Words -/

/-- A number in a form the grammar has is one of its words. -/
theorem derives_literalText {x : Double} (h : x.Readable) :
    ∃ y, Derives .number x.literalText (.literal y) ∧ y.equals x = true := by
  cases hintegral : x.isIntegral with
  | true =>
    obtain ⟨negative, n, htext, hequals⟩ := Double.literalText_of_isIntegral hintegral
    refine ⟨_, ?_, hequals⟩
    have hderives := Derives.numeral (Double.sign_signText negative) (Double.isDigits_ofNat n) .none
    rw [List.append_nil, List.append_nil, Text.digitsValue_ofNat] at hderives
    rw [htext]
    exact hderives
  | false =>
    obtain ⟨hfinite, hlarge⟩ := h
    cases x with
    | nan => cases hfinite
    | infinity negative => cases hfinite
    | finite negative m e hcanonical =>
      have hpos := (Double.pos_and_lt_of_not_isIntegral hintegral).1
      have hunits := hlarge.resolve_left (by simp [Double.isZero]; omega)
      obtain ⟨text, decimal, htext, ⟨whole, fraction, rfl, hwhole, hfraction, hvalue⟩, hread⟩ :=
        Double.literalText_writesOut hintegral hunits
      refine ⟨_, ?_, Double.equals_of_signedUnits rfl⟩
      have hderives := Derives.numeral (Double.sign_signText negative) hwhole (.point hfraction)
      rw [htext, ← hread, ← Double.Decimal.read_congr negative hvalue, ← List.append_assoc]
      exact hderives

theorem equals_binary {op : Operator} {left left' right right' : Expr}
    (hleft : left'.equals left = true) (hright : right'.equals right = true) :
    (Expr.binary op left' right').equals (.binary op left right) = true := by
  simp [Expr.binary, Expr.equals, Expr.equalArgs, hleft, hright]

theorem derives_binary {op : Operator} {v w : Text} {left right : Expr}
    (hleft : Derives .factor v left) (hright : Derives .factor w right) :
    Derives .expression (v ++ op.symbol.toList ++ w) (.binary op left right) := by
  cases op with
  | add => exact .additive (.inl rfl) (.factor hleft) (.factor hright)
  | sub => exact .additive (.inr rfl) (.factor hleft) (.factor hright)
  | mul => exact .term (.multiplicative (.inl rfl) hleft hright)
  | div => exact .term (.multiplicative (.inr (.inl rfl)) hleft hright)
  | mod => exact .term (.multiplicative (.inr (.inr rfl)) hleft hright)

theorem derives_compactText {tree : Expr} (h : tree.WellFormed) :
    (∀ x ∈ tree.literals, x.Readable) →
      ∃ found, Derives .factor tree.compactText found ∧ found.equals tree = true := by
  refine Expr.WellFormed.shape (fun x => ?_) (fun op left right ihleft ihright => ?_)
    (fun f arg ih => ?_) h
  · intro hreadable
    obtain ⟨y, hderives, hequals⟩ := derives_literalText (hreadable x (by simp [Expr.literals]))
    rw [Expr.compactText_literal]
    exact ⟨.literal y, .number hderives, by rwa [Expr.equals]⟩
  · intro hreadable
    rw [Expr.literals_binary] at hreadable
    obtain ⟨left', hleft, hequalsLeft⟩ := ihleft fun x hx => hreadable x (by simp [hx])
    obtain ⟨right', hright, hequalsRight⟩ := ihright fun x hx => hreadable x (by simp [hx])
    rw [Expr.compactText_binary]
    exact ⟨_, .parens (derives_binary hleft hright), equals_binary hequalsLeft hequalsRight⟩
  · intro hreadable
    rw [Expr.literals_call] at hreadable
    obtain ⟨arg', harg, hequals⟩ := ih hreadable
    rw [Expr.compactText_call]
    refine ⟨_, .call (.application (.term (.factor harg))), ?_⟩
    simp [Expr.call, Expr.equals, Expr.equalArgs, hequals]

/-! ### Neighbours -/

/-- Whether two characters may stand next to each other in a word: no exponent follows a digit, and
the words for infinities and for `nan` do not occur. -/
def canMeet (a b : Char) : Bool :=
  !(Text.isDigit a && b == 'e') && !(a == 'i' && b == 'n') && !(a == 'n' && b == 'a')

/-- Operators and parentheses, which may stand next to anything. -/
def joints : Text := "()+-*/%".toList

theorem canMeet_of_mem_joints {joint : Char} (h : joint ∈ joints) (c : Char) :
    canMeet c joint = true ∧ canMeet joint c = true := by
  have hdigits : joints.all (!Text.isDigit ·) = true := by decide
  have hletters : joints.all (· ∉ ['e', 'n', 'a', 'i']) = true := by decide
  have hdigit := List.all_eq_true.mp hdigits joint h
  have hletter := List.all_eq_true.mp hletters joint h
  simp only [List.mem_cons, List.not_mem_nil, or_false, not_or, decide_eq_true_eq] at hletter
  simp_all [canMeet]

/-- Every two neighbours in the text may stand next to each other. -/
def Joined (text : Text) : Prop := text.IsChain (canMeet · · = true)

instance (text : Text) : Decidable (Joined text) :=
  inferInstanceAs (Decidable (text.IsChain (canMeet · · = true)))

theorem Joined.join {before after : Text} {joint : Char} (hbefore : Joined before)
    (hafter : Joined after) (h : joint ∈ joints) : Joined (before ++ [joint] ++ after) := by
  have hend : Joined (before ++ [joint]) := by
    refine hbefore.append (.singleton joint) fun c _ c' hc' => ?_
    obtain rfl := Option.some.inj hc'
    exact (canMeet_of_mem_joints h c).1
  refine hend.append hafter fun c hc c' _ => ?_
  rw [List.getLast?_concat, Option.mem_some_iff] at hc
  obtain rfl := hc
  exact (canMeet_of_mem_joints h c').2

theorem Joined.enclose {before inner : Text} (hbefore : Joined before) (hinner : Joined inner) :
    Joined (before ++ ['('] ++ inner ++ [')']) := by
  have hopen : '(' ∈ joints := by decide
  have hclose : ')' ∈ joints := by decide
  have hjoined := (hbefore.join hinner hopen).join .nil hclose
  rwa [List.append_nil] at hjoined

theorem Joined.operator {v w : Text} (op : Operator) (hv : Joined v) (hw : Joined w) :
    Joined (v ++ op.symbol.toList ++ w) := by
  have hsubset : op.symbol.toList ⊆ joints := by cases op <;> decide
  obtain ⟨c, hc⟩ := symbol_toList op
  rw [hc] at hsubset ⊢
  exact hv.join hw (hsubset List.mem_cons_self)

/-- The characters that may not follow any other, of which numbers have none. -/
theorem joined_of_forall {text : Text} (h : ∀ c ∈ text, c ≠ 'e' ∧ c ≠ 'n' ∧ c ≠ 'a') :
    Joined text := by
  refine List.Pairwise.isChain (List.pairwise_of_forall_mem_list fun a _ b hb => ?_)
  obtain ⟨he, hn, ha⟩ := h b hb
  simp [canMeet, he, hn, ha]

theorem ne_of_isDigit {c : Char} (h : Text.isDigit c = true) : c ≠ 'e' ∧ c ≠ 'n' ∧ c ≠ 'a' := by
  refine ⟨?_, ?_, ?_⟩ <;> (rintro rfl; exact absurd h (by decide))

theorem joined_numeral {sign whole point fraction : Text} {negative : Bool}
    (hsign : Sign sign negative) (hwhole : IsDigits whole) (hpoint : Fraction point fraction) :
    Joined (sign ++ whole ++ point) := by
  refine joined_of_forall fun c hc => ?_
  rw [List.mem_append, List.mem_append] at hc
  rcases hc with (hc | hc) | hc
  · cases hsign with
    | none => cases hc
    | plus =>
      obtain rfl := List.mem_singleton.mp hc
      decide
    | minus =>
      obtain rfl := List.mem_singleton.mp hc
      decide
  · exact ne_of_isDigit (hwhole.2 c hc)
  · cases hpoint with
    | none => cases hc
    | point hdigits =>
      rcases List.mem_cons.mp hc with rfl | hc
      · decide
      · exact ne_of_isDigit (hdigits.2 c hc)

theorem joined_of_derives {n : Nonterminal} {w : Text} {tree : Expr} (h : Derives n w tree) :
    Joined w := by
  induction h with
  | term _ ih => exact ih
  | additive _ _ _ ihleft ihright => exact ihleft.operator _ ihright
  | factor _ ih => exact ih
  | multiplicative _ _ _ ihleft ihright => exact ihleft.operator _ ihright
  | number _ ih => exact ih
  | constant _ ih => exact ih
  | parens _ ih => exact Joined.enclose .nil ih
  | call _ ih => exact ih
  | @application f w arg _ ih =>
    have hname : Joined f.name.toList := by cases f <;> decide
    exact hname.enclose ih
  | numeral hsign hwhole hpoint => exact joined_numeral hsign hwhole hpoint
  | smallPi => decide
  | bigPi => decide
  | e => decide

theorem not_joined {before after : Text} {a b : Char} (h : canMeet a b = false) :
    ¬ Joined (before ++ a :: b :: after) := by
  intro hjoined
  have hmeet := (List.isChain_append_cons_cons.mp hjoined).2.1
  rw [h] at hmeet
  cases hmeet

theorem readable_of_isIntegral {x : Double} (h : x.isIntegral = true) : x.Readable := by
  obtain ⟨hfinite, hwhole⟩ := Double.isIntegral_iff.mp h
  refine ⟨hfinite, ?_⟩
  cases x with
  | nan => cases hfinite
  | infinity negative => cases hfinite
  | finite negative m e hcanonical =>
    rcases Nat.eq_zero_or_pos m with rfl | hpos
    · exact .inl rfl
    · have hone : (Double.ofDecimal false 1 (-4)).units ≤ Double.unitsPerOne := by decide +kernel
      have hunits := Nat.mul_pos hpos (Nat.two_pow_pos e)
      exact .inr (Nat.le_trans hone (Nat.le_of_dvd hunits (Nat.dvd_of_mod_eq_zero hwhole)))

/-- A number in any other form brings two characters together that never meet in a word. -/
theorem readable_of_joined {x : Double} (h : Joined x.literalText) : x.Readable := by
  cases x with
  | nan => exact absurd h (by decide)
  | infinity negative =>
    cases negative with
    | false => exact absurd h (by decide)
    | true => exact absurd h (by decide)
  | finite negative m e hcanonical =>
    cases hintegral : (Double.finite negative m e hcanonical).isIntegral with
    | true => exact readable_of_isIntegral hintegral
    | false =>
      refine ⟨rfl, .inr (Nat.le_of_not_lt fun hsmall => ?_)⟩
      obtain ⟨before, c, after, htext, hc⟩ := Double.literalText_mark hintegral hsmall
      rw [htext] at h
      exact not_joined (by simp [canMeet, hc]) h

theorem readable_of_joined_compactText {tree : Expr} (h : tree.WellFormed) :
    Joined tree.compactText → ∀ x ∈ tree.literals, x.Readable := by
  refine Expr.WellFormed.shape (fun x => ?_) (fun op left right ihleft ihright => ?_)
    (fun f arg ih => ?_) h
  · intro hjoined y hy
    obtain rfl := List.mem_singleton.mp hy
    rw [Expr.compactText_literal] at hjoined
    exact readable_of_joined hjoined
  · intro hjoined x hx
    rw [Expr.compactText_binary] at hjoined
    have hinner := hjoined.left_of_append.right_of_append
    rw [Expr.literals_binary, List.mem_append] at hx
    rcases hx with hx | hx
    · exact ihleft hinner.left_of_append.left_of_append x hx
    · exact ihright hinner.right_of_append x hx
  · intro hjoined
    rw [Expr.compactText_call] at hjoined
    rw [Expr.literals_call]
    exact ih hjoined.left_of_append.right_of_append

/-! ### Parsing -/

theorem parse_strict_eq_success_iff {source : Text}
    (h : parse true source ≠ .failure (nestingFailure source)) {tree : Expr} {rest : Text} :
    parse true source = .success tree rest ↔ rest = [] ∧ Derives .expression source tree := by
  have hopen : openAtOnce source ≤ maxNesting := by
    by_contra hdeep
    rw [parse_eq, if_neg hdeep] at h
    exact h rfl
  rw [parse_eq, if_pos hopen, Reading.outcome_ofOutcome_eq_success_iff,
    (best_unlimited source).success_iff]
  constructor
  · rintro ⟨hlongest, hall⟩
    obtain rfl := hall rfl
    exact ⟨rfl, startsAtLongest_nil_iff.mp hlongest⟩
  · rintro ⟨rfl, hderives⟩
    exact ⟨startsAtLongest_nil_iff.mpr hderives, fun _ => rfl⟩

/-- A printed tree without its blanks can be parsed exactly if all of its numbers are printed in a
form the grammar has, and then parsing gives the tree back, up to the sign of zeros. -/
theorem parse_compactText_iff_readable {tree : Expr} (h : tree.WellFormed)
    (hdepth : parse true tree.compactText ≠ .failure (nestingFailure tree.compactText)) :
    ((∃ found rest, parse true tree.compactText = .success found rest) ↔
      ∀ x ∈ tree.literals, x.Readable) ∧
    ∀ found rest, parse true tree.compactText = .success found rest →
      rest = [] ∧ found.equals tree = true := by
  have hback : ∀ found, Derives .expression tree.compactText found →
      (∀ x ∈ tree.literals, x.Readable) ∧ found.equals tree = true := by
    intro found hfound
    have hreadable := readable_of_joined_compactText h (joined_of_derives hfound)
    obtain ⟨printed, hprinted, hequals⟩ := derives_compactText h hreadable
    have hsame : found = printed :=
      (best_unlimited _).tree_unique (.term (.factor hprinted)) hfound
    exact ⟨hreadable, hsame ▸ hequals⟩
  constructor
  · constructor
    · rintro ⟨found, rest, hparse⟩
      exact (hback found ((parse_strict_eq_success_iff hdepth).mp hparse).2).1
    · intro hreadable
      obtain ⟨found, hderives, -⟩ := derives_compactText h hreadable
      exact ⟨found, [], (parse_strict_eq_success_iff hdepth).mpr
        ⟨rfl, .term (.factor hderives)⟩⟩
  · intro found rest hparse
    obtain ⟨hrest, hderives⟩ := (parse_strict_eq_success_iff hdepth).mp hparse
    exact ⟨hrest, (hback found hderives).2⟩

/-- A negative zero less the negative of the least number with a fraction that can be read back. -/
theorem parse_compactText_iff_readable_least :
    (Expr.binary .sub (.literal (.zero true)) (.literal (.ofDecimal true 1 (-4)))).compactText =
        "(0--0.0001)".toList ∧
      parse true "(0--0.0001)".toList ≠ .failure (nestingFailure "(0--0.0001)".toList) ∧
      ∃ found rest, parse true "(0--0.0001)".toList = .success found rest ∧
        found.equals (.binary .sub (.literal (.zero true)) (.literal (.ofDecimal true 1 (-4)))) =
          true := by
  have htext : (Expr.binary .sub (.literal (.zero true))
      (.literal (.ofDecimal true 1 (-4)))).compactText = "(0--0.0001)".toList := by decide +kernel
  have hwellFormed : (Expr.binary .sub (.literal (.zero true))
      (.literal (.ofDecimal true 1 (-4)))).WellFormed := by
    refine .apply rfl fun arg harg => ?_
    rcases List.mem_pair.mp harg with rfl | rfl
    · exact .literal _
    · exact .literal _
  have hother : (parse true "(0--0.0001)".toList).map (fun _ => ()) ≠
      .failure (nestingFailure "(0--0.0001)".toList) := by decide +kernel
  have hdepth :
      parse true "(0--0.0001)".toList ≠ .failure (nestingFailure "(0--0.0001)".toList) := by
    intro heq
    rw [heq] at hother
    exact hother rfl
  have hreadable : ∀ x ∈ [Double.zero true, .ofDecimal true 1 (-4)], x.Readable := by
    decide +kernel
  obtain ⟨hiff, hequals⟩ := parse_compactText_iff_readable hwellFormed (htext ▸ hdepth)
  rw [htext] at hiff hequals
  obtain ⟨found, rest, hparse⟩ := hiff.mpr hreadable
  exact ⟨htext, hdepth, found, rest, hparse, (hequals found rest hparse).2⟩

end Grammar

end Reckoner
