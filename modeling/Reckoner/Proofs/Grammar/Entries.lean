import Reckoner.Proofs.Grammar.Nesting

/-!
# No text is looked at for a nested expression twice

The rules try one thing after another on the same text, and each operator level starts over behind
its first operand, yet nested expressions are looked for from left to right only. What a rule leaves
lies behind everything it has entered, with one exception: an operator whose second operand failed is
left where it stands. Nothing is entered from there any more. The levels around it do not take the
operator, and a parenthesis that should close in front of it does not, so the failure goes up to the
next operator that is given up.
-/

namespace Reckoner.Grammar

open Reckoner.Parser (StaysWithin translated gives_literal_success gives_literal_failure)

/-! ### Texts in the order in which they are entered -/

namespace Visit

mutual

/-- The text of a visit, then those of the visits inside it. -/
def entered : Visit → List Text
  | visit text inside => text :: enteredAll inside

def enteredAll : List Visit → List Text
  | [] => []
  | v :: rest => v.entered ++ enteredAll rest

end

@[simp] theorem enteredAll_nil : enteredAll [] = [] := rfl

@[simp] theorem enteredAll_append (before after : List Visit) :
    enteredAll (before ++ after) = enteredAll before ++ enteredAll after := by
  induction before with
  | nil => rfl
  | cons v rest ih => rw [List.cons_append, enteredAll, ih, enteredAll, List.append_assoc]

end Visit

/-- The texts at the front of which the parser without a limit looks for a nested expression while
it reads the source, in the order in which it does. -/
def entries (source : Text) : List Text :=
  Visit.enteredAll (recordedExpression source).visits

/-! ### What a parser enters -/

namespace Recorded

variable {α β : Type}

/-- The run gives the value and enters these texts, in this order. -/
def Entering (x : Recorded α) (entries : List Text) (value : α) : Prop :=
  x.value = value ∧ Visit.enteredAll x.visits = entries

theorem entering_pure {a value : α} {entries : List Text}
    (h : (pure a : Recorded α).Entering entries value) : value = a ∧ entries = [] :=
  ⟨h.1.symm, h.2.symm⟩

theorem entering_bind {x : Recorded α} {f : α → Recorded β} {entries : List Text} {value : β}
    (h : (x >>= f).Entering entries value) :
    ∃ a before after, x.Entering before a ∧ (f a).Entering after value ∧
      entries = before ++ after := by
  obtain ⟨hvalue, hvisits⟩ := h
  exact ⟨x.value, _, _, ⟨rfl, rfl⟩, ⟨hvalue, rfl⟩,
    hvisits.symm.trans (Visit.enteredAll_append _ _)⟩

/-- A run without visits, among the runs that can have some. -/
def ofId : Translation Id Recorded where
  apply x := pure x.run
  apply_pure _ := rfl
  apply_bind _ _ := rfl

end Recorded

/-- A run of the parser on the text ends in the outcome and enters these texts, in this order. -/
def Enters {α : Type} (p : Parser Recorded α) (text : Text) (entries : List Text)
    (outcome : Outcome α) : Prop :=
  (p text).Entering entries outcome

section

open Recorded (entering_pure entering_bind)

variable {α β : Type} {p q : Parser Recorded α} {text : Text} {entries : List Text}

theorem gives_of_enters {outcome : Outcome α} (h : Enters p text entries outcome) :
    p.Gives text outcome :=
  h.1

/-- A parser that is one without effects enters nothing. -/
theorem enters_translated {plain : Parser Id α} (hplain : translated Recorded.ofId plain = p)
    {outcome : Outcome α} (h : Enters p text entries outcome) : entries = [] := by
  subst hplain
  exact (entering_pure h).2

theorem enters_andThen {next : α → Parser Recorded β} {outcome : Outcome β}
    (h : Enters (p.andThen next) text entries outcome) :
    (∃ value rest before after, Enters p text before (.success value rest) ∧
      Enters (next value) rest after outcome ∧ entries = before ++ after) ∨
      ∃ failure, Enters p text entries (.failure failure) ∧ outcome = .failure failure := by
  obtain ⟨first, before, after, hfirst, hthen, rfl⟩ := entering_bind h
  cases first with
  | success value rest => exact .inl ⟨value, rest, before, after, hfirst, hthen, rfl⟩
  | failure failure =>
    obtain ⟨rfl, rfl⟩ := entering_pure hthen
    rw [List.append_nil]
    exact .inr ⟨failure, hfirst, rfl⟩

theorem enters_orElse {outcome : Outcome α} (h : Enters (p.orElse q) text entries outcome) :
    (∃ value rest, Enters p text entries (.success value rest) ∧ outcome = .success value rest) ∨
      ∃ failure before after, Enters p text before (.failure failure) ∧
        Enters q text after outcome ∧ entries = before ++ after := by
  obtain ⟨first, before, after, hfirst, hthen, rfl⟩ := entering_bind h
  cases first with
  | success value rest =>
    obtain ⟨rfl, rfl⟩ := entering_pure hthen
    rw [List.append_nil]
    exact .inl ⟨value, rest, hfirst, rfl⟩
  | failure failure => exact .inr ⟨failure, before, after, hfirst, hthen, rfl⟩

theorem enters_map {f : α → β} {outcome : Outcome β} (h : Enters (p.map f) text entries outcome) :
    ∃ first, Enters p text entries first ∧ outcome = first.map f := by
  obtain ⟨first, before, after, hfirst, hthen, rfl⟩ := entering_bind h
  obtain ⟨rfl, rfl⟩ := entering_pure hthen
  rw [List.append_nil]
  exact ⟨first, hfirst, rfl⟩

theorem enters_visiting {nested : Parser Recorded Expr} {outcome : Outcome Expr}
    (h : Enters (visiting nested) text entries outcome) :
    ∃ inside, Enters nested text inside outcome ∧ entries = text :: inside := by
  obtain ⟨hvalue, hvisits⟩ := h
  exact ⟨_, ⟨hvalue, rfl⟩, hvisits.symm.trans (List.append_nil _)⟩

/-! ### What the rules enter -/

variable {nested operand : Parser Recorded Expr} {outcome : Outcome Expr}

/-- Nothing is entered unless the parenthesis opens, and then what is behind it comes first. -/
theorem enters_betweenParens (h : Enters (betweenParens (visiting nested)) text entries outcome) :
    (∀ inner, text ≠ '(' :: inner) ∧ entries = [] ∧ (∃ why, outcome = .failure why) ∨
      ∃ inner inside first, text = '(' :: inner ∧ Enters nested inner inside first ∧
        entries = inner :: inside ∧
          ∀ tree rest, outcome = .success tree rest → first = .success tree (')' :: rest) := by
  rcases enters_andThen h with ⟨_, inner, before, after, hopen, hinside, rfl⟩ | ⟨why, hopen, rfl⟩
  · obtain rfl : text = '(' :: inner := gives_literal_success (gives_of_enters hopen)
    obtain rfl := enters_translated (Parser.translated_literal _ _) hopen
    refine .inr ?_
    rcases enters_andThen hinside with
      ⟨found, left, entered, closing, hfound, hclose, rfl⟩ | ⟨why, hfailed, rfl⟩
    · obtain ⟨inside, hnested, rfl⟩ := enters_visiting hfound
      obtain ⟨first, hclosed, rfl⟩ := enters_map hclose
      obtain rfl := enters_translated (Parser.translated_literal _ _) hclosed
      refine ⟨inner, inside, _, rfl, hnested, by simp, fun tree rest heq => ?_⟩
      cases first with
      | success value rest' =>
        obtain ⟨rfl, rfl⟩ := Outcome.success.inj heq
        rw [gives_literal_success (gives_of_enters hclosed)]
        rfl
      | failure why => cases heq
    · obtain ⟨inside, hnested, rfl⟩ := enters_visiting hfailed
      exact ⟨inner, inside, _, rfl, hnested, rfl, fun _ _ heq => nomatch heq⟩
  · obtain rfl := enters_translated (Parser.translated_literal _ _) hopen
    exact .inl ⟨(gives_literal_failure (gives_of_enters hopen)).1, rfl, why, rfl⟩

/-- A call enters what the parentheses behind its name do. -/
theorem enters_call (h : Enters (call (visiting nested)) text entries outcome) :
    entries = [] ∧ (∃ why, outcome = .failure why) ∨
      ∃ (f : Trig) (later : Text) (first : Outcome Expr), text = f.name.toList ++ later ∧
        Enters (betweenParens (visiting nested)) later entries first ∧
          outcome = first.map (.call f) := by
  rcases enters_andThen h with ⟨f, later, before, after, hname, hparens, rfl⟩ | ⟨why, hname, rfl⟩
  · obtain rfl := enters_translated (translated_functionName _) hname
    obtain ⟨first, hfirst, rfl⟩ := enters_map hparens
    refine .inr ⟨f, later, first, ?_, hfirst, rfl⟩
    rcases gives_keyword (gives_of_enters hname) with ⟨g, rest, htext, heq⟩ | ⟨⟨why, heq⟩, -⟩
    · obtain ⟨rfl, rfl⟩ := Outcome.success.inj heq
      exact htext
    · cases heq
  · obtain rfl := enters_translated (translated_functionName _) hname
    exact .inl ⟨rfl, why, rfl⟩

/-- Behind an allowed operator the second operand is entered, and else nothing is. -/
theorem enters_second {allowed : Operator → Bool} {message : String} {first : Expr}
    (h : Enters ((binaryOperator.filter allowed message).andThen fun op =>
      operand.map fun second => .binary op first second) text entries outcome) :
    (∃ op later second, allowed op = true ∧ text = op.symbol.toList ++ later ∧
      Enters operand later entries second ∧ outcome = second.map (.binary op first)) ∨
      entries = [] ∧ ∃ why, outcome = .failure why := by
  have hsilent : translated Recorded.ofId (binaryOperator.filter allowed message) =
      binaryOperator.filter allowed message := by simp
  rcases enters_andThen h with ⟨op, later, before, after, hop, hmapped, rfl⟩ | ⟨why, hop, rfl⟩
  · obtain rfl := enters_translated hsilent hop
    obtain ⟨second, hsecond, rfl⟩ := enters_map hmapped
    rcases gives_allowed (gives_of_enters hop) with
      ⟨found, rest, hallowed, htext, heq⟩ | ⟨⟨why, heq⟩, -⟩
    · obtain ⟨rfl, rfl⟩ := Outcome.success.inj heq
      exact .inl ⟨op, later, second, hallowed, htext, hsecond, rfl⟩
    · cases heq
  · exact .inr ⟨enters_translated hsilent hop, why, rfl⟩

/-- The second operand is entered whether or not it is there in the end. -/
theorem enters_singleApplication {allowed : Operator → Bool} {message : String}
    (h : Enters (singleApplication operand allowed message) text entries outcome) :
    (∃ why, Enters operand text entries (.failure why) ∧ outcome = .failure why) ∨
      ∃ first rest before, Enters operand text before (.success first rest) ∧
        ((∃ op later after second, allowed op = true ∧ rest = op.symbol.toList ++ later ∧
          Enters operand later after second ∧ entries = before ++ after ∧
            (outcome = second.map (.binary op first) ∨ outcome = .success first rest)) ∨
          entries = before ∧ outcome = .success first rest) := by
  rcases enters_andThen h with ⟨first, rest, before, rest', hfirst, hthen, rfl⟩ | hfailed
  · refine .inr ⟨first, rest, before, hfirst, ?_⟩
    rcases enters_orElse hthen with
      ⟨tree, left, hboth, rfl⟩ | ⟨why, tried, fallback, hneither, hfallback, rfl⟩
    · rcases enters_second hboth with ⟨op, later, second, hop, hrest, hsecond, heq⟩ | ⟨-, why, heq⟩
      · exact .inl ⟨op, later, _, second, hop, hrest, hsecond, rfl, .inl heq⟩
      · cases heq
    · obtain ⟨houtcome, rfl⟩ := Recorded.entering_pure hfallback
      rw [List.append_nil]
      rcases enters_second hneither with ⟨op, later, second, hop, hrest, hsecond, -⟩ | ⟨rfl, -⟩
      · exact .inl ⟨op, later, tried, second, hop, hrest, hsecond, rfl, .inr houtcome⟩
      · exact .inr ⟨List.append_nil before, houtcome⟩
  · exact .inl hfailed

end

/-! ### Entering from left to right -/

/-- The entered texts lie behind openings of the text, each further on than the ones before. -/
structure InOrder (text : Text) (entries : List Text) : Prop where
  descending : entries.Pairwise fun earlier later => later.length < earlier.length
  behind_opening : ∀ entry ∈ entries, '(' :: entry <:+ text

namespace InOrder

variable {text rest later inner : Text} {before after entries : List Text}

theorem nil : InOrder text [] := ⟨.nil, by simp⟩

theorem of_suffix (h : InOrder rest entries) (hrest : rest <:+ text) : InOrder text entries :=
  ⟨h.descending, fun entry hentry => (h.behind_opening entry hentry).trans hrest⟩

theorem length_lt (h : InOrder text entries) : ∀ entry ∈ entries, entry.length < text.length := by
  intro entry hentry
  have hle := (h.behind_opening entry hentry).length_le
  rw [List.length_cons] at hle
  exact hle

/-- Behind an opening comes what is entered inside. -/
theorem opening (h : InOrder inner entries) : InOrder ('(' :: inner) (inner :: entries) := by
  refine ⟨.cons h.length_lt h.descending, List.forall_mem_cons.mpr ⟨List.suffix_rfl, ?_⟩⟩
  intro entry hentry
  exact (h.behind_opening entry hentry).trans (List.suffix_cons _ _)

/-- What is entered in the rest comes after what lies before the rest. -/
theorem append (hbefore : InOrder text before) (hafter : InOrder rest after) (hrest : rest <:+ text)
    (hbehind : ∀ entry ∈ before, rest.length ≤ entry.length) : InOrder text (before ++ after) := by
  constructor
  · refine List.pairwise_append.mpr ⟨hbefore.descending, hafter.descending, ?_⟩
    intro earlier hearlier entry hentry
    exact Nat.lt_of_lt_of_le (hafter.length_lt entry hentry) (hbehind earlier hearlier)
  · intro entry hentry
    rcases List.mem_append.mp hentry with hfirst | hsecond
    · exact hbefore.behind_opening entry hfirst
    · exact (hafter.behind_opening entry hsecond).trans hrest

/-- Texts in order stand behind as many different parentheses. -/
theorem length_le_count (h : InOrder text entries) : entries.length ≤ text.count '(' := by
  induction entries generalizing text with
  | nil => exact Nat.zero_le _
  | cons first entries ih =>
    have hfirst := h.behind_opening first List.mem_cons_self
    obtain ⟨hlater, hdescending⟩ := List.pairwise_cons.mp h.descending
    -- The others are shorter than the first, so their openings are in it.
    have hinside : InOrder first entries := by
      refine ⟨hdescending, fun entry hentry => ?_⟩
      have hopening := h.behind_opening entry (List.mem_cons_of_mem _ hentry)
      refine List.suffix_of_suffix_length_le hopening ((List.suffix_cons _ _).trans hfirst) ?_
      exact hlater entry hentry
    have hcount := hfirst.sublist.count_le '('
    rw [List.count_cons_self] at hcount
    rw [List.length_cons]
    exact Nat.le_trans (Nat.succ_le_succ (ih hinside)) hcount

end InOrder

/-- The rest lies behind all that was entered, or it starts with an operator that was given up for
want of a second operand. -/
def LeavesBehind (givenUp : Operator → Bool) (entries : List Text) (rest : Text) : Prop :=
  (∀ entry ∈ entries, rest.length ≤ entry.length) ∨
    ∃ op more, givenUp op = true ∧ rest = op.symbol.toList ++ more

/-- A parenthesis is no operator. -/
theorem LeavesBehind.of_closing {givenUp : Operator → Bool} {entries : List Text} {rest : Text}
    (h : LeavesBehind givenUp entries (')' :: rest)) :
    ∀ entry ∈ entries, rest.length ≤ entry.length := by
  rcases h with hbehind | ⟨op, more, -, hrest⟩
  · intro entry hentry
    exact Nat.le_of_succ_le (hbehind entry hentry)
  · cases op <;> simp [Operator.symbol] at hrest

theorem LeavesBehind.mono {givenUp givenUp' : Operator → Bool} {entries : List Text} {rest : Text}
    (h : LeavesBehind givenUp entries rest) (hgiven : ∀ op, givenUp op = true → givenUp' op = true) :
    LeavesBehind givenUp' entries rest := by
  rcases h with hbehind | ⟨op, more, hop, hrest⟩
  · exact .inl hbehind
  · exact .inr ⟨op, more, hgiven op hop, hrest⟩

/-- An operator that was not given up leaves everything behind it, and so does what follows it. -/
theorem LeavesBehind.of_operator {givenUp : Operator → Bool} {entries : List Text} {op : Operator}
    {later : Text} (h : LeavesBehind givenUp entries (op.symbol.toList ++ later))
    (hop : givenUp op = false) : ∀ entry ∈ entries, later.length ≤ entry.length := by
  rcases h with hbehind | ⟨op', more, hop', hrest⟩
  · intro entry hentry
    exact Nat.le_trans (List.suffix_append _ _).length_le (hbehind entry hentry)
  · obtain ⟨rfl, -⟩ := symbol_append_inj hrest
    rw [hop] at hop'
    cases hop'

/-- On texts below a length, the parser enters texts in order and leaves the rest behind them. -/
def EntersInOrder (givenUp : Operator → Bool) (length : Nat) (p : Parser Recorded Expr) : Prop :=
  ∀ text entries outcome, text.length < length → Enters p text entries outcome →
    InOrder text entries ∧
      ∀ tree rest, outcome = .success tree rest → LeavesBehind givenUp entries rest

namespace EntersInOrder

variable {givenUp : Operator → Bool} {length : Nat} {nested operand : Parser Recorded Expr}

/-- A group that is closed leaves nothing given up. -/
theorem betweenParens {handMade : Bool} (hstays : nested.StaysWithin handMade)
    (h : EntersInOrder givenUp length nested) :
    EntersInOrder (fun _ => false) (length + 1) (betweenParens (visiting nested)) := by
  intro text entries outcome hlength henters
  rcases enters_betweenParens henters with
    ⟨-, rfl, why, rfl⟩ | ⟨inner, inside, first, rfl, hnested, rfl, hclose⟩
  · exact ⟨.nil, fun _ _ heq => nomatch heq⟩
  · obtain ⟨horder, hleaves⟩ := h inner inside first (Nat.lt_of_succ_lt_succ hlength) hnested
    refine ⟨horder.opening, fun tree rest heq => .inl (List.forall_mem_cons.mpr ⟨?_, ?_⟩)⟩
    · obtain rfl := hclose tree rest heq
      have hrest : (')' :: rest) <:+ inner := hstays inner _ (gives_of_enters hnested)
      exact Nat.le_of_succ_le hrest.length_le
    · exact (hleaves tree _ (hclose tree rest heq)).of_closing

theorem call {handMade : Bool} (hstays : nested.StaysWithin handMade)
    (h : EntersInOrder givenUp length nested) :
    EntersInOrder (fun _ => false) (length + 1) (call (visiting nested)) := by
  intro text entries outcome hlength henters
  rcases enters_call henters with ⟨rfl, why, rfl⟩ | ⟨f, later, first, rfl, hparens, rfl⟩
  · exact ⟨.nil, fun _ _ heq => nomatch heq⟩
  · rw [List.length_append] at hlength
    obtain ⟨horder, hleaves⟩ := h.betweenParens hstays later entries first (by omega) hparens
    refine ⟨horder.of_suffix (List.suffix_append _ _), fun tree rest heq => ?_⟩
    cases first with
    | success arg left =>
      obtain ⟨-, rfl⟩ := Outcome.success.inj heq
      exact hleaves arg left rfl
    | failure why => cases heq

/-- A parenthesis starts no name, so a group and a call never both enter something. -/
theorem factor {handMade : Bool} (hstays : nested.StaysWithin handMade)
    (h : EntersInOrder givenUp length nested) :
    EntersInOrder (fun _ => false) (length + 1) (factor (visiting nested)) := by
  intro text entries outcome hlength henters
  have hsilent : translated Recorded.ofId (number.orElse constant) = number.orElse constant := by
    simp
  rcases enters_orElse henters with
    ⟨tree, rest, hthree, rfl⟩ | ⟨why, before, after, hthree, hcall, rfl⟩
  · rcases enters_orElse hthree with
      ⟨_, _, htwo, -⟩ | ⟨_, none, entered, htwo, hparens, rfl⟩
    · obtain rfl := enters_translated hsilent htwo
      exact ⟨.nil, fun _ _ _ => .inl (by simp)⟩
    · obtain rfl := enters_translated hsilent htwo
      exact h.betweenParens hstays text entered _ hlength hparens
  · rcases enters_orElse hthree with ⟨_, _, -, heq⟩ | ⟨_, none, entered, htwo, hparens, rfl⟩
    · cases heq
    · obtain rfl := enters_translated hsilent htwo
      obtain ⟨horder, -⟩ := h.betweenParens hstays text entered _ hlength hparens
      rcases enters_call hcall with ⟨rfl, why, rfl⟩ | ⟨f, later, first, rfl, -, -⟩
      · simpa using horder
      · rcases enters_betweenParens hparens with ⟨-, rfl, -⟩ | ⟨inner, _, _, htext, -⟩
        · exact h.call hstays _ after outcome hlength hcall
        · exact absurd htext.symm (paren_ne_name f inner later)

/-- An operator that is given up at one level is not taken at the next. -/
theorem singleApplication {handMade : Bool} {allowed : Operator → Bool} {message : String}
    (hstays : operand.StaysWithin handMade) (hother : ∀ op, allowed op = true → givenUp op = false)
    (h : EntersInOrder givenUp length operand) :
    EntersInOrder (fun op => givenUp op || allowed op) length
      (singleApplication operand allowed message) := by
  intro text entries outcome hlength henters
  rcases enters_singleApplication henters with
    ⟨why, hfailed, rfl⟩ | ⟨first, rest, before, hfirst, hthen⟩
  · exact ⟨(h text entries _ hlength hfailed).1, fun _ _ heq => nomatch heq⟩
  obtain ⟨hbefore, hleaves⟩ := h text before _ hlength hfirst
  have hrest : rest <:+ text := hstays text _ (gives_of_enters hfirst)
  rcases hthen with ⟨op, later, after, second, hop, rfl, hsecond, rfl, houtcome⟩ | ⟨rfl, rfl⟩
  · have hbehind := (hleaves first _ rfl).of_operator (hother op hop)
    have hlater : later <:+ text := (List.suffix_append _ _).trans hrest
    obtain ⟨hafter, hleaves'⟩ :=
      h later after second (Nat.lt_of_le_of_lt hlater.length_le hlength) hsecond
    refine ⟨hbefore.append hafter hlater hbehind, fun tree left heq => ?_⟩
    rcases houtcome with rfl | rfl
    · cases second with
      | success right left' =>
        obtain ⟨-, rfl⟩ := Outcome.success.inj heq
        have hleft : left'.length ≤ later.length :=
          (hstays later _ (gives_of_enters hsecond)).length_le
        rcases hleaves' right left' rfl with hinside | ⟨op', more, hop', hmore⟩
        · refine .inl fun entry hentry => ?_
          rcases List.mem_append.mp hentry with hearlier | hinner
          · exact Nat.le_trans hleft (hbehind entry hearlier)
          · exact hinside entry hinner
        · exact .inr ⟨op', more, by simp [hop'], hmore⟩
      | failure why => cases heq
    · obtain ⟨-, rfl⟩ := Outcome.success.inj heq
      exact .inr ⟨op, later, by simp [hop], rfl⟩
  · refine ⟨hbefore, fun tree left heq => ?_⟩
    obtain ⟨-, rfl⟩ := Outcome.success.inj heq
    exact (hleaves first rest rfl).mono fun op hop => by simp [hop]

theorem term {handMade : Bool} (hstays : nested.StaysWithin handMade)
    (h : EntersInOrder givenUp length nested) :
    EntersInOrder isMultiplicative (length + 1) (term (visiting nested)) :=
  (h.factor hstays).singleApplication (factor_staysWithin (visiting_staysWithin hstays))
    fun _ _ => rfl

theorem expression {handMade : Bool} (hstays : nested.StaysWithin handMade)
    (h : EntersInOrder givenUp length nested) :
    EntersInOrder (fun _ => true) (length + 1) (expression (visiting nested)) := by
  have hexpression : EntersInOrder (fun op => isMultiplicative op || isAdditive op) (length + 1)
      (Grammar.expression (visiting nested)) := by
    refine (h.term hstays).singleApplication (term_staysWithin (visiting_staysWithin hstays)) ?_
    intro op hop
    cases op <;> simp_all [isAdditive, isMultiplicative]
  intro text entries outcome hlength henters
  obtain ⟨horder, hleaves⟩ := hexpression text entries outcome hlength henters
  exact ⟨horder, fun tree rest heq => (hleaves tree rest heq).mono fun _ _ => rfl⟩

end EntersInOrder

theorem recordedExpression_staysWithin : recordedExpression.StaysWithin false :=
  visiting_descending.unfoldedAlong_staysWithin outOfText_staysWithin

theorem recordedExpression_entersInOrder (length : Nat) :
    EntersInOrder (fun _ => true) length recordedExpression := by
  induction length with
  | zero => exact fun text _ _ hlength => absurd hlength (Nat.not_lt_zero _)
  | succ length ih =>
    rw [recordedExpression_eq]
    exact ih.expression recordedExpression_staysWithin

theorem entries_inOrder (source : Text) : InOrder source (entries source) :=
  (recordedExpression_entersInOrder (source.length + 1) source _ _ (Nat.lt_succ_self _)
    ⟨rfl, rfl⟩).1

/-- No text is entered twice. The record is one of the rule of expressions around itself, and
wherever the nesting limit does not show, of the run that has one. The texts it enters, in the order
in which it does, stand behind openings of the source and each is shorter than the one before, so
there are no more of them than the source has openings. -/
theorem nested_entered_from_left_to_right :
    (recordedExpression = expression (visiting recordedExpression) ∧
      (∀ source, (recordedExpression source).value = unlimited source) ∧
      ∀ source outcome, limitedExpression source = some outcome →
        (recordedExpression source).value = outcome) ∧
    ∀ source,
      (entries source).Pairwise (fun earlier later => later.length < earlier.length) ∧
      (∀ entry ∈ entries source, '(' :: entry <:+ source) ∧
      (entries source).Nodup ∧ (entries source).length ≤ source.count '(' := by
  refine ⟨⟨recordedExpression_eq, value_recordedExpression, fun source outcome hlimited => ?_⟩,
    fun source => ?_⟩
  · rw [limitedExpression, expressionWithin_none_eq] at hlimited
    rw [value_recordedExpression]
    exact Option.some.inj (Option.ite_none_right_eq_some.mp hlimited).2
  · have horder := entries_inOrder source
    refine ⟨horder.descending, horder.behind_opening, ?_, horder.length_le_count⟩
    refine horder.descending.imp fun hshorter heq => ?_
    rw [heq] at hshorter
    exact Nat.lt_irrefl _ hshorter

/-- A sum whose second operand is never closed: what was tried of it is not entered again. -/
theorem nested_entered_from_left_to_right_unclosed :
    entries "(e)+sen((e".toList = ["e)+sen((e".toList, "(e".toList, "e".toList] ∧
      '(' :: "(e".toList <:+ "(e)+sen((e".toList ∧
      ∃ outcome, limitedExpression "(e)+sen((e".toList = some outcome ∧
        (recordedExpression "(e)+sen((e".toList).value = outcome := by
  have hentries : entries "(e)+sen((e".toList =
      ["e)+sen((e".toList, "(e".toList, "e".toList] := by decide +kernel
  have hsome : (limitedExpression "(e)+sen((e".toList).isSome = true := by decide +kernel
  obtain ⟨outcome, hlimited⟩ := Option.isSome_iff_exists.mp hsome
  obtain ⟨⟨-, -, hsame⟩, hentered⟩ := nested_entered_from_left_to_right
  refine ⟨hentries, (hentered "(e)+sen((e".toList).2.1 _ ?_, outcome, hlimited, hsame _ _ hlimited⟩
  rw [hentries]
  exact List.mem_cons_of_mem _ List.mem_cons_self

end Reckoner.Grammar
