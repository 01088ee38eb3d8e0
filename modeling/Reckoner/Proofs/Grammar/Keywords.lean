import Reckoner.Proofs.Grammar.Returns
import Reckoner.Proofs.Parsing.Choice

/-!
# Choices among words

A choice among words takes the first one that the text starts with. If no word is the beginning of
a later one, that is the longest of them: a longer one would have the first as its beginning, and
would stand before it. If no word is the beginning of any other, the order does not matter at all.
-/

namespace Reckoner

namespace Parser

variable {m : Type → Type} [Monad m] {κ : Type}

/-- The choice among keys by the words that stand for them. -/
def keyword (word : κ → Text) (keys : List κ) : Parser m κ :=
  oneOf (keys.map fun key => (literal (word key)).map fun _ => key)

/-- The word of the key is the longest among those that the text starts with, and the rest is what
follows it. -/
structure IsLongest (word : κ → Text) (keys : List κ) (text : Text) (key : κ) (rest : Text) :
    Prop where
  mem : key ∈ keys
  text_eq : text = word key ++ rest
  length_le : ∀ other ∈ keys, word other <+: text → (word other).length ≤ (word key).length

/-- On the text, both parsers have the same success or both fail. -/
def SameSuccess (p q : Parser m κ) (text : Text) : Prop :=
  (∃ value rest, p text = pure (.success value rest) ∧ q text = pure (.success value rest)) ∨
    ∃ why why', p text = pure (.failure why) ∧ q text = pure (.failure why')

section

variable {word : κ → Text} {keys : List κ} {text : Text} {key : κ} {rest : Text}

/-- The first word that the text starts with is the longest. -/
theorem IsLongest.of_first {before after : List κ}
    (hordered : (before ++ key :: after).Pairwise fun a b => word a <+: word b → word a = word b)
    (hbefore : ∀ other ∈ before, ¬word other <+: text) (htext : text = word key ++ rest) :
    IsLongest word (before ++ key :: after) text key rest where
  mem := by simp
  text_eq := htext
  length_le := by
    intro other hother hstarts
    rw [List.mem_append, List.mem_cons] at hother
    rcases hother with hother | rfl | hother
    · exact absurd hstarts (hbefore other hother)
    · exact Nat.le_refl _
    · have hkey : word key <+: text := ⟨rest, htext.symm⟩
      by_contra hlonger
      have hlt : (word key).length < (word other).length := Nat.lt_of_not_le hlonger
      have heq : word key = word other :=
        (List.pairwise_cons.mp (List.pairwise_append.mp hordered).2.1).1 other hother
          (List.prefix_of_prefix_length_le hkey hstarts (Nat.le_of_lt hlt))
      rw [heq] at hlt
      exact Nat.lt_irrefl _ hlt

theorem IsLongest.unique {key' : κ} {rest' : Text}
    (hfree : ∀ a ∈ keys, ∀ b ∈ keys, word a <+: word b → a = b)
    (h : IsLongest word keys text key rest) (h' : IsLongest word keys text key' rest') :
    key = key' ∧ rest = rest' := by
  have hstarts : word key <+: text := ⟨rest, h.text_eq.symm⟩
  have hstarts' : word key' <+: text := ⟨rest', h'.text_eq.symm⟩
  have hkey : key = key' :=
    hfree key h.mem key' h'.mem
      (List.prefix_of_prefix_length_le hstarts hstarts' (h'.length_le key h.mem hstarts))
  subst hkey
  exact ⟨rfl, List.append_cancel_left (h.text_eq.symm.trans h'.text_eq)⟩

theorem IsLongest.of_perm {permuted : List κ} (hperm : permuted.Perm keys)
    (h : IsLongest word permuted text key rest) : IsLongest word keys text key rest where
  mem := hperm.mem_iff.mp h.mem
  text_eq := h.text_eq
  length_le := fun other hother => h.length_le other (hperm.mem_iff.mpr hother)

end

/-! ### The words of a choice -/

section

variable [LawfulMonad m] {word : κ → Text} {keys : List κ} {text : Text} {key : κ} {rest : Text}

theorem map_literal_of_starts (key : κ) {wanted : Text} (htext : text = wanted ++ rest) :
    ((literal wanted).map fun _ => key : Parser m κ) text = pure (.success key rest) := by
  rw [map, literal, stripped?_eq_some_iff.mpr htext, pure_bind]
  rfl

theorem map_literal_of_not_starts (key : κ) {wanted : Text} (h : ¬wanted <+: text) :
    ((literal wanted).map fun _ => key : Parser m κ) text = pure (.failure
      ⟨"Expected literal: " ++ String.ofList wanted, [Text.quoted wanted], some text⟩) := by
  rw [map, literal_fails fun rest htext => h ⟨rest, htext.symm⟩, pure_bind]
  rfl

/-- Words that the text does not start with are passed over. -/
theorem failInTurn_of_not_starts (h : ∀ key ∈ keys, ¬word key <+: text) :
    ∃ failures, FailInTurn text (pure () : m Unit)
      (keys.map fun key => (literal (word key)).map fun _ => key) failures (pure ()) := by
  refine ⟨keys.map fun key =>
    ⟨"Expected literal: " ++ String.ofList (word key), [Text.quoted (word key)], some text⟩,
    failInTurn_of_pure ?_ _⟩
  rw [List.forall₂_map_left_iff, List.forall₂_map_right_iff, List.forall₂_same]
  intro key hkey
  exact map_literal_of_not_starts key (h key hkey)

theorem keyword_of_first {before after : List κ} (hbefore : ∀ other ∈ before, ¬word other <+: text)
    (htext : text = word key ++ rest) :
    (keyword word (before ++ key :: after) : Parser m κ) text = pure (.success key rest) := by
  obtain ⟨failures, hfail⟩ := failInTurn_of_not_starts (m := m) hbefore
  have hfound := comesTo_of_pure (map_literal_of_starts (m := m) key htext) (pure ())
  have hchoice := hfail.oneOf_success hfound
    (after.map fun other => (literal (word other)).map fun _ => other)
  rw [keyword, List.map_append, List.map_cons, comesTo_pure_iff.mp hchoice, pure_bind]

theorem keyword_of_none (h : ∀ key ∈ keys, ¬word key <+: text) :
    ∃ failure, (keyword word keys : Parser m κ) text = pure (.failure failure) := by
  obtain ⟨failures, hfail⟩ := failInTurn_of_not_starts (m := m) h
  exact ⟨_, by rw [keyword, comesTo_pure_iff.mp hfail.oneOf_failure, pure_bind]⟩

/-- If no word is the beginning of a later one, the choice finds the longest word that the text
starts with, and fails if there is none. -/
theorem keyword_longest
    (hordered : keys.Pairwise fun a b => word a <+: word b → word a = word b) (text : Text) :
    (∃ key rest, IsLongest word keys text key rest ∧
      (keyword word keys : Parser m κ) text = pure (.success key rest)) ∨
      (∀ key ∈ keys, ¬word key <+: text) ∧
        ∃ failure, (keyword word keys : Parser m κ) text = pure (.failure failure) := by
  cases hfind : keys.find? fun key => word key <+: text with
  | none =>
    have hnone : ∀ key ∈ keys, ¬word key <+: text := by simpa using hfind
    exact .inr ⟨hnone, keyword_of_none hnone⟩
  | some key =>
    obtain ⟨hkey, before, after, rfl, hothers⟩ := List.find?_eq_some_iff_append.mp hfind
    obtain ⟨rest, htext⟩ := of_decide_eq_true hkey
    have hbefore : ∀ other ∈ before, ¬word other <+: text := by simpa using hothers
    exact .inl ⟨key, rest, .of_first hordered hbefore htext.symm,
      keyword_of_first hbefore htext.symm⟩

theorem keyword_perm (hfree : ∀ a ∈ keys, ∀ b ∈ keys, word a <+: word b → a = b)
    {permuted : List κ} (hperm : permuted.Perm keys) (text : Text) :
    SameSuccess (keyword word permuted : Parser m κ) (keyword word keys) text := by
  have hordered : keys.Pairwise fun a b => word a <+: word b → word a = word b := by
    refine List.pairwise_of_forall_mem_list fun a ha b hb hstarts => ?_
    rw [hfree a ha b hb hstarts]
  have hpermuted : permuted.Pairwise fun a b => word a <+: word b → word a = word b := by
    refine List.pairwise_of_forall_mem_list fun a ha b hb hstarts => ?_
    rw [hfree a (hperm.mem_iff.mp ha) b (hperm.mem_iff.mp hb) hstarts]
  rcases keyword_longest (m := m) hpermuted text with
    ⟨key, rest, hlongest, hrun⟩ | ⟨hnone, failure, hrun⟩
  · rcases keyword_longest (m := m) hordered text with
      ⟨key', rest', hlongest', hrun'⟩ | ⟨hnone, -⟩
    · obtain ⟨rfl, rfl⟩ := (hlongest.of_perm hperm).unique hfree hlongest'
      exact .inl ⟨key, rest, hrun, hrun'⟩
    · exact absurd ⟨rest, hlongest.text_eq.symm⟩ (hnone key (hperm.mem_iff.mp hlongest.mem))
  · rcases keyword_longest (m := m) hordered text with
      ⟨key', rest', hlongest', -⟩ | ⟨-, failure', hrun'⟩
    · exact absurd ⟨rest', hlongest'.text_eq.symm⟩ (hnone key' (hperm.mem_iff.mpr hlongest'.mem))
    · exact .inr ⟨failure, failure', hrun, hrun'⟩

/-- A literal gives its own word. -/
theorem oneOf_literals (words : List Text) :
    (oneOf (words.map literal) : Parser m Text) = keyword id words := by
  refine congrArg oneOf (List.map_congr_left fun word _ => ?_)
  funext text
  show literal word text = literal word text >>= fun outcome => pure (outcome.map fun _ => word)
  rw [literal, pure_bind]
  cases literal.stripped? word text with
  | some rest => rfl
  | none => rfl

end

end Parser

namespace Grammar

open Reckoner.Parser (oneOf literal keyword SameSuccess)

theorem eq_of_name_starts {f g : Trig} (h : f.name.toList <+: g.name.toList) : f = g := by
  obtain ⟨rest, hrest⟩ := h
  exact (name_append_inj (hrest.trans (List.append_nil _).symm)).1

theorem eq_of_symbol_starts {op op' : Operator} (h : op.symbol.toList <+: op'.symbol.toList) :
    op = op' := by
  obtain ⟨rest, hrest⟩ := h
  exact (symbol_append_inj (hrest.trans (List.append_nil _).symm)).1

/-- A choice among words none of which is the beginning of a later one finds the longest that the
text starts with. If none is the beginning of any other, it finds the same in every order, and so do
the choices among the function names and among the operators. -/
theorem choice_among_words_finds_longest (m : Type → Type) [Monad m] [LawfulMonad m] :
    (∀ (words : List Text) (text : Text),
      (words.Pairwise fun earlier later => earlier <+: later → earlier = later) →
      ((∃ word ∈ words, word <+: text) →
        ∃ word rest, (oneOf (words.map literal) : Parser m Text) text =
            pure (.success word rest) ∧
          word ∈ words ∧ text = word ++ rest ∧
          ∀ other ∈ words, other <+: text → other.length ≤ word.length) ∧
      ((∀ word ∈ words, ¬word <+: text) →
        ∃ failure, (oneOf (words.map literal) : Parser m Text) text = pure (.failure failure))) ∧
    (∀ words permuted : List Text, (∀ a ∈ words, ∀ b ∈ words, a <+: b → a = b) →
      permuted.Perm words → ∀ text,
      SameSuccess (oneOf (permuted.map literal) : Parser m Text) (oneOf (words.map literal)) text) ∧
    (∀ names : List Trig, names.Perm Trig.all → ∀ text,
      SameSuccess (keyword (fun f => f.name.toList) names : Parser m Trig) functionName text) ∧
    ∀ operators : List Operator, operators.Perm Operator.all → ∀ text,
      SameSuccess (keyword (fun op => op.symbol.toList) operators : Parser m Operator)
        binaryOperator text := by
  refine ⟨fun words text hordered => ?_, fun words permuted hfree hperm text => ?_,
    fun names hperm text => ?_, fun operators hperm text => ?_⟩
  · rw [Parser.oneOf_literals]
    refine ⟨fun ⟨word, hmem, hstarts⟩ => ?_, Parser.keyword_of_none⟩
    rcases Parser.keyword_longest (m := m) hordered text with
      ⟨found, rest, hlongest, hrun⟩ | ⟨hnone, -⟩
    · exact ⟨found, rest, hrun, hlongest.mem, hlongest.text_eq, hlongest.length_le⟩
    · exact absurd hstarts (hnone word hmem)
  · rw [Parser.oneOf_literals, Parser.oneOf_literals]
    exact Parser.keyword_perm hfree hperm text
  · exact Parser.keyword_perm (fun _ _ _ _ => eq_of_name_starts) hperm text
  · exact Parser.keyword_perm (fun _ _ _ _ => eq_of_symbol_starts) hperm text

/-- A word may stand twice, and the empty one last. -/
theorem choice_among_words_finds_longest_repeated :
    (["arcsen".toList, "arc".toList, "arc".toList, "a".toList, []].Pairwise
      fun earlier later => earlier <+: later → earlier = later) ∧
    ∃ word rest,
      (oneOf (["arcsen".toList, "arc".toList, "arc".toList, "a".toList, []].map literal) :
        Parser Id Text) "arccos".toList = .success word rest ∧
      "arccos".toList = word ++ rest ∧ 3 ≤ word.length := by
  have hordered : ["arcsen".toList, "arc".toList, "arc".toList, "a".toList, []].Pairwise
      fun earlier later => earlier <+: later → earlier = later := by decide
  obtain ⟨word, rest, hrun, -, htext, hlongest⟩ :=
    ((choice_among_words_finds_longest Id).1 _ "arccos".toList hordered).1
      ⟨"arc".toList, by decide, by decide⟩
  exact ⟨hordered, word, rest, hrun, htext, hlongest "arc".toList (by decide) (by decide)⟩

end Grammar

end Reckoner
