import Mathlib.Algebra.Group.Nat.Defs
import Reckoner.Text.Quoted
import Reckoner.Toml.Scan

/-!
# Quoted text reads back

Between quotes, each character of a text has a written form from which it can be told, together with
where the form ends: the character after a backslash says how many digits follow it, if any, and no
other form starts with a backslash. So a text can be told from its quoted form, whose first
character says which quote is in use.
-/

namespace Reckoner.Text

/-! ### Characters by number -/

theorem toNat_lt (c : Char) : c.toNat < 16 ^ 8 := by
  have hvalid := c.valid
  simp only [UInt32.isValidChar, Nat.isValidChar] at hvalid
  have hcode : c.toNat = c.val.toNat := rfl
  omega

theorem length_hexDigits (width n : Nat) : (hexDigits width n).length = width := by
  induction width generalizing n with
  | zero => rfl
  | succ width ih => rw [hexDigits, List.length_append, ih, List.length_singleton]

theorem valueInBase_hexDigits {width n : Nat} (h : n < 16 ^ width) :
    Toml.valueInBase 16 (hexDigits width n) = n := by
  have hdigit : ∀ k < 16, (Toml.hexValue? (Nat.digitChar k)).getD 0 = k := by decide
  induction width generalizing n with
  | zero =>
    obtain rfl : n = 0 := by omega
    rfl
  | succ width ih =>
    have hrest : n / 16 < 16 ^ width := by omega
    have hvalue := ih hrest
    rw [Toml.valueInBase] at hvalue ⊢
    rw [hexDigits, List.foldl_append, hvalue, List.foldl_cons, List.foldl_nil,
      hdigit _ (Nat.mod_lt n (by decide)), Nat.div_add_mod]

/-! ### Reading one character -/

/-- The character whose written form stands at the front of a text, and what follows the form. -/
def unescape? : Text → Option (Char × Text)
  | '\\' :: 'n' :: rest => some ('\n', rest)
  | '\\' :: 'r' :: rest => some ('\r', rest)
  | '\\' :: 't' :: rest => some ('\t', rest)
  | '\\' :: 'x' :: rest => some (numbered 2 rest)
  | '\\' :: 'u' :: rest => some (numbered 4 rest)
  | '\\' :: 'U' :: rest => some (numbered 8 rest)
  | '\\' :: c :: rest => some (c, rest)
  | c :: rest => some (c, rest)
  | [] => none
where
  /-- The character whose number the first `width` digits write. -/
  numbered (width : Nat) (text : Text) : Char × Text :=
    (Char.ofNat (Toml.valueInBase 16 (text.take width)), text.drop width)

theorem numbered_hexDigits {c : Char} {width : Nat} (h : c.toNat < 16 ^ width) (rest : Text) :
    unescape?.numbered width (hexDigits width c.toNat ++ rest) = (c, rest) := by
  have hlength := length_hexDigits width c.toNat
  rw [unescape?.numbered, List.take_left' hlength, List.drop_left' hlength,
    valueInBase_hexDigits h, Char.ofNat_toNat]

theorem unescape?_numericEscape (c : Char) (rest : Text) :
    unescape? (numericEscape c ++ rest) = some (c, rest) := by
  unfold numericEscape
  split
  · next h => exact congrArg some (numbered_hexDigits h rest)
  split
  · next h => exact congrArg some (numbered_hexDigits h rest)
  · exact congrArg some (numbered_hexDigits (toNat_lt c) rest)

theorem unescape?_escapeChar {mark : Char} (hmark : mark = '\'' ∨ mark = '"') (c : Char)
    (rest : Text) : unescape? (escapeChar mark c ++ rest) = some (c, rest) := by
  unfold escapeChar
  split
  · next h =>
    obtain rfl | rfl := h
    · rfl
    · rcases hmark with rfl | rfl
      · rfl
      · rfl
  split
  · next h =>
    rw [h]
    rfl
  split
  · next h =>
    rw [h]
    rfl
  split
  · next h =>
    rw [h]
    rfl
  split
  · next hplain _ _ _ _ =>
    have hne : c ≠ '\\' := fun h => hplain (.inl h)
    simp [unescape?, hne]
  · exact unescape?_numericEscape c rest

/-! ### Reading a text -/

section

variable {mark : Char} (hmark : mark = '\'' ∨ mark = '"')

include hmark

/-- No written form is the beginning of another. -/
theorem escapeChar_append_inj {c d : Char} {rest rest' : Text}
    (h : escapeChar mark c ++ rest = escapeChar mark d ++ rest') : c = d ∧ rest = rest' := by
  have hread := unescape?_escapeChar hmark c rest
  rw [h, unescape?_escapeChar hmark, Option.some.injEq, Prod.mk.injEq] at hread
  exact ⟨hread.1.symm, hread.2.symm⟩

theorem escapeChar_append_ne_nil (c : Char) (rest : Text) : escapeChar mark c ++ rest ≠ [] := by
  intro h
  have hread := unescape?_escapeChar hmark c rest
  rw [h] at hread
  cases hread

theorem flatMap_escapeChar_injective : (List.flatMap (escapeChar mark)).Injective := by
  intro text
  induction text with
  | nil =>
    intro text' h
    cases text' with
    | nil => rfl
    | cons d text' => exact absurd h.symm (escapeChar_append_ne_nil hmark d _)
  | cons c text ih =>
    intro text' h
    cases text' with
    | nil => exact absurd h (escapeChar_append_ne_nil hmark c _)
    | cons d text' =>
      obtain ⟨rfl, hrest⟩ := escapeChar_append_inj hmark h
      rw [ih hrest]

end

theorem quoteMark_cases (text : Text) : quoteMark text = '\'' ∨ quoteMark text = '"' := by
  unfold quoteMark
  split
  · exact .inr rfl
  · exact .inl rfl

theorem quotedChars_injective : quotedChars.Injective := by
  intro text text' h
  obtain ⟨hmark, hbody⟩ := List.cons.inj h
  rw [← hmark] at hbody
  exact flatMap_escapeChar_injective (quoteMark_cases text) (List.append_cancel_right hbody)

theorem quoted_injective : quoted.Injective :=
  fun _ _ h => quotedChars_injective (String.ofList_injective h)

end Reckoner.Text
