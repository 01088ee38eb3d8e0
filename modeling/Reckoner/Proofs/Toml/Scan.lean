import Reckoner.Proofs.Grammar.Within
import Reckoner.Toml.Scan

/-!
# Scanners leave an end of their text

Whatever a scanner takes off the front of a text, what it gives back is an end of that text. Bad
form is a fault that any scanner can end with. A numeral of excessive length needs as many digits in
the text, so where the text is shorter than the limit it does not come up.
-/

namespace Reckoner.Toml

/-- The faults that a scan may end with, bad form among them. -/
structure Faults where
  Has : Fault → Prop
  malformed : Has .malformed

/-- The scan finds what is wanted, or ends with one of the faults. -/
def Yields {α : Type} (faults : Faults) (Wanted : α → Prop) : Except Fault α → Prop
  | .ok found => Wanted found
  | .error fault => faults.Has fault

section

variable {α β : Type} {faults : Faults} {Wanted Wanted' : α → Prop} {Result : β → Prop}

theorem Yields.bind {scan : Except Fault α} {next : α → Except Fault β}
    (h : Yields faults Wanted scan)
    (hnext : ∀ found, Wanted found → Yields faults Result (next found)) :
    Yields faults Result (scan >>= next) := by
  cases scan with
  | ok found => exact hnext found h
  | error fault => exact h

theorem Yields.mono {scan : Except Fault α} (h : Yields faults Wanted scan)
    (hmono : ∀ found, Wanted found → Wanted' found) : Yields faults Wanted' scan := by
  cases scan with
  | ok found => exact hmono found h
  | error fault => exact h

theorem yields_malformed : Yields faults Wanted (throw .malformed) := faults.malformed

/-- What is turned down as bad form before going on. -/
theorem yields_guard {condition : Prop} [Decidable condition] {next : PUnit → Except Fault β}
    (h : Yields faults Result (next ⟨⟩)) :
    Yields faults Result (if condition then throw .malformed >>= next else next ⟨⟩) := by
  split
  · exact yields_malformed
  · exact h

end

section

variable {faults : Faults}

/-! ### Blanks and comments -/

theorem skipSpaces_suffix (text : Text) : skipSpaces text <:+ text := List.dropWhile_suffix _

theorem skipComment_yields (text : Text) : Yields faults (· <:+ text) (skipComment text) := by
  unfold skipComment
  split
  · split
    · exact yields_malformed
    · exact (List.dropWhile_suffix _).trans (List.suffix_cons _ _)
  · exact List.suffix_rfl

theorem skipBetweenItems_yields (fuel : Nat) (text : Text) :
    Yields faults (· <:+ text) (skipBetweenItems fuel text) := by
  induction fuel generalizing text with
  | zero => exact List.suffix_rfl
  | succ fuel ih =>
    refine (skipComment_yields _).bind fun rest hrest => ?_
    have hsuffix := hrest.trans (List.dropWhile_suffix _)
    split
    · exact (ih rest).mono fun _ h => h.trans hsuffix
    · exact hsuffix

/-! ### Strings and keys -/

theorem scanCodePoint_yields (width : Nat) (text : Text) :
    Yields faults (·.2 <:+ text) (scanCodePoint width text) := by
  unfold scanCodePoint
  dsimp only
  split
  · exact List.drop_suffix _ _
  · exact yields_malformed

theorem scanContinuation_yields (text : Text) :
    Yields faults (·.2 <:+ text) (scanContinuation text) := by
  have hspaces := skipSpaces_suffix text
  unfold scanContinuation
  split
  · exact List.nil_suffix
  · next rest heq =>
    rw [heq] at hspaces
    exact ((List.dropWhile_suffix _).trans (List.suffix_cons _ _)).trans hspaces
  · exact yields_malformed

theorem scanEscape_yields (multiline : Bool) (text : Text) :
    Yields faults (·.2 <:+ text) (scanEscape multiline text) := by
  unfold scanEscape
  split
  case h_8 => exact (scanCodePoint_yields 4 _).mono fun _ h => h.trans (List.suffix_cons _ _)
  case h_9 => exact (scanCodePoint_yields 8 _).mono fun _ h => h.trans (List.suffix_cons _ _)
  case h_10 =>
    split
    · exact scanContinuation_yields _
    · exact yields_malformed
  case h_11 => exact yields_malformed
  all_goals exact List.suffix_cons _ _

theorem scanBasic_yields (multiline : Bool) (fuel : Nat) (text : Text) :
    Yields faults (·.2 <:+ text) (scanBasic multiline fuel text) := by
  fun_induction scanBasic multiline fuel text with
  | case1 => exact yields_malformed
  | case2 => exact yields_malformed
  | case3 => exact ⟨['"', '"', '"'], rfl⟩
  | case4 _ _ _ _ ih => exact ih.bind fun (_, _) h => h.trans (List.suffix_cons _ _)
  | case5 => exact List.suffix_cons _ _
  | case6 _ rest ih =>
    refine (scanEscape_yields _ rest).bind fun (piece, later) hlater => ?_
    refine (ih later).bind fun (more, left) hleft => ?_
    exact (hleft.trans hlater).trans (List.suffix_cons _ _)
  | case7 => exact yields_malformed
  | case8 _ _ _ _ _ _ ih => exact ih.bind fun (_, _) h => h.trans (List.suffix_cons _ _)

theorem scanLiteral_yields (text : Text) : Yields faults (·.2 <:+ text) (scanLiteral text) := by
  have hsuffix := List.dropWhile_suffix (l := text) (· != '\'')
  unfold scanLiteral
  dsimp only
  split
  · next rest heq =>
    rw [heq] at hsuffix
    split
    · exact yields_malformed
    · exact (List.suffix_cons _ _).trans hsuffix
  · exact yields_malformed

theorem splitAtQuotes_suffix {text body rest : Text} (h : splitAtQuotes text = some (body, rest)) :
    rest <:+ text := by
  fun_induction splitAtQuotes text generalizing body with
  | case1 after =>
    obtain ⟨-, rfl⟩ := Prod.mk.inj (Option.some.inj h)
    exact ⟨['\'', '\'', '\''], rfl⟩
  | case2 c after _ ih =>
    obtain ⟨⟨inner, left⟩, hinner, heq⟩ := Option.map_eq_some_iff.mp h
    obtain ⟨-, rfl⟩ := Prod.mk.inj heq
    exact (ih hinner).trans (List.suffix_cons _ _)
  | case3 => cases h

theorem scanLiteralLines_yields (text : Text) :
    Yields faults (·.2 <:+ text) (scanLiteralLines text) := by
  unfold scanLiteralLines
  split
  · next body rest heq =>
    split
    · exact yields_malformed
    · exact splitAtQuotes_suffix heq
  · exact yields_malformed

theorem dropFirstNewline_suffix (text : Text) : dropFirstNewline text <:+ text := by
  unfold dropFirstNewline
  split
  · exact List.suffix_cons _ _
  · exact List.suffix_rfl

theorem scanString?_yields {text : Text} {scanned : Except Fault (Text × Text)}
    (h : scanString? text = some scanned) : Yields faults (·.2 <:+ text) scanned := by
  unfold scanString? at h
  split at h
  · next rest =>
    obtain rfl := Option.some.inj h
    have hopening : dropFirstNewline rest <:+ '"' :: '"' :: '"' :: rest :=
      (dropFirstNewline_suffix rest).trans ⟨['"', '"', '"'], rfl⟩
    refine (scanBasic_yields true _ _).bind fun (body, left) hleft => ?_
    exact ((List.drop_suffix _ _).trans hleft).trans hopening
  · obtain rfl := Option.some.inj h
    exact (scanBasic_yields false _ _).mono fun _ hleft => hleft.trans (List.suffix_cons _ _)
  · next rest =>
    obtain rfl := Option.some.inj h
    have hopening : dropFirstNewline rest <:+ '\'' :: '\'' :: '\'' :: rest :=
      (dropFirstNewline_suffix rest).trans ⟨['\'', '\'', '\''], rfl⟩
    refine (scanLiteralLines_yields _).bind fun (body, left) hleft => ?_
    exact ((List.drop_suffix _ _).trans hleft).trans hopening
  · obtain rfl := Option.some.inj h
    exact (scanLiteral_yields _).mono fun _ hleft => hleft.trans (List.suffix_cons _ _)
  · cases h

theorem scanKeyPart_yields (text : Text) : Yields faults (·.2 <:+ text) (scanKeyPart text) := by
  unfold scanKeyPart
  split
  · exact (scanBasic_yields _ _ _).mono fun _ h => h.trans (List.suffix_cons _ _)
  · exact (scanLiteral_yields _).mono fun _ h => h.trans (List.suffix_cons _ _)
  · dsimp only
    split
    · exact yields_malformed
    · exact List.dropWhile_suffix _

theorem scanKey_yields (fuel : Nat) (text : Text) :
    Yields faults (·.2 <:+ text) (scanKey fuel text) := by
  induction fuel generalizing text with
  | zero => exact yields_malformed
  | succ fuel ih =>
    refine (scanKeyPart_yields text).bind fun (part, rest) hrest => ?_
    have hspaces := (skipSpaces_suffix rest).trans hrest
    dsimp only
    split
    · next later heq =>
      rw [heq] at hspaces
      refine (ih (skipSpaces later)).bind fun (parts, left) hleft => ?_
      exact ((hleft.trans (skipSpaces_suffix later)).trans (List.suffix_cons _ _)).trans hspaces
    · exact hspaces

/-! ### Digits -/

theorem moreDigits_spec (isDigit : Char → Bool) (text : Text) :
    (moreDigits isDigit text).2 <:+ text ∧ (moreDigits isDigit text).1.length ≤ text.length := by
  fun_induction moreDigits isDigit text with
  | case1 => exact ⟨List.suffix_rfl, Nat.le_refl _⟩
  | case2 c rest _ digits left heq ih =>
    rw [heq] at ih
    have hlength : digits.length ≤ rest.length := ih.2
    refine ⟨ih.1.trans ⟨['_', c], rfl⟩, ?_⟩
    simp only [List.length_cons]
    omega
  | case3 => exact ⟨List.suffix_rfl, Nat.zero_le _⟩
  | case4 c rest _ _ digits left heq ih =>
    rw [heq] at ih
    exact ⟨ih.1.trans (List.suffix_cons _ _), Nat.succ_le_succ ih.2⟩
  | case5 => exact ⟨List.suffix_rfl, Nat.zero_le _⟩

theorem digits?_spec {isDigit : Char → Bool} {text digits rest : Text}
    (h : digits? isDigit text = some (digits, rest)) :
    rest <:+ text ∧ digits.length ≤ text.length := by
  unfold digits? at h
  split at h
  · next c later =>
    split at h
    · obtain ⟨hsuffix, hlength⟩ := moreDigits_spec isDigit later
      obtain ⟨rfl, rfl⟩ := Prod.mk.inj (Option.some.inj h)
      exact ⟨hsuffix.trans (List.suffix_cons _ _), Nat.succ_le_succ hlength⟩
    · cases h
  · cases h

/-! ### Numbers -/

/-- What is left is an end of the text, and the value is not made of others. -/
def LeavesSimple (text : Text) (found : Value × Text) : Prop :=
  found.2 <:+ text ∧ found.1.isCompound = false

theorem scanRadix?_suffix {text rest : Text} {n : Nat} (h : scanRadix? text = some (n, rest)) :
    rest <:+ text := by
  have hdigits : ∀ {later : Text} {isDigit : Char → Bool} {base : Nat}, later <:+ text →
      (digits? isDigit later).map (fun found => (valueInBase base found.1, found.2)) =
        some (n, rest) → rest <:+ text := by
    intro later isDigit base hlater hmap
    obtain ⟨⟨digits, left⟩, hfound, heq⟩ := Option.map_eq_some_iff.mp hmap
    obtain ⟨-, rfl⟩ := Prod.mk.inj heq
    exact (digits?_spec hfound).1.trans hlater
  unfold scanRadix? at h
  split at h
  · exact hdigits ⟨['0', 'x'], rfl⟩ h
  · exact hdigits ⟨['0', 'b'], rfl⟩ h
  · exact hdigits ⟨['0', 'o'], rfl⟩ h
  · cases h

theorem scanWhole?_spec {text whole rest : Text} (h : scanWhole? text = some (whole, rest)) :
    rest <:+ text ∧ whole.length ≤ text.length := by
  unfold scanWhole? at h
  split at h
  · obtain ⟨rfl, rfl⟩ := Prod.mk.inj (Option.some.inj h)
    exact ⟨List.suffix_cons _ _, Nat.succ_le_succ (Nat.zero_le _)⟩
  · exact digits?_spec h

theorem scanFraction?_suffix {text fraction rest : Text}
    (h : scanFraction? text = some (fraction, rest)) : rest <:+ text := by
  unfold scanFraction? at h
  split at h
  · exact (digits?_spec h).1.trans (List.suffix_cons _ _)
  · cases h

theorem scanExponent?_suffix {text rest : Text} {exponent : Int}
    (h : scanExponent? text = some (exponent, rest)) : rest <:+ text := by
  unfold scanExponent? at h
  split at h
  · next mark later =>
    obtain ⟨-, -, h⟩ := Option.bind_eq_some_iff.mp h
    obtain ⟨⟨digits, left⟩, hdigits, h⟩ := Option.bind_eq_some_iff.mp h
    obtain ⟨-, rfl⟩ := Prod.mk.inj (Option.some.inj h)
    have hsign := (Grammar.splitSign_suffix later).trans (List.suffix_cons mark later)
    exact (digits?_spec hdigits).1.trans hsign
  · cases h

/-- A numeral can only be too long if it has so many characters. -/
theorem wholeNumber_yields {maxDigits : Nat} {digits : Text}
    (hdigits : digits.length ≤ maxDigits ∨ faults.Has .oversized) (negative : Bool) :
    Yields faults (·.isCompound = false) (wholeNumber maxDigits negative digits) := by
  unfold wholeNumber
  split
  · next hlong => exact hdigits.resolve_left (Nat.not_le.mpr hlong)
  · rfl

theorem scanDecimal?_yields {maxDigits : Nat} {text : Text} {scanned : Except Fault (Value × Text)}
    (hdigits : text.length ≤ maxDigits ∨ faults.Has .oversized)
    (h : scanDecimal? maxDigits text = some scanned) :
    Yields faults (LeavesSimple text) scanned := by
  have hsign := Grammar.splitSign_suffix text
  obtain ⟨⟨whole, rest⟩, hwhole, h⟩ := Option.bind_eq_some_iff.mp h
  obtain ⟨hsuffix, hlength⟩ := scanWhole?_spec hwhole
  have hrest := hsuffix.trans hsign
  have hwritten : whole.length ≤ text.length := Nat.le_trans hlength hsign.length_le
  have hafter : ((scanFraction? rest).getD ([], rest)).2 <:+ text := by
    cases hfraction : scanFraction? rest with
    | none => exact hrest
    | some found => exact (scanFraction?_suffix hfraction).trans hrest
  dsimp only at h
  split at h
  · next exponent left hexponent =>
    obtain rfl := Option.some.inj h
    exact ⟨(scanExponent?_suffix hexponent).trans hafter, rfl⟩
  split at h
  · obtain rfl := Option.some.inj h
    exact ⟨hafter, rfl⟩
  · obtain rfl := Option.some.inj h
    have hnumeral : whole.length ≤ maxDigits ∨ faults.Has .oversized :=
      hdigits.imp_left fun hshort => Nat.le_trans hwritten hshort
    exact (wholeNumber_yields hnumeral _).bind fun value hsimple => ⟨hafter, hsimple⟩

theorem scanNumber?_yields {maxDigits : Nat} {text : Text} {scanned : Except Fault (Value × Text)}
    (hdigits : text.length ≤ maxDigits ∨ faults.Has .oversized)
    (h : scanNumber? maxDigits text = some scanned) :
    Yields faults (LeavesSimple text) scanned := by
  unfold scanNumber? at h
  split at h
  · next n rest heq =>
    obtain rfl := Option.some.inj h
    exact ⟨scanRadix?_suffix heq, rfl⟩
  · exact scanDecimal?_yields hdigits h

theorem scanSpecial?_leavesSimple {text : Text} {found : Value × Text}
    (h : scanSpecial? text = some found) : LeavesSimple text found := by
  have hsuffix := Grammar.splitSign_suffix text
  unfold scanSpecial? at h
  dsimp only at h
  split at h
  · next rest heq =>
    rw [heq] at hsuffix
    obtain rfl := Option.some.inj h
    exact ⟨(show rest <:+ 'i' :: 'n' :: 'f' :: rest from ⟨['i', 'n', 'f'], rfl⟩).trans hsuffix, rfl⟩
  · next rest heq =>
    rw [heq] at hsuffix
    obtain rfl := Option.some.inj h
    exact ⟨(show rest <:+ 'n' :: 'a' :: 'n' :: rest from ⟨['n', 'a', 'n'], rfl⟩).trans hsuffix, rfl⟩
  · cases h

/-! ### Dates and times -/

theorem scanField?_suffix {width least most n : Nat} {text rest : Text}
    (h : scanField? width least most text = some (n, rest)) : rest <:+ text := by
  unfold scanField? at h
  dsimp only at h
  split at h
  · obtain ⟨-, rfl⟩ := Prod.mk.inj (Option.some.inj h)
    exact List.drop_suffix _ _
  · cases h

theorem expect?_suffix {c : Char} {text rest : Text} (h : expect? c text = some rest) :
    rest <:+ text := by
  unfold expect? at h
  split at h
  · split at h
    · obtain rfl := Option.some.inj h
      exact List.suffix_cons _ _
    · cases h
  · cases h

/-- A field after the mark that divides it from the one before. -/
theorem scanNextField?_suffix {c : Char} {width least most n : Nat} {text later rest : Text}
    (hmark : expect? c text = some later) (h : scanField? width least most later = some (n, rest)) :
    rest <:+ text :=
  (scanField?_suffix h).trans (expect?_suffix hmark)

theorem scanDate?_suffix {text rest : Text} {date : Date} (h : scanDate? text = some (date, rest)) :
    rest <:+ text := by
  obtain ⟨⟨year, afterYear⟩, hyear, h⟩ := Option.bind_eq_some_iff.mp h
  obtain ⟨monthText, hmonthMark, h⟩ := Option.bind_eq_some_iff.mp h
  obtain ⟨⟨month, afterMonth⟩, hmonth, h⟩ := Option.bind_eq_some_iff.mp h
  obtain ⟨dayText, hdayMark, h⟩ := Option.bind_eq_some_iff.mp h
  obtain ⟨⟨day, afterDay⟩, hday, h⟩ := Option.bind_eq_some_iff.mp h
  obtain ⟨-, rfl⟩ := Prod.mk.inj (Option.some.inj h)
  exact ((scanNextField?_suffix hdayMark hday).trans (scanNextField?_suffix hmonthMark hmonth)).trans
    (scanField?_suffix hyear)

theorem scanMicroseconds_suffix (text : Text) : (scanMicroseconds text).2 <:+ text := by
  unfold scanMicroseconds
  split
  · dsimp only
    split
    · exact List.suffix_rfl
    · exact (List.dropWhile_suffix _).trans (List.suffix_cons _ _)
  · exact List.suffix_rfl

theorem scanTime?_suffix {text rest : Text} {time : Time} (h : scanTime? text = some (time, rest)) :
    rest <:+ text := by
  obtain ⟨⟨hour, afterHour⟩, hhour, h⟩ := Option.bind_eq_some_iff.mp h
  obtain ⟨minuteText, hminuteMark, h⟩ := Option.bind_eq_some_iff.mp h
  obtain ⟨⟨minute, afterMinute⟩, hminute, h⟩ := Option.bind_eq_some_iff.mp h
  obtain ⟨secondText, hsecondMark, h⟩ := Option.bind_eq_some_iff.mp h
  obtain ⟨⟨second, afterSecond⟩, hsecond, h⟩ := Option.bind_eq_some_iff.mp h
  obtain ⟨-, rfl⟩ := Prod.mk.inj (Option.some.inj h)
  refine (scanMicroseconds_suffix afterSecond).trans ?_
  exact ((scanNextField?_suffix hsecondMark hsecond).trans
    (scanNextField?_suffix hminuteMark hminute)).trans (scanField?_suffix hhour)

theorem scanOffset?_suffix {text rest : Text} {offset : Offset}
    (h : scanOffset? text = some (offset, rest)) : rest <:+ text := by
  unfold scanOffset? at h
  split at h
  · obtain ⟨-, rfl⟩ := Prod.mk.inj (Option.some.inj h)
    exact List.suffix_cons _ _
  · obtain ⟨-, rfl⟩ := Prod.mk.inj (Option.some.inj h)
    exact List.suffix_cons _ _
  · obtain ⟨-, -, h⟩ := Option.bind_eq_some_iff.mp h
    obtain ⟨⟨hours, afterHours⟩, hhours, h⟩ := Option.bind_eq_some_iff.mp h
    obtain ⟨minuteText, hminuteMark, h⟩ := Option.bind_eq_some_iff.mp h
    obtain ⟨⟨minutes, afterMinutes⟩, hminutes, h⟩ := Option.bind_eq_some_iff.mp h
    obtain ⟨-, rfl⟩ := Prod.mk.inj (Option.some.inj h)
    exact ((scanNextField?_suffix hminuteMark hminutes).trans (scanField?_suffix hhours)).trans
      (List.suffix_cons _ _)
  · cases h

theorem scanTimeAfterDate?_suffix {text rest : Text} {time : Time}
    (h : scanTimeAfterDate? text = some (time, rest)) : rest <:+ text := by
  unfold scanTimeAfterDate? at h
  split at h
  · exact (scanTime?_suffix h).trans (List.suffix_cons _ _)
  · exact (scanTime?_suffix h).trans (List.suffix_cons _ _)
  · exact (scanTime?_suffix h).trans (List.suffix_cons _ _)
  · cases h

theorem scanMoment?_yields {text : Text} {scanned : Except Fault (Value × Text)}
    (h : scanMoment? text = some scanned) : Yields faults (LeavesSimple text) scanned := by
  unfold scanMoment? at h
  split at h
  · next date afterDate hdate =>
    have hdateSuffix := scanDate?_suffix hdate
    obtain rfl := Option.some.inj h
    split
    · exact yields_malformed
    split
    · exact ⟨hdateSuffix, rfl⟩
    · next time afterTime htime =>
      have htimeSuffix := (scanTimeAfterDate?_suffix htime).trans hdateSuffix
      split
      · next offset rest hoffset => exact ⟨(scanOffset?_suffix hoffset).trans htimeSuffix, rfl⟩
      · exact ⟨htimeSuffix, rfl⟩
  · obtain ⟨⟨time, rest⟩, htime, rfl⟩ := Option.map_eq_some_iff.mp h
    exact ⟨scanTime?_suffix htime, rfl⟩

end

end Reckoner.Toml
