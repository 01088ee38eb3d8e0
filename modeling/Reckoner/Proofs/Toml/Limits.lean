import Reckoner.Proofs.Toml.Reader

/-!
# When the limits make no difference

A reading that reaches a limit ends there, and one that does not comes to the same with a wider
limit. So whether a limit is reached can be told from what texts come to, without following how they
are read: it is not reached if no wider one makes a difference. This goes for the digits of numerals
and for the nesting of values each by itself.
-/

namespace Reckoner.Toml

/-! ### A wider limit -/

/-- The limit that a fault is about is wider, and the other one the same. -/
structure Widens (fault : Fault) (limits wider : Limits) : Prop where
  digits : limits.digits = wider.digits ∨ fault = .oversized ∧ limits.digits ≤ wider.digits
  room : limits.room = wider.room ∨ fault = .tooDeep ∧ limits.room ≤ wider.room

/-- The scan ends with the fault, or comes to the same as the other. -/
def Agrees {α : Type} (fault : Fault) (scan wide : Except Fault α) : Prop :=
  scan = .error fault ∨ scan = wide

section

variable {α β : Type} {fault : Fault} {scan wide : Except Fault α}

theorem agrees_rfl : Agrees fault scan scan := .inr rfl

theorem Agrees.bind {next nextWide : α → Except Fault β} (h : Agrees fault scan wide)
    (hnext : ∀ found, Agrees fault (next found) (nextWide found)) :
    Agrees fault (scan >>= next) (wide >>= nextWide) := by
  obtain rfl | rfl := h
  · exact .inl rfl
  · cases scan with
    | ok found => exact hnext found
    | error other => exact agrees_rfl

variable {limits wider : Limits}

/-- Whoever goes on inside more calls has the same relation of limits there. -/
theorem Widens.bind_enter (h : Widens fault limits wider) (calls : Nat)
    {next : Limits → Except Fault α}
    (hnext : ∀ {inside insideWide : Limits}, Widens fault inside insideWide →
      Agrees fault (next inside) (next insideWide)) :
    Agrees fault (limits.enter calls >>= next) (wider.enter calls >>= next) := by
  unfold Limits.enter
  obtain hroom | ⟨rfl, hroom⟩ := h.room
  · rw [← hroom]
    split
    · exact hnext ⟨h.digits, .inl rfl⟩
    · exact agrees_rfl
  · split
    · next hfits =>
      rw [if_pos (Nat.le_trans hfits hroom)]
      exact hnext ⟨h.digits, .inr ⟨rfl, Nat.sub_le_sub_right hroom calls⟩⟩
    · exact .inl rfl

end

/-! ### Values -/

section

variable {fault : Fault} {limits wider : Limits} (h : Widens fault limits wider)

include h

theorem wholeNumber_agrees (negative : Bool) (digits : Text) :
    Agrees fault (wholeNumber limits.digits negative digits)
      (wholeNumber wider.digits negative digits) := by
  obtain heq | ⟨rfl, hle⟩ := h.digits
  · rw [heq]
    exact agrees_rfl
  · unfold wholeNumber
    split
    · exact .inl rfl
    · next hshort =>
      rw [if_neg fun hlong => hshort (Nat.lt_of_le_of_lt hle hlong)]
      exact agrees_rfl

theorem scanDecimal?_agrees (text : Text) :
    Option.Rel (Agrees fault) (scanDecimal? limits.digits text)
      (scanDecimal? wider.digits text) := by
  unfold scanDecimal?
  dsimp only
  cases scanWhole? (Text.splitSign text).2 with
  | none => exact .none
  | some found =>
    simp only [Option.bind_eq_bind, Option.bind_some]
    split
    · exact .some agrees_rfl
    split
    · exact .some agrees_rfl
    · exact .some ((wholeNumber_agrees h _ _).bind fun value => agrees_rfl)

theorem scanNumber?_agrees (text : Text) :
    Option.Rel (Agrees fault) (scanNumber? limits.digits text)
      (scanNumber? wider.digits text) := by
  unfold scanNumber?
  split
  · exact .some agrees_rfl
  · exact scanDecimal?_agrees h text

theorem scanSimple_agrees (text : Text) :
    Agrees fault (scanSimple limits.digits text) (scanSimple wider.digits text) := by
  unfold scanSimple
  split
  · exact agrees_rfl
  · exact agrees_rfl
  split
  · exact agrees_rfl
  cases scanMoment? text with
  | some moment => exact agrees_rfl
  | none =>
    have hnumber := scanNumber?_agrees h text
    simp only [Option.orElse_eq_orElse, Option.orElse_eq_or, Option.none_or]
    generalize scanNumber? limits.digits text = scan at hnumber ⊢
    generalize scanNumber? wider.digits text = wide at hnumber ⊢
    cases hnumber with
    | none => exact agrees_rfl
    | some hscanned => exact hscanned

end

/-- The scanners of values agree with so much fuel. -/
structure AgreesAt (fault : Fault) (fuel : Nat) : Prop where
  value : ∀ {limits wider : Limits}, Widens fault limits wider → ∀ text,
    Agrees fault (scanValue fuel limits text) (scanValue fuel wider text)
  items : ∀ {limits wider : Limits}, Widens fault limits wider → ∀ text,
    Agrees fault (scanItems fuel limits text) (scanItems fuel wider text)
  entries : ∀ {limits wider : Limits}, Widens fault limits wider → ∀ inline text,
    Agrees fault (scanEntries fuel limits inline text) (scanEntries fuel wider inline text)
  assignment : ∀ {limits wider : Limits}, Widens fault limits wider → ∀ text,
    Agrees fault (scanAssignment fuel limits text) (scanAssignment fuel wider text)

theorem agreesAt_zero (fault : Fault) : AgreesAt fault 0 := by
  constructor
  · intro limits wider _ text
    unfold scanValue
    exact agrees_rfl
  · intro limits wider _ text
    unfold scanItems
    exact agrees_rfl
  · intro limits wider _ inline text
    unfold scanEntries
    exact agrees_rfl
  · intro limits wider _ text
    unfold scanAssignment
    exact agrees_rfl

section

variable {fault : Fault} {fuel : Nat} (h : AgreesAt fault fuel) {limits wider : Limits}
  (hwider : Widens fault limits wider)

include h hwider

theorem AgreesAt.succ_value (text : Text) :
    Agrees fault (scanValue (fuel + 1) limits text) (scanValue (fuel + 1) wider text) := by
  unfold scanValue
  split
  · next heq => cases heq
  · next rest heq =>
    obtain rfl := Nat.succ.inj heq
    refine hwider.bind_enter _ fun hinside => agrees_rfl.bind fun later => ?_
    split
    · exact agrees_rfl
    · exact (h.items hinside _).bind fun found => agrees_rfl
  · next rest heq =>
    obtain rfl := Nat.succ.inj heq
    refine hwider.bind_enter _ fun hinside => ?_
    split
    · exact agrees_rfl
    · exact (h.entries hinside _ _).bind fun found => agrees_rfl
  · exact scanSimple_agrees hwider _

theorem AgreesAt.succ_items (text : Text) :
    Agrees fault (scanItems (fuel + 1) limits text) (scanItems (fuel + 1) wider text) := by
  unfold scanItems
  refine (h.value hwider text).bind fun scanned => ?_
  obtain ⟨item, rest⟩ := scanned
  refine agrees_rfl.bind fun later => ?_
  split
  · exact agrees_rfl
  · refine agrees_rfl.bind fun more => ?_
    split
    · exact agrees_rfl
    · exact (h.items hwider _).bind fun found => agrees_rfl
  · exact agrees_rfl

theorem AgreesAt.succ_entries (inline : Inline) (text : Text) :
    Agrees fault (scanEntries (fuel + 1) limits inline text)
      (scanEntries (fuel + 1) wider inline text) := by
  unfold scanEntries
  refine (h.assignment hwider text).bind fun assigned => ?_
  obtain ⟨key, value, rest⟩ := assigned
  refine agrees_rfl.bind fun extended => ?_
  split
  · exact agrees_rfl
  · exact h.entries hwider extended _
  · exact agrees_rfl

theorem AgreesAt.succ_assignment (text : Text) :
    Agrees fault (scanAssignment (fuel + 1) limits text)
      (scanAssignment (fuel + 1) wider text) := by
  unfold scanAssignment
  refine agrees_rfl.bind fun scanned => ?_
  obtain ⟨key, rest⟩ := scanned
  split
  · exact (h.value hwider _).bind fun found => agrees_rfl
  · exact agrees_rfl

end

theorem agreesAt (fault : Fault) (fuel : Nat) : AgreesAt fault fuel := by
  induction fuel with
  | zero => exact agreesAt_zero fault
  | succ fuel ih => exact ⟨ih.succ_value, ih.succ_items, ih.succ_entries, ih.succ_assignment⟩

/-! ### Files -/

section

variable {fault : Fault} {limits wider : Limits} (h : Widens fault limits wider)

include h

theorem readStatement_agrees (doc : Document) (table : KeyPath) (text : Text) :
    Agrees fault (readStatement limits doc table text) (readStatement wider doc table text) := by
  unfold readStatement
  split
  · exact agrees_rfl
  · exact agrees_rfl
  · split
    · exact ((agreesAt fault _).assignment h _).bind fun found => agrees_rfl
    · exact agrees_rfl
  · exact agrees_rfl

theorem readLines_agrees (fuel : Nat) (doc : Document) (table : KeyPath) (text : Text) :
    Agrees fault (readLines limits fuel doc table text) (readLines wider fuel doc table text) := by
  induction fuel generalizing doc table text with
  | zero => exact agrees_rfl
  | succ fuel ih =>
    unfold readLines
    refine (readStatement_agrees h doc table _).bind fun stated => ?_
    obtain ⟨extended, current, rest⟩ := stated
    refine agrees_rfl.bind fun later => ?_
    split
    · exact agrees_rfl
    · exact ih _ _ _
    · exact agrees_rfl

theorem read_agrees (text : Text) : Agrees fault (read limits text) (read wider text) :=
  (readLines_agrees h _ _ _ text).bind fun _ => agrees_rfl

end

/-! ### Texts within the limits -/

/-- The limits make no difference to a text: however many digits numerals may have, and however much
room there is for nesting, reading it comes to the same. -/
structure Limits.Cover (limits : Limits) (text : Text) : Prop where
  numerals : ∀ digits, limits.digits ≤ digits → read { limits with digits } text = read limits text
  nesting : ∀ room, limits.room ≤ room → read { limits with room } text = read limits text

section

variable {limits : Limits} {text : Text}

theorem widens_digits {digits : Nat} (h : limits.digits ≤ digits) :
    Widens .oversized limits { limits with digits } :=
  ⟨.inr ⟨rfl, h⟩, .inl rfl⟩

theorem widens_room {room : Nat} (h : limits.room ≤ room) :
    Widens .tooDeep limits { limits with room } :=
  ⟨.inl rfl, .inr ⟨rfl, h⟩⟩

/-- All faults but one. -/
def Faults.except (fault : Fault) (h : Fault.malformed ≠ fault) : Faults := ⟨(· ≠ fault), h⟩

theorem read_ne_of_suffice {fault : Fault} (h : Fault.malformed ≠ fault)
    (hsuffice : Suffice (.except fault h) limits text) : read limits text ≠ .error fault := by
  intro hread
  have hyields := read_yields hsuffice
  rw [hread] at hyields
  exact hyields rfl

/-- The limits make no difference just when neither of them is reached. -/
theorem Limits.cover_iff :
    limits.Cover text ↔
      read limits text ≠ .error .oversized ∧ read limits text ≠ .error .tooDeep := by
  constructor
  · intro h
    constructor
    · rw [← h.numerals (limits.digits + text.length) (Nat.le_add_right _ _)]
      refine read_ne_of_suffice (by decide) ⟨.inl (Nat.le_add_left _ _), .inr ?_⟩
      exact fun heq => nomatch heq
    · rw [← h.nesting (limits.room + 3 * text.length) (Nat.le_add_right _ _)]
      refine read_ne_of_suffice (by decide) ⟨.inr ?_, .inl (Nat.le_add_left _ _)⟩
      exact fun heq => nomatch heq
  · intro ⟨hnumerals, hnesting⟩
    constructor
    · intro digits hdigits
      exact ((read_agrees (widens_digits hdigits) text).resolve_left hnumerals).symm
    · intro room hroom
      exact ((read_agrees (widens_room hroom) text).resolve_left hnesting).symm

end

end Reckoner.Toml
