import Mathlib.Data.List.Basic
import Reckoner.Proofs.Toml.Scan
import Reckoner.Toml.Reader

/-!
# What reading a configuration file can come to

A document that is read has no key twice in any of its tables, since a key is only added where it is
not there yet. If a text is not read its form is bad, or one of the limits was reached: a numeral
has too many digits, or a value lies too far inside others. Neither comes up where the limits are
wide enough for the length of the text, as each digit and each level takes a character of it.
-/

namespace Reckoner.Toml

/-! ### Values without repeated keys -/

/-- No table in the value has a key twice. -/
inductive Value.WellKeyed : Value → Prop
  | simple {value : Value} : value.isCompound = false → WellKeyed value
  | array {items : List Value} : (∀ item ∈ items, WellKeyed item) → WellKeyed (.array items)
  | table {entries : List (Text × Value)} : (entries.map (·.1)).Nodup →
    (∀ entry ∈ entries, WellKeyed entry.2) → WellKeyed (.table entries)

/-- The table has no key twice, and neither have the tables in its values. -/
structure Table.WellKeyed (table : Table) : Prop where
  keys : (table.map (·.1)).Nodup
  values : ∀ entry ∈ table, entry.2.WellKeyed

theorem Value.WellKeyed.items {items : List Value} (h : (Value.array items).WellKeyed) :
    ∀ item ∈ items, item.WellKeyed := by
  cases h with
  | simple hsimple => cases hsimple
  | array hitems => exact hitems

theorem Value.WellKeyed.entries {table : Table} (h : (Value.table table).WellKeyed) :
    table.WellKeyed := by
  cases h with
  | simple hsimple => cases hsimple
  | table hkeys hvalues => exact ⟨hkeys, hvalues⟩

namespace Table

variable {table result : Table} {key : Text} {value : Value}

theorem WellKeyed.asValue (h : table.WellKeyed) : (Value.table table).WellKeyed :=
  .table h.keys h.values

theorem wellKeyed_nil : WellKeyed [] := ⟨List.nodup_nil, fun _ h => nomatch h⟩

theorem mem_of_lookup (h : List.lookup key table = some value) : (key, value) ∈ table := by
  obtain ⟨before, after, rfl, -⟩ := List.lookup_eq_some_iff.mp h
  exact List.mem_append_right before List.mem_cons_self

theorem not_mem_keys_of_lookup (h : List.lookup key table = none) : key ∉ table.map (·.1) := by
  intro hmem
  obtain ⟨⟨k, v⟩, hentry, rfl⟩ := List.mem_map.mp hmem
  have hdifferent := List.lookup_eq_none_iff.mp h (k, v) hentry
  simp at hdifferent

theorem WellKeyed.lookup (h : table.WellKeyed) (hlookup : List.lookup key table = some value) :
    value.WellKeyed :=
  h.values _ (mem_of_lookup hlookup)

theorem WellKeyed.append (h : table.WellKeyed) (hnew : List.lookup key table = none)
    (hvalue : value.WellKeyed) : WellKeyed (table ++ [(key, value)]) := by
  constructor
  · rw [List.map_append, List.nodup_append]
    refine ⟨h.keys, by simp, fun k hk other hother => ?_⟩
    obtain rfl := List.mem_singleton.mp hother
    exact fun heq => not_mem_keys_of_lookup hnew (heq ▸ hk)
  · intro entry hentry
    rcases List.mem_append.mp hentry with hentry | hentry
    · exact h.values entry hentry
    · obtain rfl := List.mem_singleton.mp hentry
      exact hvalue

theorem map_key_replace (key : Text) (value : Value) (table : Table) :
    (table.replace key value).map (·.1) = table.map (·.1) := by
  rw [replace, List.map_map]
  refine List.map_congr_left fun entry _ => ?_
  dsimp only [Function.comp]
  split
  · rfl
  · rfl

theorem WellKeyed.replace (h : table.WellKeyed) (hvalue : value.WellKeyed) :
    (table.replace key value).WellKeyed := by
  constructor
  · rw [map_key_replace]
    exact h.keys
  · intro entry hentry
    obtain ⟨⟨k, v⟩, hold, rfl⟩ := List.mem_map.mp hentry
    dsimp only
    split
    · exact hvalue
    · exact h.values _ hold

theorem WellKeyed.insert? (h : table.WellKeyed) (hvalue : value.WellKeyed)
    (hinsert : table.insert? key value = some result) : result.WellKeyed := by
  rw [Table.insert?] at hinsert
  split at hinsert
  · cases hinsert
  · next hnew =>
    obtain rfl := Option.some.inj hinsert
    exact h.append (Option.not_isSome_iff_eq_none.mp hnew) hvalue

theorem WellKeyed.appendTable? (h : table.WellKeyed)
    (happend : table.appendTable? key = some result) : result.WellKeyed := by
  have hempty : (Value.table []).WellKeyed := wellKeyed_nil.asValue
  unfold Table.appendTable? at happend
  split at happend
  · next hnew =>
    obtain rfl := Option.some.inj happend
    refine h.append hnew (.array fun item hitem => ?_)
    obtain rfl := List.mem_singleton.mp hitem
    exact hempty
  · next items hitems =>
    obtain rfl := Option.some.inj happend
    refine h.replace (.array fun item hitem => ?_)
    rcases List.mem_append.mp hitem with hitem | hitem
    · exact (h.lookup hitems).items item hitem
    · obtain rfl := List.mem_singleton.mp hitem
      exact hempty
  · cases happend

/-- A change that repeats no key repeats none at the end of a path either. -/
theorem WellKeyed.update? {throughArrays : Bool} {change : Table → Option Table} {path : KeyPath}
    (hchange : ∀ {inner changed : Table}, inner.WellKeyed → change inner = some changed →
      changed.WellKeyed)
    (h : table.WellKeyed) (hupdate : table.update? throughArrays change path = some result) :
    result.WellKeyed := by
  induction path generalizing table result with
  | nil => exact hchange h hupdate
  | cons key path ih =>
    unfold Table.update? at hupdate
    split at hupdate
    · next hnew =>
      obtain ⟨inner, hinner, heq⟩ := Option.bind_eq_some_iff.mp hupdate
      obtain rfl := Option.some.inj heq
      exact h.append hnew (ih wellKeyed_nil hinner).asValue
    · next inner hlookup =>
      obtain ⟨changed, hchanged, heq⟩ := Option.bind_eq_some_iff.mp hupdate
      obtain rfl := Option.some.inj heq
      exact h.replace (ih (h.lookup hlookup).entries hchanged).asValue
    · next items hlookup =>
      have hitems := (h.lookup hlookup).items
      split at hupdate
      · next inner hlast =>
        obtain ⟨changed, hchanged, heq⟩ := Option.bind_eq_some_iff.mp hupdate
        obtain rfl := Option.some.inj heq
        have hinner := (hitems _ (List.mem_of_getLast? hlast)).entries
        refine h.replace (.array fun item hitem => ?_)
        rcases List.mem_append.mp hitem with hitem | hitem
        · exact hitems item (List.dropLast_subset _ hitem)
        · obtain rfl := List.mem_singleton.mp hitem
          exact (ih hinner hchanged).asValue
      · cases hupdate
    · cases hupdate

end Table

section

variable {faults : Faults}

theorem orMalformed_yields {α : Type} {Wanted : α → Prop} {found? : Option α}
    (h : ∀ found, found? = some found → Wanted found) :
    Yields faults Wanted (Document.orMalformed found?) := by
  cases found? with
  | none => exact yields_malformed
  | some found => exact h found rfl

/-! ### Values -/

theorem Inline.assign_yields {key : KeyPath} {value : Value} {inline : Inline}
    (h : inline.content.WellKeyed) (hvalue : value.WellKeyed) :
    Yields faults (·.content.WellKeyed) (inline.assign key value) := by
  unfold Inline.assign
  refine yields_guard ?_
  refine (orMalformed_yields fun _ h => h).bind fun last _ => ?_
  refine (orMalformed_yields fun content hcontent => ?_).bind fun content hcontent => hcontent
  exact Table.WellKeyed.update? (fun hinner => hinner.insert? hvalue) h hcontent

theorem scanSimple_yields {maxDigits : Nat} {text : Text}
    (hdigits : text.length ≤ maxDigits ∨ faults.Has .oversized) :
    Yields faults (LeavesSimple text) (scanSimple maxDigits text) := by
  unfold scanSimple
  split
  · next rest => exact ⟨⟨['t', 'r', 'u', 'e'], rfl⟩, rfl⟩
  · next rest => exact ⟨⟨['f', 'a', 'l', 's', 'e'], rfl⟩, rfl⟩
  split
  · next scanned hstring =>
    exact (scanString?_yields hstring).bind fun (body, rest) hrest => ⟨hrest, rfl⟩
  split
  · next scanned hnumber =>
    cases hmoment : scanMoment? text with
    | some moment =>
      rw [hmoment] at hnumber
      obtain rfl := Option.some.inj hnumber
      exact scanMoment?_yields hmoment
    | none =>
      rw [hmoment] at hnumber
      exact scanNumber?_yields hdigits hnumber
  · exact orMalformed_yields fun found hfound => scanSpecial?_leavesSimple hfound

/-- The limits are wide enough for the length of the text, or the faults allow for reaching them. No
value takes more than three calls, and each starts with a bracket of its own. -/
structure Suffice (faults : Faults) (limits : Limits) (text : Text) : Prop where
  digits : text.length ≤ limits.digits ∨ faults.Has .oversized
  room : 3 * text.length ≤ limits.room ∨ faults.Has .tooDeep

section

variable {fuel calls : Nat} {limits : Limits} {text rest : Text} {c : Char}

theorem Suffice.suffix (h : Suffice faults limits text) (hrest : rest <:+ text) :
    Suffice faults limits rest := by
  have hlength := hrest.length_le
  constructor
  · exact h.digits.imp_left fun hdigits => Nat.le_trans hlength hdigits
  · exact h.room.imp_left fun hroom => Nat.le_trans (Nat.mul_le_mul_left 3 hlength) hroom

/-- Inside a bracket there is a character less, which makes up for the calls. -/
theorem Suffice.enter (h : Suffice faults limits (c :: rest)) (hcalls : calls ≤ 3) :
    Yields faults (Suffice faults · rest) (limits.enter calls) := by
  have hdigits := (h.suffix (List.suffix_cons c rest)).digits
  unfold Limits.enter
  split
  · refine ⟨hdigits, h.room.imp_left fun hroom => ?_⟩
    rw [List.length_cons] at hroom
    show 3 * rest.length ≤ limits.room - calls
    omega
  · refine h.room.resolve_left fun hroom => ?_
    rw [List.length_cons] at hroom
    omega

/-- What is left is an end of the text, and no key of the value is repeated. -/
def Leaves (text : Text) (found : Value × Text) : Prop :=
  found.2 <:+ text ∧ found.1.WellKeyed

/-- What the scanners of values come to with so much fuel. -/
structure ScansValues (faults : Faults) (fuel : Nat) : Prop where
  value : ∀ {limits : Limits} {text : Text}, Suffice faults limits text →
    Yields faults (Leaves text) (scanValue fuel limits text)
  items : ∀ {limits : Limits} {text : Text}, Suffice faults limits text →
    Yields faults (fun (items, rest) => rest <:+ text ∧ ∀ item ∈ items, item.WellKeyed)
      (scanItems fuel limits text)
  entries : ∀ {limits : Limits} {inline : Inline} {text : Text}, inline.content.WellKeyed →
    Suffice faults limits text →
    Yields faults (fun (inline, rest) => rest <:+ text ∧ inline.content.WellKeyed)
      (scanEntries fuel limits inline text)
  assignment : ∀ {limits : Limits} {text : Text}, Suffice faults limits text →
    Yields faults (fun (_, value, rest) => rest <:+ text ∧ value.WellKeyed)
      (scanAssignment fuel limits text)

theorem scansValues_zero : ScansValues faults 0 := by
  constructor
  · intro limits text _
    unfold scanValue
    exact yields_malformed
  · intro limits text _
    unfold scanItems
    exact yields_malformed
  · intro limits inline text _ _
    unfold scanEntries
    exact yields_malformed
  · intro limits text _
    unfold scanAssignment
    exact yields_malformed

theorem ScansValues.succ_value (h : ScansValues faults fuel)
    (hsuffice : Suffice faults limits text) :
    Yields faults (Leaves text) (scanValue (fuel + 1) limits text) := by
  unfold scanValue
  split
  · next heq => cases heq
  · next rest heq =>
    obtain rfl := Nat.succ.inj heq
    refine (hsuffice.enter (by decide)).bind fun inside hinside => ?_
    refine (skipBetweenItems_yields _ rest).bind fun later hlater => ?_
    have hsuffix := hlater.trans (List.suffix_cons '[' rest)
    split
    · exact ⟨(List.suffix_cons _ _).trans hsuffix, .array fun _ hitem => nomatch hitem⟩
    · refine (h.items (hinside.suffix hlater)).bind fun (items, left) ⟨hleft, hitems⟩ => ?_
      exact ⟨hleft.trans hsuffix, .array hitems⟩
  · next rest heq =>
    obtain rfl := Nat.succ.inj heq
    refine (hsuffice.enter (by decide)).bind fun inside hinside => ?_
    have hspaces := skipSpaces_suffix rest
    split
    · next later hskip =>
      rw [hskip] at hspaces
      refine ⟨((List.suffix_cons _ _).trans hspaces).trans (List.suffix_cons _ _), ?_⟩
      exact Table.wellKeyed_nil.asValue
    · refine (h.entries Table.wellKeyed_nil (hinside.suffix hspaces)).bind
        fun (inline, left) ⟨hleft, hinline⟩ => ?_
      exact ⟨(hleft.trans hspaces).trans (List.suffix_cons _ _), hinline.asValue⟩
  · exact (scanSimple_yields hsuffice.digits).mono fun _ ⟨hrest, hsimple⟩ =>
      ⟨hrest, .simple hsimple⟩

theorem ScansValues.succ_items (h : ScansValues faults fuel)
    (hsuffice : Suffice faults limits text) :
    Yields faults (fun (items, rest) => rest <:+ text ∧ ∀ item ∈ items, item.WellKeyed)
      (scanItems (fuel + 1) limits text) := by
  unfold scanItems
  refine (h.value hsuffice).bind fun (item, rest) ⟨hrest, hitem⟩ => ?_
  refine (skipBetweenItems_yields _ rest).bind fun later hlater => ?_
  dsimp only at hrest hitem
  have hsuffix := hlater.trans hrest
  split
  · exact ⟨(List.suffix_cons _ _).trans hsuffix, by simpa using hitem⟩
  · next after =>
    refine (skipBetweenItems_yields _ after).bind fun more hmore => ?_
    have hmoreSuffix := (hmore.trans (List.suffix_cons _ _)).trans hsuffix
    split
    · exact ⟨(List.suffix_cons _ _).trans hmoreSuffix, by simpa using hitem⟩
    · refine (h.items (hsuffice.suffix hmoreSuffix)).bind fun (items, left) ⟨hleft, hitems⟩ => ?_
      exact ⟨hleft.trans hmoreSuffix, by simpa using ⟨hitem, hitems⟩⟩
  · exact yields_malformed

theorem ScansValues.succ_entries {inline : Inline} (h : ScansValues faults fuel)
    (hinline : inline.content.WellKeyed) (hsuffice : Suffice faults limits text) :
    Yields faults (fun (inline, rest) => rest <:+ text ∧ inline.content.WellKeyed)
      (scanEntries (fuel + 1) limits inline text) := by
  unfold scanEntries
  refine (h.assignment hsuffice).bind fun (key, value, rest) ⟨hrest, hvalue⟩ => ?_
  refine (Inline.assign_yields hinline hvalue).bind fun extended hextended => ?_
  have hspaces := (skipSpaces_suffix rest).trans hrest
  split
  · next later heq =>
    rw [heq] at hspaces
    exact ⟨(List.suffix_cons _ _).trans hspaces, hextended⟩
  · next later heq =>
    rw [heq] at hspaces
    have hlater := ((skipSpaces_suffix later).trans (List.suffix_cons _ _)).trans hspaces
    refine (h.entries hextended (hsuffice.suffix hlater)).mono
      fun (found, left) ⟨hleft, hfound⟩ => ?_
    exact ⟨hleft.trans hlater, hfound⟩
  · exact yields_malformed

theorem ScansValues.succ_assignment (h : ScansValues faults fuel)
    (hsuffice : Suffice faults limits text) :
    Yields faults (fun (_, value, rest) => rest <:+ text ∧ value.WellKeyed)
      (scanAssignment (fuel + 1) limits text) := by
  unfold scanAssignment
  refine (scanKey_yields _ text).bind fun (key, rest) hrest => ?_
  dsimp only at hrest
  split
  · next key later heq =>
    obtain ⟨rfl, rfl⟩ := Prod.mk.inj heq
    have hlater := ((skipSpaces_suffix later).trans (List.suffix_cons '=' later)).trans hrest
    refine (h.value (hsuffice.suffix hlater)).bind fun (value, left) ⟨hleft, hvalue⟩ => ?_
    exact ⟨hleft.trans hlater, hvalue⟩
  · exact yields_malformed

theorem scansValues (faults : Faults) (fuel : Nat) : ScansValues faults fuel := by
  induction fuel with
  | zero => exact scansValues_zero
  | succ fuel ih => exact ⟨ih.succ_value, ih.succ_items, ih.succ_entries, ih.succ_assignment⟩

end

/-! ### Statements -/

section

variable {limits : Limits} {doc : Document} {path table key : KeyPath} {text : Text} {value : Value}

theorem Document.declareTable_yields (h : doc.content.WellKeyed) :
    Yields faults (·.content.WellKeyed) (doc.declareTable path) := by
  unfold Document.declareTable
  refine yields_guard ?_
  refine (orMalformed_yields fun content hcontent => ?_).bind fun content hcontent => hcontent
  exact h.update? (fun hinner heq => Option.some.inj heq ▸ hinner) hcontent

theorem Document.declareItem_yields {key : Text} (h : doc.content.WellKeyed) :
    Yields faults (·.content.WellKeyed) (doc.declareItem path key) := by
  unfold Document.declareItem
  refine yields_guard ?_
  refine (orMalformed_yields fun content hcontent => ?_).bind fun content hcontent => hcontent
  exact h.update? (fun hinner => hinner.appendTable?) hcontent

theorem Document.assign_yields (h : doc.content.WellKeyed) (hvalue : value.WellKeyed) :
    Yields faults (·.content.WellKeyed) (doc.assign table key value) := by
  unfold Document.assign
  refine yields_guard (yields_guard ?_)
  refine (orMalformed_yields fun _ h => h).bind fun last _ => ?_
  refine (orMalformed_yields fun content hcontent => ?_).bind fun content hcontent => hcontent
  exact h.update? (fun hinner => hinner.insert? hvalue) hcontent

/-- What is left of the line is an end of the text, and no key of the document is repeated. -/
def Continues (text : Text) (read : Document × KeyPath × Text) : Prop :=
  read.2.2 <:+ text ∧ read.1.content.WellKeyed

theorem readItemHeader_yields (h : doc.content.WellKeyed) :
    Yields faults (Continues text) (readItemHeader doc text) := by
  unfold readItemHeader
  refine (scanKey_yields _ _).bind fun (path, rest) hrest => ?_
  dsimp only at hrest
  split
  · next path later heq =>
    obtain ⟨rfl, rfl⟩ := Prod.mk.inj heq
    refine (orMalformed_yields fun _ h => h).bind fun key _ => ?_
    have hclosed : doc.closePending.content.WellKeyed := h
    refine (Document.declareItem_yields hclosed).bind fun extended hextended => ⟨?_, hextended⟩
    have hlater : later <:+ ']' :: ']' :: later := ⟨[']', ']'], rfl⟩
    exact (hlater.trans hrest).trans (skipSpaces_suffix text)
  · exact yields_malformed

theorem readTableHeader_yields (h : doc.content.WellKeyed) :
    Yields faults (Continues text) (readTableHeader doc text) := by
  unfold readTableHeader
  refine (scanKey_yields _ _).bind fun (path, rest) hrest => ?_
  dsimp only at hrest
  split
  · next path later heq =>
    obtain ⟨rfl, rfl⟩ := Prod.mk.inj heq
    have hclosed : doc.closePending.content.WellKeyed := h
    refine (Document.declareTable_yields hclosed).bind fun extended hextended => ⟨?_, hextended⟩
    exact ((List.suffix_cons _ _).trans hrest).trans (skipSpaces_suffix text)
  · exact yields_malformed

theorem readStatement_yields (h : doc.content.WellKeyed) (hsuffice : Suffice faults limits text) :
    Yields faults (Continues text) (readStatement limits doc table text) := by
  unfold readStatement
  split
  · next rest =>
    have hrest : rest <:+ '[' :: '[' :: rest := ⟨['[', '['], rfl⟩
    refine (readItemHeader_yields h).mono ?_
    exact fun (extended, current, left) ⟨hleft, hextended⟩ => ⟨hleft.trans hrest, hextended⟩
  · refine (readTableHeader_yields h).mono ?_
    exact fun (extended, current, left) ⟨hleft, hextended⟩ =>
      ⟨hleft.trans (List.suffix_cons _ _), hextended⟩
  · split
    · refine ((scansValues faults _).assignment hsuffice).bind fun found hfound => ?_
      obtain ⟨key, value, rest⟩ := found
      obtain ⟨hrest, hvalue⟩ := hfound
      exact (Document.assign_yields h hvalue).bind fun extended hextended => ⟨hrest, hextended⟩
    split
    · exact ⟨List.suffix_rfl, h⟩
    · exact yields_malformed
  · exact ⟨List.suffix_rfl, h⟩

/-- One line after another, the document repeats no key and the limits suffice for what is left. -/
theorem readLines_yields {fuel : Nat} (h : doc.content.WellKeyed)
    (hsuffice : Suffice faults limits text) :
    Yields faults (·.content.WellKeyed) (readLines limits fuel doc table text) := by
  induction fuel generalizing doc table text with
  | zero => exact h
  | succ fuel ih =>
    unfold readLines
    have hstart := hsuffice.suffix (skipSpaces_suffix text)
    refine (readStatement_yields h hstart).bind fun (extended, current, rest) hcontinues => ?_
    obtain ⟨hrest, hextended⟩ := hcontinues
    refine (skipComment_yields (skipSpaces rest)).bind fun later hlater => ?_
    have hleft := hstart.suffix ((hlater.trans (skipSpaces_suffix rest)).trans hrest)
    split
    · exact hextended
    · exact ih hextended (hleft.suffix (List.suffix_cons _ _))
    · exact yields_malformed

theorem read_yields (hsuffice : Suffice faults limits text) :
    Yields faults Table.WellKeyed (read limits text) :=
  (readLines_yields Table.wellKeyed_nil hsuffice).bind fun _ hkeyed => hkeyed

end

end

/-- A table that is read has no key twice, whatever the limits are. -/
theorem wellKeyed_of_read {limits : Limits} {text : Text} {table : Table}
    (h : read limits text = .ok table) : table.WellKeyed := by
  have hyields : Yields ⟨fun _ => True, trivial⟩ Table.WellKeyed (read limits text) :=
    read_yields ⟨.inr trivial, .inr trivial⟩
  rwa [h] at hyields

end Reckoner.Toml
