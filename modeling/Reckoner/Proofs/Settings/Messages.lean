import Reckoner.Proofs.CommandLine.Console
import Reckoner.Settings

/-!
# What the message of an error repeats

The message of an error in a configuration file shows values in a form of their own, in which there
are no control characters. Everything else in it is either fixed or repeated as it is: the path, the
words of the system or of the reader, and the keys. So the message is one line unless one of these
is not.
-/

namespace Reckoner

open Text (isVisible)

namespace Text

theorem all_isVisible_ofNat (n : Nat) : (ofNat n).all isVisible = true :=
  all_of_subset (Double.ofNat_subset n) (by decide)

theorem all_isVisible_quotedChars (text : Text) : (quotedChars text).all isVisible = true := by
  have hquoted := all_isVisible_quoted text
  rwa [quoted, String.toList_ofList] at hquoted

theorem all_isVisible_commaSeparated {items : List Text}
    (h : ∀ item ∈ items, item.all isVisible = true) :
    (commaSeparated items).all isVisible = true :=
  all_intercalate (by decide) h

end Text

open Text

namespace Toml

theorem all_isVisible_builderText {name : String} {args : List Text}
    (hname : name.toList.all isVisible = true) (hargs : ∀ arg ∈ args, arg.all isVisible = true) :
    (builderText name args).all isVisible = true := by
  have hmodule : "datetime.".toList.all isVisible = true := by decide
  have hopen : isVisible '(' = true := by decide
  have hclose : isVisible ')' = true := by decide
  have hlist := all_isVisible_commaSeparated hargs
  simp only [builderText, String.toList_append, List.all_append, List.all_cons, List.all_nil,
    hmodule, hname, hopen, hlist, hclose, Bool.and_self]

theorem all_isVisible_numbers (numbers : List Nat) :
    ∀ arg ∈ numbers.map Text.ofNat, arg.all isVisible = true := by
  intro arg harg
  obtain ⟨n, -, rfl⟩ := List.mem_map.mp harg
  exact all_isVisible_ofNat n

theorem all_isVisible_offsetText (offset : Offset) : (offsetText offset).all isVisible = true := by
  have hfield : ∀ (name : String) (n : Int), name.toList.all isVisible = true →
      (name.toList ++ (if n < 0 then ['-'] else []) ++ Text.ofNat n.natAbs).all isVisible =
        true := by
    intro name n hname
    have hsign : (if n < 0 then ['-'] else []).all isVisible = true := by
      split
      · decide
      · rfl
    rw [List.all_append, List.all_append, hname, hsign, all_isVisible_ofNat]
    rfl
  unfold offsetText
  split
  · decide
  refine all_isVisible_builderText (by decide) fun delta hdelta => ?_
  obtain rfl := List.mem_singleton.mp hdelta
  refine all_isVisible_builderText (by decide) fun field hmem => ?_
  rcases List.mem_append.mp hmem with hdays | hseconds
  · split at hdays
    · cases hdays
    · obtain rfl := List.mem_singleton.mp hdays
      exact hfield "days=" _ (by decide)
  · obtain rfl := List.mem_singleton.mp hseconds
    exact hfield "seconds=" _ (by decide)

theorem all_isVisible_dateTimeText (date : Date) (time : Time) (offset : Option Offset) :
    (dateTimeText date time offset).all isVisible = true := by
  refine all_isVisible_builderText (by decide) fun arg harg => ?_
  rcases List.mem_append.mp harg with hnumber | hzone
  · exact all_isVisible_numbers _ arg hnumber
  · obtain ⟨zone, -, rfl⟩ := List.mem_map.mp hzone
    rw [List.all_append, all_isVisible_offsetText]
    decide

namespace Value

mutual

/-- However strange the strings in a value are, it is shown without control characters. -/
theorem all_isVisible_text : (value : Value) → value.text.all isVisible = true
  | .boolean true | .boolean false => by decide
  | .integer n => by
    have hsign : (if n < 0 then ['-'] else []).all isVisible = true := by
      split
      · decide
      · rfl
    rw [text, Text.ofInt, List.all_append, hsign, all_isVisible_ofNat]
    rfl
  | .float x => all_of_subset x.fullText_subset (by decide)
  | .string t => all_isVisible_quotedChars t
  | .date d => all_isVisible_builderText (by decide) (all_isVisible_numbers d.shownParts)
  | .time t => all_isVisible_builderText (by decide) (all_isVisible_numbers t.shownParts)
  | .dateTime d t offset => all_isVisible_dateTimeText d t offset
  | .array items => by
    have hitems := all_isVisible_commaSeparated (all_isVisible_itemTexts items)
    rw [text, List.all_append, List.all_cons, hitems]
    decide
  | .table entries => by
    have hentries := all_isVisible_commaSeparated (all_isVisible_entryTexts entries)
    rw [text, List.all_append, List.all_cons, hentries]
    decide

theorem all_isVisible_itemTexts :
    (items : List Value) → ∀ item ∈ itemTexts items, item.all isVisible = true
  | [] => fun _ h => nomatch h
  | first :: rest => by
    intro item hitem
    rw [itemTexts, List.mem_cons] at hitem
    rcases hitem with rfl | hitem
    · exact all_isVisible_text first
    · exact all_isVisible_itemTexts rest item hitem

theorem all_isVisible_entryTexts :
    (entries : List (Text × Value)) → ∀ entry ∈ entryTexts entries, entry.all isVisible = true
  | [] => fun _ h => nomatch h
  | (key, value) :: rest => by
    intro entry hentry
    rw [entryTexts, List.mem_cons] at hentry
    rcases hentry with rfl | hentry
    · have hkey := all_isVisible_quotedChars key
      have hvalue := all_isVisible_text value
      have hcolon : isVisible ':' = true := by decide
      have hblank : isVisible ' ' = true := by decide
      simp only [List.all_append, List.all_cons, hkey, hvalue, hcolon, hblank, Bool.and_self]
    · exact all_isVisible_entryTexts rest entry hentry

end

end Value

end Toml

/-! ### Messages -/

/-- What the words for an error repeat. -/
def ReadError.repeated : ReadError → List String
  | other words => [words]
  | _ => []

theorem ReadError.all_isVisible_text {reason : ReadError}
    (h : ∀ part ∈ reason.repeated, part.toList.all isVisible = true) (path : String) :
    (reason.text path).toList.all isVisible = true := by
  have hnumbered : ∀ words : String, words.toList.all isVisible = true →
      (text.numbered path words).toList.all isVisible = true := fun words hwords =>
    all_string_append (all_string_append hwords (by decide)) (all_isVisible_quoted _)
  cases reason with
  | notFound => exact hnumbered _ (by decide)
  | notADirectory => exact hnumbered _ (by decide)
  | isADirectory => exact hnumbered _ (by decide)
  | nameTooLong => exact hnumbered _ (by decide)
  | other words => exact h words List.mem_cons_self

namespace ConfigError

/-- What the message of an error repeats as it is. -/
def repeated : ConfigError → List String
  | unreadable path reason => path :: reason.repeated
  | invalid path reason => [path, reason]
  | notATable path => [path]
  | unknownKeys path keys => path :: keys
  | notABoolean key _ => [key]
  | badPrecision _ => []
  | badLogLevel _ => []

theorem all_isVisible_levelNames :
    ∀ name ∈ sortedNames (Level.all.map Level.name), name.toList.all isVisible = true := by
  intro name hname
  have hmem : name ∈ Level.all.map Level.name := (List.mergeSort_perm _ _).mem_iff.mp hname
  obtain ⟨level, -, rfl⟩ := List.mem_map.mp hmem
  cases level <;> decide

/-- Two parts of a message with fixed words before each of them. -/
theorem all_isVisible_parts {before first between second : String}
    (hbefore : before.toList.all isVisible = true) (hfirst : first.toList.all isVisible = true)
    (hbetween : between.toList.all isVisible = true)
    (hsecond : second.toList.all isVisible = true) :
    (before ++ first ++ between ++ second).toList.all isVisible = true :=
  all_string_append (all_string_append (all_string_append hbefore hfirst) hbetween) hsecond

/-- The message has no control characters unless it repeats some. -/
theorem all_isVisible_message {error : ConfigError}
    (h : ∀ part ∈ error.repeated, part.toList.all isVisible = true) :
    error.message.toList.all isVisible = true := by
  have hvalue : ∀ value : Toml.Value, (String.ofList value.text).toList.all isVisible = true := by
    intro value
    rw [String.toList_ofList]
    exact value.all_isVisible_text
  have hseparator : ", ".toList.all isVisible = true := by decide
  cases error with
  | unreadable path reason =>
    have hpath := h path List.mem_cons_self
    have hreason := ReadError.all_isVisible_text
      (fun part hpart => h part (List.mem_cons_of_mem _ hpart)) path
    exact all_isVisible_parts (by decide) hpath (by decide) hreason
  | invalid path reason =>
    have hpath := h path List.mem_cons_self
    have hreason := h reason (List.mem_cons_of_mem _ List.mem_cons_self)
    exact all_isVisible_parts (by decide) hpath (by decide) hreason
  | notATable path =>
    have hpath := h path List.mem_cons_self
    exact all_string_append (all_string_append (by decide) hpath) (by decide)
  | unknownKeys path keys =>
    have hpath := h path List.mem_cons_self
    have hkeys := all_string_intercalate hseparator
      fun key hkey => h key (List.mem_cons_of_mem _ hkey)
    exact all_isVisible_parts (by decide) hpath (by decide) hkeys
  | notABoolean key value =>
    have hkey := h key List.mem_cons_self
    exact all_isVisible_parts (by decide) hkey (by decide) (hvalue value)
  | badPrecision value => exact all_string_append (by decide) (hvalue value)
  | badLogLevel value =>
    have hlevels := all_string_intercalate hseparator all_isVisible_levelNames
    exact all_isVisible_parts (by decide) hlevels (by decide) (hvalue value)

end ConfigError

end Reckoner
