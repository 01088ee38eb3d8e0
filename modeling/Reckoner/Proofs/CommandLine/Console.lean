import Reckoner.CommandLine.Command
import Reckoner.Parsing.Outcome
import Reckoner.Proofs.Double.Printer
import Reckoner.Proofs.Evaluation.Safety

/-!
# What a console shows

Whatever its markup is, a console is taken to show escaped text as it is, and to need no escape for
text without brackets and backslashes. Control characters are beyond that. Quoted text escapes them,
so messages that quote their input are shown as they are, and numbers and expressions have neither
controls nor anything to escape.
-/

namespace Reckoner

/-! ### Visible and plain text -/

namespace Text

/-- Not a control, so it neither moves the cursor nor ends the line. -/
def isVisible (c : Char) : Bool := 0x20 ≤ c.toNat

/-- Visible, and neither a bracket that could open markup nor a backslash that could escape one. -/
def isPlain (c : Char) : Bool := isVisible c && c != '[' && c != '\\'

theorem all_isVisible_of_isPlain {text : Text} (h : text.all isPlain = true) :
    text.all isVisible = true := by
  rw [List.all_eq_true] at h ⊢
  intro c hc
  have hplain := h c hc
  simp only [isPlain, Bool.and_eq_true] at hplain
  exact hplain.1.1

theorem all_of_subset {p : Char → Bool} {part text : Text} (hsubset : part ⊆ text)
    (h : text.all p = true) : part.all p = true :=
  List.all_eq_true.mpr fun c hc => List.all_eq_true.mp h c (hsubset hc)

theorem all_intercalate {p : Char → Bool} {separator : Text} {parts : List Text}
    (hseparator : separator.all p = true) (h : ∀ part ∈ parts, part.all p = true) :
    (List.intercalate separator parts).all p = true := by
  induction parts with
  | nil => rfl
  | cons first rest ih =>
    have hfirst := h first List.mem_cons_self
    cases rest with
    | nil => simpa using hfirst
    | cons second rest =>
      have hrest := ih fun part hpart => h part (List.mem_cons_of_mem _ hpart)
      rw [List.intercalate_cons_cons, List.all_append, List.all_append, hfirst, hseparator, hrest]
      rfl

theorem all_string_append {p : Char → Bool} {label message : String}
    (hlabel : label.toList.all p = true) (hmessage : message.toList.all p = true) :
    (label ++ message).toList.all p = true := by
  rw [String.toList_append, List.all_append, hlabel, hmessage]
  rfl

theorem all_string_intercalate {p : Char → Bool} {separator : String} {parts : List String}
    (hseparator : separator.toList.all p = true) (h : ∀ part ∈ parts, part.toList.all p = true) :
    (separator.intercalate parts).toList.all p = true := by
  rw [String.toList_intercalate]
  refine all_intercalate hseparator fun text htext => ?_
  obtain ⟨part, hpart, rfl⟩ := List.mem_map.mp htext
  exact h part hpart

theorem all_isVisible_hexDigits (width n : Nat) : (hexDigits width n).all isVisible = true := by
  induction width generalizing n with
  | zero => rfl
  | succ width ih =>
    have hdigit : ∀ d < 16, isVisible (Nat.digitChar d) = true := by decide
    simp [hexDigits, ih, hdigit _ (Nat.mod_lt n (by decide : 0 < 16))]

theorem inRanges_of_first {n low high : Nat} (hlow : low ≤ n) (hhigh : n ≤ high)
    (rest : List (Nat × Nat)) : inRanges n ((low, high) :: rest) = true := by
  simp [inRanges, hlow, hhigh]

theorem isVisible_of_isPrintable {c : Char} (h : isPrintable c = true) : isVisible c = true := by
  by_contra hcontrol
  have hcode : c.toNat ≤ 0x1f := by
    simp [isVisible] at hcontrol
    omega
  have hrange : inRanges c.toNat unprintableRanges = true :=
    inRanges_of_first (Nat.zero_le _) hcode _
  simp [isPrintable, hrange] at h

theorem all_isVisible_escapeChar {mark : Char} (hmark : isVisible mark = true) (c : Char) :
    (escapeChar mark c).all isVisible = true := by
  unfold escapeChar
  split
  · next h =>
    rcases h with rfl | rfl
    · decide
    · simp [hmark]
      decide
  split
  · decide
  split
  · decide
  split
  · decide
  split
  · next h => simp [isVisible_of_isPrintable h]
  · unfold numericEscape
    split
    · simp [all_isVisible_hexDigits]
      decide
    split
    · simp [all_isVisible_hexDigits]
      decide
    · simp [all_isVisible_hexDigits]
      decide

theorem all_isVisible_quoted (text : Text) : (quoted text).toList.all isVisible = true := by
  have hmark : isVisible (quoteMark text) = true := by
    unfold quoteMark
    split
    · decide
    · decide
  simp only [quoted, quotedChars, String.toList_ofList, List.all_cons, List.all_append,
    List.all_nil, hmark, Bool.true_and, Bool.and_true, List.all_flatMap]
  exact List.all_eq_true.mpr fun c _ => all_isVisible_escapeChar hmark c

end Text

/-! ### Numbers and expressions -/

theorem Double.all_isPlain_of_subset {text : Text} (h : text ⊆ printedCharacters) :
    text.all Text.isPlain = true :=
  Text.all_of_subset h (by decide)

namespace Expr

open Text (isPlain)

theorem all_isPlain_name {name : String} {n : Nat} (h : arity? name = some n) :
    name.toList.all isPlain = true := by
  rcases symbol_or_name_of_arity? h with ⟨op, rfl, -⟩ | ⟨f, rfl, -⟩
  · cases op <;> decide
  · cases f <;> decide

theorem all_isPlain_applicationText {name : String} {args : List Text}
    (hname : name.toList.all isPlain = true) (hargs : ∀ arg ∈ args, arg.all isPlain = true) :
    (applicationText name args).all isPlain = true := by
  have hopen : isPlain '(' = true := by decide
  have hclose : isPlain ')' = true := by decide
  have hblank : isPlain ' ' = true := by decide
  have hseparator : ", ".toList.all isPlain = true := by decide
  unfold applicationText
  split
  · next left right _ =>
    have hleft := hargs left (by simp)
    have hright := hargs right (by simp)
    simp [hopen, hclose, hblank, hname, hleft, hright]
  · have hlist := Text.all_intercalate hseparator hargs
    simp only [List.all_append, List.all_cons, List.all_nil, hname, hopen, hlist, hclose,
      Bool.and_self]

theorem all_isPlain_argTexts {args : List Expr}
    (h : ∀ arg ∈ args, arg.text.all isPlain = true) :
    ∀ text ∈ argTexts args, text.all isPlain = true := by
  induction args with
  | nil => simp [argTexts]
  | cons arg rest ih =>
    intro text htext
    rw [argTexts, List.mem_cons] at htext
    rcases htext with rfl | htext
    · exact h arg List.mem_cons_self
    · exact ih (fun other hother => h other (List.mem_cons_of_mem _ hother)) text htext

theorem all_isPlain_text {tree : Expr} (h : tree.WellFormed) : tree.text.all isPlain = true := by
  induction h with
  | literal x =>
    rw [text]
    exact Double.all_isPlain_of_subset x.literalText_subset
  | apply harity _ ih =>
    rw [text]
    exact all_isPlain_applicationText (all_isPlain_name harity) (all_isPlain_argTexts ih)

end Expr

/-! ### Consoles -/

namespace CommandLine.Console

open Text (isVisible isPlain)

/-- The console shows escaped text as it is, and text with nothing to escape is left alone. -/
structure ShowsEscaped (console : Console) : Prop where
  print_escape : ∀ label text : String, label.toList.all isPlain = true →
    text.toList.all isVisible = true →
    console.print (label ++ console.escape text) = label ++ text ++ "\n"
  escape_plain : ∀ text : String, text.toList.all isPlain = true → console.escape text = text

variable {console : Console} {label text : String}

theorem ShowsEscaped.line_of_visible (h : console.ShowsEscaped)
    (hlabel : label.toList.all isPlain = true) (htext : text.toList.all isVisible = true) :
    console.line label text = label ++ text ++ "\n" :=
  h.print_escape label text hlabel htext

theorem ShowsEscaped.print_of_plain (h : console.ShowsEscaped)
    (hlabel : label.toList.all isPlain = true) (htext : text.toList.all isPlain = true) :
    console.print (label ++ text) = label ++ text ++ "\n" := by
  have hescaped := h.print_escape label text hlabel (Text.all_isVisible_of_isPlain htext)
  rwa [h.escape_plain text htext] at hescaped

/-- A console without markup. -/
def plain : Console := ⟨id, (· ++ "\n")⟩

theorem plain_showsEscaped : plain.ShowsEscaped := by
  constructor
  · intro label text _ _
    rfl
  · intro text _
    rfl

end CommandLine.Console

end Reckoner
