import Mathlib.Data.List.TakeWhile
import Reckoner.Proofs.CommandLine.Run
import Reckoner.Proofs.Text.Numeral
import Reckoner.Terminal.Interface

/-!
# Places that are accepted and places that are shown

The settings accept every natural number of places, and so does the option as long as its numeral is
not too long. A result is shown with so many places only up to a limit, which neither of them
checks. A number of places beyond the limit comes to light when everything else is done, and the run
breaks off without its answer.
-/

namespace Reckoner

namespace Double

variable {places : Option Nat} {x : Double}

theorem exists_shown?_iff :
    (∃ text, x.shown? places = some text) ↔ ∀ n, places = some n → n ≤ maxPlaces := by
  constructor
  · rintro ⟨text, htext⟩ n rfl
    by_contra hbeyond
    have hnone : x.shown? (some n) = none := if_pos (Nat.lt_of_not_le hbeyond)
    rw [hnone] at htext
    cases htext
  · exact fun h => CommandLine.shown?_ok h x

theorem shown?_eq_none_iff : x.shown? places = none ↔ ∃ n, places = some n ∧ maxPlaces < n := by
  rw [← not_iff_not, ← Ne, Option.ne_none_iff_exists', exists_shown?_iff]
  simp only [not_exists, not_and, Nat.not_lt]

end Double

/-! ### The places of the settings -/

namespace Settings

theorem bind_eq_ok_iff {α β : Type} {first : Except ConfigError α}
    {next : α → Except ConfigError β} {b : β} :
    (first >>= next) = .ok b ↔ ∃ a, first = .ok a ∧ next a = .ok b := by
  cases first with
  | error error =>
    constructor
    · exact fun h => nomatch h
    · exact fun ⟨_, h, _⟩ => nomatch h
  | ok a =>
    constructor
    · exact fun h => ⟨a, rfl, h⟩
    · rintro ⟨found, hfound, h⟩
      obtain rfl := Except.ok.inj hfound
      exact h

/-- A table is accepted if it has no unknown keys and each of the known ones can be read. -/
theorem ofTable_eq_ok_iff {path : String} {defaults settings : Settings} {table : Toml.Table} :
    ofTable path defaults table = .ok settings ↔
      unknownKeys table = [] ∧
      readBoolean table "strict" defaults.strict = .ok settings.strict ∧
      readBoolean table "show_expression" defaults.showExpression = .ok settings.showExpression ∧
      readPrecision table defaults.precision = .ok settings.precision ∧
      readLogLevel table defaults.logLevel = .ok settings.logLevel := by
  constructor
  · intro h
    unfold ofTable at h
    dsimp only at h
    split at h
    · next hempty =>
      obtain ⟨strict, hstrict, h⟩ := bind_eq_ok_iff.mp h
      obtain ⟨showExpression, hshow, h⟩ := bind_eq_ok_iff.mp h
      obtain ⟨precision, hprecision, h⟩ := bind_eq_ok_iff.mp h
      obtain ⟨logLevel, hlevel, h⟩ := bind_eq_ok_iff.mp h
      obtain rfl := Except.ok.inj h
      exact ⟨List.isEmpty_iff.mp hempty, hstrict, hshow, hprecision, hlevel⟩
    · cases h
  · rintro ⟨hunknown, hstrict, hshow, hprecision, hlevel⟩
    simp only [ofTable, hunknown, hstrict, hshow, hprecision, hlevel]
    rfl

theorem places_of_readPrecision {table : Toml.Table} {absent places : Option Nat}
    (h : readPrecision table absent = .ok places) :
    table.lookup "precision".toList = none ∧ places = absent ∨
      ∃ n : Nat, table.lookup "precision".toList = some (.integer n) ∧ places = some n := by
  unfold readPrecision at h
  split at h
  · next hnone => exact .inl ⟨hnone, (Except.ok.inj h).symm⟩
  · next n hsome => exact .inr ⟨n, hsome, (Except.ok.inj h).symm⟩
  · cases h

/-- The places of an accepted table can be shown unless they are beyond the limit. -/
theorem exists_shown?_of_accepted {path : String} {environment : Option String}
    {table : Toml.Table} {settings : Settings}
    (h : ofTable path (default environment) table = .ok settings) (x : Double) :
    (∃ text, x.shown? settings.precision = some text) ↔
      ∀ n : Int, table.lookup "precision".toList = some (.integer n) → n ≤ 2147483647 := by
  obtain ⟨-, -, -, hprecision, -⟩ := ofTable_eq_ok_iff.mp h
  rw [Double.exists_shown?_iff]
  rcases places_of_readPrecision hprecision with ⟨hnone, hplaces⟩ | ⟨n, hn, hplaces⟩
  · rw [hplaces, hnone]
    exact ⟨fun _ _ hlookup => (nomatch hlookup), fun _ _ hdefault => (nomatch hdefault)⟩
  · rw [hplaces, hn]
    constructor
    · intro hle k hk
      obtain rfl : (n : Int) = k := by simpa using hk
      exact Int.ofNat_le.mpr (hle n rfl)
    · intro hle k hk
      obtain rfl := Option.some.inj hk
      exact Int.ofNat_le.mp (hle n rfl)

theorem ofTable_precision (path : String) (environment : Option String) (n : Nat) :
    ofTable path (default environment) [("precision".toList, .integer n)] =
      .ok { default environment with precision := some n } := by
  have hknown : unknownKeys [("precision".toList, .integer n)] = [] := by
    simp [unknownKeys, knownKeys, sortedNames]
  exact ofTable_eq_ok_iff.mpr ⟨hknown, rfl, rfl, rfl, rfl⟩

end Settings

/-! ### The places of the option -/

namespace Terminal

section

variable {digits : Text} (h : ∀ c ∈ digits, c.isDigit = true)

include h

theorem ne_of_digits (other : Char) (hother : other.isDigit = false) :
    ∀ c ∈ digits, c ≠ other := by
  rintro c hc rfl
  rw [h c hc] at hother
  cases hother

theorem dropWhile_isMargin_of_digits : digits.dropWhile isMargin = digits := by
  cases digits with
  | nil => rfl
  | cons c rest =>
    have hcode := Text.toNat_of_isDigit (h c List.mem_cons_self)
    refine List.dropWhile_cons_of_neg ?_
    simp only [isMargin, Text.isBlank, Bool.and_eq_true, Bool.or_eq_true, decide_eq_true_eq,
      beq_iff_eq]
    omega

theorem withoutMargins_of_digits : withoutMargins digits = digits := by
  have hreversed : ∀ c ∈ digits.reverse, c.isDigit = true :=
    fun c hc => h c (List.mem_reverse.mp hc)
  rw [withoutMargins, dropWhile_isMargin_of_digits h, dropWhile_isMargin_of_digits hreversed,
    List.reverse_reverse]

theorem withoutPlus?_of_digits : withoutPlus? digits = some digits := by
  unfold withoutPlus?
  split
  · exact absurd rfl (ne_of_digits h '+' rfl _ List.mem_cons_self)
  · exact absurd rfl (ne_of_digits h '+' rfl _ List.mem_cons_self)
  · rfl

theorem withoutFraction_of_digits : withoutFraction digits = digits := by
  have hnone : digits.dropWhile (· != '.') = [] := by
    refine List.dropWhile_eq_nil_iff.mpr fun c hc => ?_
    exact bne_iff_ne.mpr (ne_of_digits h '.' rfl c hc)
  rw [withoutFraction, hnone]

theorem withoutUnderscores_of_digits : withoutUnderscores digits = digits := by
  have hkept : digits.filter (· != '_') = digits :=
    List.filter_eq_self.mpr fun c hc => bne_iff_ne.mpr (ne_of_digits h '_' rfl c hc)
  rw [withoutUnderscores, hkept, ite_self]

end

theorem withoutZeros?_of_leading {c : Char} {rest : Text} (hdigit : c.isDigit = true)
    (hleading : c ≠ '0') : withoutZeros? (c :: rest) = some (c :: rest) := by
  unfold withoutZeros?
  split
  · next heq => exact absurd (List.cons.inj heq).1 hleading
  · next heq =>
    obtain ⟨rfl, rfl⟩ := List.cons.inj heq
    exact if_pos (.inl hdigit)
  · next heq => cases heq

theorem plainNat?_of_leading {c : Char} {rest : Text}
    (hdigits : ∀ d ∈ c :: rest, d.isDigit = true) (hleading : c ≠ '0')
    (hlength : (c :: rest).length ≤ Text.maxNumeralDigits) :
    plainNat? (c :: rest) = some (Text.digitsValue (c :: rest)) := by
  have hdigit : c.isDigit = true := hdigits c List.mem_cons_self
  have hall : (c :: rest).all (·.isDigit) = true := List.all_eq_true.mpr hdigits
  unfold plainNat?
  split
  · next heq => exact absurd (List.cons.inj heq).1 hleading
  · next heq =>
    rw [(List.cons.inj heq).1] at hdigit
    cases hdigit
  · refine if_pos ?_
    rw [hall, List.head?_cons, decide_eq_true hlength]
    simp [hdigit, hleading]

/-- Every number of places can be given as its numeral. -/
theorem places?_ofNat {n : Nat} (h : n < 10 ^ Text.maxNumeralDigits) :
    places? (Text.ofNat n) = some n := by
  rcases Nat.eq_zero_or_pos n with rfl | hpos
  · rfl
  have hdigits : ∀ c ∈ Text.ofNat n, c.isDigit = true :=
    fun _ hc => Text.char_isDigit_of_mem_ofNat hc
  have hlength : (Text.ofNat n).length ≤ Text.maxNumeralDigits :=
    (Nat.length_toDigits_le_iff (by decide) (by decide)).mpr h
  have hvalue := Text.digitsValue_ofNat n
  obtain ⟨c, rest, hofNat, hleading⟩ := Text.exists_leading_digit hpos
  rw [hofNat] at hdigits hlength hvalue
  rw [hofNat, places?, withoutMargins_of_digits hdigits, withoutPlus?_of_digits hdigits]
  simp only [Option.bind_eq_bind, Option.bind_some]
  rw [withoutZeros?_of_leading (hdigits c List.mem_cons_self) hleading, Option.bind_some,
    withoutFraction_of_digits hdigits, withoutUnderscores_of_digits hdigits,
    plainNat?_of_leading hdigits hleading hlength, hvalue]

end Terminal

/-! ### The run -/

namespace CommandLine

open Terminal (places? places?_ofNat)

section

variable {console : Console} {settings : Settings} {command : Command} {threshold : Nat}

theorem thresholdFor_ne_tooManyPlaces (settings : Settings) (verbose : Bool) :
    thresholdFor settings verbose ≠ .error .tooManyPlaces := by
  unfold thresholdFor
  split
  · exact fun h => nomatch h
  · exact fun h => nomatch h
  · exact fun h => nomatch h

theorem runWith_of_unshown (hthreshold : thresholdFor settings command.verbose = .ok threshold)
    {tree : Expr} {rest : Text}
    (hparse : Grammar.parse (strictness settings command) command.expression = .success tree rest)
    {n : Nat} (hplaces : placesWanted settings command = some n) (hn : Double.maxPlaces < n) :
    runWith console settings command parseLogged = .error .tooManyPlaces := by
  have hfits := Grammar.fits_of_parse hparse
  have hline : expressionLine console settings (.expression tree) =
      .ok (shownExpression console settings tree) := expressionLine_ok hfits
  obtain ⟨value, hvalue⟩ := Evaluation.evaluate_ok hfits
  have hunshown : value.shown? (placesWanted settings command) = none :=
    Double.shown?_eq_none_iff.mpr ⟨n, hplaces, hn⟩
  rw [Grammar.parse, strictness] at hparse
  rw [placesWanted] at hunshown
  rw [runWith, hthreshold, parseLogged, hparse]
  show showValue console settings command threshold (.expression tree) _ = _
  rw [showValue, hline, Evaluation.evaluateSubject]
  simp only [bind, Except.bind, hunshown, hvalue]
  rfl

/-- A run breaks off over its places if all else is in order and they are beyond the limit. -/
theorem runWith_eq_tooManyPlaces_iff :
    runWith console settings command parseLogged = .error .tooManyPlaces ↔
      (∃ threshold, thresholdFor settings command.verbose = .ok threshold) ∧
      (∃ tree rest, Grammar.parse (strictness settings command) command.expression =
        .success tree rest) ∧
      ∃ n, placesWanted settings command = some n ∧ Double.maxPlaces < n := by
  constructor
  · intro h
    cases hthreshold : thresholdFor settings command.verbose with
    | error crash =>
      rw [runWith, hthreshold] at h
      obtain rfl : crash = .tooManyPlaces := Except.error.inj h
      exact absurd hthreshold (thresholdFor_ne_tooManyPlaces _ _)
    | ok threshold =>
      refine ⟨⟨threshold, rfl⟩, ?_⟩
      cases hparse : Grammar.parse (strictness settings command) command.expression with
      | failure failure =>
        rw [runWith_of_failure hthreshold hparse] at h
        cases h
      | success tree rest =>
        refine ⟨⟨tree, rest, rfl⟩, ?_⟩
        obtain ⟨value, hvalue⟩ := Evaluation.evaluate_ok (Grammar.fits_of_parse hparse)
        cases hshown : value.shown? (placesWanted settings command) with
        | none => exact Double.shown?_eq_none_iff.mp hshown
        | some text =>
          rw [runWith_of_success hthreshold hparse hvalue hshown] at h
          cases h
  · intro h
    obtain ⟨⟨threshold, hthreshold⟩, ⟨tree, rest, hparse⟩, n, hplaces, hn⟩ := h
    exact runWith_of_unshown hthreshold hparse hplaces hn

end

/-- The places that the settings or the option accept can be shown up to the limit and not beyond,
whatever the number. Both accept more places too, and a run that has them breaks off if it comes to
show its result. -/
theorem accepted_places_shown_iff_within_limit {path : String} {environment : Option String}
    {table : Toml.Table} {settings : Settings}
    (h : Settings.ofTable path (.default environment) table = .ok settings)
    (console : Console) (command : Command) (x : Double) :
    ((∃ text, x.shown? settings.precision = some text) ↔
      ∀ n : Int, table.lookup "precision".toList = some (.integer n) → n ≤ 2147483647) ∧
    (∀ n, (∃ text, x.shown? (some n) = some text) ↔ n ≤ 2147483647) ∧
    (∀ n : Nat,
      Settings.ofTable path (.default environment) [("precision".toList, .integer n)] =
        .ok { Settings.default environment with precision := some n } ∧
      (n < 10 ^ Text.maxNumeralDigits → places? (Text.ofNat n) = some n)) ∧
    (runWith console settings command parseLogged = .error .tooManyPlaces ↔
      (∃ threshold, thresholdFor settings command.verbose = .ok threshold) ∧
      (∃ tree rest, Grammar.parse (strictness settings command) command.expression =
        .success tree rest) ∧
      ∃ n, placesWanted settings command = some n ∧ 2147483647 < n) := by
  refine ⟨Settings.exists_shown?_of_accepted h x, fun n => ?_,
    fun n => ⟨Settings.ofTable_precision path environment n, places?_ofNat⟩,
    runWith_eq_tooManyPlaces_iff⟩
  rw [Double.exists_shown?_iff]
  exact ⟨fun hle => hle n rfl, fun hle k hk => Option.some.inj hk ▸ hle⟩

theorem accepted_places_shown_iff_within_limit_largest :
    places? "2147483647".toList = some 2147483647 ∧
    (∃ text, Double.nan.shown? (some 2147483647) = some text) ∧
    ∃ settings, Settings.ofTable "astcalc.toml" (.default none)
        [("precision".toList, .integer 2147483647)] = .ok settings ∧
      ∃ text, Double.nan.shown? settings.precision = some text := by
  have hgiven : places? "2147483647".toList = some 2147483647 := by decide +kernel
  have haccepted := Settings.ofTable_precision "astcalc.toml" none 2147483647
  obtain ⟨hsettings, hoption, -⟩ :=
    accepted_places_shown_iff_within_limit haccepted .plain
      ⟨"0/0".toList, none, none, none, false⟩ Double.nan
  refine ⟨hgiven, (hoption _).mpr (Nat.le_refl _), _, haccepted, hsettings.mpr fun n hn => ?_⟩
  obtain rfl : (2147483647 : Int) = n := by simpa using hn
  exact Int.le_refl _

theorem eq_error_of_crash {run : Except Crash Report} {crash : Crash}
    (h : (match run with | .error found => some found | .ok _ => none) = some crash) :
    run = .error crash := by
  cases run with
  | ok report => cases h
  | error found => rw [Option.some.inj h]

/-- One more place than can be shown is accepted, and a run that finds it in its settings breaks
off. -/
theorem accepted_places_not_shown :
    (∃ settings, Settings.ofTable "astcalc.toml" (.default none)
        [("precision".toList, .integer 2147483648)] = .ok settings ∧
      Double.nan.shown? settings.precision = none) ∧
    places? "2147483648".toList = some 2147483648 ∧
    Double.nan.shown? (some 2147483648) = none ∧
    runCommand (Terminal.interface ⟨"", ""⟩ fun _ => "") (.ofTree "/" []
        [(["astcalc.toml"], "[calculator]\nprecision = 2147483648\n".toUTF8)] []) none
      ⟨"0/0".toList, none, none, none, false⟩ parseLogged = .error .tooManyPlaces := by
  exact ⟨⟨_, Settings.ofTable_precision _ _ 2147483648, rfl⟩, by decide +kernel, rfl,
    eq_error_of_crash (by decide +kernel)⟩

end CommandLine

end Reckoner
