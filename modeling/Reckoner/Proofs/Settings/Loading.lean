import Reckoner.CommandLine.Run
import Reckoner.Proofs.Settings.Messages
import Reckoner.Proofs.Settings.Table
import Reckoner.Proofs.Toml.Limits
import Reckoner.Terminal.Interface

/-!
# Settings are loaded or the error in the file is explained

Reading a file goes through three stages, the bytes, the form and the values, and each can turn the
file down. Bytes that are no text end the run without a word. The form is explained unless a limit
is reached first, and a value unless it holds a whole number that is too long to be shown. These are
the only ways in which there are neither settings nor an explanation.
-/

namespace Reckoner.Settings

/-! ### The bytes -/

theorem fromUTF8?_eq_some_iff {bytes : ByteArray} {text : String} :
    String.fromUTF8? bytes = some text ↔ text.toUTF8 = bytes := by
  constructor
  · intro h
    rw [String.fromUTF8?] at h
    split at h
    · obtain rfl := Option.some.inj h
      rfl
    · cases h
  · intro h
    rw [← h, String.fromUTF8?, String.toUTF8_eq_toByteArray, dif_pos text.isValidUTF8]
    rfl

/-- Bytes that are not the encoding of any text cannot be decoded. -/
theorem fromUTF8?_eq_none_iff {bytes : ByteArray} :
    String.fromUTF8? bytes = none ↔ ∀ text : String, text.toUTF8 ≠ bytes := by
  rw [Option.eq_none_iff_forall_ne_some]
  simp only [Ne, fromUTF8?_eq_some_iff]

/-! ### The form and the values -/

/-- What is wrong with a text, if anything is, can be explained: no limit is reached before it is
found, and the explanation does not show a whole number that is too long. -/
structure Explainable (host : Host) (path : String) (text : Text) : Prop where
  covered : host.limits.Cover text
  shown : ∀ document table error, Toml.read host.limits text = .ok document →
    document.lookup "calculator".toList = some (.table table) → IsFirstWrong path table error →
    ∀ n, error.Shows n → n.natAbs < 10 ^ Text.maxNumeralDigits

/-- The file cannot be opened, or its bytes are a text that can be explained. -/
def Ordinary (host : Host) (path : String) : Except ReadError ByteArray → Prop
  | .error _ => True
  | .ok bytes => ∃ encoded : String, encoded.toUTF8 = bytes ∧
    Explainable host path (unifyNewlines encoded.toList)

/-- There are settings, or an error that can be reported. -/
def IsSettled (result : Except LoadError Settings) : Prop :=
  (∃ settings, result = .ok settings) ∨ ∃ error, result = .error (.config error)

theorem not_isSettled {error : LoadError} (h : ∀ why, error ≠ .config why) :
    ¬ IsSettled (.error error) := by
  intro hsettled
  obtain ⟨settings, heq⟩ | ⟨why, heq⟩ := hsettled
  · cases heq
  · exact h why (Except.error.inj heq)

section

variable {host : Host} {path : String} {environment : Option String} {bytes : ByteArray}
  {encoded : String} {document table : Toml.Table}

theorem isSettled_build_iff (hkeys : (table.map (·.1)).Nodup) :
    IsSettled (build path environment table) ↔ ∀ error, IsFirstWrong path table error →
      ∀ n, error.Shows n → n.natAbs < 10 ^ Text.maxNumeralDigits := by
  rw [build]
  cases hread : ofTable path (default environment) table with
  | ok settings =>
    have hnone := ((ofTable_eq_ok_iff_gives hkeys).mp hread).1
    refine ⟨fun _ error hfirst => ?_, fun _ => .inl ⟨settings, rfl⟩⟩
    obtain ⟨n, hwrong, -⟩ := hfirst
    exact absurd hwrong (hnone n error)
  | error first =>
    have hfirst := (ofTable_eq_error_iff hkeys).mp hread
    have hshown : IsSettled (.error (.ofConfig first)) ↔ first.isShowable = true := by
      constructor
      · intro hsettled
        obtain ⟨settings, heq⟩ | ⟨why, heq⟩ := hsettled
        · cases heq
        · exact (LoadError.ofConfig_eq_config_iff.mp (Except.error.inj heq)).2
      · intro hshowable
        exact .inr ⟨first, congrArg _ (LoadError.ofConfig_eq_config_iff.mpr ⟨rfl, hshowable⟩)⟩
    show IsSettled (.error (.ofConfig first)) ↔ _
    rw [hshown, ConfigError.isShowable_iff]
    constructor
    · intro hshort error hwrong
      rwa [hwrong.unique hkeys hfirst]
    · intro hall
      exact hall first hfirst

/-- A document without the table is like one with an empty table, and any other value in its place
is reported. -/
theorem isSettled_ofDocument_iff (hkeyed : document.WellKeyed) :
    IsSettled ((ofDocument path (default environment) document).mapError .ofConfig) ↔
      ∀ table error, document.lookup "calculator".toList = some (.table table) →
        IsFirstWrong path table error →
        ∀ n, error.Shows n → n.natAbs < 10 ^ Text.maxNumeralDigits := by
  rw [ofDocument]
  cases hlookup : document.lookup "calculator".toList with
  | none =>
    refine ⟨fun _ table error hsome => ?_, fun _ => ?_⟩
    · cases hsome
    · dsimp only
      rw [ofTable_nil]
      exact .inl ⟨_, rfl⟩
  | some value =>
    have hother : IsSettled (.error (.ofConfig (.notATable path))) := .inr ⟨_, rfl⟩
    cases value with
    | table table =>
      dsimp only
      rw [← build, isSettled_build_iff (hkeyed.lookup hlookup).entries.keys]
      constructor
      · intro hshown other error heq
        obtain rfl := Toml.Value.table.inj (Option.some.inj heq)
        exact hshown error
      · exact fun hshown error => hshown table error rfl
    | boolean | integer | float | string | date | time | dateTime | array =>
      refine ⟨fun _ table error hsome => ?_, fun _ => hother⟩
      cases hsome

/-- What the text comes to is settled just when it can be explained. -/
theorem isSettled_load_iff (hdecoded : String.fromUTF8? bytes = some encoded) :
    IsSettled (load host path (default environment) (.ok bytes)) ↔
      Explainable host path (unifyNewlines encoded.toList) := by
  simp only [load, hdecoded]
  cases hread : Toml.read host.limits (unifyNewlines encoded.toList) with
  | error fault =>
    have hcover : host.limits.Cover (unifyNewlines encoded.toList) ↔ fault = .malformed := by
      rw [Toml.Limits.cover_iff, hread]
      cases fault <;> simp
    cases fault with
    | malformed =>
      refine ⟨fun _ => ⟨hcover.mpr rfl, ?_⟩, fun _ => .inr ⟨_, rfl⟩⟩
      intro document table error hdocument
      rw [hread] at hdocument
      cases hdocument
    | oversized | tooDeep =>
      refine ⟨fun h => absurd h (not_isSettled fun _ heq => nomatch heq), fun h => ?_⟩
      cases hcover.mp h.covered
  | ok document =>
    have hcover : host.limits.Cover (unifyNewlines encoded.toList) := by
      rw [Toml.Limits.cover_iff, hread]
      exact ⟨fun heq => (nomatch heq), fun heq => (nomatch heq)⟩
    dsimp only
    rw [isSettled_ofDocument_iff (Toml.wellKeyed_of_read hread)]
    constructor
    · intro hshown
      refine ⟨hcover, fun other table error hother => ?_⟩
      rw [hread] at hother
      obtain rfl := Except.ok.inj hother
      exact hshown table error
    · exact fun h table error => h.shown document table error hread

theorem ordinary_iff_isSettled {content : Except ReadError ByteArray} :
    Ordinary host path content ↔ IsSettled (load host path (default environment) content) := by
  cases content with
  | error reason => exact ⟨fun _ => .inr ⟨.unreadable path reason, rfl⟩, fun _ => trivial⟩
  | ok bytes =>
    cases hdecoded : String.fromUTF8? bytes with
    | none =>
      constructor
      · intro ⟨encoded, hbytes, _⟩
        exact absurd hbytes (fromUTF8?_eq_none_iff.mp hdecoded encoded)
      · simp only [load, hdecoded]
        exact fun h => absurd h (not_isSettled fun _ heq => nomatch heq)
    | some encoded =>
      rw [isSettled_load_iff hdecoded]
      constructor
      · intro ⟨text, hbytes, hexplainable⟩
        rw [fromUTF8?_eq_some_iff.mpr hbytes] at hdecoded
        rwa [← Option.some.inj hdecoded]
      · exact fun hexplainable =>
          ⟨encoded, fromUTF8?_eq_some_iff.mp hdecoded, hexplainable⟩

theorem load_eq_undecodable_iff {defaults : Settings} {content : Except ReadError ByteArray} :
    load host path defaults content = .error .undecodable ↔
      ∃ bytes, content = .ok bytes ∧ ∀ text : String, text.toUTF8 ≠ bytes := by
  constructor
  · intro h
    cases content with
    | error reason => cases h
    | ok bytes =>
      refine ⟨bytes, rfl, fromUTF8?_eq_none_iff.mp ?_⟩
      cases htext : String.fromUTF8? bytes with
      | none => rfl
      | some text =>
        simp only [load, htext] at h
        split at h
        · cases h
        · cases h
        · cases h
        · next document _ =>
          cases hsettings : ofDocument path defaults document with
          | ok settings =>
            rw [hsettings] at h
            cases h
          | error error =>
            rw [hsettings] at h
            have hload : LoadError.ofConfig error = .undecodable := Except.error.inj h
            rw [LoadError.ofConfig] at hload
            split at hload <;> cases hload
  · intro h
    obtain ⟨bytes, hbytes, h⟩ := h
    simp only [hbytes, load, fromUTF8?_eq_none_iff.mpr h]
    rfl

end

/-! ### The run -/

/-- The file that the settings come from: the path that messages show, and what reading it came
to. -/
def IsSource (fs : FileSystem) (given : Option Path) (path : String)
    (content : Except ReadError ByteArray) : Prop :=
  match origin fs given with
  | .given given => given.isUsable = true ∧ path = given.text ∧ content = fs.read given
  | .found place => path = fs.absoluteText place ∧ content = fs.readAt place
  | .nowhere | .refused _ => False

theorem IsSource.resolve {fs : FileSystem} {given : Option Path} {path : String}
    {content : Except ReadError ByteArray} (h : IsSource fs given path content) (host : Host)
    (environment : Option String) :
    Settings.resolve host fs environment given = load host path (default environment) content := by
  rw [IsSource] at h
  rw [Settings.resolve]
  cases horigin : origin fs given with
  | given place =>
    rw [horigin] at h
    obtain ⟨husable, rfl, rfl⟩ := h
    exact if_pos husable
  | found place =>
    rw [horigin] at h
    obtain ⟨rfl, rfl⟩ := h
    rfl
  | nowhere =>
    rw [horigin] at h
    cases h
  | refused reason =>
    rw [horigin] at h
    cases h

open CommandLine (Command Console Crash Interface Parsed Report runCommand runWith)
open Text (isVisible)

section

variable {interface : Interface} {fs : FileSystem} {environment : Option String}
  {command : Command} {parse : Bool → Text → Parsed}

theorem runCommand_of_ok {settings : Settings}
    (h : Settings.resolve interface.host fs environment command.config = .ok settings) :
    runCommand interface fs environment command parse =
      runWith interface.console settings command parse := by
  simp only [runCommand, h]

theorem runCommand_of_config {error : ConfigError}
    (h : Settings.resolve interface.host fs environment command.config = .error (.config error)) :
    runCommand interface fs environment command parse =
      .ok ⟨1, "", interface.console.line "Error: " error.message⟩ := by
  simp only [runCommand, h]
  rfl

theorem runCommand_of_not_isSettled
    (h : ¬ IsSettled (Settings.resolve interface.host fs environment command.config)) :
    ∃ crash, runCommand interface fs environment command parse = .error crash := by
  cases hresolve : Settings.resolve interface.host fs environment command.config with
  | ok settings => exact absurd (.inl ⟨settings, hresolve⟩) h
  | error error =>
    simp only [runCommand, hresolve]
    cases error with
    | config why => exact absurd (.inr ⟨why, hresolve⟩) h
    | undecodable | oversizedNumeral | nestedTooDeeply | unusablePath => exact ⟨_, rfl⟩
    | unsearchable reason => exact ⟨_, rfl⟩

end

/-- The explanation of an error is one line, unless the message repeats control characters. -/
theorem line_of_config {console : Console} (h : console.ShowsEscaped) {error : ConfigError}
    (hrepeated : ∀ part ∈ error.repeated, part.toList.all isVisible = true) :
    console.line "Error: " error.message = "Error: " ++ error.message ++ "\n" ∧
      '\n' ∉ error.message.toList := by
  have hvisible := ConfigError.all_isVisible_message hrepeated
  refine ⟨h.line_of_visible (by decide) hvisible, fun hmem => ?_⟩
  exact absurd (List.all_eq_true.mp hvisible _ hmem) (by decide)

/-- A terminal whose console has no markup. -/
def plainTerminal : Interface :=
  { Terminal.interface ⟨"", ""⟩ (fun _ => "") with console := .plain }

/-- A directory with a file of these bytes. -/
def project (bytes : ByteArray) : FileSystem :=
  .ofTree "/home" [] [(["astcalc.toml"], bytes)] []

/-- An array of tables where the table should stand. -/
def arrayOfTables : ByteArray := "[[calculator]]\n".toUTF8

theorem load_arrayOfTables :
    load plainTerminal.host "/home/astcalc.toml" (default none) (.ok arrayOfTables) =
      .error (.config (.notATable "/home/astcalc.toml")) := by
  rfl

end Reckoner.Settings
