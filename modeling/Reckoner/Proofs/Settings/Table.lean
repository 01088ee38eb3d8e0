import Mathlib.Data.List.Sort
import Mathlib.Data.String.Basic
import Reckoner.Proofs.Toml.Reader
import Reckoner.Settings

/-!
# What a table is turned down for

What a table comes to depends on its entries and not on their order. A key that is not known and a
value of the wrong form are each a reason to turn it down, and of several reasons the first in a
fixed order is reported. The argument follows the checks: when one of them is made, nothing that an
earlier one looks for is wrong, so what it finds comes first.

The report shows the value that has the wrong form. If a whole number in it is too long for a
numeral, there is no report, and the run breaks off.
-/

namespace Reckoner

namespace Toml

theorem areShowable_iff {items : List Value} :
    Value.areShowable items = true ↔ ∀ item ∈ items, item.isShowable = true := by
  induction items with
  | nil => simp [Value.areShowable]
  | cons item rest ih => simp [Value.areShowable, ih]

theorem haveShowable_iff {table : Table} :
    Value.haveShowable table = true ↔ ∀ entry ∈ table, entry.2.isShowable = true := by
  induction table with
  | nil => simp [Value.haveShowable]
  | cons entry rest ih => simp [Value.haveShowable, ih]

theorem isShowable_array {items : List Value} :
    (Value.array items).isShowable = true ↔ ∀ item ∈ items, item.isShowable = true := by
  rw [Value.isShowable, areShowable_iff]

theorem isShowable_table {table : Table} :
    (Value.table table).isShowable = true ↔ ∀ entry ∈ table, entry.2.isShowable = true := by
  rw [Value.isShowable, haveShowable_iff]

/-- The whole numbers in a value. -/
inductive Value.Holds : Value → Int → Prop
  | integer (n : Int) : Holds (.integer n) n
  | item {items : List Value} {item : Value} {n : Int} :
    item ∈ items → Holds item n → Holds (.array items) n
  | entry {entries : Table} {entry : Text × Value} {n : Int} :
    entry ∈ entries → Holds entry.2 n → Holds (.table entries) n

theorem Value.Holds.hasNumeral {value : Value} {n : Int} (h : value.Holds n)
    (hshown : value.isShowable = true) : Text.hasNumeral n = true := by
  induction h with
  | integer n => exact hshown
  | item hitem _ ih => exact ih (isShowable_array.mp hshown _ hitem)
  | entry hentry _ ih => exact ih (isShowable_table.mp hshown _ hentry)

theorem Value.isShowable_of_holds (value : Value)
    (h : ∀ n, value.Holds n → Text.hasNumeral n = true) : value.isShowable = true := by
  match value with
  | .integer n => exact h n (.integer n)
  | .array items =>
    refine isShowable_array.mpr fun item hitem => ?_
    have hsmaller := List.sizeOf_lt_of_mem hitem
    exact isShowable_of_holds item fun n hn => h n (.item hitem hn)
  | .table entries =>
    refine isShowable_table.mpr fun (key, value) hentry => ?_
    have hsmaller : sizeOf value < sizeOf entries := by
      have hvalue : sizeOf value < sizeOf (key, value) := by simp
      exact hvalue.trans (List.sizeOf_lt_of_mem hentry)
    exact isShowable_of_holds value fun n hn => h n (.entry hentry hn)
  | .boolean _ | .float _ | .string _ | .date _ | .time _ | .dateTime .. => rfl
termination_by sizeOf value
decreasing_by all_goals simp_wf; omega

theorem Value.isShowable_iff {value : Value} :
    value.isShowable = true ↔ ∀ n, value.Holds n → n.natAbs < 10 ^ Text.maxNumeralDigits := by
  have hshort (n : Int) : Text.hasNumeral n = true ↔ n.natAbs < 10 ^ Text.maxNumeralDigits := by
    rw [Text.hasNumeral, decide_eq_true_iff, Nat.pow_eq]
  simp only [← hshort]
  exact ⟨fun hshown n hn => hn.hasNumeral hshown, isShowable_of_holds value⟩

namespace Table

variable {table : Table} (hkeys : (table.map (·.1)).Nodup)

include hkeys

theorem value_unique {key : Text} {value other : Value} (h : (key, value) ∈ table)
    (hother : (key, other) ∈ table) : value = other := by
  have hentry : (key, value) = (key, other) := List.inj_on_of_nodup_map hkeys h hother rfl
  exact congrArg Prod.snd hentry

/-- The value of a key is found wherever in the table it stands. -/
theorem lookup_eq_some_iff {key : Text} {value : Value} :
    List.lookup key table = some value ↔ (key, value) ∈ table := by
  refine ⟨mem_of_lookup, fun h => ?_⟩
  cases hlookup : List.lookup key table with
  | none => exact absurd (List.mem_map.mpr ⟨_, h, rfl⟩) (not_mem_keys_of_lookup hlookup)
  | some other => rw [value_unique hkeys h (mem_of_lookup hlookup)]

theorem lookup_eq_none_iff {key : Text} :
    List.lookup key table = none ↔ ∀ value, (key, value) ∉ table := by
  rw [Option.eq_none_iff_forall_ne_some]
  simp only [Ne, lookup_eq_some_iff hkeys]

theorem lookup_perm {other : Table} (hperm : other.Perm table) (key : Text) :
    List.lookup key other = List.lookup key table := by
  have hother : (other.map (·.1)).Nodup := (hperm.map _).nodup_iff.mpr hkeys
  ext value
  rw [lookup_eq_some_iff hother, lookup_eq_some_iff hkeys, hperm.mem_iff]

end Table

end Toml

/-! ### Reports of errors -/

namespace ConfigError

variable {error : ConfigError}

/-- The message shows the whole number. -/
def Shows : ConfigError → Int → Prop
  | notABoolean _ value, n | badPrecision value, n | badLogLevel value, n => value.Holds n
  | _, _ => False

theorem isShowable_iff :
    error.isShowable = true ↔ ∀ n, error.Shows n → n.natAbs < 10 ^ Text.maxNumeralDigits := by
  cases error with
  | unreadable | invalid | notATable | unknownKeys => exact ⟨fun _ _ h => (nomatch h), fun _ => rfl⟩
  | notABoolean | badPrecision | badLogLevel => exact Toml.Value.isShowable_iff

theorem isShowable_eq_false_iff :
    error.isShowable = false ↔ ∃ n, error.Shows n ∧ 10 ^ Text.maxNumeralDigits ≤ n.natAbs := by
  rw [← Bool.not_eq_true, isShowable_iff]
  simp only [not_forall, Nat.not_lt, exists_prop]

end ConfigError

namespace LoadError

variable {error : ConfigError}

theorem ofConfig_eq_config_iff {other : ConfigError} :
    ofConfig error = .config other ↔ error = other ∧ error.isShowable = true := by
  rw [ofConfig]
  split
  · next h => simp [h]
  · next h => simp [h]

theorem ofConfig_eq_oversizedNumeral_iff :
    ofConfig error = .oversizedNumeral ↔ error.isShowable = false := by
  rw [ofConfig]
  split
  · next h => simp [h]
  · next h => simp [h]

end LoadError

namespace Settings

open Toml (Table)

variable {path : String} {table : Table} {defaults settings : Settings}

/-! ### The form of values -/

def IsBoolean (value : Toml.Value) (b : Bool) : Prop := value = .boolean b

def IsPlaces (value : Toml.Value) (places : Option Nat) : Prop :=
  ∃ n : Nat, value = .integer n ∧ places = some n

/-- A text that is the name of a level but for case. -/
def IsLevel (value : Toml.Value) (name : String) : Prop :=
  ∃ text, value = .string text ∧ ∃ level : Level, Text.toUpper text = level.name.toList ∧
    name = level.name

theorem IsBoolean.unique {value : Toml.Value} {a b : Bool} (ha : IsBoolean value a)
    (hb : IsBoolean value b) : a = b :=
  Toml.Value.boolean.inj (ha.symm.trans hb)

theorem IsPlaces.unique {value : Toml.Value} {a b : Option Nat} (ha : IsPlaces value a)
    (hb : IsPlaces value b) : a = b := by
  obtain ⟨n, rfl, rfl⟩ := ha
  obtain ⟨m, hm, rfl⟩ := hb
  exact congrArg some (Int.ofNat.inj (Toml.Value.integer.inj hm))

theorem IsLevel.unique {value : Toml.Value} {a b : String} (ha : IsLevel value a)
    (hb : IsLevel value b) : a = b := by
  obtain ⟨text, rfl, level, hupper, rfl⟩ := ha
  obtain ⟨text', htext, level', hupper', rfl⟩ := hb
  obtain rfl := Toml.Value.string.inj htext
  exact String.toList_inj.mp (hupper.symm.trans hupper')

section

variable {α : Type} {key : String} {Says : Toml.Value → α → Prop} {wrong : Toml.Value → ConfigError}
  {absent : α}

/-- A key has its value, or its default if the table leaves it out. -/
def Given (table : Table) (key : String) (Says : Toml.Value → α → Prop) (absent found : α) : Prop :=
  (∃ value, (key.toList, value) ∈ table ∧ Says value found) ∨
    (∀ value, (key.toList, value) ∉ table) ∧ found = absent

/-- A key has a value that does not have its form. -/
def Misgiven (table : Table) (key : String) (Says : Toml.Value → α → Prop)
    (wrong : Toml.Value → ConfigError) (error : ConfigError) : Prop :=
  ∃ value, (key.toList, value) ∈ table ∧ (∀ found, ¬ Says value found) ∧ error = wrong value

/-- The keys that are not known, in the order of their code points. -/
def AreUnknown (table : Table) (keys : List String) : Prop :=
  keys.Pairwise (· < ·) ∧
    ∀ key, key ∈ keys ↔ key.toList ∉ knownKeys ∧ ∃ value, (key.toList, value) ∈ table

/-- What is wrong with a table, each by its place in the order of the checks. -/
def IsWrong (path : String) (table : Table) : Nat → ConfigError → Prop
  | 0, error => ∃ keys, keys ≠ [] ∧ AreUnknown table keys ∧ error = .unknownKeys path keys
  | 1, error => Misgiven table "strict" IsBoolean (.notABoolean "strict") error
  | 2, error => Misgiven table "show_expression" IsBoolean (.notABoolean "show_expression") error
  | 3, error => Misgiven table "precision" IsPlaces .badPrecision error
  | 4, error => Misgiven table "log_level" IsLevel .badLogLevel error
  | _, _ => False

def CleanBefore (path : String) (table : Table) (n : Nat) : Prop :=
  ∀ m < n, ∀ error, ¬ IsWrong path table m error

def IsFirstWrong (path : String) (table : Table) (error : ConfigError) : Prop :=
  ∃ n, IsWrong path table n error ∧ CleanBefore path table n

/-- The settings are those of the table, and the defaults where it has none. -/
structure Gives (table : Table) (defaults settings : Settings) : Prop where
  strict : Given table "strict" IsBoolean defaults.strict settings.strict
  showExpression :
    Given table "show_expression" IsBoolean defaults.showExpression settings.showExpression
  precision : Given table "precision" IsPlaces defaults.precision settings.precision
  logLevel : Given table "log_level" IsLevel defaults.logLevel settings.logLevel

/-! ### The checks -/

/-- What the reading of one key can come to. -/
def Reads (table : Table) (key : String) (Says : Toml.Value → α → Prop)
    (wrong : Toml.Value → ConfigError) (absent : α) : Except ConfigError α → Prop
  | .ok found => Given table key Says absent found
  | .error error => Misgiven table key Says wrong error

/-- What the checks before the `n`-th can come to. -/
def Settles (path : String) (table : Table) (n : Nat) (Says : α → Prop) :
    Except ConfigError α → Prop
  | .ok found => Says found ∧ CleanBefore path table n
  | .error error => IsFirstWrong path table error

theorem Settles.bind {β : Type} {n m : Nat} {Says : α → Prop} {Then : β → Prop}
    {first : Except ConfigError α} {next : α → Except ConfigError β}
    (h : Settles path table n Says first)
    (hnext : ∀ a, Says a → CleanBefore path table n → Settles path table m Then (next a)) :
    Settles path table m Then (first >>= next) := by
  cases first with
  | ok a => exact hnext a h.1 h.2
  | error error => exact h

theorem CleanBefore.succ {n : Nat} (h : CleanBefore path table n)
    (hnone : ∀ error, ¬ IsWrong path table n error) : CleanBefore path table (n + 1) := by
  intro m hm
  rcases Nat.lt_succ_iff_lt_or_eq.mp hm with hlt | rfl
  · exact h m hlt
  · exact hnone

theorem contains_names_iff {name : String} :
    (Level.all.map Level.name).contains name = true ↔ ∃ level : Level, name = level.name := by
  rw [List.contains_iff_mem, List.mem_map]
  constructor
  · rintro ⟨level, -, rfl⟩
    exact ⟨level, rfl⟩
  · rintro ⟨level, rfl⟩
    exact ⟨level, by cases level <;> decide, rfl⟩

section

variable (hkeys : (table.map (·.1)).Nodup)

include hkeys

/-- A key that has its value or is left out is not misgiven. -/
theorem Given.not_misgiven {found : α} (h : Given table key Says absent found)
    (error : ConfigError) : ¬ Misgiven table key Says wrong error := by
  rintro ⟨value, hvalue, hnot, -⟩
  rcases h with ⟨given, hgiven, hform⟩ | ⟨habsent, -⟩
  · obtain rfl := Table.value_unique hkeys hvalue hgiven
    exact hnot found hform
  · exact habsent value hvalue

/-- The reading of a key settles the check that is made there. -/
theorem Reads.settles {read : Except ConfigError α} {n : Nat}
    (h : Reads table key Says wrong absent read) (hbefore : CleanBefore path table n)
    (hcheck : IsWrong path table n = Misgiven table key Says wrong) :
    Settles path table (n + 1) (Given table key Says absent) read := by
  cases read with
  | ok found =>
    refine ⟨h, hbefore.succ fun error => ?_⟩
    rw [hcheck]
    exact Given.not_misgiven hkeys h error
  | error error => exact ⟨n, hcheck ▸ h, hbefore⟩

theorem readBoolean_reads (key : String) (absent : Bool) :
    Reads table key IsBoolean (.notABoolean key) absent (readBoolean table key absent) := by
  unfold readBoolean
  split
  · next hnone => exact .inr ⟨(Table.lookup_eq_none_iff hkeys).mp hnone, rfl⟩
  · next b hsome => exact .inl ⟨_, (Table.lookup_eq_some_iff hkeys).mp hsome, rfl⟩
  · next value hother hsome =>
    exact ⟨value, (Table.lookup_eq_some_iff hkeys).mp hsome, hother, rfl⟩

theorem readPrecision_reads (absent : Option Nat) :
    Reads table "precision" IsPlaces .badPrecision absent (readPrecision table absent) := by
  unfold readPrecision
  split
  · next hnone => exact .inr ⟨(Table.lookup_eq_none_iff hkeys).mp hnone, rfl⟩
  · next n hsome => exact .inl ⟨_, (Table.lookup_eq_some_iff hkeys).mp hsome, n, rfl, rfl⟩
  · next value hother hsome =>
    refine ⟨value, (Table.lookup_eq_some_iff hkeys).mp hsome, ?_, rfl⟩
    rintro places ⟨n, hn, -⟩
    exact hother n hn

theorem readLogLevel_reads (absent : String) :
    Reads table "log_level" IsLevel .badLogLevel absent (readLogLevel table absent) := by
  unfold readLogLevel
  split
  · next hnone => exact .inr ⟨(Table.lookup_eq_none_iff hkeys).mp hnone, rfl⟩
  · next text hsome =>
    have hmem := (Table.lookup_eq_some_iff hkeys).mp hsome
    dsimp only
    split
    · next hname =>
      obtain ⟨level, hlevel⟩ := contains_names_iff.mp hname
      refine .inl ⟨_, hmem, text, rfl, level, ?_, hlevel⟩
      rw [← hlevel, String.toList_ofList]
    · next hname =>
      refine ⟨_, hmem, ?_, rfl⟩
      rintro name ⟨given, hgiven, level, hupper, -⟩
      obtain rfl := Toml.Value.string.inj hgiven
      refine hname (contains_names_iff.mpr ⟨level, ?_⟩)
      rw [hupper, String.ofList_toList]
  · next value hother hsome =>
    refine ⟨value, (Table.lookup_eq_some_iff hkeys).mp hsome, ?_, rfl⟩
    rintro name ⟨text, htext, -⟩
    exact hother text htext

end

end

/-! ### The keys that are not known -/

theorem AreUnknown.unique {keys other : List String} (h : AreUnknown table keys)
    (hother : AreUnknown table other) : keys = other :=
  h.1.eq_of_mem_iff hother.1 fun key => (h.2 key).trans (hother.2 key).symm

theorem mem_sortedNames {name : String} {names : List String} :
    name ∈ sortedNames names ↔ name ∈ names :=
  (List.mergeSort_perm _ _).mem_iff

theorem sortedNames_pairwise {names : List String} (h : names.Nodup) :
    (sortedNames names).Pairwise (· < ·) := by
  have hsorted : (sortedNames names).Pairwise (· ≤ ·) := List.pairwise_mergeSort' _ _
  have hnodup : (sortedNames names).Nodup := (List.mergeSort_perm _ _).nodup_iff.mpr h
  exact (hsorted.and hnodup).imp fun ⟨hle, hne⟩ => lt_of_le_of_ne hle hne

theorem areUnknown_unknownKeys (hkeys : (table.map (·.1)).Nodup) :
    AreUnknown table (unknownKeys table) := by
  constructor
  · exact sortedNames_pairwise
      ((hkeys.filter _).map fun _ _ h => String.ofList_injective h)
  · intro key
    have hmem : key.toList ∈ table.map (·.1) ↔ ∃ value, (key.toList, value) ∈ table := by simp
    rw [unknownKeys, mem_sortedNames, List.mem_map, ← hmem]
    constructor
    · rintro ⟨name, hname, rfl⟩
      obtain ⟨hname, hnot⟩ := List.mem_filter.mp hname
      rw [String.toList_ofList]
      exact ⟨by simpa using hnot, hname⟩
    · rintro ⟨hnot, hkey⟩
      exact ⟨key.toList, List.mem_filter.mpr ⟨hkey, by simpa using hnot⟩, String.ofList_toList⟩

/-! ### What a table comes to -/

theorem cleanBefore_zero : CleanBefore path table 0 := fun _ h => absurd h (Nat.not_lt_zero _)

theorem IsWrong.lt {n : Nat} {error : ConfigError} (h : IsWrong path table n error) : n < 5 := by
  match n with
  | 0 | 1 | 2 | 3 | 4 => decide

section

variable (hkeys : (table.map (·.1)).Nodup)

include hkeys

theorem ofTable_settles (path : String) (defaults : Settings) :
    Settles path table 5 (Gives table defaults) (ofTable path defaults table) := by
  have hunknown := areUnknown_unknownKeys hkeys
  unfold ofTable
  dsimp only
  split
  · next hempty =>
    have hnone : ∀ error, ¬ IsWrong path table 0 error := by
      rintro error ⟨keys, hne, hkeys, -⟩
      exact hne ((hkeys.unique hunknown).trans (List.isEmpty_iff.mp hempty))
    -- What a check finds comes first because every check before it has passed.
    refine ((readBoolean_reads hkeys _ _).settles hkeys (cleanBefore_zero.succ hnone) rfl).bind
      fun strict hstrict hbefore => ?_
    refine ((readBoolean_reads hkeys _ _).settles hkeys hbefore rfl).bind
      fun showExpression hshow hbefore => ?_
    refine ((readPrecision_reads hkeys _).settles hkeys hbefore rfl).bind
      fun precision hprecision hbefore => ?_
    refine ((readLogLevel_reads hkeys _).settles hkeys hbefore rfl).bind
      fun logLevel hlevel hbefore => ?_
    exact ⟨⟨hstrict, hshow, hprecision, hlevel⟩, hbefore⟩
  · next hsome =>
    exact ⟨0, ⟨_, fun h => hsome (List.isEmpty_iff.mpr h), hunknown, rfl⟩, cleanBefore_zero⟩

theorem Misgiven.unique {α : Type} {key : String} {Says : Toml.Value → α → Prop}
    {wrong : Toml.Value → ConfigError} {error other : ConfigError}
    (h : Misgiven table key Says wrong error) (hother : Misgiven table key Says wrong other) :
    error = other := by
  obtain ⟨value, hvalue, -, rfl⟩ := h
  obtain ⟨_, hvalue', -, rfl⟩ := hother
  rw [Table.value_unique hkeys hvalue hvalue']

theorem IsWrong.unique {n : Nat} {error other : ConfigError} (h : IsWrong path table n error)
    (hother : IsWrong path table n other) : error = other := by
  match n with
  | 0 =>
    obtain ⟨keys, -, hunknown, rfl⟩ := h
    obtain ⟨keys', -, hunknown', rfl⟩ := hother
    rw [hunknown.unique hunknown']
  | 1 | 2 | 3 | 4 => exact Misgiven.unique hkeys h hother

theorem IsFirstWrong.unique {error other : ConfigError} (h : IsFirstWrong path table error)
    (hother : IsFirstWrong path table other) : error = other := by
  obtain ⟨n, hwrong, hbefore⟩ := h
  obtain ⟨m, hwrong', hbefore'⟩ := hother
  rcases Nat.lt_trichotomy n m with hlt | rfl | hlt
  · exact absurd hwrong (hbefore' n hlt error)
  · exact hwrong.unique hkeys hwrong'
  · exact absurd hwrong' (hbefore m hlt other)

theorem Given.unique {α : Type} {key : String} {Says : Toml.Value → α → Prop}
    {absent found other : α} (h : Given table key Says absent found)
    (hother : Given table key Says absent other)
    (hform : ∀ {value a b}, Says value a → Says value b → a = b) : found = other := by
  rcases h with ⟨value, hvalue, hfound⟩ | ⟨habsent, rfl⟩ <;>
    rcases hother with ⟨value', hvalue', hother⟩ | ⟨habsent', rfl⟩
  · obtain rfl := Table.value_unique hkeys hvalue hvalue'
    exact hform hfound hother
  · exact absurd hvalue (habsent' value)
  · exact absurd hvalue' (habsent value')
  · rfl

theorem Gives.unique {other : Settings} (h : Gives table defaults settings)
    (hother : Gives table defaults other) : settings = other := by
  cases settings
  cases other
  obtain rfl := h.strict.unique hkeys hother.strict IsBoolean.unique
  obtain rfl := h.showExpression.unique hkeys hother.showExpression IsBoolean.unique
  obtain rfl := h.precision.unique hkeys hother.precision IsPlaces.unique
  obtain rfl := h.logLevel.unique hkeys hother.logLevel IsLevel.unique
  rfl

theorem ofTable_eq_error_iff {error : ConfigError} :
    ofTable path defaults table = .error error ↔ IsFirstWrong path table error := by
  have hsettles := ofTable_settles hkeys path defaults
  cases hread : ofTable path defaults table with
  | ok settings =>
    rw [hread] at hsettles
    refine ⟨fun h => (nomatch h), fun ⟨n, hwrong, _⟩ => ?_⟩
    exact absurd hwrong (hsettles.2 n hwrong.lt error)
  | error first =>
    rw [hread] at hsettles
    refine ⟨fun h => Except.error.inj h ▸ hsettles, fun h => ?_⟩
    rw [hsettles.unique hkeys h]

theorem ofTable_eq_ok_iff_gives :
    ofTable path defaults table = .ok settings ↔
      (∀ n error, ¬ IsWrong path table n error) ∧ Gives table defaults settings := by
  have hsettles := ofTable_settles hkeys path defaults
  cases hread : ofTable path defaults table with
  | ok found =>
    rw [hread] at hsettles
    obtain ⟨hgives, hclean⟩ := hsettles
    constructor
    · intro h
      obtain rfl := Except.ok.inj h
      exact ⟨fun n error hwrong => hclean n hwrong.lt error hwrong, hgives⟩
    · rintro ⟨-, h⟩
      rw [hgives.unique hkeys h]
  | error first =>
    rw [hread] at hsettles
    obtain ⟨n, hwrong, -⟩ := hsettles
    exact ⟨fun h => (nomatch h), fun ⟨hnone, _⟩ => absurd hwrong (hnone n first)⟩

/-- The order of the entries makes no difference. -/
theorem ofTable_perm {other : Table} (hperm : other.Perm table) :
    ofTable path defaults other = ofTable path defaults table := by
  have hlookup := Table.lookup_perm hkeys hperm
  have hother : (other.map (·.1)).Nodup := (hperm.map _).nodup_iff.mpr hkeys
  have hunknown : unknownKeys other = unknownKeys table := by
    refine AreUnknown.unique (areUnknown_unknownKeys hother) ?_
    have h := areUnknown_unknownKeys hkeys
    exact ⟨h.1, fun key => by rw [h.2]; simp only [hperm.mem_iff]⟩
  simp only [ofTable, readBoolean, readPrecision, readLogLevel, hlookup, hunknown]

end

/-- A table without entries gives the defaults. -/
theorem ofTable_nil (path : String) (defaults : Settings) :
    ofTable path defaults [] = .ok defaults := by
  simp only [ofTable, unknownKeys, sortedNames, List.map_nil, List.filter_nil, List.mergeSort_nil]
  rfl

/-! ### The report -/

/-- The settings in the table of a file, or why the file cannot be loaded. -/
def build (path : String) (environment : Option String) (table : Table) :
    Except LoadError Settings :=
  (ofTable path (default environment) table).mapError .ofConfig

theorem build_eq_ok_iff {environment : Option String} :
    build path environment table = .ok settings ↔
      ofTable path (default environment) table = .ok settings := by
  rw [build]
  cases ofTable path (default environment) table with
  | ok found => simp [Except.mapError]
  | error first => simp [Except.mapError]

theorem build_eq_error_iff {environment : Option String} {error : LoadError} :
    build path environment table = .error error ↔
      ∃ first, ofTable path (default environment) table = .error first ∧
        LoadError.ofConfig first = error := by
  rw [build]
  cases ofTable path (default environment) table with
  | ok found => simp [Except.mapError]
  | error first => simp [Except.mapError]

/-- A table with two values of the wrong form, one of them for a key that is checked last. -/
def misgivenTwice : Table :=
  [("log_level".toList, .integer 3), ("precision".toList, .boolean true),
    ("show_expression".toList, .boolean false)]

theorem ofTable_misgivenTwice (path : String) (defaults : Settings) :
    ofTable path defaults misgivenTwice = .error (.badPrecision (.boolean true)) := by
  have hknown : unknownKeys misgivenTwice = [] := by
    simp [unknownKeys, misgivenTwice, knownKeys, sortedNames]
  simp only [ofTable, hknown]
  rfl

theorem ofTable_integer_strict (path : String) (defaults : Settings) (n : Int) :
    ofTable path defaults [("strict".toList, .integer n)] =
      .error (.notABoolean "strict" (.integer n)) := by
  have hknown : unknownKeys [("strict".toList, .integer n)] = [] := by
    simp [unknownKeys, knownKeys, sortedNames]
  simp only [ofTable, hknown]
  rfl

/-- A number where a truth value should stand, with more digits than a numeral may have. -/
def longStrict : Table := [("strict".toList, .integer (Int.ofNat (Nat.pow 16 3600)))]

end Settings

end Reckoner
