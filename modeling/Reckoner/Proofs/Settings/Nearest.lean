import Mathlib.Data.List.Induction
import Reckoner.Proofs.Settings.Table
import Reckoner.Terminal.Interface

/-!
# The nearest file decides

Without a path the settings are looked for in the working directory and the directories above it.
The search stops at the first regular file of the usual name, whatever it holds and whatever stands
further up, or at the first place that it is refused to look at. So of all the files in all these
directories one alone has a say, and if it cannot be loaded no other is tried. The argument follows
the search from a directory to its parent; where it stops is then known by position and not by how
it was reached.
-/

namespace Reckoner

namespace FileSystem

variable {fs : FileSystem} {name : String}

/-- The absolute path of the regular file of a name that is nearest, and what reading it comes to:
the file is in the working directory or above it, and there is none in the directories between. -/
def IsNearest (fs : FileSystem) (name path : String) (content : Except ReadError ByteArray) :
    Prop :=
  ∃ directory, directory <+: fs.current ∧ path = fs.absoluteText (directory ++ [name]) ∧
    fs.entry (directory ++ [name]) = .file content ∧
    ∀ nearer, nearer <+: fs.current → directory.length < nearer.length →
      ∀ other, fs.entry (nearer ++ [name]) ≠ .file other

/-- In the working directory or above it one may not look for a file of the name, and there is none
in the directories between. -/
def IsRefused (fs : FileSystem) (name : String) (reason : ReadError) : Prop :=
  ∃ directory, directory <+: fs.current ∧ fs.entry (directory ++ [name]) = .hidden reason ∧
    ∀ nearer, nearer <+: fs.current → directory.length < nearer.length →
      (∀ other, fs.entry (nearer ++ [name]) ≠ .file other) ∧
      ∀ why, fs.entry (nearer ++ [name]) ≠ .hidden why

section

variable {place : List String}

theorem isFile_eq_true_iff :
    fs.isFile place = .ok true ↔ ∃ content, fs.entry place = .file content := by
  unfold isFile
  cases fs.entry place with
  | file content => exact ⟨fun _ => ⟨content, rfl⟩, fun _ => rfl⟩
  | missing | directory | special | hidden =>
    exact ⟨fun h => (nomatch h), fun ⟨_, h⟩ => (nomatch h)⟩

theorem isFile_eq_error_iff {reason : ReadError} :
    fs.isFile place = .error reason ↔ fs.entry place = .hidden reason := by
  unfold isFile
  cases fs.entry place with
  | hidden why =>
    exact ⟨fun h => congrArg _ (Except.error.inj h), fun h => congrArg _ (Entry.hidden.inj h)⟩
  | missing | directory | special | file =>
    exact ⟨fun h => (nomatch h), fun h => (nomatch h)⟩

theorem isFile_eq_false_iff :
    fs.isFile place = .ok false ↔
      (∀ content, fs.entry place ≠ .file content) ∧ ∀ reason, fs.entry place ≠ .hidden reason := by
  unfold isFile
  cases fs.entry place with
  | file content => exact ⟨fun h => (nomatch h), fun h => absurd rfl (h.1 content)⟩
  | hidden reason => exact ⟨fun h => (nomatch h), fun h => absurd rfl (h.2 reason)⟩
  | missing | directory | special =>
    exact ⟨fun _ => ⟨fun _ h => (nomatch h), fun _ h => (nomatch h)⟩, fun _ => rfl⟩

end

/-! ### The search -/

theorem ancestors_concat (place : List String) (part : String) :
    ancestors (place ++ [part]) = (place ++ [part]) :: ancestors place := by
  have habove : (List.range (place.length + 1)).map (fun n => (place ++ [part]).take n) =
      (List.range (place.length + 1)).map fun n => place.take n := by
    refine List.map_congr_left fun n hn => ?_
    exact List.take_append_of_le_length (Nat.lt_succ_iff.mp (List.mem_range.mp hn))
  rw [ancestors, List.length_append, List.length_singleton, List.range_succ, List.map_append,
    habove, List.map_singleton, List.reverse_append, List.reverse_singleton, ancestors,
    List.take_of_length_le (by simp)]
  rfl

/-- What stands at the name in a directory ends the search, unless it is nothing of interest. -/
def answer (fs : FileSystem) (name : String) (directory : List String) :
    Except ReadError (Option (List String)) :=
  (fs.isFile (directory ++ [name])).map fun _ => some (directory ++ [name])

theorem findUpwards_nil (fs : FileSystem) (name : String) :
    fs.findUpwards name [] =
      if fs.isFile [name] = .ok false then .ok none else fs.answer name [] := by
  show [[name]].findM? fs.isFile = _
  rw [List.findM?, answer, List.nil_append]
  match fs.isFile [name] with
  | .ok true | .ok false | .error _ => rfl

/-- The search in a directory and above it. -/
theorem findUpwards_concat (fs : FileSystem) (name : String) (place : List String) (part : String) :
    fs.findUpwards name (place ++ [part]) =
      if fs.isFile (place ++ [part] ++ [name]) = .ok false then fs.findUpwards name place
      else fs.answer name (place ++ [part]) := by
  rw [findUpwards, ancestors_concat, List.map_cons, List.findM?, answer]
  match fs.isFile (place ++ [part] ++ [name]) with
  | .ok true | .ok false | .error _ => rfl

/-- The search from a place stops in a directory: there is something of interest, and nothing in the
directories between. -/
structure StopsAt (fs : FileSystem) (name : String) (place directory : List String) : Prop where
  above : directory <+: place
  here : fs.isFile (directory ++ [name]) ≠ .ok false
  nearer : ∀ nearer, nearer <+: place → directory.length < nearer.length →
    fs.isFile (nearer ++ [name]) = .ok false

section

variable {place directory other : List String}

theorem StopsAt.unique (h : fs.StopsAt name place directory)
    (hother : fs.StopsAt name place other) : directory = other := by
  have hlength : directory.length = other.length := by
    apply Nat.le_antisymm
    · exact Nat.le_of_not_lt fun hlt => h.here (hother.nearer directory h.above hlt)
    · exact Nat.le_of_not_lt fun hlt => hother.here (h.nearer other hother.above hlt)
  rw [List.prefix_iff_eq_take.mp h.above, List.prefix_iff_eq_take.mp hother.above, hlength]

theorem stopsAt_concat {part : String} (h : fs.StopsAt name place directory)
    (hnothing : fs.isFile (place ++ [part] ++ [name]) = .ok false) :
    fs.StopsAt name (place ++ [part]) directory := by
  refine ⟨h.above.trans (List.prefix_append _ _), h.here, fun nearer hnearer hlt => ?_⟩
  obtain rfl | hnearer := List.prefix_concat_iff.mp hnearer
  · exact hnothing
  · exact h.nearer nearer hnearer hlt

theorem stopsAt_here (h : fs.isFile (place ++ [name]) ≠ .ok false) :
    fs.StopsAt name place place := by
  refine ⟨List.prefix_rfl, h, fun nearer hnearer hlt => ?_⟩
  exact absurd hnearer.length_le (Nat.not_le.mpr hlt)

/-- The search ends with the answer of the directory where it stops, or finds nothing because there
is nothing of interest anywhere. -/
theorem findUpwards_spec (fs : FileSystem) (name : String) (place : List String) :
    (∃ directory, fs.StopsAt name place directory ∧
        fs.findUpwards name place = fs.answer name directory) ∨
      (∀ directory, directory <+: place → fs.isFile (directory ++ [name]) = .ok false) ∧
        fs.findUpwards name place = .ok none := by
  induction place using List.reverseRecOn with
  | nil =>
    rw [findUpwards_nil]
    split
    · next hnothing =>
      refine .inr ⟨fun directory hdirectory => ?_, rfl⟩
      obtain rfl := List.prefix_nil.mp hdirectory
      exact hnothing
    · next hsome => exact .inl ⟨[], stopsAt_here hsome, rfl⟩
  | append_singleton place part ih =>
    rw [findUpwards_concat]
    split
    · next hnothing =>
      obtain ⟨directory, hstops, hfound⟩ | ⟨hnone, hfound⟩ := ih
      · exact .inl ⟨directory, stopsAt_concat hstops hnothing, hfound⟩
      · refine .inr ⟨fun directory hdirectory => ?_, hfound⟩
        obtain rfl | hdirectory := List.prefix_concat_iff.mp hdirectory
        · exact hnothing
        · exact hnone directory hdirectory
    · next hsome => exact .inl ⟨place ++ [part], stopsAt_here hsome, rfl⟩

theorem findUpwards_of_stopsAt (h : fs.StopsAt name place directory) :
    fs.findUpwards name place = fs.answer name directory := by
  obtain ⟨other, hother, hfound⟩ | ⟨hnone, -⟩ := findUpwards_spec fs name place
  · rw [h.unique hother]
    exact hfound
  · exact absurd (hnone directory h.above) h.here

end

/-! ### Files and refusals by position -/

theorem IsRefused.findUpwards {reason : ReadError} (h : fs.IsRefused name reason) :
    fs.findUpwards name fs.current = .error reason := by
  obtain ⟨directory, habove, hentry, hnearer⟩ := h
  have hfile := isFile_eq_error_iff.mpr hentry
  have hstops : fs.StopsAt name fs.current directory := by
    refine ⟨habove, fun h => ?_, fun nearer hprefix hlt => ?_⟩
    · rw [hfile] at h
      cases h
    · exact isFile_eq_false_iff.mpr (hnearer nearer hprefix hlt)
  rw [findUpwards_of_stopsAt hstops, answer, hfile]
  rfl

/-- A search that stops does so at the nearest file, or it is refused. -/
theorem StopsAt.isNearest_or_isRefused {directory : List String}
    (h : fs.StopsAt name fs.current directory) :
    (∃ content, fs.entry (directory ++ [name]) = .file content ∧
        fs.IsNearest name (fs.absoluteText (directory ++ [name])) content) ∨
      ∃ reason, fs.IsRefused name reason := by
  have hnearer := fun nearer hprefix hlt => isFile_eq_false_iff.mp (h.nearer nearer hprefix hlt)
  match hfile : fs.isFile (directory ++ [name]) with
  | .ok false => exact absurd hfile h.here
  | .ok true =>
    obtain ⟨content, hentry⟩ := isFile_eq_true_iff.mp hfile
    exact .inl ⟨content, hentry, directory, h.above, rfl, hentry, fun nearer hprefix hlt =>
      (hnearer nearer hprefix hlt).1⟩
  | .error reason =>
    exact .inr ⟨reason, directory, h.above, isFile_eq_error_iff.mp hfile, hnearer⟩

/-- There is one nearest file at most. -/
theorem IsNearest.unique {path other : String} {content otherContent : Except ReadError ByteArray}
    (h : fs.IsNearest name path content) (hother : fs.IsNearest name other otherContent) :
    path = other ∧ content = otherContent := by
  obtain ⟨directory, habove, rfl, hentry, hnearer⟩ := h
  obtain ⟨directory', habove', rfl, hentry', hnearer'⟩ := hother
  have hlength : directory.length = directory'.length := by
    apply Nat.le_antisymm
    · exact Nat.le_of_not_lt fun hlt => hnearer' directory habove hlt content hentry
    · exact Nat.le_of_not_lt fun hlt => hnearer directory' habove' hlt otherContent hentry'
  obtain rfl : directory = directory' := by
    rw [List.prefix_iff_eq_take.mp habove, List.prefix_iff_eq_take.mp habove', hlength]
  exact ⟨rfl, Entry.file.inj (hentry.symm.trans hentry')⟩

/-- Of the directories with a property that lie on the way up, one is the nearest. -/
theorem exists_nearest {Has : List String → Prop} {place : List String}
    (h : ∃ directory, directory <+: place ∧ Has directory) :
    ∃ directory, directory <+: place ∧ Has directory ∧
      ∀ nearer, nearer <+: place → directory.length < nearer.length → ¬ Has nearer := by
  induction place using List.reverseRecOn with
  | nil =>
    obtain ⟨directory, habove, hhas⟩ := h
    refine ⟨directory, habove, hhas, fun nearer hprefix hlt => ?_⟩
    obtain rfl := List.prefix_nil.mp hprefix
    exact absurd hlt (Nat.not_lt_zero _)
  | append_singleton place part ih =>
    by_cases hhere : Has (place ++ [part])
    · refine ⟨_, List.prefix_rfl, hhere, fun nearer hprefix hlt => ?_⟩
      exact absurd hprefix.length_le (Nat.not_le.mpr hlt)
    · obtain ⟨directory, habove, hhas⟩ := h
      obtain rfl | habove := List.prefix_concat_iff.mp habove
      · exact absurd hhas hhere
      obtain ⟨nearest, hnearest, hfound, hnone⟩ := ih ⟨directory, habove, hhas⟩
      refine ⟨nearest, hnearest.trans (List.prefix_append _ _), hfound, fun nearer hprefix => ?_⟩
      obtain rfl | hprefix := List.prefix_concat_iff.mp hprefix
      · exact fun _ => hhere
      · exact hnone nearer hprefix

/-- Where any directory has the file, there is a nearest one. -/
theorem exists_isNearest_iff :
    (∃ path content, fs.IsNearest name path content) ↔
      ∃ directory content, directory <+: fs.current ∧
        fs.entry (directory ++ [name]) = .file content := by
  constructor
  · intro ⟨path, content, directory, habove, _, hentry, _⟩
    exact ⟨directory, content, habove, hentry⟩
  · intro ⟨directory, content, habove, hentry⟩
    have hexists : ∃ directory, directory <+: fs.current ∧
        ∃ content, fs.entry (directory ++ [name]) = .file content :=
      ⟨directory, habove, content, hentry⟩
    obtain ⟨nearest, hnearest, ⟨found, hfound⟩, hnone⟩ := exists_nearest hexists
    exact ⟨_, found, nearest, hnearest, rfl, hfound, fun nearer hprefix hlt other hother =>
      hnone nearer hprefix hlt ⟨other, hother⟩⟩

/-- Nothing is out of sight in a snapshot of directories and files. -/
theorem not_isRefused_ofTree (name rootText : String) (directories : List (List String))
    (files : List (List String × ByteArray)) (current : List String) :
    ¬ ∃ reason, (ofTree rootText directories files current).IsRefused name reason := by
  intro ⟨reason, directory, _, hentry, _⟩
  dsimp only [ofTree] at hentry
  split at hentry
  · cases hentry
  · split at hentry
    · cases hentry
    · cases hentry

end FileSystem

namespace Settings

open FileSystem

variable {host : Host} {fs other : FileSystem} {environment : Option String} {path : String}
  {content : Except ReadError ByteArray} {reason : ReadError}

/-! ### Where the settings come from -/

theorem origin_of_isRefused (h : fs.IsRefused fileName reason) :
    origin fs none = .refused reason := by
  simp only [origin, h.findUpwards]

theorem origin_of_isNearest (h : fs.IsNearest fileName path content)
    (hallowed : ¬ ∃ reason, fs.IsRefused fileName reason) :
    ∃ place, origin fs none = .found place ∧ fs.absoluteText place = path ∧
      fs.readAt place = content := by
  obtain ⟨directory, hstops, hfound⟩ | ⟨hnone, -⟩ := findUpwards_spec fs fileName fs.current
  · obtain ⟨found, hentry, hnearest⟩ | hrefused := hstops.isNearest_or_isRefused
    · obtain ⟨rfl, rfl⟩ := hnearest.unique h
      rw [answer, isFile_eq_true_iff.mpr ⟨_, hentry⟩] at hfound
      refine ⟨directory ++ [fileName], ?_, rfl, ?_⟩
      · simp only [origin, hfound]
        rfl
      · simp only [readAt, hentry]
    · exact absurd hrefused hallowed
  · obtain ⟨directory, habove, -, hentry, -⟩ := h
    exact absurd hentry ((isFile_eq_false_iff.mp (hnone directory habove)).1 content)

theorem origin_of_not_isNearest (h : ¬ ∃ path content, fs.IsNearest fileName path content)
    (hallowed : ¬ ∃ reason, fs.IsRefused fileName reason) : origin fs none = .nowhere := by
  obtain ⟨directory, hstops, -⟩ | ⟨-, hfound⟩ := findUpwards_spec fs fileName fs.current
  · obtain ⟨content, -, hnearest⟩ | hrefused := hstops.isNearest_or_isRefused
    · exact absurd ⟨_, content, hnearest⟩ h
    · exact absurd hrefused hallowed
  · simp only [origin, hfound]

/-! ### The settings -/

theorem resolve_of_isRefused (host : Host) (environment : Option String)
    (h : fs.IsRefused fileName reason) :
    resolve host fs environment none = .error (.unsearchable reason) := by
  rw [resolve, origin_of_isRefused h]
  rfl

theorem resolve_of_isNearest (host : Host) (environment : Option String)
    (h : fs.IsNearest fileName path content)
    (hallowed : ¬ ∃ reason, fs.IsRefused fileName reason) :
    resolve host fs environment none = load host path (default environment) content := by
  obtain ⟨place, horigin, rfl, rfl⟩ := origin_of_isNearest h hallowed
  rw [resolve, horigin]

theorem resolve_of_not_isNearest (host : Host) (environment : Option String)
    (h : ¬ ∃ path content, fs.IsNearest fileName path content)
    (hallowed : ¬ ∃ reason, fs.IsRefused fileName reason) :
    resolve host fs environment none = .ok (default environment) := by
  rw [resolve, origin_of_not_isNearest h hallowed]
  rfl

/-- There are the defaults when nothing is found, and also when what is found comes to them. -/
theorem resolve_eq_default_iff (host : Host) (environment : Option String) :
    resolve host fs environment none = .ok (default environment) ↔
      (¬ ∃ reason, fs.IsRefused fileName reason) ∧
        ∀ path content, fs.IsNearest fileName path content →
          load host path (default environment) content = .ok (default environment) := by
  constructor
  · intro h
    have hallowed : ¬ ∃ reason, fs.IsRefused fileName reason := by
      intro ⟨reason, hrefused⟩
      rw [resolve_of_isRefused host environment hrefused] at h
      cases h
    refine ⟨hallowed, fun path content hnearest => ?_⟩
    rw [← resolve_of_isNearest host environment hnearest hallowed]
    exact h
  · intro ⟨hallowed, hload⟩
    by_cases hexists : ∃ path content, fs.IsNearest fileName path content
    · obtain ⟨path, content, hnearest⟩ := hexists
      rw [resolve_of_isNearest host environment hnearest hallowed]
      exact hload path content hnearest
    · exact resolve_of_not_isNearest host environment hexists hallowed

/-- The log shows the path that was looked at and what was found there. -/
theorem outcome_congr {given : Option Path}
    (hshown : (origin fs given).path? fs = (origin other given).path? other)
    (hresolve : resolve host fs environment given = resolve host other environment given) :
    resolve host fs environment given = resolve host other environment given ∧
      records host fs environment given = records host other environment given := by
  refine ⟨hresolve, ?_⟩
  rw [records, records, hshown, hresolve]

/-- File systems with the same nearest file and the same refusal have the same settings, whatever
else differs. -/
theorem outcome_congr_of_isNearest (host : Host) (environment : Option String)
    (hnearest : ∀ path content, fs.IsNearest fileName path content ↔
      other.IsNearest fileName path content)
    (hrefused : ∀ reason, fs.IsRefused fileName reason ↔ other.IsRefused fileName reason) :
    resolve host fs environment none = resolve host other environment none ∧
      records host fs environment none = records host other environment none := by
  by_cases hallowed : ∃ reason, fs.IsRefused fileName reason
  · obtain ⟨reason, h⟩ := hallowed
    have h' := (hrefused reason).mp h
    apply outcome_congr
    · rw [origin_of_isRefused h, origin_of_isRefused h']
      rfl
    · rw [resolve_of_isRefused host environment h, resolve_of_isRefused host environment h']
  have hallowed' : ¬ ∃ reason, other.IsRefused fileName reason := by
    simpa only [hrefused] using hallowed
  by_cases hexists : ∃ path content, fs.IsNearest fileName path content
  · obtain ⟨path, content, h⟩ := hexists
    have h' := (hnearest path content).mp h
    obtain ⟨place, horigin, hpath, -⟩ := origin_of_isNearest h hallowed
    obtain ⟨place', horigin', hpath', -⟩ := origin_of_isNearest h' hallowed'
    apply outcome_congr
    · rw [horigin, horigin', Origin.path?, Origin.path?, hpath, hpath']
    · rw [resolve_of_isNearest host environment h hallowed,
        resolve_of_isNearest host environment h' hallowed']
  · have hexists' : ¬ ∃ path content, other.IsNearest fileName path content := by
      simpa only [hnearest] using hexists
    apply outcome_congr
    · rw [origin_of_not_isNearest hexists hallowed, origin_of_not_isNearest hexists' hallowed']
      rfl
    · rw [resolve_of_not_isNearest host environment hexists hallowed,
        resolve_of_not_isNearest host environment hexists' hallowed']

theorem outcome_congr_of_read (host : Host) (environment : Option String) {given : Path}
    (h : fs.read given = other.read given) :
    resolve host fs environment (some given) = resolve host other environment (some given) ∧
      records host fs environment (some given) = records host other environment (some given) := by
  apply outcome_congr
  · rfl
  · simp only [resolve, origin, h]

/-- Without a path, the settings are those that loading the nearest file comes to, errors included,
if there is one in the working directory or above it. If there is none they are the defaults, and
otherwise only if that file comes to the defaults itself. A place on the way that one may not look
at ends the search with an error. Nothing but the nearest file and such a place makes a difference,
neither to the settings nor to the log, and with a path nothing but the file there. -/
theorem nearest_file_alone_decides (host : Host) (fs other : FileSystem)
    (environment : Option String) :
    (∀ path content, fs.IsNearest fileName path content →
      (¬ ∃ reason, fs.IsRefused fileName reason) →
        resolve host fs environment none = load host path (default environment) content) ∧
    ((∃ path content, fs.IsNearest fileName path content) ↔
      ∃ directory content, directory <+: fs.current ∧
        fs.entry (directory ++ [fileName]) = .file content) ∧
    (∀ reason, fs.IsRefused fileName reason →
      resolve host fs environment none = .error (.unsearchable reason)) ∧
    (resolve host fs environment none = .ok (default environment) ↔
      (¬ ∃ reason, fs.IsRefused fileName reason) ∧
        ∀ path content, fs.IsNearest fileName path content →
          load host path (default environment) content = .ok (default environment)) ∧
    ((∀ path content, fs.IsNearest fileName path content ↔
        other.IsNearest fileName path content) →
      (∀ reason, fs.IsRefused fileName reason ↔ other.IsRefused fileName reason) →
        resolve host fs environment none = resolve host other environment none ∧
          records host fs environment none = records host other environment none) ∧
    ∀ given : Path, fs.read given = other.read given →
      resolve host fs environment (some given) = resolve host other environment (some given) ∧
        records host fs environment (some given) = records host other environment (some given) :=
  ⟨fun _ _ => resolve_of_isNearest host environment, exists_isNearest_iff,
    fun _ => resolve_of_isRefused host environment, resolve_eq_default_iff host environment,
    outcome_congr_of_isNearest host environment, fun _ => outcome_congr_of_read host environment⟩

/-- A machine that says what is wrong with a table whose name is not closed. -/
def machine : Host :=
  ⟨Terminal.room, fun _ => "Expected ']' at the end of a table declaration (at line 1, column 12)"⟩

/-- A directory with a file that is no TOML, below a directory with another file and above a working
directory in which the name is that of a directory. -/
def brokenProject (above : String) : FileSystem :=
  .ofTree "/home" [["project", "src", "astcalc.toml"]]
    [(["astcalc.toml"], above.toUTF8), (["project", "astcalc.toml"], "[calculator\n".toUTF8)]
    ["project", "src"]

theorem isNearest_brokenProject (above : String) :
    (brokenProject above).IsNearest fileName "/home/project/astcalc.toml"
      (.ok "[calculator\n".toUTF8) := by
  refine ⟨["project"], ⟨["src"], rfl⟩, rfl, rfl, fun nearer hprefix hlt content => ?_⟩
  have hplace : nearer <+: ["project"] ++ ["src"] := hprefix
  obtain rfl | hprefix := List.prefix_concat_iff.mp hplace
  · have hentry : (brokenProject above).entry (["project"] ++ ["src"] ++ [fileName]) =
        .directory := rfl
    rw [hentry]
    exact fun h => nomatch h
  · exact absurd hprefix.length_le (Nat.not_le.mpr hlt)

theorem brokenProject_isNearest_iff (above path : String) (content : Except ReadError ByteArray) :
    (brokenProject above).IsNearest fileName path content ↔
      "/home/project/astcalc.toml" = path ∧ .ok "[calculator\n".toUTF8 = content := by
  constructor
  · exact (isNearest_brokenProject above).unique
  · intro ⟨hpath, hcontent⟩
    rw [← hpath, ← hcontent]
    exact isNearest_brokenProject above

/-- The broken file is an error, and the file above it makes no difference. -/
theorem nearest_file_alone_decides_broken :
    (brokenProject "[calculator]\nstrict = true\n").IsNearest fileName
        "/home/project/astcalc.toml" (.ok "[calculator\n".toUTF8) ∧
      (¬ ∃ reason, (brokenProject "[calculator]\nstrict = true\n").IsRefused fileName reason) ∧
      resolve machine (brokenProject "[calculator]\nstrict = true\n") none none =
        .error (.config (.invalid "/home/project/astcalc.toml"
          (machine.explain "[calculator\n".toList))) ∧
      resolve machine (brokenProject "") none none =
        .error (.config (.invalid "/home/project/astcalc.toml"
          (machine.explain "[calculator\n".toList))) := by
  obtain ⟨hload, -, -, -, hsame, -⟩ := nearest_file_alone_decides machine
    (brokenProject "[calculator]\nstrict = true\n") (brokenProject "") none
  have hnearest := isNearest_brokenProject "[calculator]\nstrict = true\n"
  have hallowed (above : String) :
      ¬ ∃ reason, (brokenProject above).IsRefused fileName reason :=
    not_isRefused_ofTree _ _ _ _ _
  have hbroken : load machine "/home/project/astcalc.toml" (default none)
      (.ok "[calculator\n".toUTF8) =
        .error (.config (.invalid "/home/project/astcalc.toml"
          (machine.explain "[calculator\n".toList))) := by rfl
  have hresolve := (hload _ _ hnearest (hallowed _)).trans hbroken
  have hagree := hsame
    (fun path content => by rw [brokenProject_isNearest_iff, brokenProject_isNearest_iff])
    (fun reason => iff_of_false (fun h => hallowed _ ⟨reason, h⟩) fun h => hallowed _ ⟨reason, h⟩)
  exact ⟨hnearest, hallowed _, hresolve, hagree.1.symm.trans hresolve⟩

/-- A directory with an empty file. -/
def emptyProject : FileSystem := .ofTree "/home" [] [(["astcalc.toml"], .empty)] []

def permissionDenied : ReadError :=
  .other "[Errno 13] Permission denied: '/home/closed/astcalc.toml'"

/-- The same directory and file, above a working directory that one may not look into. -/
def closedProject : FileSystem where
  entry
    | [] | ["closed"] => .directory
    | ["astcalc.toml"] => .file (.ok .empty)
    | ["closed", _] => .hidden permissionDenied
    | _ => .missing
  rootText := "/home"
  isTop := false
  current := ["closed"]

/-- There can be a nearest file and the defaults all the same, as an empty file comes to them. And
the nearest file, though it could be loaded, gives way to an error where one may not look at a
nearer place. -/
theorem empty_file_gives_defaults_or_is_out_of_sight :
    (emptyProject.IsNearest fileName "/home/astcalc.toml" (.ok .empty) ∧
      resolve machine emptyProject none none = .ok (default none)) ∧
    closedProject.IsNearest fileName "/home/astcalc.toml" (.ok .empty) ∧
      load machine "/home/astcalc.toml" (default none) (.ok .empty) = .ok (default none) ∧
      resolve machine closedProject none none = .error (.unsearchable permissionDenied) := by
  have hload : load machine "/home/astcalc.toml" (default none) (.ok .empty) =
      .ok (default none) := by
    show (ofTable _ _ []).mapError _ = _
    rw [ofTable_nil]
    rfl
  have hempty : emptyProject.IsNearest fileName "/home/astcalc.toml" (.ok .empty) := by
    refine ⟨[], List.prefix_rfl, rfl, rfl, fun nearer hprefix hlt => ?_⟩
    exact absurd hprefix.length_le (Nat.not_le.mpr hlt)
  have hclosed : closedProject.IsNearest fileName "/home/astcalc.toml" (.ok .empty) := by
    refine ⟨[], List.nil_prefix, rfl, rfl, fun nearer hprefix hlt other => ?_⟩
    have hplace : nearer <+: [] ++ ["closed"] := hprefix
    obtain rfl | hprefix := List.prefix_concat_iff.mp hplace
    · exact fun h => nomatch h
    · exact absurd hprefix.length_le (Nat.not_le.mpr hlt)
  refine ⟨⟨hempty, ?_⟩, hclosed, hload, rfl⟩
  rw [resolve_of_isNearest machine none hempty (not_isRefused_ofTree _ _ _ _ _)]
  exact hload

end Settings

end Reckoner
