import Mathlib
import TabCompletion.CommandLine.Run
import TabCompletion.Proofs.JsonReading
import TabCompletion.Proofs.SchemaRoundTrip
import TabCompletion.Proofs.Session
import TabCompletion.Proofs.Utf8
import TabCompletion.Proofs.World

namespace TabCompletion

/-- The text of a record is read back as the same record. -/
def RoundTrips {α : Type} (ofJson : Json → Checked α) (toJson : α → Json) (record : α) : Prop :=
  ∃ value, Json.read (toJson record).write = .ok value ∧ ofJson value = .ok record

theorem RoundTrips.of_fits {α : Type} {ofJson : Json → Checked α} {toJson : α → Json} {record : α}
    {levels : Nat} (fits : Json.Fits levels (toJson record)) (within : levels ≤ Json.maxNesting)
    (again : ofJson (toJson record) = .ok record) : RoundTrips ofJson toJson record := by
  have read := Json.read_write fits.writable (Nat.le_trans fits.shallow within) .nil rfl
  rw [List.append_nil] at read
  exact ⟨_, read, again⟩

namespace Settings

/-- Settings that were written are read back, with a line end after their text or without. -/
theorem Kept.ofText_write {settings : Settings} (kept : settings.Kept) (shallow : settings.Shallow)
    {rest : Text} (ends : Json.Stops rest) (blank : Json.skipSpace rest = []) :
    ofText (settings.toJson.write ++ rest) = .ok settings := by
  have fits := kept.fits shallow
  have within : maxLevels + 1 ≤ Json.maxNesting := by decide
  rw [ofText, Json.read_write fits.writable (Nat.le_trans fits.shallow within) ends blank]
  dsimp only
  rw [ofJson_toJson kept.apart]
  rfl

theorem Kept.of_ofText {text : Text} {settings : Settings} (read : ofText text = .ok settings)
    (whole : ∀ field ∈ settings.others, Json.Fractionless field.2) : settings.Kept := by
  unfold ofText at read
  split at read
  · cases read
  · rename_i value found
    split at read
    · rename_i checked
      cases read
      obtain ⟨fields, rfl, others⟩ := others_of_ofJson checked
      cases Json.readable_of_read found with
      | object distinct each =>
        refine .of_fields distinct others fun field member => ?_
        refine Json.Readable.writable (each field ?_) (whole field member)
        rw [others] at member
        exact (List.mem_filter.mp member).1
    · cases read

/-- Without variables that speak of them the settings are those of the file. -/
theorem resolve_of_load {host : Host} {world : World} {settings : Settings}
    (unplaced : host.environment.get? "SPECTEST_COMPLETION_DIR" = none)
    (undecided : host.environment.get? "SPECTEST_COMPLETION_AUTO_CONFIGURE" = none)
    (loaded : load host world = .ok settings) : resolve host world = .ok settings := by
  have same : override host.environment settings.completion = settings.completion := by
    simp only [override, Environment.nonempty?, unplaced, undecided]
    rfl
  rw [resolve, loaded]
  exact congrArg (fun completion => Except.ok { settings with completion := completion }) same

theorem load_of_resolve {host : Host} {world : World} {settings : Settings}
    (resolved : resolve host world = .ok settings) :
    ∃ loaded, load host world = .ok loaded ∧ loaded.others = settings.others := by
  obtain ⟨settings, loaded, same⟩ := ok_of_bind resolved
  cases same
  exact ⟨settings, loaded, rfl⟩

/-- Settings that were loaded are the usual ones or those that a text holds. -/
theorem ofText_of_load {host : Host} {world : World} {settings : Settings}
    (loaded : load host world = .ok settings) :
    settings = {} ∨ ∃ text, ofText text = .ok settings := by
  unfold load at loaded
  obtain ⟨path, -, loaded⟩ := ok_of_bind loaded
  obtain ⟨there, -, loaded⟩ := ok_of_bind loaded
  split at loaded
  · split at loaded
    · rename_i text _
      split at loaded
      · rename_i found
        cases loaded
        exact Or.inr ⟨text, found⟩
      · cases loaded
      · cases loaded
    · cases loaded
    · cases loaded
  · cases loaded
    exact Or.inl rfl

theorem load_of_readBytes {host : Host} {world : World} {path : Path} {text : Text} {settings : Settings}
    (placed : host.settingsPath = .ok path) (stored : world.readBytes path = .ok (Utf8.encode text))
    (unified : '\r' ∉ text) (read : ofText text = .ok settings) : load host world = .ok settings := by
  obtain ⟨location, mode, located⟩ := World.readBytes_ok stored
  have file : world.isFile path = .ok true := World.leadsTo_eq_true_iff.mpr ⟨location, _, located, rfl⟩
  have same : world.readText path = .ok text := by
    simp only [World.readText, stored, bind, Except.bind, Utf8.decode_encode,
      Text.unifyNewlines_of_not_mem unified]
    rfl
  simp only [load, placed, file, bind, Except.bind, same, if_true]
  rw [read]
  rfl

theorem Kept.of_resolve {host : Host} {world : World} {settings : Settings}
    (resolved : resolve host world = .ok settings)
    (whole : ∀ field ∈ settings.others, Json.Fractionless field.2) : settings.Kept := by
  obtain ⟨loaded, read, same⟩ := load_of_resolve resolved
  rw [← same] at whole
  have kept : loaded.Kept := by
    rcases ofText_of_load read with rfl | ⟨text, found⟩
    · exact ⟨.nil, List.not_mem_nil, by simp⟩
    · exact .of_ofText found whole
  exact ⟨same ▸ kept.distinct, same ▸ kept.apart, same ▸ kept.writable⟩

end Settings

/-- Data is told with an end that is no part of a value. -/
theorem Console.out_data (text : Text) :
    ∃ rest, (({} : Console).data text).out = text ++ rest ∧ Json.Stops rest ∧
      Json.skipSpace rest = [] ∧ '\r' ∉ rest := by
  rw [Console.data]
  split
  · exact ⟨[], rfl, .nil, rfl, List.not_mem_nil⟩
  · exact ⟨['\n'], rfl, .newline [], rfl, by decide⟩

namespace CommandLine

variable {host : Host} {verbosity : Verbosity} {world : World} {settings : Settings} {text : Text}

/-- The settings in force are shown when they and the directory of their file are there, and
they are not nested too deeply to be written. -/
theorem showSettings_iff {out : Text} :
    (∃ session, showSettings host verbosity { world := world } = (.ok 0, session) ∧
        session.console.out = out) ↔
      ∃ settings directory text, Settings.resolve host world = .ok settings ∧
        host.configDir = .ok directory ∧ settings.written = .ok text ∧
          out = (({} : Console).data text).out := by
  have same : Settings.resolve host { world with notes := [] } = Settings.resolve host world := rfl
  rw [showSettings, Action.run_look, same]
  cases Settings.resolve host world with
  | error fault =>
    exact iff_of_false (fun ⟨_, run, _⟩ => by cases run) fun ⟨_, _, _, resolved, _⟩ => by cases resolved
  | ok settings =>
    dsimp only
    rw [Action.run_look]
    cases host.configDir with
    | error fault =>
      exact iff_of_false (fun ⟨_, run, _⟩ => by cases run) fun ⟨_, _, _, _, placed, _⟩ => by cases placed
    | ok directory =>
      dsimp only
      rw [Action.run_write_bind, Action.run_look]
      constructor
      · rintro ⟨session, run, rfl⟩
        cases written : settings.written with
        | error fault =>
          rw [written] at run
          cases run
        | ok text =>
          rw [written] at run
          cases run
          exact ⟨settings, directory, text, rfl, rfl, written, by simp [Console.data]⟩
      · rintro ⟨settings, directory, text, ⟨⟩, ⟨⟩, written, rfl⟩
        rw [written]
        exact ⟨_, rfl, by simp [Console.data]⟩

theorem configDir_of_settingsPath {path : Path} (placed : host.settingsPath = .ok path) :
    ∃ directory, host.configDir = .ok directory := by
  unfold Host.settingsPath at placed
  cases found : host.configDir with
  | error fault =>
    rw [found] at placed
    cases placed
  | ok directory => exact ⟨directory, rfl⟩

/-- Settings that were shown are shown again by a run that loads them from what was shown, when
no variable speaks of them. -/
theorem shown_again {recorder : Recorder} {input : Text} {later : Host} {saved : World} {path : Path} {out : Text}
    (shown : ((Request.settings verbosity).run host recorder input world).1.exit = .ok 0)
    (same : ((Request.settings verbosity).run host recorder input world).1.console.out = out)
    (whole : ∀ settings, Settings.resolve host world = .ok settings →
      ∀ field ∈ settings.others, Json.Fractionless field.2)
    (placed : later.settingsPath = .ok path) (stored : saved.readBytes path = .ok (Utf8.encode out))
    (unplaced : later.environment.get? "SPECTEST_COMPLETION_DIR" = none)
    (undecided : later.environment.get? "SPECTEST_COMPLETION_AUTO_CONFIGURE" = none)
    (recorderAgain : Recorder) (inputAgain : Text) (verbosityAgain : Verbosity) :
    let again := ((Request.settings verbosityAgain).run later recorderAgain inputAgain saved).1
    again.exit = .ok 0 ∧ again.console.out = out := by
  obtain ⟨session, run, told⟩ := runAction_zero shown
  have console : session.console.out = out :=
    (congrArg (fun answer => answer.1.console.out) told).symm.trans same
  obtain ⟨settings, directory, text, resolved, -, written, rfl⟩ := showSettings_iff.mp ⟨session, run, console⟩
  obtain ⟨shallow, rfl⟩ := Settings.written_eq_ok_iff.mp written
  have kept := Settings.Kept.of_resolve resolved (whole settings resolved)
  obtain ⟨rest, data, stops, blank, unified⟩ := Console.out_data settings.toJson.write
  rw [data] at stored
  have feeds : '\r' ∉ settings.toJson.write ++ rest :=
    List.not_mem_append (Json.carriage_notMem_writeAt (kept.fits shallow).writable 0) unified
  have loaded := Settings.load_of_readBytes placed stored feeds (kept.ofText_write shallow stops blank)
  have resolvedAgain := Settings.resolve_of_load unplaced undecided loaded
  obtain ⟨directoryAgain, placedAgain⟩ := configDir_of_settingsPath placed
  obtain ⟨sessionAgain, runAgain, outAgain⟩ := (@showSettings_iff later verbosityAgain saved _).mpr
    ⟨settings, directoryAgain, _, resolvedAgain, placedAgain, written, rfl⟩
  have toldAgain : (Request.settings verbosityAgain).run later recorderAgain inputAgain saved =
    (⟨.ok 0, sessionAgain.console⟩, sessionAgain.world) := runAction_ok runAgain
  rw [toldAgain]
  exact ⟨rfl, outAgain⟩

/-- Whatever a record was read from, the text it is written as is read as the same record; for
settings this takes that no other field is nested too deeply, for else they are not written.
Settings that were shown are shown again when what was shown is the file that they are loaded
from. -/
theorem dumps_read_back :
    (∀ value flag, Flag.ofJson value = .ok flag → RoundTrips Flag.ofJson Flag.toJson flag) ∧
    (∀ value command, Command.ofJson value = .ok command →
      RoundTrips Command.ofJson Command.toJson command) ∧
    (∀ value outcome, InstallOutcome.ofJson value = .ok outcome →
      RoundTrips InstallOutcome.ofJson InstallOutcome.toJson outcome) ∧
    (∀ value outcome, UninstallOutcome.ofJson value = .ok outcome →
      RoundTrips UninstallOutcome.ofJson UninstallOutcome.toJson outcome) ∧
    (∀ value detection, Detection.ofJson value = .ok detection →
      RoundTrips Detection.ofJson Detection.toJson detection) ∧
    (∀ value settings, CompletionSettings.ofJson value = .ok settings →
      RoundTrips CompletionSettings.ofJson CompletionSettings.toJson settings) ∧
    (∀ value settings, Json.Readable value → Json.Fractionless value →
      Settings.ofJson value = .ok settings →
        (settings.Shallow → settings.written = .ok settings.toJson.write ∧
          RoundTrips Settings.ofJson Settings.toJson settings) ∧
        (¬ settings.Shallow → settings.written = .error .nestedOutput)) ∧
    ∀ host world recorder input verbosity,
      let shown := ((Request.settings verbosity).run host recorder input world).1
      shown.exit = .ok 0 →
      (∀ settings, Settings.resolve host world = .ok settings →
        ∀ field ∈ settings.others, Json.Fractionless field.2) →
      ∀ later saved path, later.settingsPath = .ok path →
        saved.readBytes path = .ok (Utf8.encode shown.console.out) →
        later.environment.get? "SPECTEST_COMPLETION_DIR" = none →
        later.environment.get? "SPECTEST_COMPLETION_AUTO_CONFIGURE" = none →
        ∀ recorder input verbosity,
          let again := ((Request.settings verbosity).run later recorder input saved).1
          again.exit = .ok 0 ∧ again.console.out = shown.console.out := by
  refine ⟨fun _ flag _ => ?_, fun _ command read => ?_, fun _ outcome _ => ?_, fun _ outcome _ => ?_,
    fun _ detection _ => ?_, fun _ settings _ => ?_,
    fun value settings readable whole read => ⟨fun shallow => ?_, Settings.written_of_not_shallow⟩, ?_⟩
  · exact .of_fits flag.fits (by decide) flag.ofJson_toJson
  · obtain ⟨again, fits⟩ := Command.ofJsonWithin_again read
    exact .of_fits fits (by decide) again
  · exact .of_fits outcome.fits (by decide) outcome.ofJson_toJson
  · exact .of_fits outcome.fits (by decide) outcome.ofJson_toJson
  · exact .of_fits detection.fits (by decide) detection.ofJson_toJson
  · exact .of_fits settings.fits (by decide) settings.ofJson_toJson
  · have kept := Settings.Kept.of_ofJson (readable.writable whole) read
    exact ⟨Settings.written_eq_ok_iff.mpr ⟨shallow, rfl⟩,
      .of_fits (kept.fits shallow) (by decide) (Settings.ofJson_toJson kept.apart)⟩
  · intro host world recorder input verbosity shown ended whole later saved path placed stored unplaced undecided
    exact shown_again ended rfl whole placed stored unplaced undecided

/-- Where the settings of the user with the home directory `/h` are. -/
def settingsLocation : Location := ["h".toList, ".config".toList, "spectest".toList, "config.json".toList]

/-- A world with nothing but a settings file. -/
def settledHome (bytes : Bytes) : World where
  files := ((((FileSystem.empty.insert (settingsLocation.take 1) .directory).insert
    (settingsLocation.take 2) .directory).insert (settingsLocation.take 3) .directory).insert
    settingsLocation (.file 0 bytes))
  cwd := []
  draws := []

def plainHost : Host := ⟨[("HOME".toList, "/h".toList)], "Linux", "/", .full⟩

theorem plainHost_settingsPath : plainHost.settingsPath = .ok settingsLocation.toPath := by
  cbv

theorem settledHome_readBytes (bytes : Bytes) :
    (settledHome bytes).readBytes settingsLocation.toPath = .ok bytes := by
  cbv

/-- A settings file with two fields that are no settings, and the settings between them. -/
def foreignFields : Text := "\x7b\"b\": \"\\r😀\", \"completion\": \x7b\x7d, \"a\": -12\x7d"

theorem foreignFields_settings :
    Settings.ofText foreignFields = .ok ⟨{}, [("b", .string ['\r', '😀']), ("a", .int (-12))]⟩ := by
  cbv

/-- Settings with other fields are read back, and those that were shown are shown again from the
file that they were saved in, the other fields in their order. -/
theorem dumps_read_back_usual :
    let value : Json := .object [("b", .string ['\r', '😀']), ("completion", .object []), ("a", .int (-12))]
    let settings : Settings := ⟨{}, [("b", .string ['\r', '😀']), ("a", .int (-12))]⟩
    let world := settledHome (Utf8.encode foreignFields)
    let recorder : Recorder := ⟨[], Fault.message⟩
    let shown := ((Request.settings {}).run plainHost recorder [] world).1
    let saved := settledHome (Utf8.encode shown.console.out)
    (Json.Readable value ∧ Json.Fractionless value ∧ Settings.ofJson value = .ok settings ∧ settings.Shallow ∧
      RoundTrips Settings.ofJson Settings.toJson settings) ∧
    Settings.resolve plainHost world = .ok settings ∧ shown.exit = .ok 0 ∧
      shown.console.out = (({} : Console).data settings.toJson.write).out ∧
      ((Request.settings {}).run plainHost recorder [] saved).1.console.out = shown.console.out := by
  intro value settings world recorder shown saved
  have readable : Json.Readable value := .object (by decide) (by
    simp only [List.forall_mem_cons]
    exact ⟨.string _, .object (by simp) (by simp), .int (by decide), List.forall_mem_nil _⟩)
  have whole : Json.Fractionless value := .object (by
    simp only [List.forall_mem_cons]
    exact ⟨.string _, .object (by simp), .int _, List.forall_mem_nil _⟩)
  have shallow : settings.Shallow := by
    intro field member
    rcases List.mem_cons.mp member with rfl | later
    · decide
    · rw [List.mem_singleton.mp later]
      decide
  obtain ⟨written, again⟩ := dumps_read_back.2.2.2.2.2.2.1 value settings readable whole rfl |>.1 shallow
  have resolved : Settings.resolve plainHost world = .ok settings :=
    Settings.resolve_of_load rfl rfl (Settings.load_of_readBytes plainHost_settingsPath
      (settledHome_readBytes _) (by decide) foreignFields_settings)
  obtain ⟨session, run, out⟩ := (@showSettings_iff plainHost {} world _).mpr
    ⟨settings, _, _, resolved, rfl, written, rfl⟩
  have told : (Request.settings {}).run plainHost recorder [] world = _ := runAction_ok run
  have ended : shown.exit = .ok 0 := congrArg (fun answer => answer.1.exit) told
  have same : shown.console.out = _ := (congrArg (fun answer => answer.1.console.out) told).trans out
  refine ⟨⟨readable, whole, rfl, shallow, again⟩, resolved, ended, same, ?_⟩
  refine (dumps_read_back.2.2.2.2.2.2.2 plainHost _ recorder [] {} ended ?_ plainHost saved _
    plainHost_settingsPath (settledHome_readBytes _) rfl rfl recorder [] {}).2
  intro other found
  rw [resolved] at found
  cases found
  simp only [settings, List.forall_mem_cons]
  exact ⟨.string _, .int _, List.forall_mem_nil _⟩

/-- Lists one inside the other, the given count of them inside the outermost. -/
def nestedLists : Nat → Json
  | 0 => .array []
  | count + 1 => .array [nestedLists count]

theorem levels_nestedLists (count : Nat) : (nestedLists count).levels = count + 1 := by
  induction count with
  | zero => rfl
  | succ count ih => simp [nestedLists, Json.levels, Json.levelsOfItems, ih, Nat.add_comm]

theorem fractionless_nestedLists (count : Nat) : (nestedLists count).Fractionless := by
  induction count with
  | zero => exact .array (by simp)
  | succ count ih => exact .array (by simpa [nestedLists] using ih)

theorem not_shallow_nestedLists {count : Nat} (deep : Settings.maxLevels ≤ count) :
    ¬ Settings.Shallow ⟨{}, [("a", nestedLists count)]⟩ := by
  intro shallow
  have within := shallow ("a", nestedLists count) (List.mem_singleton.mpr rfl)
  rw [levels_nestedLists] at within
  exact absurd within (Nat.not_le_of_lt (Nat.lt_succ_of_le deep))

/-- Not all settings are read back: with a field nested too deeply they are not written at all,
and a text with too long a number is not read. -/
theorem settings_not_read_back :
    let deep : Settings := ⟨{}, [("a", nestedLists 259)]⟩
    let long : Settings := ⟨{}, [("a", .int (10 ^ 4300))]⟩
    (Json.Fractionless (.object [("a", nestedLists 259)]) ∧
      Settings.ofJson (.object [("a", nestedLists 259)]) = .ok deep ∧ deep.written = .error .nestedOutput) ∧
    Json.Fractionless (.object [("a", .int (10 ^ 4300))]) ∧
      Settings.ofJson (.object [("a", .int (10 ^ 4300))]) = .ok long ∧
      ¬ RoundTrips Settings.ofJson Settings.toJson long := by
  intro deep long
  have whole {value : Json} (inner : value.Fractionless) : Json.Fractionless (.object [("a", value)]) :=
    .object fun field member => List.mem_singleton.mp member ▸ inner
  refine ⟨⟨whole (fractionless_nestedLists 259), rfl, ?_⟩, whole (.int _), rfl, ?_⟩
  · exact Settings.written_of_not_shallow (not_shallow_nestedLists (by decide))
  · rintro ⟨value, read, -⟩
    have unread : (Json.read long.toJson.write).toBool = false := by decide +kernel
    rw [read] at unread
    cases unread

end CommandLine

end TabCompletion
