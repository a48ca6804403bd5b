import TabCompletion.Proofs.PathText
import TabCompletion.Proofs.Told

namespace TabCompletion

theorem Text.filter_eq_some_iff {value? : Option Text} {value : Text} :
    value?.filter (!·.isEmpty) = some value ↔ value? = some value ∧ value ≠ [] := by
  simp [Option.filter_eq_some_iff]

/-- What is not given is told like what is given empty. -/
theorem Text.filter_eq_none_iff {value? : Option Text} :
    value?.filter (!·.isEmpty) = none ↔ value?.getD [] = [] := by
  cases value? <;> simp

namespace FileSystem

/-- Names of which none leads back up end at or below where they start. -/
theorem prefix_lexical {names : List Text} (onward : ['.', '.'] ∉ names) (here : Location) :
    here <+: lexical here names := by
  induction names generalizing here with
  | nil => exact List.prefix_rfl
  | cons name rest ih =>
    rw [List.mem_cons, not_or] at onward
    rw [lexical_cons]
    refine List.IsPrefix.trans ?_ (ih onward.2 _)
    rcases stepTo_cases here name with ⟨same, -⟩ | ⟨-, up⟩ | ⟨next, -⟩
    · simp [same]
    · exact absurd up.symm onward.1
    · rw [next]
      exact List.prefix_append _ _

end FileSystem

/-- A path with parts after its own of which none leads back up lies at or below it. -/
theorem World.spot_under {parts : List Text} (onward : ['.', '.'] ∉ parts) (world : World) (path : Path) :
    world.spot path <+: world.spot (path.under parts) := by
  rw [World.spot, World.spot, FileSystem.spelled, FileSystem.spelled, Path.under_isAbsolute, Path.under,
    FileSystem.lexical_append]
  exact FileSystem.prefix_lexical onward _

namespace Installer

variable {installer : Installer} {world : World}

/-- A directory as the user wrote it, and the names of what is wanted below it. -/
structure Setting where
  written : Text
  below : List Text

/-- A setting that starts in the home directory, and the parts from there on. A relative text
starts there too, and a tilde that a name follows is but a part. -/
inductive Setting.FromHome : Setting → List Text → Prop where
  | home {below : List Text} : FromHome ⟨['~'], below⟩ []
  | tilde {rest : Text} {below : List Text} (unrooted : rest.head? ≠ some '/') :
      FromHome ⟨'~' :: '/' :: rest, below⟩ (Path.ofText rest).parts
  | relative {written : Text} {below : List Text} (unrooted : written.head? ≠ some '/')
      (named : written ≠ ['~']) (untilded : ¬ ['~', '/'] <+: written) :
      FromHome ⟨written, below⟩ (Path.ofText written).parts

/-- The setting in force for the directory of the script: the user's, else the custom directory of
Oh My Zsh, else its main directory. Whatever is empty counts as not given. -/
inductive DirectorySetting (installer : Installer) : Setting → Prop where
  | chosen {written : Text} (given : installer.settings.installDir = some written) (nonempty : written ≠ []) :
      DirectorySetting installer ⟨written, []⟩
  | custom {written : Text} (unchosen : installer.settings.installDir.getD [] = [])
      (given : installer.environment.get? "ZSH_CUSTOM" = some written) (nonempty : written ≠ []) :
      DirectorySetting installer ⟨written, ["completions"]⟩
  | main {written : Text} (unchosen : installer.settings.installDir.getD [] = [])
      (uncustomed : (installer.environment.get? "ZSH_CUSTOM").getD [] = [])
      (given : installer.environment.get? "ZSH" = some written) (nonempty : written ≠ []) :
      DirectorySetting installer ⟨written, ["custom", "completions"]⟩

/-- The setting in force for the startup file. -/
inductive StartupSetting (installer : Installer) : Setting → Prop where
  | moved {written : Text} (given : installer.environment.get? "ZDOTDIR" = some written) (nonempty : written ≠ []) :
      StartupSetting installer ⟨written, [startupName]⟩

/-- The path that a setting comes to. -/
def place (installer : Installer) (setting : Setting) : Path :=
  (installer.expand setting.written).under setting.below

theorem namedDir?_of_setting {setting : Setting} (inForce : installer.DirectorySetting setting) :
    installer.namedDir? = some (installer.place setting) := by
  cases inForce with
  | @chosen written given nonempty =>
    have named := Text.filter_eq_some_iff.mpr ⟨given, nonempty⟩
    rw [namedDir?, named, place, Path.under_nil]
  | @custom written unchosen given nonempty =>
    have named : installer.environment.nonempty? "ZSH_CUSTOM" = some written :=
      Text.filter_eq_some_iff.mpr ⟨given, nonempty⟩
    rw [namedDir?, Text.filter_eq_none_iff.mpr unchosen, named, place]
    exact congrArg some (Path.div_eq_under (by decide) _)
  | @main written unchosen uncustomed given nonempty =>
    have unnamed : installer.environment.nonempty? "ZSH_CUSTOM" = none := Text.filter_eq_none_iff.mpr uncustomed
    have named : installer.environment.nonempty? "ZSH" = some written :=
      Text.filter_eq_some_iff.mpr ⟨given, nonempty⟩
    rw [namedDir?, Text.filter_eq_none_iff.mpr unchosen, unnamed, named, place, Option.map_some,
      Path.div_eq_under (by decide), Path.div_eq_under (by decide), Path.under_under]
    rfl

/-- No directory is named when no setting for it is in force. -/
theorem namedDir?_eq_none_iff :
    installer.namedDir? = none ↔ ∀ setting, ¬ installer.DirectorySetting setting := by
  constructor
  · intro unnamed setting inForce
    rw [namedDir?_of_setting inForce] at unnamed
    cases unnamed
  · intro unset
    unfold namedDir?
    split
    · rename_i given
      obtain ⟨given, nonempty⟩ := Text.filter_eq_some_iff.mp given
      exact absurd (.chosen given nonempty) (unset _)
    · rename_i unchosen
      have unchosen := Text.filter_eq_none_iff.mp unchosen
      split
      · rename_i given
        obtain ⟨given, nonempty⟩ := Text.filter_eq_some_iff.mp given
        exact absurd (.custom unchosen given nonempty) (unset _)
      · rename_i uncustomed
        have uncustomed := Text.filter_eq_none_iff.mp uncustomed
        rw [Option.map_eq_none_iff]
        refine Option.eq_none_iff_forall_ne_some.mpr fun written given => ?_
        obtain ⟨given, nonempty⟩ := Text.filter_eq_some_iff.mp given
        exact absurd (.main unchosen uncustomed given nonempty) (unset _)

theorem startupFile_of_setting {setting : Setting} (inForce : installer.StartupSetting setting) :
    installer.startupFile = installer.place setting := by
  cases inForce with
  | @moved written given nonempty =>
    have named : installer.environment.nonempty? "ZDOTDIR" = some written :=
      Text.filter_eq_some_iff.mpr ⟨given, nonempty⟩
    rw [startupFile, named]
    exact Path.div_eq_under (by decide) _

theorem expand_other {written : Text} (named : written ≠ ['~']) (untilded : ¬ ['~', '/'] <+: written) :
    installer.expand written = installer.home.join (Path.ofText written) := by
  unfold expand
  split
  · exact absurd rfl named
  · exact absurd (by simp) untilded
  · rfl

theorem place_fromHome {setting : Setting} {parts : List Text} (fromHome : setting.FromHome parts) :
    installer.place setting = installer.home.under (parts ++ setting.below) := by
  cases fromHome with
  | home => rfl
  | tilde unrooted =>
    rw [← Path.under_under, ← Path.join_relative (Path.ofText_relative unrooted)]
    rfl
  | relative unrooted named untilded =>
    rw [place, expand_other named untilded, Path.join_relative (Path.ofText_relative unrooted), Path.under_under]

/-- A second slash after the tilde makes the rest an absolute path of its own. -/
theorem place_restarted {rest : Text} (rooted : rest.head? = some '/') (below : List Text) :
    installer.place ⟨'~' :: '/' :: rest, below⟩ = (Path.ofText rest).under below := by
  rw [← Path.join_absolute (Path.ofText_isAbsolute rooted) installer.home]
  rfl

/-- A tilde stands for the text of the home directory, unless two slashes follow it. -/
theorem place_eq_expanded_iff {text tail : Text} (spelled : installer.home = Path.ofText text)
    (inner : installer.home.parts ≠ []) (apart : tail = [] ∨ tail.head? = some '/') (below : List Text) :
    installer.place ⟨'~' :: tail, below⟩ = (Path.ofText (installer.home.text ++ tail)).under below ↔
      ¬ ['/', '/'] <+: tail := by
  cases tail with
  | nil =>
    rw [place_fromHome .home, spelled, List.append_nil, Path.ofText_text]
    simp
  | cons slash rest =>
    obtain rfl : slash = '/' := by simpa using apart
    have appended : Path.ofText (installer.home.text ++ '/' :: rest) =
        installer.home.under (Path.ofText rest).parts := by
      rw [spelled] at inner ⊢
      exact Path.ofText_text_append inner rest
    by_cases rooted : rest.head? = some '/'
    · -- The two sides differ by the parts of the home directory, and there are some.
      rw [place_restarted rooted, appended, Path.under_inj]
      obtain ⟨more, rfl⟩ := List.head?_eq_some_iff.mp rooted
      refine iff_of_false (fun same => inner ?_) (by simp)
      exact List.self_eq_append_left.mp (congrArg Path.parts same)
    · rw [place_fromHome (.tilde rooted), appended, Path.under_under]
      refine iff_of_true rfl fun doubled => rooted ?_
      obtain ⟨more, same⟩ := doubled
      cases same
      rfl

/-- What a path has of the setting that it comes from. -/
structure Settles (installer : Installer) (setting : Setting) (path : Path) : Prop where
  absolute : path.isAbsolute = true
  fromHome : ∀ parts, setting.FromHome parts → path = installer.home.under (parts ++ setting.below) ∧
    (['.', '.'] ∉ parts → ∀ world : World, world.spot installer.home <+: world.spot path)
  expanded : installer.home.parts ≠ [] → ∀ tail, setting.written = '~' :: tail →
    (tail = [] ∨ tail.head? = some '/') →
      (path = (Path.ofText (installer.home.text ++ tail)).under setting.below ↔ ¬ ['/', '/'] <+: tail)
  restarted : ∀ rest, setting.written = '~' :: '/' :: '/' :: rest →
    path = (Path.ofText ('/' :: rest)).under setting.below

theorem place_settles {text : Text} {setting : Setting} (spelled : installer.home = Path.ofText text)
    (absolute : installer.home.isAbsolute = true) (onward : ['.', '.'] ∉ setting.below) :
    installer.Settles setting (installer.place setting) where
  absolute := expand_isAbsolute absolute setting.written
  fromHome parts fromHome := by
    rw [place_fromHome fromHome]
    refine ⟨rfl, fun forward world => world.spot_under ?_ _⟩
    rw [List.mem_append, not_or]
    exact ⟨forward, onward⟩
  expanded inner tail written apart := by
    obtain ⟨_, below⟩ := setting
    subst written
    exact place_eq_expanded_iff spelled inner apart below
  restarted rest written := by
    obtain ⟨_, below⟩ := setting
    subst written
    exact place_restarted rfl below

theorem DirectorySetting.onward {setting : Setting} (inForce : installer.DirectorySetting setting) :
    ['.', '.'] ∉ setting.below := by
  cases inForce <;> (dsimp only; decide)

theorem StartupSetting.onward {setting : Setting} (inForce : installer.StartupSetting setting) :
    ['.', '.'] ∉ setting.below := by
  cases inForce
  dsimp only
  decide

theorem installDir_isAbsolute {directory : Path} (absolute : installer.home.isAbsolute = true)
    (resolved : installer.installDir world = .ok directory) : directory.isAbsolute = true := by
  cases named : installer.namedDir? with
  | none => rcases installDir_choice named resolved with ⟨-, rfl⟩ | ⟨-, rfl⟩ <;> exact absolute
  | some path =>
    have inForce : ∃ setting, installer.DirectorySetting setting := by
      refine Classical.byContradiction fun unset => ?_
      rw [namedDir?_eq_none_iff.mpr (not_exists.mp unset)] at named
      cases named
    obtain ⟨setting, inForce⟩ := inForce
    rw [installDir_named (namedDir?_of_setting inForce)] at resolved
    cases resolved
    exact expand_isAbsolute absolute setting.written

/-- All locations are absolute wherever they are told, and those that a setting decides are below the
home directory or start anew at a slash. -/
theorem locations_settle {text : Text} (spelled : installer.home = Path.ofText text)
    (absolute : installer.home.isAbsolute = true) (world : World) :
    (∀ setting, installer.DirectorySetting setting →
        ∃ directory, installer.installDir world = .ok directory ∧ installer.Settles setting directory) ∧
      (∀ setting, installer.StartupSetting setting → installer.Settles setting installer.startupFile) ∧
      installer.startupFile.isAbsolute = true ∧
      ((∃ directory script backup, installer.installDir world = .ok directory ∧
          installer.scriptPath world = .ok script ∧ installer.backupPath world = .ok backup ∧
            directory.isAbsolute = true ∧ script.isAbsolute = true ∧ backup.isAbsolute = true) ∨
        (∀ setting, ¬ installer.DirectorySetting setting) ∧
          ∃ fault, installer.installDir world = .error fault ∧ fault.Hides installer.framework) := by
  refine ⟨fun setting inForce => ?_, fun setting inForce => ?_, startupFile_isAbsolute absolute, ?_⟩
  · exact ⟨_, installDir_named (namedDir?_of_setting inForce) world, place_settles spelled absolute inForce.onward⟩
  · rw [startupFile_of_setting inForce]
    exact place_settles spelled absolute inForce.onward
  · cases resolved : installer.installDir world with
    | ok directory =>
      have rooted := installDir_isAbsolute absolute resolved
      exact Or.inl ⟨directory, _, _, rfl, scriptPath_eq resolved, backupPath_eq resolved, rooted, rooted, rooted⟩
    | error fault =>
      obtain ⟨unnamed, hidden⟩ := installDir_unplaced resolved
      exact Or.inr ⟨namedDir?_eq_none_iff.mp unnamed, fault, rfl, hidden⟩

/-- The setting wins over both directories of Oh My Zsh, and the startup file has its own. -/
theorem locations_settle_at_home :
    let installer : Installer :=
      { home := Path.ofText "/home//me/", settings := { installDir := some "~/.local//share/zsh/" },
        environment := [("ZSH", "~/omz"), ("ZSH_CUSTOM", "custom"), ("ZDOTDIR", "~//etc")] }
    installer.home.isAbsolute = true ∧
      installer.installDir { files := .empty, cwd := [], draws := [] } =
        .ok ("/home/me/.local/share/zsh" : String) ∧
      installer.startupFile = ("/etc/.zshrc" : String) := by
  intro installer
  have absolute : installer.home.isAbsolute = true := by decide
  obtain ⟨directory, startup, -⟩ := locations_settle rfl absolute { files := .empty, cwd := [], draws := [] }
  have chosen : installer.DirectorySetting ⟨"~/.local//share/zsh/", []⟩ := .chosen rfl (by decide)
  have moved : installer.StartupSetting ⟨"~//etc", [startupName]⟩ := .moved rfl (by decide)
  have fromHome : Setting.FromHome ⟨"~/.local//share/zsh/", []⟩ _ := @Setting.FromHome.tilde ".local//share/zsh/" [] (by decide)
  obtain ⟨path, resolved, settles⟩ := directory _ chosen
  refine ⟨absolute, ?_, ?_⟩
  · rw [resolved, (settles.fromHome _ fromHome).1]
    exact congrArg Except.ok (by decide)
  · rw [(startup _ moved).restarted "etc" rfl]
    decide

/-- Two slashes after the tilde lead out of the home directory. -/
theorem installDir_leaves_home :
    let installer : Installer :=
      { home := ("/h" : String), settings := { installDir := some "~//etc" }, environment := [] }
    let directory : Path := ("/etc" : String)
    installer.home.isAbsolute = true ∧
      installer.installDir { files := .empty, cwd := [], draws := [] } = .ok directory ∧
      directory ≠ Path.ofText (installer.home.text ++ "//etc".toList) ∧
      ¬ installer.home.AtOrAbove directory := by
  intro installer directory
  refine ⟨by decide, congrArg Except.ok (by decide), by decide, fun above => ?_⟩
  exact absurd above.parts (by decide)

end Installer

end TabCompletion
