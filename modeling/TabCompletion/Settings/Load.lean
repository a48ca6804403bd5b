import TabCompletion.Environment
import TabCompletion.FileSystem.Disk
import TabCompletion.Json.Reader
import TabCompletion.Json.Writer
import TabCompletion.Product
import TabCompletion.Settings.Basic
import TabCompletion.Text.Blank
import TabCompletion.Text.LowerCase

namespace TabCompletion

/-- The characters that the stream for data can be written. All of ASCII is among them, and so
all of the script and of the settings. A byte of a name that is not UTF-8 is told as a
character that is not. -/
structure Charset where
  has : Char → Bool
  ascii : ∀ character : Char, character.toNat < 128 → has character = true

def Charset.full : Charset := ⟨fun _ => true, fun _ _ => rfl⟩

/-- What a run knows of its surroundings besides the files: the environment, the name of
the operating system, the home directory on record for the account, and what it can write. -/
structure Host where
  environment : Environment
  system : Text
  accountHome : Text
  charset : Charset := .full

namespace Host

/-- Whether directories are where the XDG rules put them. -/
def followsXdg (host : Host) : Bool :=
  host.system = ("Linux" : Text) || List.isSuffixOf "BSD".toList host.system

/-- The home directory; a tilde is no place that could be meant. -/
def home (host : Host) : Except Fault Path :=
  let written := ((host.environment.get? "HOME").getD host.accountHome).dropFinal '/'
  match written with
  | [] => .ok (Path.ofText ['/'])
  | '~' :: _ => .error .homeless
  | _ => .ok (Path.ofText written)

/-- The directory that a variable names, else a directory below home. -/
def baseDir (host : Host) (name below : Text) : Except Fault Path :=
  match host.environment.nonempty? name with
  | some written => .ok (Path.ofText written)
  | none => (· / below) <$> host.home

/-- Where the program keeps things when there are no XDG rules. -/
def plainDir (host : Host) : Except Fault Path :=
  (· / ('.' :: Product.name)) <$> host.home

def configDir (host : Host) : Except Fault Path :=
  if host.followsXdg then (· / Product.name) <$> host.baseDir "XDG_CONFIG_HOME" ".config"
  else host.plainDir

def dataPath (host : Host) : Except Fault Path :=
  if host.followsXdg then (· / Product.name) <$> host.baseDir "XDG_DATA_HOME" ".local/share"
  else (· / ("data" : Text)) <$> host.plainDir

/-- The directory for data, which is made when it is missing. -/
def dataDir (host : Host) : Disk Path := do
  let path ← Disk.look fun _ => host.dataPath
  Disk.makeDirectories path
  pure path

def settingsPath (host : Host) : Except Fault Path :=
  (· / ("config.json" : Text)) <$> host.configDir

end Host

namespace Settings

/-- The settings that a text holds. -/
def ofText (text : Text) : Except SettingsFault Settings :=
  match Json.read text with
  | .error fault => .error (.malformed text fault)
  | .ok value =>
    match ofJson value with
    | .ok settings => .ok settings
    | .error issues => .error (.invalid issues)

/-- The settings in the user's file. Without such a file all have their usual values. -/
def load (host : Host) (world : World) : Except Fault Settings := do
  let path ← host.settingsPath
  if ← world.isFile path then
    match world.readText path with
    | .ok text =>
      match ofText text with
      | .ok settings => pure settings
      | .error (.malformed _ (.tooDeep container)) => throw (.nestedInput container)
      | .error fault => throw (.failure (.invalidSettings path fault))
    | .error (.undecodable fault) => throw (.failure (.invalidSettings path (.undecodable fault)))
    | .error fault => throw fault
  else pure {}

/-- The most values that may stand one inside the other in a field that is written. -/
def maxLevels : Nat := 255

/-- The text of the settings, unless one of the other fields is nested too deeply. -/
def written (settings : Settings) : Except Fault Text :=
  if settings.others.all fun field => field.2.levels ≤ maxLevels then .ok settings.toJson.write
  else .error .nestedOutput

/-- The words that turn a setting off. -/
def offWords : List Text := ["0", "false", "no", "off"]

/-- The settings with those that the environment names in their place. Blank values do
not count, and whatever is no word for off turns the setting on. -/
def override (environment : Environment) (settings : CompletionSettings) : CompletionSettings where
  installDir := (environment.nonempty? "SPECTEST_COMPLETION_DIR").or settings.installDir
  autoConfigure :=
    match (environment.get? "SPECTEST_COMPLETION_AUTO_CONFIGURE").map Text.trim with
    | none | some [] => settings.autoConfigure
    | some word => !offWords.contains word.lowerCase

/-- The settings in force. -/
def resolve (host : Host) (world : World) : Except Fault Settings := do
  let settings ← load host world
  pure { settings with completion := override host.environment settings.completion }

end Settings

end TabCompletion
