/-
SingleFlight.Settings — the settings of a loader and how an environment spells
them.

Every variable but the public path is trimmed, and counts as unset if nothing is
left. Backend names are read in lower case. The two numbers are read in the
order of the fields, so the watchdog's window is refused before the window of
the client. What names and values an operating system takes is its own affair.

* `Settings.fromEnvironment` — the settings that an environment spells.
* `Settings.policy` — the policy that settings describe.
-/
import SingleFlight.Numeral
import SingleFlight.Policy
import SingleFlight.Text.Lowercase

namespace SingleFlight

/-- The settings of a loader. -/
structure Settings where
  publicPath : String := ""
  filename : String := "\x7bid\x7d.css"
  uniqueName : String := "webpack"
  assetKind : String := "css"
  timeout : Float := 120
  handleBackend : String := "inmemory"
  /-- Seconds that one answer of the client may take, if there is a limit. -/
  httpTimeout : Option Float := some 30
  metricsBackend : String := "none"

/-- Variables and their values; no variable occurs twice. -/
abbrev Environment := List (String × String)

/-- A text without the white space at its two ends. -/
def trimmed (s : String) : String :=
  String.ofList (Text.trim s.toList)

/-- A text in lower case. -/
def lowered (s : String) : String :=
  String.ofList (Text.lowercase s.toList)

namespace Settings

/-- The names of the settings. -/
def names : List String :=
  ["public_path", "filename_template", "unique_name", "asset_kind", "timeout_s", "handle_backend",
    "http_timeout_s", "metrics_backend"]

/-- Refuses names of which there is no setting. -/
def checkNames (given : List String) : Except Fault Unit :=
  match given.find? (!names.contains ·) with
  | some name => .error (.parts (.surplus "LoaderSettings" name))
  | none => .ok ()

/-- The trimmed value of a variable, or `default` if it is unset or blank. -/
def valueOf (env : Environment) (name default : String) : String :=
  let value := trimmed ((env.lookup name).getD "")
  if value = "" then default else value

/-- The number that a text spells. -/
def readSeconds (text : String) : Except Fault Float :=
  match Numeral.read? text.toList with
  | some n => .ok n.toFloat
  | none => .error (.unreadableNumber text)

/-- The number that a text spells, or no number for the word `none` in any case. -/
def readLimit (text : String) : Except Fault (Option Float) :=
  if lowered text = "none" then .ok none else (readSeconds text).map some

/-- The settings that an environment spells. -/
def fromEnvironment (env : Environment) : Except Fault Settings := do
  let timeout ← readSeconds (valueOf env "CHUNKLOAD_TIMEOUT_S" "120.0")
  let httpTimeout ← readLimit (valueOf env "CHUNKLOAD_HTTP_TIMEOUT_S" "30")
  return {
    publicPath := (env.lookup "CHUNKLOAD_PUBLIC_PATH").getD ""
    filename := valueOf env "CHUNKLOAD_FILENAME_TEMPLATE" "\x7bid\x7d.css"
    uniqueName := valueOf env "CHUNKLOAD_UNIQUE_NAME" "webpack"
    assetKind := valueOf env "CHUNKLOAD_ASSET_KIND" "css"
    timeout
    handleBackend := lowered (valueOf env "CHUNKLOAD_HANDLE_BACKEND" "inmemory")
    httpTimeout
    metricsBackend := lowered (valueOf env "CHUNKLOAD_METRICS_BACKEND" "none") }

/-- The policy that settings describe. -/
def policy (s : Settings) : Except Fault Policy :=
  Policy.make s.timeout s.uniqueName s.assetKind

end Settings

end SingleFlight
