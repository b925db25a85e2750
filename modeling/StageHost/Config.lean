import StageHost.Json.Decode
import StageHost.Json.Members
import StageHost.Severity
import StageHost.Text.Blank
import StageHost.Toml.Reader
/-
  The settings of a guest plugin, read from a JSON value or from TOML text.
-/
namespace StageHost

structure Config where
  /-- Where the guest module lives. -/
  guestUrl : String
  /-- A text that is handed to the guest as it is. -/
  guestConfig : Option String := none
  /-- Log records below this severity are dropped. -/
  logSeverity : Severity := .standard
  /-- The greatest size of a guest's memory in bytes. -/
  memoryLimit : Option UInt64 := none
  /-- How long fetching the module may take. -/
  fetchTimeoutSecs : Option UInt64 := none
deriving DecidableEq

/-- Why there are no settings. -/
inductive ConfigError
  /-- The file cannot be read; the text is the system's. -/
  | io (reason : String)
  | toml
  | json (cause : Json.DecodeError)
  | missingGuestUrl
  | invalidSeverity (n : Int)

namespace ConfigError

/-- The wording for a severity that does not exist. -/
def severityMessage (n : Int) : String :=
  "logSeverity " ++ toString n ++ " is out of range (0=debug .. 3=error)"

def message : ConfigError → String
  | .io reason => "failed to read config file: " ++ reason
  | .toml => "invalid TOML config"
  | .json cause => "invalid JSON config: " ++ cause.message
  | .missingGuestUrl => "guestUrl must not be empty"
  | .invalidSeverity n => severityMessage n

end ConfigError

namespace Severity

/-- The severity of a number, or the complaint about it. -/
def ofNumber (n : Int) : Except ConfigError Severity :=
  match ofInt? n with
  | some s => .ok s
  | none => .error (.invalidSeverity n)

/-- A severity is written as its number. -/
def decode : Json.Decoder Severity := fun v => do
  let n ← Json.asInt32 v
  match ofInt? n.toInt with
  | some s => return s
  | none => throw (.refused (ConfigError.severityMessage n.toInt))

end Severity

namespace Config

/-- 64 MiB. -/
def standardMemoryLimit : UInt64 := 67108864

/-- Half a minute. -/
def standardFetchTimeoutSecs : UInt64 := 30

instance : Inhabited Config := ⟨{ guestUrl := "" }⟩

/-- The greatest size of a guest's memory in bytes, configured or not. -/
def memoryBytes (c : Config) : UInt64 := c.memoryLimit.getD standardMemoryLimit

/-- How many seconds fetching the module may take, configured or not. -/
def fetchSeconds (c : Config) : UInt64 := c.fetchTimeoutSecs.getD standardFetchTimeoutSecs

/-- The settings with a text for the guest. -/
def withGuestConfig (c : Config) (text : String) : Config := { c with guestConfig := some text }

/-- The settings with another threshold for log records. -/
def withLogSeverity (c : Config) (severity : Severity) : Config :=
  { c with logSeverity := severity }

/-- Settings name a module. -/
def validate (c : Config) : Except ConfigError Config :=
  if (trim c.guestUrl).isEmpty then .error .missingGuestUrl else .ok c

/-! ## JSON -/

def toJson (c : Config) : Json :=
  .object ([("guestUrl", .string c.guestUrl)]
    ++ Json.ifSome "guestConfig" .string c.guestConfig
    ++ [("logSeverity", .integer c.logSeverity.toInt)]
    ++ Json.ifSome "memoryLimit" (fun n => .ofNat n.toNat) c.memoryLimit
    ++ Json.ifSome "fetchTimeoutSecs" (fun n => .ofNat n.toNat) c.fetchTimeoutSecs)

def decode : Json.Decoder Config :=
  Json.asRecord "PluginConfig"
    [.must "guestUrl" Json.asString fun v c => { c with guestUrl := v },
     .may "guestConfig" (Json.asOption Json.asString) fun v c => { c with guestConfig := v },
     .may "logSeverity" Severity.decode fun v c => { c with logSeverity := v },
     .may "memoryLimit" (Json.asOption (Json.asUInt64 "usize"))
       fun v c => { c with memoryLimit := v },
     .may "fetchTimeoutSecs" (Json.asOption (Json.asUInt64 "u64"))
       fun v c => { c with fetchTimeoutSecs := v }]
    { guestUrl := "" }

/-- The settings that a JSON value holds. -/
def ofJson (v : Json) : Except ConfigError Config :=
  match decode v with
  | .ok c => c.validate
  | .error cause => .error (.json cause)

/-! ## TOML -/

/-- A text under a key. -/
def text? : Toml → Option String
  | .string s => some s
  | _ => none

/-- A number of 64 bits without sign under a key. -/
def number? : Toml → Option UInt64
  | .integer n => if 0 ≤ n ∧ n < UInt64.size then some (.ofNat n.toNat) else none
  | _ => none

/-- A severity under a key. -/
def severity? : Toml → Option Severity
  | .integer n => Severity.ofInt? n
  | _ => none

/-- What is under a key that may be absent: absent, well-formed or wrong. -/
def entry? {α : Type} (read : Toml → Option α) (k : String) (entries : Toml.Entries) :
    Option (Option α) :=
  match entries.lookup k with
  | none => some none
  | some v => (read v).map some

/-- The settings under the top keys of a document. -/
def ofEntries? (entries : Toml.Entries) : Option Config := do
  let guestUrl ← text? (← entries.lookup "guestUrl")
  let guestConfig ← entry? text? "guestConfig" entries
  let logSeverity ← entry? severity? "logSeverity" entries
  let memoryLimit ← entry? number? "memoryLimit" entries
  let fetchTimeoutSecs ← entry? number? "fetchTimeoutSecs" entries
  return { guestUrl, guestConfig, logSeverity := logSeverity.getD .standard, memoryLimit,
           fetchTimeoutSecs }

/-- The settings that a TOML text holds. -/
def ofToml (s : String) : Except ConfigError Config :=
  match Toml.parse? s >>= ofEntries? with
  | some c => c.validate
  | none => .error .toml

/-- The settings that a file holds, given by its bytes if it exists. -/
def ofFile : Option (List UInt8) → Except ConfigError Config
  | none => .error (.io "No such file or directory (os error 2)")
  | some bytes =>
    match Utf8.decode? bytes with
    | some s => ofToml s
    | none => .error (.io "stream did not contain valid UTF-8")

end Config
end StageHost
