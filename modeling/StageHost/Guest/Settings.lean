import StageHost.Config
/-
  The settings of one guest.
-/
namespace StageHost

structure Settings where
  /-- The name that log records carry. -/
  moduleName : String
  /-- Log records below this severity are dropped. -/
  logSeverity : Severity := .standard
  /-- What the guest gets when it asks for its configuration. -/
  guestConfig : Option String := none
  /-- The greatest size of the memory in bytes. -/
  memoryLimit : UInt64 := Config.standardMemoryLimit
deriving DecidableEq, Inhabited

namespace Settings

/-- The settings of a guest that nothing is configured for. -/
def named (moduleName : String) : Settings := { moduleName }

/-- The settings that a configuration gives. -/
def ofConfig (moduleName : String) (c : Config) : Settings :=
  { moduleName, logSeverity := c.logSeverity, guestConfig := c.guestConfig,
    memoryLimit := c.memoryBytes }

end Settings
end StageHost
