import EntityAccess.Dict
import EntityAccess.Error
import EntityAccess.Text.Blank

/-!
# settings

The settings of the service come from variables; a variable that is missing or blank leaves the
default, and the first one that cannot be read is an error.
-/

namespace EntityAccess

structure Settings where
  databaseUrl : String
  schemaPath : String
  maxConnections : Nat
  /-- in milliseconds -/
  statementTimeout : Nat
  /-- in milliseconds -/
  idleTimeout : Nat
  applicationName : String
  defaultPerPage : Nat
  exportBatchSize : Nat
  bindAddress : String

namespace Settings

def default : Settings where
  databaseUrl := "postgres://localhost/partnerbase"
  schemaPath := "schema.json"
  maxConnections := 10
  statementTimeout := 10000
  idleTimeout := 60000
  applicationName := "partnerbase"
  defaultPerPage := 100
  exportBatchSize := 500
  bindAddress := "0.0.0.0:3000"

/-- the trimmed text of a variable, if there is any -/
def setting (environment : Dict String) (key : String) : Option String :=
  ((environment.get? key).map Text.trim).filter (· ≠ "")

def textSetting (environment : Dict String) (key default : String) : String :=
  (setting environment key).getD default

/-- a number up to `bound` -/
def numberSetting (environment : Dict String) (bound : Nat) (key : String) (default : Nat) :
    Except ConfigError Nat :=
  match setting environment key with
  | none => .ok default
  | some text =>
    (Number.readNat bound text.toList).mapError fun fault =>
      .validation (.unreadableSetting key fault)

/-- the greatest number of 32 bits -/
def maxConnectionCount : Nat := 4294967295

def ofVariables (environment : Dict String) : Except ConfigError Settings := do
  let number := numberSetting environment Number.maxUnsigned
  let maxConnections ←
    numberSetting environment maxConnectionCount "DB_MAX_CONNECTIONS" default.maxConnections
  let statementTimeout ← number "DB_STATEMENT_TIMEOUT_MS" default.statementTimeout
  let idleTimeout ← number "DB_IDLE_TX_TIMEOUT_MS" default.idleTimeout
  let defaultPerPage ← number "DEFAULT_PER_PAGE" default.defaultPerPage
  let exportBatchSize ← number "EXPORT_BATCH_SIZE" default.exportBatchSize
  if exportBatchSize = 0 then throw (.validation .emptyBatch)
  return {
    databaseUrl := textSetting environment "DATABASE_URL" default.databaseUrl
    schemaPath := textSetting environment "SCHEMA_PATH" default.schemaPath
    applicationName := textSetting environment "APP_NAME" default.applicationName
    bindAddress := textSetting environment "BIND_ADDR" default.bindAddress
    maxConnections, statementTimeout, idleTimeout, defaultPerPage, exportBatchSize }

end Settings
end EntityAccess
