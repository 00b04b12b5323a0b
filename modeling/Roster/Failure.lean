import Roster.Duration
import Roster.Settings
import Roster.Status

/-! Causes of failure and their wording. -/
namespace Roster

/-- Why an update cannot be applied. -/
inductive UpdateFault
  | missingId
  | unknownKind (id : String) (kind : Int32)
  | missingMember (id : String) (kind : UpdateKind)
  deriving DecidableEq, Repr

def UpdateFault.message : UpdateFault → String
  | missingId => "Update missing member id"
  | unknownKind id kind => s!"Unknown update type {kind} for member {id}"
  | missingMember id kind => kind.name ++ s!" update for member {id} missing member attributes"

/-- Why a configuration cannot be loaded or used. -/
inductive ConfigFault
  | invalid (fault : SettingsFault)
  /-- A whole number beyond the signed 64-bit range. -/
  | tooLarge (value : UInt64)
  /-- A value of another form than the one described by `expected`. -/
  | mismatch (found expected : String)
  | other (reason : String)
  | notToml
  | noSource
  | badPath
  /-- A value that cannot be converted; `key` is the path to it. -/
  | wrongType (found expected : String) (key : Option String)
  deriving DecidableEq, Repr

namespace ConfigFault

def message : ConfigFault → String
  | invalid fault => fault.message
  | tooLarge value => s!"value {value} is greater than the max 9223372036854775807"
  | mismatch found expected => s!"invalid type: {found}, expected {expected}"
  | other reason => reason
  | notToml => "not a TOML document"
  | noSource => "configuration file not found or of unknown type"
  | badPath => "not a key path"
  | wrongType found expected none => s!"invalid type: {found}, expected {expected}"
  | wrongType found expected (some key) => s!"invalid type: {found}, expected {expected} for key {key}"

end ConfigFault

/-- One seed address that could not be connected. -/
structure SeedFailure where
  addr : String
  reason : String
  deriving DecidableEq, Repr

def SeedFailure.text (f : SeedFailure) : String := f.addr ++ ": " ++ f.reason

inductive Failure
  | noSeeds
  | allSeedsFailed (failures : List SeedFailure)
  /-- The registry could not be reached, or gave no decision. -/
  | unavailable (reason : String)
  | timedOut (request : String) (after : Duration)
  | invalidUri (addr : String)
  | streamTerminated (reason : String)
  /-- The channel to the server could not be set up. -/
  | channel
  /-- The registry refused the request. -/
  | rejected (code : StatusCode) (reason : String)
  | update (fault : UpdateFault)
  | config (fault : ConfigFault)
  | closed
  | unknownMember (id : String)
  deriving DecidableEq, Repr

namespace Failure

def message : Failure → String
  | noSeeds => "No seed addresses given"
  | allSeedsFailed failures =>
    "Failed to connect to any seed: " ++ "; ".intercalate (failures.map SeedFailure.text)
  | unavailable reason => "Service unavailable: " ++ reason
  | timedOut request after => s!"Request {request} timed out after " ++ after.text
  | invalidUri addr => "Invalid URI format: " ++ addr
  | streamTerminated reason => "Update stream terminated: " ++ reason
  | channel => "transport error"
  | rejected code reason => "Request rejected by registry (" ++ code.name ++ "): " ++ reason
  | update fault => fault.message
  | config fault => fault.message
  | closed => "Client is closed"
  | unknownMember id => s!"Member {id} is not registered by this client"

def isRejection : Failure → Bool
  | rejected _ _ => true
  | _ => false

/-- A status without a decision counts as loss of the connection, any other as a refusal. -/
def ofStatus (s : Status) : Failure :=
  if s.code.undecided then unavailable s.message else rejected s.code s.message

end Failure

end Roster
