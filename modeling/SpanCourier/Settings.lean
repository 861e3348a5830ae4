import SpanCourier.Encoder
import SpanCourier.Failure

/-!
# settings

What an exporter is set up with: the project, the destination and its API version, limits, and how
labels are named.

* `Settings.check`       which settings can be used;
* `Settings.labelRules`  the names of labels: own renames before the default ones.
-/

namespace SpanCourier

def defaultApiHost : String := "https://cloudtrace.googleapis.com:443"

def defaultMessageMaxBytes : UInt64 := 1024 * 1024

/-- how many seconds the result of a health check is used again unless another is set -/
def defaultHealthCheckSeconds : UInt64 := 60

structure Settings where
  projectId : Option String := none
  apiHost : String := defaultApiHost
  messageMaxBytes : UInt64 := defaultMessageMaxBytes
  /-- whether trace identifiers must be sent with all their digits, as the v1 API demands -/
  strictTraceId : Bool := true
  apiVersion : ApiVersion := .v2
  callTimeoutMillis : Option UInt64 := none
  labelRenames : Dict String := ∅
  /-- what stands before label keys that are not renamed -/
  labelSpace : Option String := none
  agentName : String := defaultAgent
  healthCheckSeconds : UInt64 := defaultHealthCheckSeconds
  deriving DecidableEq, Inhabited

def checkProject (projectId : Option String) (version : ApiVersion) (strictTraceId : Bool) :
    Except ConfigError Unit :=
  if projectId.getD "" = "" then .error .missingProjectId
  else if version = .v1 ∧ !strictTraceId then .error .strictTraceIdRequired
  else .ok ()

namespace Settings

def check (s : Settings) : Except ConfigError Unit :=
  checkProject s.projectId s.apiVersion s.strictTraceId

def project (s : Settings) : String := s.projectId.getD ""

def labelRules (s : Settings) : LabelRules where
  renames := defaultRenames.insertAll s.labelRenames.entries
  space := s.labelSpace
  agent := s.agentName

def encoder (s : Settings) : Except ConfigError Encoder :=
  match s.check with
  | .error e => .error e
  | .ok _ => .ok (.ofVersion s.apiVersion s.project s.labelRules)

end Settings

end SpanCourier
