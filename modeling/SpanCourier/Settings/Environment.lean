import SpanCourier.Json.Number
import SpanCourier.Settings

/-!
# settings from the environment

Four variables override settings, one after the other.  Only the greatest size of a request can be
wrong; what the variables before it set stays set then, and the error is reported beside it.

* `Settings.applyEnvironment`  over the texts that the variables are set to;
* `Settings.applyProcess`      over the bytes that a process has for them;
* `Settings.ofProcess`         the settings of a process, which an error leaves without any.
-/

namespace SpanCourier

inductive Variable where
  | projectId
  | apiHost
  | messageMaxBytes
  | agent
  deriving DecidableEq, Inhabited

def Variable.name : Variable → String
  | .projectId => "STACKDRIVER_PROJECT_ID"
  | .apiHost => "STACKDRIVER_API_HOST"
  | .messageMaxBytes => "STACKDRIVER_MESSAGE_MAX_BYTES"
  | .agent => "STACKDRIVER_AGENT"

/-- the variables in the order in which they are applied -/
def Variable.all : List Variable := [.projectId, .apiHost, .messageMaxBytes, .agent]

/-- what is set in the environment of a process: bytes, by name -/
abbrev Environment := String → Option Bytes

/-- the text that a variable is set to; a variable counts as not set if its bytes are no text -/
def Environment.textOf? (env : Environment) (v : Variable) : Option String :=
  (env v.name).bind ofUtf8?

/-- a natural number of 64 bits in decimal digits, after a plus sign if there is one -/
def parseSize? (s : String) : Option UInt64 :=
  let bs := utf8 s
  let digits := if bs.head? = some 0x2b then bs.drop 1 else bs
  if digits.isEmpty ∨ !digits.all Json.Number.isDigit then none
  else
    let n := Json.Number.natOfDigits digits
    if n < UInt64.size then some (.ofNat n) else none

namespace Settings

def override (s : Settings) (v : Variable) (value : String) : Except ConfigError Settings :=
  match v with
  | .projectId => .ok { s with projectId := some value }
  | .apiHost => .ok { s with apiHost := value }
  | .agent => .ok { s with agentName := value }
  | .messageMaxBytes => match parseSize? value with
    | some n => .ok { s with messageMaxBytes := n }
    | none => .error (.invalidEnv v.name value)

/-- applies variables in turn up to the first that is wrong; gives the settings as they are then, and
what was wrong -/
def applyVariables (lookup : Variable → Option String) :
    List Variable → Settings → Settings × Option ConfigError
  | [], s => (s, none)
  | v :: vs, s => match lookup v with
    | none => applyVariables lookup vs s
    | some value => match s.override v value with
      | .ok s => applyVariables lookup vs s
      | .error e => (s, some e)

def applyEnvironment (s : Settings) (lookup : Variable → Option String) :
    Settings × Option ConfigError :=
  applyVariables lookup Variable.all s

def applyProcess (s : Settings) (env : Environment) : Settings × Option ConfigError :=
  s.applyEnvironment env.textOf?

/-- the default settings under the environment of a process -/
def ofProcess (env : Environment) : Except ConfigError Settings :=
  match ({} : Settings).applyProcess env with
  | (s, none) => .ok s
  | (_, some e) => .error e

end Settings

end SpanCourier
