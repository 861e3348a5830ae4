import SpanCourier.Json.Record
import SpanCourier.Settings

/-!
# settings as JSON texts

Settings are read from an object; a member that is not there keeps its default.
-/

namespace SpanCourier

open Json

def ApiVersion.names : List (String × ApiVersion) := ApiVersion.all.map fun v => (v.name, v)

def ApiVersion.shape : Shape ApiVersion := .variant ApiVersion.names

def ApiVersion.toValue (v : ApiVersion) : Value := .text v.name

def word64 (type : String) : Shape UInt64 :=
  (Shape.nat type (UInt64.size - 1)).map UInt64.ofNat

def Settings.record : RecordShape Settings where
  title := "StackdriverConfig"
  blank := {}
  members := [
    .of "project_id" false (.nullable .string) fun v s => { s with projectId := v },
    .of "api_host" false .string fun v s => { s with apiHost := v },
    .of "message_max_bytes" false (word64 "usize") fun v s => { s with messageMaxBytes := v },
    .of "strict_trace_id" false .bool fun v s => { s with strictTraceId := v },
    .of "api_version" false ApiVersion.shape fun v s => { s with apiVersion := v },
    .of "call_timeout_ms" false (.nullable (word64 "u64"))
      fun v s => { s with callTimeoutMillis := v },
    .of "label_renames" false (.dict .string) fun v s => { s with labelRenames := v },
    .of "label_prefix" false (.nullable .string) fun v s => { s with labelSpace := v },
    .of "agent_name" false .string fun v s => { s with agentName := v },
    .of "health_check_expiration_secs" false (word64 "u64")
      fun v s => { s with healthCheckSeconds := v }]

def Settings.parse (bs : Bytes) : Except Fault Settings := Settings.record.shape.parse bs

def Settings.ofValue (v : Value) : Except Mismatch Settings := Settings.record.shape.ofValue v

def orNull {α : Type} (f : α → Value) : Option α → Value
  | none => .null
  | some a => f a

def Settings.toValue (s : Settings) : Value := .object [
  ("project_id", orNull .text s.projectId),
  ("api_host", .text s.apiHost),
  ("message_max_bytes", .ofNat s.messageMaxBytes.toNat),
  ("strict_trace_id", .boolean s.strictTraceId),
  ("api_version", s.apiVersion.toValue),
  ("call_timeout_ms", orNull (fun n : UInt64 => .ofNat n.toNat) s.callTimeoutMillis),
  ("label_renames", .object (s.labelRenames.entries.map fun (k, v) => (k, .text v))),
  ("label_prefix", orNull .text s.labelSpace),
  ("agent_name", .text s.agentName),
  ("health_check_expiration_secs", .ofNat s.healthCheckSeconds.toNat)]

end SpanCourier
