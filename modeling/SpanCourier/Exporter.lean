import SpanCourier.Sender.System

/-!
# the exporter

An exporter takes recorded spans: it encodes them and has a sender deliver them.
-/

namespace SpanCourier

structure Exporter where
  encoder : Encoder
  system : System

/-- the exporter of some settings, over a transport that is given -/
def Settings.exporter (s : Settings) : Except ConfigError Exporter :=
  match s.encoder with
  | .error e => .error e
  | .ok encoder => match s.senderOptions.resolve true with
    | .error e => .error e
    | .ok settings => .ok { encoder, system := .ofSettings settings }

namespace Exporter

def sendJob (e : Exporter) (spans : List Span) : Job := .send (e.encoder.encodeAll spans)

def enqueueJob (e : Exporter) (spans : List Span) : Job :=
  .enqueued (e.encoder.encodeAll spans) none

end Exporter

end SpanCourier
