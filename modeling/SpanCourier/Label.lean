import SpanCourier.Span
import SpanCourier.Text.Truncation
import SpanCourier.Time.Calendar

/-!
# labels of a span

Tags, addresses and annotations of a span become labels of the destination.  A key has a destination
name: the one that the rename table gives it, or the key itself under the label space, if there is
one.  `LabelRules.puts` lists the labels of a span in rising precedence, so that a later one replaces
an earlier one of the same name.

* `LabelRules.nameOf`      the name of a key;
* `LabelRules.labels`      the labels of a span of the v1 API.
-/

namespace SpanCourier

/-- the label of the service that recorded the span -/
def componentLabel : String := "/component"
/-- the label of the exporter, on spans that start a trace -/
def agentLabel : String := "/agent"
def kindLabel : String := "/kind"
def errorLabel : String := "/error/message"
def ipv4Key : String := "endpoint.ipv4"
def ipv6Key : String := "endpoint.ipv6"

def defaultAgent : String := "zipkin-rust"

def maxLabelBytes : Nat := 8192

/-- the keys that have a name of their own at the destination -/
def defaultRenames : Dict String := Dict.ofEntries [
  ("http.host", "/http/host"),
  ("http.method", "/http/method"),
  ("http.status_code", "/http/status_code"),
  ("http.request.size", "/request/size"),
  ("http.response.size", "/response/size"),
  ("http.url", "/http/url")]

structure LabelRules where
  renames : Dict String := defaultRenames
  /-- what stands before a key that is not renamed -/
  space : Option String := none
  agent : String := defaultAgent
  deriving DecidableEq, Inhabited

namespace LabelRules

def nameOf (rules : LabelRules) (k : String) : String :=
  match rules.renames.get? k with
  | some name => name
  | none => rules.space.getD "" ++ k

def tagPuts (rules : LabelRules) (span : Span) : List (String × String) :=
  span.tags.entries.map fun (k, v) => (rules.nameOf k, v)

/-- the labels of the addresses of the recording host -/
def addressPuts (rules : LabelRules) (span : Span) : List (String × String) :=
  match span.localEndpoint with
  | none => []
  | some endpoint =>
    (endpoint.ipv4.toList.map fun a => (rules.nameOf ipv4Key, a))
      ++ (endpoint.ipv6.toList.map fun a => (rules.nameOf ipv6Key, a))

/-- the labels of the annotations: when they happened, under what they say -/
def annotationPuts (rules : LabelRules) (span : Span) : List (String × String) :=
  span.annotations.map fun a => (rules.nameOf a.value, annotationText a.timestamp)

def originPuts (rules : LabelRules) (span : Span) : List (String × String) :=
  (span.service?.toList.map fun name => (componentLabel, name))
    ++ if span.isRoot then [(agentLabel, rules.agent)] else []

/-- the labels of a span in rising precedence.  Only the server side of a call knows its own address;
the address that a client sees may be that of a balancer in between. -/
def puts (rules : LabelRules) (span : Span) (server annotations : Bool) : List (String × String) :=
  rules.tagPuts span
    ++ (if server then rules.addressPuts span else [])
    ++ (if annotations then rules.annotationPuts span else [])
    ++ rules.originPuts span

def labels (rules : LabelRules) (span : Span) (server : Bool) : Dict String :=
  Dict.ofEntries ((rules.puts span server true).map fun (k, v) => (k, truncate maxLabelBytes v))

end LabelRules

end SpanCourier
