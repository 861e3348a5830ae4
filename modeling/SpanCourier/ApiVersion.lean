/-!
# versions of the write API

The destination takes spans in two ways: v1 groups them into traces, v2 takes a flat list.  Each
version has one method.
-/

namespace SpanCourier

inductive ApiVersion where
  | v1
  | v2
  deriving DecidableEq, Inhabited

namespace ApiVersion

def name : ApiVersion → String
  | .v1 => "v1"
  | .v2 => "v2"

def all : List ApiVersion := [.v1, .v2]

/-- the path of the method that writes spans -/
def methodPath : ApiVersion → String
  | .v1 => "/google.devtools.cloudtrace.v1.TraceService/PatchTraces"
  | .v2 => "/google.devtools.cloudtrace.v2.TraceService/BatchWriteSpans"

end ApiVersion

end SpanCourier
