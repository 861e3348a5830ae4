import SpanCourier.Request.Assembly
import SpanCourier.V1.Message
import SpanCourier.V2.Message

/-!
# the probe request

A probe carries one blank span, which the destination must refuse as invalid.  That it gets so far
shows that the channel, the credentials and the project can be used.
-/

namespace SpanCourier

def probeCall (version : ApiVersion) (project : String) : Call :=
  match version with
  | .v1 =>
    let request : V1.PatchTracesRequest :=
      { projectId := project, traces := some { traces := [{ spans := [{}] }] } }
    ⟨.v1, Wire.encode request⟩
  | .v2 =>
    let request : V2.BatchWriteSpansRequest := { name := "projects/" ++ project, spans := [{}] }
    ⟨.v2, Wire.encode request⟩

end SpanCourier
