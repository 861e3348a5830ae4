import SpanCourier.Text.Quoted

/-!
# the status of a call

A call that fails has a code and a message.  The codes are those of gRPC.
-/

namespace SpanCourier

inductive Code where
  | ok
  | cancelled
  | unknown
  | invalidArgument
  | deadlineExceeded
  | notFound
  | alreadyExists
  | permissionDenied
  | resourceExhausted
  | failedPrecondition
  | aborted
  | outOfRange
  | unimplemented
  | internal
  | unavailable
  | dataLoss
  | unauthenticated
  deriving DecidableEq, Inhabited

namespace Code

def all : List Code := [
  .ok, .cancelled, .unknown, .invalidArgument, .deadlineExceeded, .notFound, .alreadyExists,
  .permissionDenied, .resourceExhausted, .failedPrecondition, .aborted, .outOfRange, .unimplemented,
  .internal, .unavailable, .dataLoss, .unauthenticated]

def name : Code → String
  | .ok => "Ok"
  | .cancelled => "Cancelled"
  | .unknown => "Unknown"
  | .invalidArgument => "InvalidArgument"
  | .deadlineExceeded => "DeadlineExceeded"
  | .notFound => "NotFound"
  | .alreadyExists => "AlreadyExists"
  | .permissionDenied => "PermissionDenied"
  | .resourceExhausted => "ResourceExhausted"
  | .failedPrecondition => "FailedPrecondition"
  | .aborted => "Aborted"
  | .outOfRange => "OutOfRange"
  | .unimplemented => "Unimplemented"
  | .internal => "Internal"
  | .unavailable => "Unavailable"
  | .dataLoss => "DataLoss"
  | .unauthenticated => "Unauthenticated"

def ofName? (s : String) : Option Code := all.find? (·.name == s)

theorem ofName?_name (c : Code) : ofName? c.name = some c := by cases c <;> decide

def description : Code → String
  | .ok => "The operation completed successfully"
  | .cancelled => "The operation was cancelled"
  | .unknown => "Unknown error"
  | .invalidArgument => "Client specified an invalid argument"
  | .deadlineExceeded => "Deadline expired before operation could complete"
  | .notFound => "Some requested entity was not found"
  | .alreadyExists => "Some entity that we attempted to create already exists"
  | .permissionDenied =>
    "The caller does not have permission to execute the specified operation"
  | .resourceExhausted => "Some resource has been exhausted"
  | .failedPrecondition => "The system is not in a state required for the operation's execution"
  | .aborted => "The operation was aborted"
  | .outOfRange => "Operation was attempted past the valid range"
  | .unimplemented => "Operation is not implemented or not supported"
  | .internal => "Internal error"
  | .unavailable => "The service is currently unavailable"
  | .dataLoss => "Unrecoverable data loss or corruption"
  | .unauthenticated => "The request does not have valid authentication credentials"

end Code

structure Status where
  code : Code
  message : String
  deriving DecidableEq, Inhabited

/-- what a status shows: the meaning of its code, and its message unless that is empty -/
def Status.text (s : Status) : String :=
  "code: '" ++ s.code.description ++ "'"
    ++ if s.message = "" then "" else ", message: " ++ quoted s.message

end SpanCourier
