/-!
# Status codes

A service answers a call with one of seventeen status codes, numbered from
zero; any other number reads as `unknown`.  A code has a name, used in counts
and labels, and a description, used in the text of a broken call.

* `Status.ofNumber`: the code of a number.
-/

namespace ShardLoad

/-- The status of an answered call. -/
inductive Status where
  | ok
  | cancelled
  | unknown
  | invalidArgument
  | deadlineExceeded
  | notFound
  | alreadyExists
  | permissionDenied
  | resourceExhausted
  | failedPrecondition
  | aborted
  | outOfRange
  | unimplemented
  | internal
  | unavailable
  | dataLoss
  | unauthenticated
  deriving Repr, DecidableEq

namespace Status

/-- The codes in the order of their numbers. -/
def all : List Status :=
  [ok, cancelled, unknown, invalidArgument, deadlineExceeded, notFound, alreadyExists,
    permissionDenied, resourceExhausted, failedPrecondition, aborted, outOfRange,
    unimplemented, internal, unavailable, dataLoss, unauthenticated]

/-- The number of a code. -/
def number : Status → Nat
  | ok => 0
  | cancelled => 1
  | unknown => 2
  | invalidArgument => 3
  | deadlineExceeded => 4
  | notFound => 5
  | alreadyExists => 6
  | permissionDenied => 7
  | resourceExhausted => 8
  | failedPrecondition => 9
  | aborted => 10
  | outOfRange => 11
  | unimplemented => 12
  | internal => 13
  | unavailable => 14
  | dataLoss => 15
  | unauthenticated => 16

/-- The code of a number; a number that is not given out reads as `unknown`. -/
def ofNumber (n : Int) : Status :=
  if n < 0 then unknown else all.getD n.toNat unknown

/-- The name of a code. -/
def name : Status → String
  | ok => "Ok"
  | cancelled => "Cancelled"
  | unknown => "Unknown"
  | invalidArgument => "InvalidArgument"
  | deadlineExceeded => "DeadlineExceeded"
  | notFound => "NotFound"
  | alreadyExists => "AlreadyExists"
  | permissionDenied => "PermissionDenied"
  | resourceExhausted => "ResourceExhausted"
  | failedPrecondition => "FailedPrecondition"
  | aborted => "Aborted"
  | outOfRange => "OutOfRange"
  | unimplemented => "Unimplemented"
  | internal => "Internal"
  | unavailable => "Unavailable"
  | dataLoss => "DataLoss"
  | unauthenticated => "Unauthenticated"

/-- What a code says, in words. -/
def description : Status → String
  | ok => "The operation completed successfully"
  | cancelled => "The operation was cancelled"
  | unknown => "Unknown error"
  | invalidArgument => "Client specified an invalid argument"
  | deadlineExceeded => "Deadline expired before operation could complete"
  | notFound => "Some requested entity was not found"
  | alreadyExists => "Some entity that we attempted to create already exists"
  | permissionDenied => "The caller does not have permission to execute the specified operation"
  | resourceExhausted => "Some resource has been exhausted"
  | failedPrecondition => "The system is not in a state required for the operation's execution"
  | aborted => "The operation was aborted"
  | outOfRange => "Operation was attempted past the valid range"
  | unimplemented => "Operation is not implemented or not supported"
  | internal => "Internal error"
  | unavailable => "The service is currently unavailable"
  | dataLoss => "Unrecoverable data loss or corruption"
  | unauthenticated => "The request does not have valid authentication credentials"

/-- Different codes have different names. -/
theorem name_injective {s t : Status} (h : s.name = t.name) : s = t := by
  revert h; cases s <;> cases t <;> decide

end Status
end ShardLoad
