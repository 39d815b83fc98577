namespace TcpReactor

/-! # Input and output errors

An error of the operating system is either one of the kinds that programs tell apart, or a numbered
error as the system reports it. The two have different texts, and each numbered error belongs to a
kind.
-/

/-- An error with the number that the system gives it. -/
inductive SystemError
  | brokenPipe
  | addressInUse
  | networkUnreachable
  | connectionReset
  | connectionRefused
  deriving DecidableEq, Repr

/-- Why an operation of the system failed. -/
inductive IoError
  | connectionReset
  | connectionAborted
  | connectionRefused
  | brokenPipe
  | timedOut
  | notConnected
  | addressInUse
  | networkUnreachable
  | unexpectedEof
  | writeZero
  | other
  | system (cause : SystemError)
  deriving DecidableEq, Repr

/-- The kind of a numbered error. -/
def SystemError.kind : SystemError → IoError
  | .brokenPipe => .brokenPipe
  | .addressInUse => .addressInUse
  | .networkUnreachable => .networkUnreachable
  | .connectionReset => .connectionReset
  | .connectionRefused => .connectionRefused

/-- The number of an error. -/
def SystemError.number : SystemError → Nat
  | .brokenPipe => 32
  | .addressInUse => 98
  | .networkUnreachable => 101
  | .connectionReset => 104
  | .connectionRefused => 111

def SystemError.text : SystemError → String
  | .brokenPipe => "Broken pipe"
  | .addressInUse => "Address already in use"
  | .networkUnreachable => "Network is unreachable"
  | .connectionReset => "Connection reset by peer"
  | .connectionRefused => "Connection refused"

def IoError.message : IoError → String
  | .connectionReset => "connection reset"
  | .connectionAborted => "connection aborted"
  | .connectionRefused => "connection refused"
  | .brokenPipe => "broken pipe"
  | .timedOut => "timed out"
  | .notConnected => "not connected"
  | .addressInUse => "address in use"
  | .networkUnreachable => "network unreachable"
  | .unexpectedEof => "unexpected end of file"
  | .writeZero => "write zero"
  | .other => "other error"
  | .system cause => s!"{cause.text} (os error {cause.number})"

/-- The kind of an error, without its number. -/
def IoError.kind : IoError → IoError
  | .system cause => cause.kind
  | e => e

end TcpReactor
