namespace MessageChannel

inductive IoErrorKind where
  | wouldBlock | interrupted | connectionReset | connectionAborted | brokenPipe | unexpectedEof
  | permissionDenied | notConnected | connectionRefused | timedOut | writeZero | other
deriving DecidableEq, Repr

/-- Why a transport call failed: by a number of the operating system (those of Linux), or by a
kind and a text. -/
inductive IoError where
  | system (errno : Nat)
  | reported (kind : IoErrorKind) (text : String)
deriving DecidableEq, Repr

namespace IoError

def noBuffers : Nat := 105

def systemKind : Nat → IoErrorKind
  | 1 | 13 => .permissionDenied
  | 4 => .interrupted
  | 11 => .wouldBlock
  | 32 => .brokenPipe
  | 103 => .connectionAborted
  | 104 => .connectionReset
  | 107 => .notConnected
  | 110 => .timedOut
  | 111 => .connectionRefused
  | _ => .other

def systemText : Nat → String
  | 1 => "Operation not permitted"
  | 4 => "Interrupted system call"
  | 5 => "Input/output error"
  | 9 => "Bad file descriptor"
  | 11 => "Resource temporarily unavailable"
  | 12 => "Cannot allocate memory"
  | 13 => "Permission denied"
  | 22 => "Invalid argument"
  | 32 => "Broken pipe"
  | 90 => "Message too long"
  | 101 => "Network is unreachable"
  | 103 => "Software caused connection abort"
  | 104 => "Connection reset by peer"
  | 105 => "No buffer space available"
  | 107 => "Transport endpoint is not connected"
  | 110 => "Connection timed out"
  | 111 => "Connection refused"
  | 113 => "No route to host"
  | n => s!"Unknown error {n}"

def kind : IoError → IoErrorKind
  | system errno => systemKind errno
  | reported kind _ => kind

def message : IoError → String
  | system errno => s!"{systemText errno} (os error {errno})"
  | reported _ text => text

end IoError

end MessageChannel
