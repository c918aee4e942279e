namespace MessageChannel

/-- Handles for canceling sends. Handles that were copied from one another share one request. -/
structure CancelBoard where
  requests : Array Bool := #[false]
  handles : Array Nat := #[0]
deriving DecidableEq, Repr

namespace CancelBoard

def isRequested (b : CancelBoard) (handle : Nat) : Bool :=
  ((b.handles[handle]?).bind (b.requests[·]?)).getD false

def assign (b : CancelBoard) (handle : Nat) (pending : Bool) : CancelBoard :=
  match b.handles[handle]? with
  | some request => { b with requests := b.requests.setIfInBounds request pending }
  | none => b

def cancel (b : CancelBoard) (handle : Nat) : CancelBoard := b.assign handle true

def reset (b : CancelBoard) (handle : Nat) : CancelBoard := b.assign handle false

def take (b : CancelBoard) (handle : Nat) : Bool × CancelBoard :=
  (b.isRequested handle, b.reset handle)

def copy (b : CancelBoard) (handle : Nat) : CancelBoard :=
  match b.handles[handle]? with
  | some request => { b with handles := b.handles.push request }
  | none => b

def fresh (b : CancelBoard) : CancelBoard :=
  { requests := b.requests.push false, handles := b.handles.push b.requests.size }

def pending (b : CancelBoard) : List Bool :=
  (List.range b.handles.size).map b.isRequested

end CancelBoard

end MessageChannel
