namespace MessageChannel

inductive FrameKind where
  | complete
  | slice
  /-- Announces a payload that comes in slices. -/
  | sliceHeader
  | cancel
  | versionVerification
deriving DecidableEq, Repr

namespace FrameKind

def code : FrameKind → UInt16
  | complete => 0
  | slice => 1
  | sliceHeader => 2
  | cancel => 3
  | versionVerification => 4

def ofCode? : UInt16 → Option FrameKind
  | 0 => some complete
  | 1 => some slice
  | 2 => some sliceHeader
  | 3 => some cancel
  | 4 => some versionVerification
  | _ => none

def text : FrameKind → String
  | complete => "Complete"
  | slice => "Slice"
  | sliceHeader => "SliceHeader"
  | cancel => "Cancel"
  | versionVerification => "VersionVerification"

@[simp] theorem ofCode?_code (kind : FrameKind) : ofCode? kind.code = some kind := by
  cases kind <;> rfl

end FrameKind

end MessageChannel
