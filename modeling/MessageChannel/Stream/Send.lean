import MessageChannel.Frame
import MessageChannel.Slice.Plan
import MessageChannel.Stream.Session

namespace MessageChannel.StreamSession

variable {μ : Type}

def sendFrame (f : Frame) : Call (StreamSession μ) Unit := do
  let t ← connected
  let s ← Call.scene
  let d := t.outbound.deliver s.session.config.retryBackoff f.pieces s.now
  Call.settle
    { s.session with
      transport := some { t with outbound := d.outbound }
      cancelRequested := s.session.cancelRequested || d.canceled }
    d.now
  Call.ofExcept d.outcome

def takeCancel : Call (StreamSession μ) Bool := do
  let s ← Call.session
  Call.update ({ · with cancelRequested := false })
  return s.cancelRequested

/-- A request that comes after the last frame is dropped: the peer has the whole message. -/
def dropLateCancel (typeId : Int32) : Call (StreamSession μ) Unit := do
  Call.tellIf (← takeCancel) (.lateCancel typeId)

def sendVersion : Call (StreamSession μ) Unit := do
  let table := (← Call.session).registry.table
  let payload := table.encode
  sendFrame ⟨.versionVerification payload.length.toUInt32 tableTypeId, payload⟩
  Call.tell (.sentTable table.version table.size)

/-- Sends slices, the first of them with the given index. A request to stop is looked at before
each but the very first. -/
def sendSlices (payload : List UInt8) (count : Nat) :
    List SliceRange → Nat → Call (StreamSession μ) Unit
  | [], _ => return
  | range :: ranges, index => do
      if index ≠ 0 then
        if ← takeCancel then
          Call.tell (.sendCanceled index count)
          Call.fail .canceled
      sendFrame ⟨.slice range.length.toUInt32 range.offset.toUInt32, range.of payload⟩
      sendSlices payload count ranges (index + 1)

def sendSliced (typeId : Int32) (payload : List UInt8) : Call (StreamSession μ) Unit := do
  let length := payload.length.toUInt32
  sendFrame ⟨.sliceHeader length typeId, []⟩
  Call.tell (.sent (.sliceHeader length typeId))
  let plan := SlicePlan.ofSizes payload.length (← Call.session).config.sliceSize
  sendSlices payload plan.remaining plan.ranges 0
  Call.tell (.sentSlices length typeId plan.remaining)
  dropLateCancel typeId

def sendWhole (typeId : Int32) (payload : List UInt8) : Call (StreamSession μ) Unit := do
  let h := Header.complete payload.length.toUInt32 typeId
  sendFrame ⟨h, payload⟩
  Call.tell (.sent h)
  dropLateCancel typeId

def sendCancel (typeId : Int32) : Call (StreamSession μ) Unit := do
  match ← Call.errorOf? (sendFrame ⟨.cancel typeId, []⟩) with
  | none => Call.tell (.sentCancel typeId)
  | some error => Call.tell (.cancelFailed typeId error)

variable [Message μ]

def bodyToSend (m : μ) (flags : Flags) : Call (StreamSession μ) (List UInt8) := do
  let payload ← Call.ofHalting (Worker.encode flags.inWorker m)
  let limit := (← Call.session).config.maxPayload.toNat
  Call.failIf payload.isEmpty .noData
  Call.failIf (payload.length > limit) (.tooLarge payload.length limit)
  return payload

def sendMessage (m : μ) (flags : Flags) : Call (StreamSession μ) Unit := do
  let payload ← bodyToSend m flags
  Call.failIf (← takeCancel) .canceled
  if flags.versioned then sendVersion
  let typeId := Message.typeId m
  if flags.sliced then
    (sendSliced typeId payload).onFailure fun error => do
      if error.isCanceled then sendCancel typeId
  else sendWhole typeId payload

def send (m : μ) (flags : Flags) : Call (StreamSession μ) Unit :=
  (sendMessage m flags).onFailure fun error => Call.tell (.sendFailed (Message.name m) error)

end MessageChannel.StreamSession
