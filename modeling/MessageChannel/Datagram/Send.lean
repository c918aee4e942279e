import MessageChannel.Datagram.Session
import MessageChannel.Flags
import MessageChannel.Frame
import MessageChannel.Worker

namespace MessageChannel.DatagramSession

variable {μ : Type}

def sendFrame (f : Frame) (target : Endpoint) : Call (DatagramSession μ) Unit := do
  let p ← connected
  let s ← Call.scene
  let bytes := f.encode
  let (outcome, p, now) := p.send s.session.config.retryBackoff target bytes s.now
  Call.settle { s.session with socket := some p } now
  let sent ← Call.ofExcept outcome
  Call.failIf (sent ≠ bytes.length) (.io (.reported .writeZero
    s!"datagram truncated: sent {sent} of {bytes.length} bytes"))

def sendVersion (target : Endpoint) : Call (DatagramSession μ) Unit := do
  let table := (← Call.session).registry.table
  let payload := table.encode
  sendFrame ⟨.versionVerification payload.length.toUInt32 tableTypeId, payload⟩ target
  Call.tell (.sentTableTo table.version target)

def send [Message μ] (m : μ) (target : Endpoint) (flags : Flags) : Call (DatagramSession μ) Unit := do
  Call.failIf flags.sliced (.unsupported .slicedDatagram)
  let payload ← Call.ofHalting (Worker.encode flags.inWorker m)
  Call.failIf payload.isEmpty .noData
  Call.failIf (payload.length > maxDatagramPayload) (.tooLarge payload.length maxDatagramPayload)
  if flags.versioned then sendVersion target
  let h := Header.complete payload.length.toUInt32 (Message.typeId m)
  sendFrame ⟨h, payload⟩ target
  Call.tell (.sentTo h target)

end MessageChannel.DatagramSession
