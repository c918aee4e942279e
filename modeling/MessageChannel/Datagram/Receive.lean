import MessageChannel.Datagram.Session
import MessageChannel.Flags
import MessageChannel.Worker

namespace MessageChannel.DatagramSession

variable {μ : Type}

/-- Waits for a datagram, which is in the buffer then: who sent it, and how many bytes it has. -/
def pickUp : Call (DatagramSession μ) (Endpoint × Nat) := do
  let p ← connected
  let s ← Call.scene
  let config := s.session.config
  let deadline := config.recvTimeout.map (s.now + ·)
  let (outcome, p, now) := p.receive config.datagramBuffer config.retryBackoff deadline s.now
  let buffer := outcome.fill s.session.resizedBuffer
  Call.settle { s.session with socket := some p, buffer } now
  match outcome with
  | .datagram sender bytes =>
      if bytes.length < headerSize then Call.fail (.invalidHeader (.shortDatagram bytes.length))
      else return (sender, bytes.length)
  | .failed error => Call.fail error
  | .expired => Call.fail .timeout
  | .stalled => Call.halt .stalled

def absorbTable (h : Header) (payload : List UInt8) : Call (DatagramSession μ) Unit := do
  Call.failIf (h.data ≠ tableTypeId) (.unsupportedVersion (.legacy h.data h.length))
  let table ← Call.ofExcept (PeerTable.decode payload)
  let version := (← Call.session).registry.version
  Call.tellIf (table.version ≠ version) (.versionMismatch version table.version)
  Call.update ({ · with peerTable := table })

/-- Reads a body straight from the buffer, which stays where it is. -/
def readInPlace [Message μ] (m : μ) (payload : List UInt8) : Except Halt μ :=
  match Message.decode m payload with
  | .ok read => .ok read
  | .error (.refused (.invalidData fault)) => .error (.failed (.invalidData fault))
  | .error (.refused error) => .error (.failed (.invalidData (.note error.message)))
  | .error .crashed => .error .crashed

theorem readInPlace_eq [Message μ] (m : μ) (payload : List UInt8) :
    readInPlace m payload = Worker.decode false m payload := by
  rw [readInPlace, Worker.decode_eq]
  cases Message.decode m payload with
  | ok read => rfl
  | error failure =>
      cases failure with
      | crashed => rfl
      | refused error => cases error <;> rfl

theorem decode_eq_ite [Message μ] (inWorker : Bool) (m : μ) (payload : List UInt8) :
    Worker.decode inWorker m payload =
      if inWorker then (Worker.read true m payload).1 else readInPlace m payload := by
  cases inWorker with
  | false => exact (readInPlace_eq m payload).symm
  | true => rfl

def deliver [Message μ] (flags : Flags) (typeId : Int32) (payload : List UInt8) :
    Call (DatagramSession μ) μ := do
  let s ← Call.session
  match s.registry.resolve? typeId s.peerTable with
  | some m =>
      Call.ofHalting
        (if flags.inWorker then (Worker.read true m payload).1 else readInPlace m payload)
  | none =>
      if flags.keepUnknown then
        return Message.ofRaw (.ofBytes typeId (s.peerTable.nameOf? typeId) payload)
      else
        Call.tell (.unresolved typeId)
        Call.fail (.unrecognized typeId)

/-- Takes in what one datagram holds: the message, if it holds one. -/
def onDatagram [Message μ] (flags : Flags) (sender : Endpoint) (bytes : List UInt8) :
    Call (DatagramSession μ) (Option μ) := do
  let h ← Call.ofExcept (Header.parse bytes)
  Call.update ({ · with header := h })
  Call.tell (.receivedFrom h sender)
  let payload := bytes.drop headerSize
  let limit := (← Call.session).config.maxPayload.toNat
  Call.failIf (h.length.toNat ≠ payload.length)
    (.invalidHeader (.lengthMismatch h.length.toNat payload.length))
  Call.failIf (h.length.toNat > limit) (.tooLarge h.length.toNat limit)
  match ← Call.ofExcept h.kind with
  | .versionVerification =>
      absorbTable h payload
      return none
  | .complete => some <$> deliver flags h.data payload
  | kind => Call.fail (.invalidHeader (.notInDatagrams kind))

/-- Receives one datagram: the message, if it holds one, and who sent it. -/
def receiveDatagram [Message μ] (flags : Flags) :
    Call (DatagramSession μ) (Option (μ × Endpoint)) := do
  let (sender, length) ← pickUp
  let m ← onDatagram flags sender ((← Call.session).buffer.take length)
  return m.map (·, sender)

def queued (s : DatagramSession μ) : Nat := (s.socket.map fun p => p.arrivals.length).getD 0

theorem queued_pickUp {s t : Scene (DatagramSession μ)} {got : Endpoint × Nat}
    (h : pickUp.run s = (.ok got, t)) : t.session.queued < s.session.queued := by
  cases hsocket : s.session.socket with
  | none =>
      simp [pickUp, connected, Call.run_bind, Call.session, hsocket, Call.fail, Call.halt] at h
  | some p =>
      simp only [pickUp, connected, Call.run_bind, Call.session, hsocket, Call.scene, Call.settle,
        Call.run_pure] at h
      split at h
      · next sender bytes hgot =>
        have hlt := DatagramSocket.length_arrivals_pickUp hgot
        split at h
        · simp [Call.fail, Call.halt] at h
        · simp only [Call.run_pure, Prod.mk.injEq] at h
          rw [← h.2]
          simpa [queued, hsocket, DatagramSocket.receive] using hlt
      all_goals simp [Call.fail, Call.halt] at h

theorem shrinks_absorbTable (h : Header) (payload : List UInt8) :
    Call.Shrinks queued (absorbTable (μ := μ) h payload) :=
  .bind (.failIf _ _) fun _ => .bind (.ofExcept _) fun _ => .bind .session fun _ =>
    .bind (.tellIf _ _) fun _ => .update fun _ => Nat.le_refl _

variable [Message μ]

theorem shrinks_deliver (flags : Flags) (typeId : Int32) (payload : List UInt8) :
    Call.Shrinks queued (deliver (μ := μ) flags typeId payload) := by
  refine .bind .session fun s => ?_
  split
  · exact .ofHalting _
  · split
    · exact .pure _
    · exact .bind (.tell _) fun _ => .fail _

theorem shrinks_onDatagram (flags : Flags) (sender : Endpoint) (bytes : List UInt8) :
    Call.Shrinks queued (onDatagram (μ := μ) flags sender bytes) := by
  refine .bind (.ofExcept _) fun h => .bind (.update fun _ => Nat.le_refl _) fun _ =>
    .bind (.tell _) fun _ => .bind .session fun _ => .bind (.failIf _ _) fun _ =>
    .bind (.failIf _ _) fun _ => .bind (.ofExcept _) fun kind => ?_
  split
  · exact .bind (shrinks_absorbTable _ _) fun _ => .pure _
  · exact .map (shrinks_deliver _ _ _)
  · exact .fail _

theorem queued_receiveDatagram {flags : Flags} {s t : Scene (DatagramSession μ)}
    {got : Option (μ × Endpoint)} (h : (receiveDatagram flags).run s = (.ok got, t)) :
    t.session.queued < s.session.queued := by
  obtain ⟨⟨sender, length⟩, u, hpick, h⟩ := Call.run_bind_eq_ok.1 h
  have hlt := queued_pickUp hpick
  have hrest : Call.Shrinks queued (do
      let m ← onDatagram (μ := μ) flags sender ((← Call.session).buffer.take length)
      return m.map (·, sender)) :=
    .bind .session fun _ => .bind (shrinks_onDatagram _ _ _) fun _ => .pure _
  have := hrest u
  simp only at h
  rw [h] at this
  exact Nat.lt_of_le_of_lt this hlt

def receiveMessage (flags : Flags) (s : Scene (DatagramSession μ)) :
    Except Halt (μ × Endpoint) × Scene (DatagramSession μ) :=
  match _h : (receiveDatagram flags).run s with
  | (.ok none, t) => receiveMessage flags t
  | (.ok (some m), t) => (.ok m, t)
  | (.error halt, t) => (.error halt, t)
termination_by s.session.queued
decreasing_by exact queued_receiveDatagram (by assumption)

def receive (flags : Flags) : Call (DatagramSession μ) (μ × Endpoint) := do
  Call.tellIf flags.sliced (.flagIgnored "SLICE_DATA")
  Call.tellIf flags.versioned (.flagIgnored "VERSION_VERIFICATION")
  Call.mk (receiveMessage flags)

end MessageChannel.DatagramSession
