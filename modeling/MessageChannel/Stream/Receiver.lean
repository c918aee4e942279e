import MessageChannel.Config
import MessageChannel.Flags
import MessageChannel.Registry
import MessageChannel.Slice.Assembly
import MessageChannel.Worker

namespace MessageChannel

structure Receiver (μ : Type) where
  header : Header := {}
  assembly : Assembly
  message : Option μ := none
  peerTable : PeerTable := .empty

/-- What comes after a header or a body. -/
inductive Demand where
  | frame
  /-- The body of the frame goes to a range of the payload. -/
  | body (range : SliceRange)
  | delivery (typeId : Int32) (sliced : Bool)
deriving DecidableEq, Repr

namespace Receiver

variable {μ : Type}

def ofConfig (c : Config) : Receiver μ := { assembly := { limit := c.maxPayload } }

def reset (r : Receiver μ) : Receiver μ := { r with assembly := r.assembly.clear, message := none }

def assemble (act : Assembly → Except ChannelError Unit × Assembly) : Call (Receiver μ) Unit := do
  let r ← Call.session
  let (ended, assembly) := act r.assembly
  Call.update ({ · with assembly })
  Call.ofExcept ended

def resolve (registry : Registry μ) (typeId : Int32) : Call (Receiver μ) Unit :=
  Call.update fun r => { r with message := registry.resolve? typeId r.peerTable }

def onHeader (registry : Registry μ) (h : Header) : Call (Receiver μ) Demand := do
  Call.update ({ · with header := h })
  Call.tell (.received h)
  match ← Call.ofExcept h.kind with
  | .cancel =>
      Call.tell (.peerCanceled h.data)
      Call.update reset
      Call.fail .canceled
  | .versionVerification =>
      Call.failIf (h.data ≠ tableTypeId) (.unsupportedVersion (.legacy h.data h.length))
      assemble (·.prepare h)
      return .body ⟨0, h.length.toNat⟩
  | .complete =>
      assemble (·.prepare h)
      return .body ⟨0, h.length.toNat⟩
  | .sliceHeader =>
      assemble (·.start h)
      resolve registry h.data
      let r ← Call.session
      Call.tellIf r.message.isNone (.unresolvedSlices h.data h.length)
      return if r.assembly.isComplete then .delivery h.data true else .frame
  | .slice =>
      let r ← Call.session
      return .body (← Call.ofExcept (r.assembly.slot h))

/-- Puts the bytes of a body where they belong, all of them or the part that came. -/
def fill (range : SliceRange) (bytes : List UInt8) (r : Receiver μ) : Receiver μ :=
  { r with assembly := r.assembly.fill range.offset bytes }

def absorbTable (version : UInt32) : Call (Receiver μ) Unit := do
  let r ← Call.session
  let table ← Call.ofExcept (PeerTable.decode r.assembly.payload.toList)
  Call.update fun r => { r with assembly := r.assembly.finish }
  Call.tellIf (table.version ≠ version) (.versionMismatch version table.version)
  Call.tell (.receivedTable table.size)
  Call.update ({ · with peerTable := table })

def onBody (registry : Registry μ) (h : Header) : Call (Receiver μ) Demand := do
  match ← Call.ofExcept h.kind with
  | .versionVerification =>
      absorbTable registry.version
      return .frame
  | .slice =>
      Call.update fun r => { r with assembly := r.assembly.commit h.length.toNat }
      let r ← Call.session
      return if r.assembly.isComplete then .delivery (r.assembly.typeId?.getD 0) true else .frame
  | _ =>
      resolve registry h.data
      return .delivery h.data false

/-- Takes a payload back for its memory. -/
def recycle : Call (Receiver μ) Unit :=
  Call.update fun r => { r with assembly := r.assembly.recycle }

def deliver [Message μ] (flags : Flags) (typeId : Int32) (sliced : Bool) : Call (Receiver μ) μ := do
  let r ← Call.session
  let (payload, assembly) := r.assembly.take
  Call.update ({ · with assembly, message := none })
  match r.message with
  | some m =>
      let (ended, handedBack) := Worker.read flags.inWorker m payload
      if handedBack.isSome then recycle
      Call.ofHalting ended
  | none =>
      if flags.keepUnknown then
        return Message.ofRaw (.ofBytes typeId (r.peerTable.nameOf? typeId) payload)
      else
        recycle
        Call.tell (.unresolved typeId)
        Call.fail (if sliced then .unregistered typeId else .unrecognized typeId)

/-- The payload has been taken out, so what is handed back changes nothing that can be seen. -/
theorem deliver_eq [Message μ] (flags : Flags) (typeId : Int32) (sliced : Bool) :
    deliver flags typeId sliced = (do
      let r : Receiver μ ← Call.session
      Call.update ({ · with assembly := r.assembly.take.2, message := none })
      match r.message with
      | some m => Call.ofHalting (Worker.decode flags.inWorker m r.assembly.take.1)
      | none =>
          if flags.keepUnknown then
            return Message.ofRaw (.ofBytes typeId (r.peerTable.nameOf? typeId) r.assembly.take.1)
          else
            Call.tell (.unresolved typeId)
            Call.fail (if sliced then .unregistered typeId else .unrecognized typeId)) := by
  apply Call.ext_run
  intro s
  simp only [deliver, Call.run_bind, Call.session, Call.update]
  cases s.session.message with
  | none => cases flags.keepUnknown <;> rfl
  | some m =>
      simp only [Worker.decode]
      cases (Worker.read flags.inWorker m s.session.assembly.take.1).2 <;> rfl

end Receiver

end MessageChannel
