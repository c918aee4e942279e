import MessageChannel.Message.Any
import MessageChannel.Proofs.SendWire

namespace MessageChannel.StreamSession

variable {μ : Type} [Message μ]

/-- The frames that a payload is meant to be sent as. -/
def sendFrames (s : StreamSession μ) (m : μ) (flags : Flags) (payload : List UInt8) : List Frame :=
  tableFrames s.registry flags.versioned ++
    bodyFrames s.config.sliceSize flags.sliced (Message.typeId m) payload

theorem encode_announcement (typeId : Int32) (payload : List UInt8) :
    (announcement typeId payload).encode =
      bigEndian 4 payload.length ++ bigEndian 4 typeId.toUInt32.toNat ++ [0, 2] :=
  (Frame.encode_ofKind .sliceHeader _ _ _).trans (List.append_nil _)

/-- The offset of a slice goes where others have a type id. -/
theorem encode_sliceFrame (payload : List UInt8) (range : SliceRange) :
    (sliceFrame payload range).encode =
      bigEndian 4 range.length ++ bigEndian 4 range.offset ++ [0, 1] ++ range.of payload := by
  have hencode := Frame.encode_ofKind .slice range.length range.offset.toUInt32.toInt32
    (range.of payload)
  rw [UInt32.toUInt32_toInt32, bigEndian_toUInt32] at hencode
  exact hencode

theorem encode_cancelFrame (typeId : Int32) :
    (cancelFrame typeId).encode = [0, 0, 0, 0] ++ bigEndian 4 typeId.toUInt32.toNat ++ [0, 3] :=
  (Frame.encode_ofKind .cancel 0 typeId []).trans (List.append_nil _)

/-- The bytes that a payload is meant to be sent as: the sender's table under its reserved id if it
goes before the message, and the message as one frame, or as an announcement and its slices. -/
theorem wire_sendFrames (s : StreamSession μ) (m : μ) (flags : Flags)
    (payload : List UInt8) :
    let typeId := bigEndian 4 (Message.typeId m).toUInt32.toNat
    let table := s.registry.table.encode
    wire (sendFrames s m flags payload) =
      (if flags.versioned then bigEndian 4 table.length ++ [0, 0, 0, 2] ++ [0, 4] ++ table
        else []) ++
      if flags.sliced then
        bigEndian 4 payload.length ++ typeId ++ [0, 2] ++
          (SlicePlan.ofSizes payload.length s.config.sliceSize).ranges.flatMap fun range =>
            bigEndian 4 range.length ++ bigEndian 4 range.offset ++ [0, 1] ++ range.of payload
      else bigEndian 4 payload.length ++ typeId ++ [0, 0] ++ payload := by
  intro typeId table
  rw [sendFrames, wire_append]
  congr 1
  · cases flags.versioned with
    | false => rfl
    | true => exact (List.append_nil _).trans (Frame.encode_ofKind .versionVerification _ _ _)
  · cases flags.sliced with
    | false => exact (List.append_nil _).trans (Frame.encode_ofKind .complete _ _ _)
    | true =>
        rw [bodyFrames, if_pos rfl, if_pos rfl, wire_cons, encode_announcement, sliceFrames, wire,
          List.flatMap_map]
        simp only [encode_sliceFrame]
        rfl

/-- The number of frames before the first slice. -/
def leadSize (flags : Flags) : Nat := if flags.versioned then 2 else 1

/-- The sender is asked to stop by the time that it has written so many bytes more. -/
def AsksWithin (s : StreamSession μ) (count : Nat) : Prop :=
  ∃ transport, s.transport = some transport ∧
    Asks (s.written.length + count) transport.outbound.script

omit [Message μ] in
theorem length_tableFrames_succ (registry : Registry μ) (flags : Flags) :
    (tableFrames registry flags.versioned).length + 1 = leadSize flags := by
  cases hversioned : flags.versioned <;> simp [tableFrames, leadSize, hversioned]

theorem take_sendFrames {s : StreamSession μ} {flags : Flags} (hsliced : flags.sliced = true)
    (m : μ) (payload : List UInt8) (k : Nat) :
    (sendFrames s m flags payload).take (leadSize flags + k) =
      tableFrames s.registry flags.versioned ++ (announcement (Message.typeId m) payload ::
        (sliceFrames s.config.sliceSize payload).take k) := by
  rw [← length_tableFrames_succ s.registry, sendFrames, Nat.add_assoc, List.take_length_add_append,
    bodyFrames, if_pos hsliced, Nat.add_comm 1 k, List.take_succ_cons]

theorem length_sendFrames {s : StreamSession μ} {flags : Flags} (hsliced : flags.sliced = true)
    (m : μ) (payload : List UInt8) : (sendFrames s m flags payload).length =
      leadSize flags + (sliceFrames s.config.sliceSize payload).length := by
  rw [sendFrames, List.length_append, bodyFrames, if_pos hsliced, List.length_cons,
    ← length_tableFrames_succ s.registry]
  omega

omit [Message μ] in
/-- A request that comes before the first frame is begun comes before the second, too. -/
theorem AsksWithin.askedBy {s : StreamSession μ} {f : Frame} {frames : List Frame} {j : Nat}
    (h : s.AsksWithin (wire ((f :: frames).take j)).length) :
    s.AskedBy (f :: frames) (max j 1) := by
  obtain ⟨transport, htransport, hasks⟩ := h
  have hmono : (wire ((f :: frames).take j)).length ≤
      (wire ((f :: frames).take (max j 1))).length := by
    have htake : (f :: frames).take j = ((f :: frames).take (max j 1)).take j := by
      rw [List.take_take]
      congr 1
      omega
    rw [htake]
    exact length_wire_take_le _ _
  refine ⟨_, .inr ⟨transport, htransport, hasks.mono (Nat.add_le_add_left hmono _), ?_⟩,
    Nat.le_refl _⟩
  have hsize : transport.outbound.written.size = s.written.length := by
    simp [written, htransport]
  obtain ⟨i, hi⟩ : ∃ i, max j 1 = i + 1 := ⟨max j 1 - 1, by omega⟩
  rw [hsize, hi, List.take_succ_cons, wire_cons, List.length_append, Frame.length_encode]
  simp only [headerSize]
  omega

/-- The bytes that a call to send may have written when it comes to this end. -/
def SendLanguage (s : StreamSession μ) (m : μ) (flags : Flags) (log : Array Event)
    (bytes : List UInt8) : Except Halt Unit → Prop
  | .ok () => ∃ payload, Message.encode m = .ok payload ∧
      bytes = wire (sendFrames s m flags payload)
  | .error (.failed .canceled) => bytes = [] ∨ ∃ payload k tail,
      Message.encode m = .ok payload ∧ flags.sliced = true ∧ 1 ≤ k ∧
      k < (sliceFrames s.config.sliceSize payload).length ∧
      bytes = wire ((sendFrames s m flags payload).take (leadSize flags + k)) ++ tail ∧
      tail <+: (cancelFrame (Message.typeId m)).encode ∧
      (tail = (cancelFrame (Message.typeId m)).encode ∨
        ∃ error, .cancelFailed (Message.typeId m) error ∈ log)
  | .error _ => bytes = [] ∨ ∃ payload, Message.encode m = .ok payload ∧
      bytes <+: wire (sendFrames s m flags payload)

theorem Sent.language {s : StreamSession μ} {m : μ} {flags : Flags} {payload : List UInt8}
    {log : Array Event} {ended : Except Halt Unit} {bytes : List UInt8}
    (h : Sent s m flags payload (tableFrames s.registry flags.versioned) log ended bytes)
    (hencode : Message.encode m = .ok payload) : SendLanguage s m flags log bytes ended := by
  cases h with
  | whole hasked => exact ⟨payload, hencode, rfl⟩
  | @broken error front hrough herror hfront =>
      cases error with
      | canceled => exact absurd rfl herror
      | _ => exact .inr ⟨payload, hencode, hfront⟩
  | stopped hsliced hpos hk hasked htail hwhole hsmooth =>
      refine .inr ⟨payload, _, _, hencode, hsliced, hpos, hk, ?_, htail, hwhole⟩
      rw [take_sendFrames hsliced]

/-- What a request to stop does that comes before the last slice is begun. -/
theorem Sent.asks {s : StreamSession μ} {m : μ} {flags : Flags} {payload : List UInt8}
    {log : Array Event} {ended : Except Halt Unit} {bytes : List UInt8}
    (h : Sent s m flags payload (tableFrames s.registry flags.versioned) log ended bytes)
    (hsliced : flags.sliced = true) (htwo : 2 ≤ (sliceFrames s.config.sliceSize payload).length)
    {j : Nat} (hj : j < (sendFrames s m flags payload).length)
    (hasks : s.AsksWithin (wire ((sendFrames s m flags payload).take j)).length) :
    ended ≠ .ok () ∧ (s.Smooth → ended = .error (.failed .canceled)) ∧
      (ended = .error (.failed .canceled) → ∃ k tail,
        leadSize flags + k ≤ max j (leadSize flags + 1) ∧
        bytes = wire ((sendFrames s m flags payload).take (leadSize flags + k)) ++ tail ∧
        tail <+: (cancelFrame (Message.typeId m)).encode) := by
  obtain ⟨f, frames, hframes⟩ := List.exists_cons_of_length_pos (Nat.zero_lt_of_lt hj)
  have hasked := hframes ▸ AsksWithin.askedBy (hframes ▸ hasks)
  have hlength := length_sendFrames (s := s) hsliced m payload
  have hlead : 1 ≤ leadSize flags := by
    cases hversioned : flags.versioned <;> simp [leadSize, hversioned]
  cases h with
  | whole hunasked =>
      have hfew := hunasked hsliced _ (by rw [← sendFrames]; omega) hasked
      omega
  | broken hrough herror hfront =>
      exact ⟨nofun, fun hs => absurd hs hrough, fun hended =>
        absurd (Halt.failed.inj (Except.error.inj hended)) herror⟩
  | @stopped k tail hsliced hpos hk hbound htail hwhole hsmooth =>
      refine ⟨nofun, fun _ => rfl, fun _ => ⟨k, tail, ?_, ?_, htail⟩⟩
      · have hk := hbound _ hasked
        rw [length_tableFrames_succ] at hk
        have hsucc := length_tableFrames_succ s.registry flags
        omega
      · rw [take_sendFrames hsliced]

/-- The language of the bytes that one call to send writes, whatever its transport does and
whenever it is asked to stop. A request that comes before the last slice is begun ends the call, and
no slice is begun after it but the first. -/
theorem send_wire {m : μ} {flags : Flags} {s t : Scene (StreamSession μ)} {ended : Except Halt Unit}
    (hrun : (send m flags).run s = (ended, t)) :
    ∃ bytes, t.session.written = s.session.written ++ bytes ∧
      SendLanguage s.session m flags t.log bytes ended ∧
      ∀ payload, Sendable s.session.config.maxPayload m payload →
        (s.session.cancelRequested = true → ended = .error (.failed .canceled) ∧ bytes = []) ∧
        (s.session.cancelRequested = false → flags.sliced = true →
          2 ≤ (sliceFrames s.session.config.sliceSize payload).length →
          ∀ j < (sendFrames s.session m flags payload).length,
            s.session.AsksWithin (wire ((sendFrames s.session m flags payload).take j)).length →
            ended ≠ .ok () ∧ (s.session.Smooth → ended = .error (.failed .canceled)) ∧
            (ended = .error (.failed .canceled) → ∃ k tail,
              leadSize flags + k ≤ max j (leadSize flags + 1) ∧
              bytes = wire ((sendFrames s.session m flags payload).take (leadSize flags + k)) ++
                tail ∧
              tail <+: (cancelFrame (Message.typeId m)).encode)) := by
  obtain ⟨bytes, hwritten, -, houtcome⟩ := send_outcome hrun
  refine ⟨bytes, hwritten, ?_, fun payload hpayload => ⟨fun hrequested => ?_, ?_⟩⟩
  · cases houtcome with
    | @unfit halt hunfit =>
        cases halt with
        | failed error => cases error <;> exact .inl rfl
        | stalled | crashed => exact .inl rfl
    | requested hrequested => exact .inl rfl
    | closed hclosed hquiet => exact .inl rfl
    | sent hconnected hpayload hquiet hsent => exact hsent.language hpayload.encode
  · cases houtcome with
    | unfit hunfit => exact absurd hpayload (hunfit _)
    | requested hrequested => exact ⟨rfl, rfl⟩
    | closed hclosed hquiet | sent hconnected hpayload hquiet hsent => simp [hquiet] at hrequested
  · intro hquiet hsliced htwo j hj hasks
    cases houtcome with
    | unfit hunfit => exact absurd hpayload (hunfit _)
    | requested hrequested => simp [hquiet] at hrequested
    | closed hclosed hquiet =>
        obtain ⟨transport, htransport, -⟩ := hasks
        simp [hclosed] at htransport
    | sent hconnected hpayload' hquiet hsent =>
        obtain rfl := Except.ok.inj (hpayload.encode.symm.trans hpayload'.encode)
        exact hsent.asks hsliced htwo hj hasks

/-- Slices of two bytes on a transport that takes seven at a time and blocks once, with a request
to stop in the midst of the first slice. -/
def sendingSlices : Scene (StreamSession AnyMessage) where
  session := .new (.ofVersion 1) { sliceSize := 12 } { outbound :=
    { script := [⟨3, .fault (.system 11)⟩, ⟨15, .cancel⟩], limit := some 7 } }

theorem send_wire_sendingSlices :
    let flags : Flags := { sliced := true }
    let m : AnyMessage := .raw (.ofBytes rawTypeId none [1, 2, 3, 4, 5])
    ((send m flags).run sendingSlices).1 = .error (.failed .canceled) ∧
      ∃ k tail, 1 + k ≤ 2 ∧ ((send m flags).run sendingSlices).2.session.written =
        wire ((sendFrames sendingSlices.session m flags [1, 2, 3, 4, 5]).take (1 + k)) ++ tail := by
  intro flags m
  have hrun : (send m flags).run sendingSlices =
    (((send m flags).run sendingSlices).1, ((send m flags).run sendingSlices).2) := rfl
  obtain ⟨bytes, hwritten, -, hrequests⟩ := send_wire hrun
  have hpayload : Sendable sendingSlices.session.config.maxPayload m [1, 2, 3, 4, 5] :=
    ⟨rfl, by decide, by decide⟩
  have hasks : sendingSlices.session.AsksWithin
      (wire ((sendFrames sendingSlices.session m flags [1, 2, 3, 4, 5]).take 2)).length :=
    ⟨_, rfl, [⟨3, .fault (.system 11)⟩], ⟨15, .cancel⟩, [], rfl, rfl, by decide +kernel,
      by decide +kernel⟩
  have hsmooth : sendingSlices.session.Smooth := by
    refine ⟨_, rfl, ?_, by decide, rfl⟩
    intro e he
    rcases List.mem_cons.1 he with rfl | he
    · exact nofun
    · obtain rfl := List.mem_singleton.1 he
      trivial
  obtain ⟨-, hcanceled, hstopped⟩ := (hrequests _ hpayload).2 rfl rfl (by decide +kernel) 2
    (by decide +kernel) hasks
  obtain ⟨k, tail, hk, hbytes, -⟩ := hstopped (hcanceled hsmooth)
  exact ⟨hcanceled hsmooth, k, tail, hk, hwritten.trans hbytes⟩

end MessageChannel.StreamSession
