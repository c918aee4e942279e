import MessageChannel.Message.Any
import MessageChannel.Proofs.Posting
import MessageChannel.Proofs.Reassembly
import MessageChannel.Proofs.WireLanguage
import MessageChannel.Stream.Receive

namespace MessageChannel

variable {μ : Type}

theorem mem_tableFrames_iff {registry : Registry μ} {versioned : Bool} {f : Frame} :
    f ∈ tableFrames registry versioned ↔ versioned = true ∧ f = tableFrame registry := by
  cases versioned <;> simp [tableFrames]

theorem tableFrame_fits {registry : Registry μ} {limit : UInt32}
    (h : registry.table.encode.length ≤ limit.toNat) :
    (tableFrame registry).header.length ≤ limit := length_le_of_le h

/-- A whole frame that declares no more bytes than this. -/
structure Frame.Fits (limit : UInt32) (f : Frame) : Prop where
  whole : f.payload.length = payloadSize f.header
  length : f.header.length ≤ limit

theorem Frame.Carries.fits {limit : UInt32} {f : Frame} (hf : f.Carries .slice)
    (hlength : f.header.length ≤ limit) : f.Fits limit := by
  have hkind := hf.kind
  refine ⟨?_, hlength⟩
  rw [Header.kind] at hkind
  cases hcode : FrameKind.ofCode? f.header.code with
  | none => simp [hcode] at hkind
  | some kind =>
      obtain rfl : kind = .slice := by simpa [hcode] using hkind
      simp only [Frame.payloadSize, hcode, hf.length]

section

variable {payload : List UInt8} {limit : UInt32}

theorem sliceFrames_fit (hfits : payload.length ≤ limit.toNat) (sliceSize : Nat) {f : Frame}
    (hf : f ∈ sliceFrames sliceSize payload) : f.Fits limit := by
  have hslices := slices_sliceFrames sliceSize (Nat.lt_of_le_of_lt hfits limit.toNat_lt)
  obtain ⟨hcarries, hwithin⟩ := hslices.within f hf
  refine hcarries.fits ?_
  rw [UInt32.le_iff_toNat_le]
  omega

theorem announcement_fits (hfits : payload.length ≤ limit.toNat) (typeId : Int32) :
    (announcement typeId payload).Fits limit := ⟨rfl, length_le_of_le hfits⟩

theorem cancelFrame_fits (limit : UInt32) (typeId : Int32) :
    (StreamSession.cancelFrame typeId).Fits limit := ⟨rfl, UInt32.zero_le⟩

/-- Whatever way a payload is sent that fits, its frames do. -/
theorem bodyFrames_fit (hfits : payload.length ≤ limit.toNat) (sliceSize : Nat) (sliced : Bool)
    (typeId : Int32) {f : Frame} (hf : f ∈ bodyFrames sliceSize sliced typeId payload) :
    f.Fits limit := by
  cases sliced with
  | false =>
      obtain rfl := List.mem_singleton.1 hf
      exact ⟨(toNat_length_of_le hfits).symm, length_le_of_le hfits⟩
  | true =>
      rcases List.mem_cons.1 hf with rfl | hf
      · exact announcement_fits hfits typeId
      · exact sliceFrames_fit hfits sliceSize hf

end

namespace StreamSession

/-- The frame is no larger than the settings of the session have it, or it is the table that the
message goes behind. -/
def Limited (s : StreamSession μ) (flags : Flags) (f : Frame) : Prop :=
  f.Fits s.config.maxPayload ∨ flags.versioned = true ∧ f = tableFrame s.registry

variable [Message μ] {m : μ} {flags : Flags} {payload : List UInt8}

theorem limited_sendFrames {s : StreamSession μ}
    (hfits : payload.length ≤ s.config.maxPayload.toNat) {f : Frame}
    (hf : f ∈ sendFrames s m flags payload) : s.Limited flags f := by
  rcases List.mem_append.1 hf with hf | hf
  · exact .inr (mem_tableFrames_iff.1 hf)
  · exact .inl (bodyFrames_fit hfits _ _ _ hf)

theorem Sent.limited {s : StreamSession μ} {log : Array Event} {ended : Except Halt Unit}
    {bytes : List UInt8}
    (h : Sent s m flags payload (tableFrames s.registry flags.versioned) log ended bytes)
    (hfits : payload.length ≤ s.config.maxPayload.toNat) :
    ∃ fs, bytes <+: wire fs ∧ ∀ f ∈ fs, s.Limited flags f := by
  cases h with
  | whole hasked =>
      exact ⟨sendFrames s m flags payload, List.prefix_rfl, fun f => limited_sendFrames hfits⟩
  | broken hrough herror hfront =>
      exact ⟨sendFrames s m flags payload, hfront, fun f => limited_sendFrames hfits⟩
  | @stopped k tail hsliced hpos hk hasked htail hwhole hsmooth =>
      rw [← take_sendFrames hsliced]
      refine ⟨(sendFrames s m flags payload).take (leadSize flags + k) ++
        [cancelFrame (Message.typeId m)], ?_, fun f hf => ?_⟩
      · rw [wire_append, wire_cons, wire_nil, List.append_nil]
        exact (List.prefix_append_right_inj _).2 htail
      · rcases List.mem_append.1 hf with hf | hf
        · exact limited_sendFrames hfits (List.mem_of_mem_take hf)
        · obtain rfl := List.mem_singleton.1 hf
          exact .inl (cancelFrame_fits _ _)

theorem send_limited {s t : Scene (StreamSession μ)} {ended : Except Halt Unit}
    (hrun : (send m flags).run s = (ended, t)) :
    ∃ fs bytes, t.session.written = s.session.written ++ bytes ∧ bytes <+: wire fs ∧
      ∀ f ∈ fs, s.session.Limited flags f := by
  obtain ⟨bytes, hwritten, -, houtcome⟩ := send_outcome hrun
  cases houtcome with
  | unfit | requested | closed => exact ⟨[], [], hwritten, List.nil_prefix, by simp⟩
  | sent hconnected hpayload hquiet hsent =>
      obtain ⟨fs, hbytes, hlimited⟩ := hsent.limited hpayload.fits
      exact ⟨fs, bytes, hwritten, hbytes, hlimited⟩

/-- A message that is too large is refused before anything else is done. -/
theorem send_tooLarge {s t : Scene (StreamSession μ)} {ended : Except Halt Unit}
    (hrun : (send m flags).run s = (ended, t)) (hencode : Message.encode m = .ok payload)
    (hlong : s.session.config.maxPayload.toNat < payload.length) :
    ended = .error (.failed (.tooLarge payload.length s.session.config.maxPayload.toNat)) ∧
      t.session = s.session := by
  have hunfit : Unfit s.session.config.maxPayload m flags
      (.failed (.tooLarge payload.length s.session.config.maxPayload.toNat)) :=
    .tooLarge hencode hlong
  obtain ⟨log, hsend, -⟩ := run_send m flags s
  rw [hsend, sendMessage_eq, Call.run_bind, run_bodyToSend_of_unfit hunfit] at hrun
  obtain ⟨rfl, rfl⟩ := Prod.mk.inj hrun
  exact ⟨rfl, rfl⟩

omit [Message μ] in
/-- The table is written as it is. -/
theorem sendVersion_writes {s t : Scene (StreamSession μ)} {ended : Except Halt Unit}
    (hrun : sendVersion.run s = (ended, t)) :
    ∃ bytes, t.session.written = s.session.written ++ bytes ∧
      bytes <+: (tableFrame s.session.registry).encode ∧
      (ended = .ok () → bytes = (tableFrame s.session.registry).encode) := by
  cases htransport : s.session.transport with
  | none =>
      simp only [sendVersion, Call.run_bind, Call.session, run_sendFrame_closed htransport] at hrun
      obtain ⟨rfl, rfl⟩ := Prod.mk.inj hrun
      exact ⟨[], (List.append_nil _).symm, List.nil_prefix, fun hok => by cases hok⟩
  | some transport =>
      have hemits := emits_sendVersion (s := s) (by rw [htransport]; rfl)
      rw [emits_iff_of_run hrun] at hemits
      cases hemits with
      | done hspoke hpending => exact ⟨_, hspoke.written, by simp, fun _ => by simp⟩
      | broken hrough herror hfront hspoke =>
          exact ⟨_, hspoke.written, by simpa using hfront, fun hok => by cases hok⟩
      | stopped hk hstop hspoke => exact hstop.elim

end StreamSession

namespace DatagramSession

/-- The frame fits into a datagram, or it is the table that the message goes behind. -/
def Limited (s : DatagramSession μ) (flags : Flags) (f : Frame) : Prop :=
  f.payload.length ≤ maxDatagramPayload ∨ flags.versioned = true ∧ f = tableFrame s.registry

variable [Message μ] {m : μ} {target : Endpoint} {flags : Flags}
  {s t : Scene (DatagramSession μ)} {ended : Except Halt Unit}

theorem send_limitedPosts (hrun : (send m target flags).run s = (ended, t)) :
    ∃ frames, s.session.Posts frames target t.session ∧
      ∀ f ∈ frames, s.session.Limited flags f := by
  rcases send_posting hrun with ⟨-, hsame⟩ | ⟨payload, hpayload, posted, hposted, hposts, -⟩
  · exact ⟨[], hsame ▸ .refl _ _, by simp⟩
  · refine ⟨posted, hposts, fun f hf => ?_⟩
    rcases List.mem_append.1 (hposted.subset hf) with hf | hf
    · exact .inr (mem_tableFrames_iff.1 hf)
    · obtain rfl := List.mem_singleton.1 hf
      exact .inl hpayload.fits

theorem send_oversize {payload : List UInt8} (hrun : (send m target flags).run s = (ended, t))
    (hwhole : flags.sliced = false) (hencode : Message.encode m = .ok payload)
    (hlong : maxDatagramPayload < payload.length) :
    ended = .error (.failed (.tooLarge payload.length maxDatagramPayload)) ∧
      t.session = s.session := by
  rw [(Rejected.tooLarge hwhole hencode hlong).run_send] at hrun
  obtain ⟨rfl, rfl⟩ := Prod.mk.inj hrun
  exact ⟨rfl, rfl⟩

end DatagramSession

/-- Every frame that is written is within the limits of the side that writes it, but for tables: a
table is written whatever its size is. A message that is too large is refused, and nothing is
written. -/
theorem sends_within_limits [Message μ] :
    (∀ (m : μ) (flags : Flags) (s t : Scene (StreamSession μ)) (ended : Except Halt Unit),
      (StreamSession.send m flags).run s = (ended, t) →
      (∃ fs bytes, t.session.written = s.session.written ++ bytes ∧ bytes <+: wire fs ∧
        ∀ f ∈ fs, s.session.Limited flags f) ∧
      ∀ payload, Message.encode m = .ok payload →
        s.session.config.maxPayload.toNat < payload.length →
        ended = .error (.failed (.tooLarge payload.length s.session.config.maxPayload.toNat)) ∧
          t.session = s.session) ∧
    (∀ (s t : Scene (StreamSession μ)) (ended : Except Halt Unit),
      StreamSession.sendVersion.run s = (ended, t) →
      ∃ bytes, t.session.written = s.session.written ++ bytes ∧
        bytes <+: (tableFrame s.session.registry).encode ∧
        (ended = .ok () → bytes = (tableFrame s.session.registry).encode)) ∧
    (∀ (m : μ) (target : Endpoint) (flags : Flags) (s t : Scene (DatagramSession μ))
        (ended : Except Halt Unit), (DatagramSession.send m target flags).run s = (ended, t) →
      (∃ frames, s.session.Posts frames target t.session ∧
        ∀ f ∈ frames, s.session.Limited flags f) ∧
      ∀ payload, flags.sliced = false → Message.encode m = .ok payload →
        maxDatagramPayload < payload.length →
        ended = .error (.failed (.tooLarge payload.length maxDatagramPayload)) ∧
          t.session = s.session) ∧
    (∀ (target : Endpoint) (s t : Scene (DatagramSession μ)) (ended : Except Halt Unit),
      (DatagramSession.sendVersion target).run s = (ended, t) →
      ∃ frames, s.session.Posts frames target t.session ∧
        frames <+: [tableFrame s.session.registry] ∧
        (ended = .ok () → frames = [tableFrame s.session.registry])) ∧
    ∀ (registry : Registry μ) (limit : UInt32), registry.table.encode.length ≤ limit.toNat →
      (tableFrame registry).header.length ≤ limit := by
  refine ⟨fun m flags s t ended hrun => ⟨?_, fun payload => ?_⟩, fun s t ended hrun => ?_,
    fun m target flags s t ended hrun => ⟨?_, fun payload => ?_⟩,
    fun target s t ended hrun => ?_, fun registry limit => ?_⟩
  · exact StreamSession.send_limited hrun
  · exact StreamSession.send_tooLarge hrun
  · exact StreamSession.sendVersion_writes hrun
  · exact DatagramSession.send_limitedPosts hrun
  · exact DatagramSession.send_oversize hrun
  · obtain ⟨frames, hframes, hposts, hall⟩ := DatagramSession.sendVersion_posting hrun
    exact ⟨frames, hposts, hframes, hall⟩
  · exact tableFrame_fits

namespace StreamSession

/-- A session with room for eight bytes, before any calls. -/
def cramped : StreamSession AnyMessage := .new (.ofVersion 1) { maxPayload := 8 } {}

def haltOf? {α : Type} : Except Halt α → Option Halt
  | .ok _ => none
  | .error halt => some halt

/-- The table goes out though it is larger than that, and a peer with the same settings turns it
down. -/
theorem sendVersion_exceeds_limit :
    haltOf? (sendVersion.start cramped 0).1 = none ∧
    ∃ f : Frame, (sendVersion.start cramped 0).2.1.written = f.encode ∧
      cramped.config.maxPayload < f.header.length ∧
      haltOf? ((receive .none).start { cramped with transport := some { inbound :=
        { arrivals := [.bytes f.encode] } } } 0).1 =
          some (.failed (.tooLarge f.header.length.toNat 8)) :=
  ⟨by decide +kernel, tableFrame cramped.registry, by decide +kernel, by decide +kernel,
    by decide +kernel⟩

end StreamSession

end MessageChannel
