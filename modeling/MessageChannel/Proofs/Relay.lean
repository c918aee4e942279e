import MessageChannel.Proofs.AllOrNothing
import MessageChannel.Proofs.Transfer

namespace MessageChannel

variable {μ : Type} [Message μ]

/-- Raw messages keep what they are made of. -/
class LawfulRaw (μ : Type) [Message μ] : Prop where
  typeId_ofRaw (raw : RawMessage) : Message.typeId (Message.ofRaw raw : μ) = raw.typeId
  name_ofRaw (raw : RawMessage) : Message.name (Message.ofRaw raw : μ) = raw.name
  encode_ofRaw (raw : RawMessage) : Message.encode (Message.ofRaw raw : μ) = .ok raw.data

instance : LawfulRaw AnyMessage := ⟨fun _ => rfl, fun _ => rfl, fun _ => rfl⟩

namespace DatagramSession

theorem frames_of_send {s t : Scene (DatagramSession μ)} {m : μ} {target : Endpoint}
    {flags : Flags} (hrun : (send m target flags).run s = (.ok (), t)) : ∃ payload,
      Postable m flags payload ∧
      s.session.Posts (s.session.postFrames m flags payload) target t.session := by
  rcases send_posting hrun with ⟨hfailed, -⟩ | ⟨payload, hpayload, posted, -, hposts, hall⟩
  · exact absurd rfl hfailed
  · rw [hall rfl] at hposts
    exact ⟨payload, hpayload, hposts⟩

/-- A receiver that gets a message out of its datagram answers to the payload. -/
theorem Delivers.answer {m got : μ} {payload : List UInt8} {sender sender' : Endpoint}
    {flags : Flags} {d : DatagramSession μ} {table : PeerTable}
    (h : Delivers m payload sender flags d table (.ok (got, sender'))) :
    Receiver.answer d.registry d.config.maxPayload flags table (Message.typeId m) false payload =
      .ok got := by
  by_cases hcut : d.config.datagramBuffer < headerSize + payload.length
  · obtain ⟨fault, hfault⟩ := h.truncated hcut
    cases hfault
  · by_cases hfits : payload.length ≤ d.config.maxPayload.toNat
    · have hwhole := h.whole (Nat.not_lt.1 hcut) hfits
      rw [Receiver.answer, if_pos hfits]
      cases hhand : Receiver.handOut flags (d.registry.resolve? (Message.typeId m) table) table
          (Message.typeId m) false payload with
      | error halt =>
          rw [hhand] at hwhole
          cases hwhole
      | ok got' =>
          rw [hhand] at hwhole
          obtain ⟨rfl, -⟩ := Prod.mk.inj (Except.ok.inj hwhole)
          rfl
    · cases h.tooLarge (Nat.not_lt.1 hcut) (Nat.lt_of_not_le hfits)

theorem ReceivesMessage.registry {flags : Flags} {s t : DatagramSession μ}
    {ended : Except Halt (μ × Endpoint)} (h : s.ReceivesMessage flags t ended) :
    t.registry = s.registry := by
  cases h with
  | nothing _ _ hreceives => exact hreceives.registry
  | datagram hreceives => exact hreceives.registry

end DatagramSession

open DatagramSession (messageFrame)

theorem bodyFrames_whole (sliceSize : Nat) (m : μ) (payload : List UInt8) :
    bodyFrames sliceSize false (Message.typeId m) payload = [messageFrame m payload] := rfl

/-- How a relay comes by a message of a type that it has not got, with the table of the origin's
types that it has then. On a stream, a call that has waited in vain may have read the origin's table
before. -/
inductive Relayed (m : μ) (payload : List UInt8) : PeerTable → μ → Prop
  | stream {o o' r r' : Scene (StreamSession μ)} {flags flags' : Flags}
      {earlier later rest : List UInt8} {got : μ}
      (hsend : (StreamSession.send m flags).run o = (.ok (), o'))
      (hwritten : o'.session.written = o.session.written ++ (earlier ++ later))
      (hearlier : earlier = [] ∨ earlier = wire (tableFrames o.session.registry flags.versioned))
      (hnames : flags.versioned = true →
        ∀ e ∈ o.session.registry.table.entries, (textBytes e.2).length < 2 ^ 32)
      (hidle : r.session.Idle) (havailable : r.session.available = later ++ rest)
      (hreceive : (StreamSession.receive flags').run r = (.ok got, r'))
      (hunresolved : r'.session.registry.resolve? (Message.typeId m)
        r'.session.receiver.peerTable = none)
      (hencode : Message.encode m = .ok payload) :
      Relayed m payload r'.session.receiver.peerTable got
  | datagram {o o' : Scene (DatagramSession μ)} {r r' : Scene (DatagramSession μ)}
      {flags flags' : Flags} {target sender sender' : Endpoint} {data : List UInt8}
      {front more : List (Endpoint × List UInt8)} {got : μ}
      (hsend : (DatagramSession.send m target flags).run o = (.ok (), o'))
      (hposted : o'.session.sent.getLast? = some (target, data))
      (hincoming : r.session.incoming = front ++ (sender, data) :: more)
      (hfront : ∀ g ∈ front, r.session.config.learnsFrom g.2 = true)
      (hreceive : (DatagramSession.receive flags').run r = (.ok (got, sender'), r'))
      (hunresolved : r'.session.registry.resolve? (Message.typeId m) r'.session.peerTable = none)
      (hencode : Message.encode m = .ok payload) :
      Relayed m payload r'.session.peerTable got

/-- The message that stands for a payload of an unknown type. -/
def placeholder (μ : Type) [Message μ] (typeId : Int32) (table : PeerTable)
    (payload : List UInt8) : μ := Message.ofRaw (.ofBytes typeId (table.nameOf? typeId) payload)

namespace Relayed

variable {m got : μ} {payload : List UInt8} {table : PeerTable}

theorem encode (h : Relayed m payload table got) : Message.encode m = .ok payload := by
  cases h <;> assumption

theorem payload_bounds (h : Relayed m payload table got) :
    payload ≠ [] ∧ payload.length < 2 ^ 32 := by
  cases h with
  | @stream o o' r r' flags flags' earlier later rest got hsend _ _ _ _ _ _ _ hencode =>
      obtain ⟨payload', hpayload, -⟩ := StreamSession.frames_of_send hsend
      rw [Except.ok.inj (hencode.symm.trans hpayload.encode)]
      exact ⟨hpayload.nonempty,
        Nat.lt_of_le_of_lt hpayload.fits o.session.config.maxPayload.toNat_lt⟩
  | datagram hsend _ _ _ _ _ hencode =>
      obtain ⟨payload', hpayload, -⟩ := DatagramSession.frames_of_send hsend
      rw [Except.ok.inj (hencode.symm.trans hpayload.encode)]
      exact ⟨hpayload.nonempty, Nat.lt_of_le_of_lt hpayload.fits (by decide)⟩

theorem eq_placeholder (h : Relayed m payload table got) :
    got = placeholder μ (Message.typeId m) table payload := by
  obtain ⟨-, hsize⟩ := h.payload_bounds
  cases h with
  | @stream o o' r r' flags flags' earlier later rest got hsend hwritten hearlier hnames hidle
      havailable hreceive hunresolved hencode =>
      obtain ⟨payload', hpayload, hspoke⟩ := StreamSession.frames_of_send hsend
      obtain rfl := Except.ok.inj (hencode.symm.trans hpayload.encode)
      have hbytes := List.append_cancel_left (hwritten.symm.trans hspoke.written)
      -- A table that an earlier call has read is not in front of this one.
      have hlater : ∃ versioned, (versioned = true → flags.versioned = true) ∧
          later = wire (tableFrames o.session.registry versioned ++
            bodyFrames o.session.config.sliceSize flags.sliced (Message.typeId m) payload) := by
        rcases hearlier with rfl | rfl
        · exact ⟨flags.versioned, id, hbytes⟩
        · rw [StreamSession.sentFrames, wire_append] at hbytes
          exact ⟨false, nofun, List.append_cancel_left hbytes⟩
      obtain ⟨versioned, hversioned, rfl⟩ := hlater
      have hfits : versioned = true →
          o.session.registry.table.encode.length ≤ r.session.config.maxPayload.toNat := by
        rintro rfl
        rw [wire_append, List.append_assoc] at havailable
        exact StreamSession.table_fits_of_receive hidle (hnames (hversioned rfl)) havailable
          hreceive
      obtain ⟨hanswer, hregistry, -⟩ := StreamSession.receive_answer hidle hsize hfits havailable
        hreceive (by simp)
      rw [hregistry] at hunresolved
      exact Receiver.eq_of_answer hunresolved hanswer.symm
  | @datagram o o' r r' flags flags' target sender sender' data front more got hsend hposted
      hincoming hfront hreceive hunresolved hencode =>
      obtain ⟨payload', hpayload, hposts⟩ := DatagramSession.frames_of_send hsend
      obtain rfl := Except.ok.inj (hencode.symm.trans hpayload.encode)
      rw [hposts.sent, DatagramSession.postFrames, List.map_append, ← List.append_assoc,
        List.map_singleton, List.getLast?_concat] at hposted
      obtain ⟨-, rfl⟩ := Prod.mk.inj (Option.some.inj hposted)
      obtain ⟨-, hdelivers⟩ := DatagramSession.receive_delivers hreceive rfl hpayload.fits
        hincoming hfront
      rw [(DatagramSession.receive_receives hreceive).registry] at hunresolved
      exact Receiver.eq_of_answer hunresolved hdelivers.answer

end Relayed

/-- What a relay has of a message that it cannot resolve. -/
structure StandsFor (m : μ) (payload : List UInt8) (table : PeerTable) (got : μ) : Prop where
  raw : ∃ raw : RawMessage, got = Message.ofRaw raw ∧ raw.typeId = Message.typeId m ∧
    raw.data = payload ∧ raw.length.toNat = raw.data.length
  name : Message.name got = (table.nameOf? (Message.typeId m)).getD rawName

namespace StreamSession

/-- A call that has a message to read, and no table before it. -/
theorem receive_body {s t : Scene (StreamSession μ)} {payload rest : List UInt8} {sliceSize : Nat}
    {sliced : Bool} {typeId : Int32} {flags : Flags} {ended : Except Halt μ}
    (hidle : s.session.Idle) (hsize : payload.length < 2 ^ 32)
    (havailable : s.session.available =
      wire (bodyFrames sliceSize sliced typeId payload) ++ rest)
    (hrun : (receive flags).run s = (ended, t)) (hquiet : ended ≠ .error (.failed .timeout)) :
    ended = Receiver.answer s.session.registry s.session.config.maxPayload flags
      s.session.receiver.peerTable typeId sliced payload := by
  have hframes : s.session.available =
      wire (tableFrames s.session.registry false ++
        bodyFrames sliceSize sliced typeId payload) ++ rest := havailable
  have hnone : false = true →
      s.session.registry.table.encode.length ≤ s.session.config.maxPayload.toNat := nofun
  obtain ⟨hended, -, htable⟩ := receive_answer hidle hsize hnone hframes hrun hquiet
  rw [htable] at hended
  exact hended

/-- Without further flags a message goes out as one complete frame. -/
theorem wire_sentFrames_bare (s : StreamSession μ) (m : μ) {flags : Flags} (payload : List UInt8)
    (hwhole : flags.sliced = false) (hbare : flags.versioned = false) :
    wire (s.sentFrames m flags payload) = (messageFrame m payload).encode := by
  have hframes : s.sentFrames m flags payload = [messageFrame m payload] := by
    rw [sentFrames, hwhole, hbare]
    rfl
  rw [hframes, wire_cons, wire_nil, List.append_nil]

/-- Two sessions that have the same types and limit and know the same of their peers, the one with
these bytes to read and the other with those. -/
structure Twins (s s' : StreamSession μ) (bytes bytes' : List UInt8) : Prop where
  idle : s.Idle
  idle' : s'.Idle
  registry : s'.registry = s.registry
  maxPayload : s'.config.maxPayload = s.config.maxPayload
  peerTable : s'.receiver.peerTable = s.receiver.peerTable
  available : ∃ rest, s.available = bytes ++ rest
  available' : ∃ rest, s'.available = bytes' ++ rest

theorem Twins.receive_answers {s s' t t' : Scene (StreamSession μ)} {m : μ} {payload : List UInt8}
    {sliceSize : Nat} {flags : Flags} {ended ended' : Except Halt μ}
    (h : Twins s.session s'.session (messageFrame m payload).encode
      (wire (bodyFrames sliceSize true (Message.typeId m) payload)))
    (hsize : payload.length < 2 ^ 32)
    (hs : (receive flags).run s = (ended, t)) (hs' : (receive flags).run s' = (ended', t'))
    (hquiet : ended ≠ .error (.failed .timeout)) (hquiet' : ended' ≠ .error (.failed .timeout)) :
    let unresolved := Receiver.Unresolved s.session.registry s.session.config.maxPayload flags
      s.session.receiver.peerTable (Message.typeId m) payload
    (¬unresolved → ended' = ended) ∧ (unresolved →
      ended = .error (.failed (.unrecognized (Message.typeId m))) ∧
      ended' = .error (.failed (.unregistered (Message.typeId m)))) := by
  obtain ⟨rest, havailable⟩ := h.available
  obtain ⟨rest', havailable'⟩ := h.available'
  have hwhole : s.session.available =
      wire (bodyFrames sliceSize false (Message.typeId m) payload) ++ rest := by
    rw [bodyFrames_whole, wire_cons, wire_nil, List.append_nil]
    exact havailable
  have hended := receive_body h.idle hsize hwhole hs hquiet
  have hended' := receive_body h.idle' hsize havailable' hs' hquiet'
  rw [h.registry, h.maxPayload, h.peerTable] at hended'
  constructor
  · intro hresolved
    rw [hended', hended, Receiver.answer_sliced hresolved]
  · intro hunresolved
    rw [hended', hended, hunresolved.answer, hunresolved.answer]
    exact ⟨rfl, rfl⟩

end StreamSession

/-- Without further flags, either engine puts this frame and nothing else on the wire for a message,
and it does so if the transport takes it. -/
structure GoesOutAs (m : μ) (f : Frame) : Prop where
  stream : ∀ (s t : Scene (StreamSession μ)) (flags : Flags) (ended : Except Halt Unit),
    flags.sliced = false → flags.versioned = false →
    (StreamSession.send m flags).run s = (ended, t) →
    (ended = .ok () → t.session.written = s.session.written ++ f.encode) ∧
    (s.session.Smooth → s.session.cancelRequested = false →
      f.payload.length ≤ s.session.config.maxPayload.toNat → ended = .ok ())
  datagram : ∀ (s t : Scene (DatagramSession μ)) (flags : Flags) (target : Endpoint)
    (ended : Except Halt Unit), flags.sliced = false → flags.versioned = false →
    (DatagramSession.send m target flags).run s = (ended, t) →
    (ended = .ok () → t.session.sent = s.session.sent ++ [(target, f.encode)]) ∧
    (s.session.Obliging [f.encode.length] → f.payload.length ≤ maxDatagramPayload → ended = .ok ())

theorem goesOutAs_messageFrame {m : μ} {payload : List UInt8}
    (hencode : Message.encode m = .ok payload) (hnonempty : payload ≠ []) :
    GoesOutAs m (messageFrame m payload) := by
  constructor
  · intro s t flags ended hwhole hbare hrun
    constructor
    · rintro rfl
      obtain ⟨payload', hpayload, hspoke⟩ := StreamSession.frames_of_send hrun
      obtain rfl := Except.ok.inj (hencode.symm.trans hpayload.encode)
      rw [hspoke.written, StreamSession.wire_sentFrames_bare _ _ _ hwhole hbare]
    · intro hsmooth hquiet hfits
      rcases StreamSession.send_smooth ⟨hencode, hnonempty, hfits⟩ hsmooth hquiet hrun with
        ⟨hended, -⟩ | ⟨hsliced, -⟩
      · exact hended
      · rw [hwhole] at hsliced
        cases hsliced
  · intro s t flags target ended hwhole hbare hrun
    have hframes : s.session.postFrames m flags payload = [messageFrame m payload] := by
      rw [DatagramSession.postFrames, hbare]
      rfl
    constructor
    · rintro rfl
      obtain ⟨payload', hpayload, hposts⟩ := DatagramSession.frames_of_send hrun
      obtain rfl := Except.ok.inj (hencode.symm.trans hpayload.encode)
      rw [hframes] at hposts
      exact hposts.sent
    · intro hobliging hfits
      rw [← List.map_singleton (f := fun f : Frame => f.encode.length), ← hframes] at hobliging
      obtain ⟨u, hsend, -⟩ := hobliging.run_send ⟨hwhole, hencode, hnonempty, hfits⟩ target
      rw [hrun] at hsend
      exact (Prod.mk.inj hsend).1

/-- In slices a message comes to the same for whoever gets it as in this frame, but for the error if
that is nothing. -/
structure SlicesAs (m : μ) (f : Frame) : Prop where
  received : ∀ (s t : Scene (StreamSession μ)) (flags : Flags), flags.sliced = true →
    flags.versioned = false → (StreamSession.send m flags).run s = (.ok (), t) →
    ∃ bytes, t.session.written = s.session.written ++ bytes ∧
      ∀ (x x' y y' : Scene (StreamSession μ)) (flags' : Flags) (whole slices : Except Halt μ),
        StreamSession.Twins x.session y.session f.encode bytes →
        (StreamSession.receive flags').run x = (whole, x') →
        (StreamSession.receive flags').run y = (slices, y') →
        whole ≠ .error (.failed .timeout) → slices ≠ .error (.failed .timeout) →
        let unresolved := Receiver.Unresolved x.session.registry x.session.config.maxPayload flags'
          x.session.receiver.peerTable f.header.data f.payload
        (¬unresolved → slices = whole) ∧ (unresolved →
          whole = .error (.failed (.unrecognized f.header.data)) ∧
          slices = .error (.failed (.unregistered f.header.data)))
  sent : ∀ (s t : Scene (StreamSession μ)) (flags : Flags) (ended : Except Halt Unit),
    flags.sliced = true → s.session.Smooth → s.session.cancelRequested = false →
    f.payload.length ≤ s.session.config.maxPayload.toNat →
    (StreamSession.send m flags).run s = (ended, t) →
    ended = .ok () ∨ ended = .error (.failed .canceled)

theorem slicesAs_messageFrame {m : μ} {payload : List UInt8}
    (hencode : Message.encode m = .ok payload) (hnonempty : payload ≠ [])
    (hsize : payload.length < 2 ^ 32) : SlicesAs m (messageFrame m payload) := by
  constructor
  · intro s t flags hsliced hbare hrun
    obtain ⟨payload', hpayload, hspoke⟩ := StreamSession.frames_of_send hrun
    obtain rfl := Except.ok.inj (hencode.symm.trans hpayload.encode)
    refine ⟨_, hspoke.written, ?_⟩
    intro x x' y y' flags' whole slices htwins hx hy hquietX hquietY
    rw [StreamSession.sentFrames, hsliced, hbare] at htwins
    exact htwins.receive_answers hsize hx hy hquietX hquietY
  · intro s t flags ended hsliced hsmooth hquiet hfits hrun
    rcases StreamSession.send_smooth ⟨hencode, hnonempty, hfits⟩ hsmooth hquiet hrun with
      ⟨hended, -⟩ | ⟨-, hended⟩
    · exact .inl hended
    · exact .inr hended

section

variable [LawfulRaw μ]

theorem encode_placeholder (typeId : Int32) (table : PeerTable) (payload : List UInt8) :
    Message.encode (placeholder μ typeId table payload) = .ok payload :=
  LawfulRaw.encode_ofRaw _

theorem standsFor_placeholder (m : μ) (table : PeerTable) {payload : List UInt8}
    (hsize : payload.length < 2 ^ 32) :
    StandsFor m payload table (placeholder μ (Message.typeId m) table payload) := by
  refine ⟨⟨_, rfl, rfl, rfl, UInt32.toNat_ofNat_of_lt' hsize⟩, ?_⟩
  exact LawfulRaw.name_ofRaw _

theorem messageFrame_placeholder (m : μ) (table : PeerTable) (payload : List UInt8) : messageFrame
    (placeholder μ (Message.typeId m) table payload) payload = messageFrame m payload := by
  have htypeId : Message.typeId (placeholder μ (Message.typeId m) table payload) =
      Message.typeId m := LawfulRaw.typeId_ofRaw _
  rw [messageFrame, htypeId, messageFrame]

/-- A message that a relay cannot resolve comes to it with all that it takes to send it on: the
relay puts the frame on the wire that an origin would. -/
theorem relay_transparent {m got : μ} {payload : List UInt8} {table : PeerTable}
    (h : Relayed m payload table got) :
    StandsFor m payload table got ∧ GoesOutAs m (messageFrame m payload) ∧
      GoesOutAs got (messageFrame m payload) ∧ SlicesAs got (messageFrame m payload) := by
  obtain ⟨hnonempty, hsize⟩ := h.payload_bounds
  have hencode := encode_placeholder (μ := μ) (Message.typeId m) table payload
  rw [h.eq_placeholder]
  refine ⟨standsFor_placeholder m table hsize, goesOutAs_messageFrame h.encode hnonempty, ?_, ?_⟩
  · rw [← messageFrame_placeholder m table payload]
    exact goesOutAs_messageFrame hencode hnonempty
  · rw [← messageFrame_placeholder m table payload]
    exact slicesAs_messageFrame hencode hnonempty hsize

end

namespace StreamSession

/-- A session on a stream that brings these bytes. -/
def fedWith (registry : Registry AnyMessage) (bytes : List UInt8) :
    Scene (StreamSession AnyMessage) where
  session := .new registry { sliceSize := 3 } { inbound := { arrivals := [.bytes bytes] } }

def writes (s : Scene (StreamSession AnyMessage)) (m : AnyMessage) (flags : Flags) : List UInt8 :=
  ((send m flags).run s).2.session.written

/-- An origin of counters, which are the first type that it has registered. -/
def counting : Scene (StreamSession AnyMessage) :=
  fedWith ((Registry.ofVersion 1).registerWith AnyMessage.counterName (.counter · 0)).2 []

/-- A relay without types of its own, to which a counter comes in slices behind the table that
names it. -/
def relaying : Scene (StreamSession AnyMessage) :=
  fedWith (.ofVersion 1) (writes counting (.counter 16 7) { sliced := true, versioned := true })

def relayedCounter : RawMessage := ⟨16, 8, some AnyMessage.counterName, [7, 0, 0, 0, 0, 0, 0, 0]⟩

theorem relayed_counter : ∃ table, table.nameOf? 16 = some AnyMessage.counterName ∧
    Relayed (.counter 16 7 : AnyMessage) relayedCounter.data table (.raw relayedCounter) := by
  -- Of the table that the relay has then, only the name is evaluated.
  generalize hrun : (receive { keepUnknown := true }).run relaying = result
  obtain ⟨ended, r⟩ := result
  have hended : ended = ((receive { keepUnknown := true }).run relaying).1 := by rw [hrun]
  have hr : r = ((receive { keepUnknown := true }).run relaying).2 := by rw [hrun]
  have hname : r.session.receiver.peerTable.nameOf? 16 = some AnyMessage.counterName := by
    rw [hr]
    decide +kernel
  have hunresolved : r.session.registry.resolve? 16 r.session.receiver.peerTable = none := by
    rw [← Option.isNone_iff_eq_none, hr]
    decide +kernel
  cases ended with
  | error halt =>
      have hok : ((receive { keepUnknown := true }).run relaying).1.isOk = true := by decide +kernel
      rw [← hended] at hok
      cases hok
  | ok got =>
      have hsend : ((send (.counter 16 7 : AnyMessage) { sliced := true, versioned := true }).run
          counting).1 = .ok () := by decide +kernel
      have havailable : relaying.session.available =
          writes counting (.counter 16 7) { sliced := true, versioned := true } ++ [] := by
        decide +kernel
      have h : Relayed (.counter 16 7 : AnyMessage) relayedCounter.data
          r.session.receiver.peerTable got :=
        .stream (Prod.ext hsend rfl) rfl (.inl rfl) (fun _ => by decide +kernel) ⟨rfl, rfl⟩
          havailable hrun hunresolved rfl
      refine ⟨_, hname, ?_⟩
      have hgot : got = .raw (.ofBytes 16 (r.session.receiver.peerTable.nameOf? 16)
          relayedCounter.data) := h.eq_placeholder
      rw [hname] at hgot
      rw [hgot] at h
      exact h

/-- The relay sends the counter on as if it were its own. -/
theorem relay_transparent_counter : ∃ table,
    StandsFor (.counter 16 7 : AnyMessage) relayedCounter.data table (.raw relayedCounter) ∧
    Message.name (.raw relayedCounter : AnyMessage) = AnyMessage.counterName ∧
    ∃ t, (send (.raw relayedCounter : AnyMessage) .none).run (fedWith (.ofVersion 1) []) =
      (.ok (), t) ∧ t.session.written =
        (messageFrame (.counter 16 7 : AnyMessage) relayedCounter.data).encode := by
  obtain ⟨table, hname, h⟩ := relayed_counter
  obtain ⟨hstands, -, hforwards, -⟩ := relay_transparent h
  have hsmooth : (fedWith (.ofVersion 1) []).session.Smooth :=
    ⟨_, rfl, nofun, nofun, rfl⟩
  obtain ⟨hwrites, hsends⟩ := hforwards.stream (fedWith (.ofVersion 1) []) _ .none _ rfl rfl rfl
  refine ⟨table, hstands, ?_, _, Prod.ext (hsends hsmooth rfl (by decide)) rfl, ?_⟩
  · rw [hstands.name]
    exact congrArg (·.getD rawName) hname
  · exact hwrites (hsends hsmooth rfl (by decide))

/-- A target that has no more types than the relay tells the two ways of sending it on apart. -/
theorem receive_unregistered_counter :
    let whole := writes (fedWith (.ofVersion 1) []) (.raw relayedCounter) .none
    let slices := writes (fedWith (.ofVersion 1) []) (.raw relayedCounter) { sliced := true }
    (∃ table, Relayed (.counter 16 7 : AnyMessage) relayedCounter.data table
      (.raw relayedCounter)) ∧
    ((receive .none).run (fedWith (.ofVersion 1) whole)).1 =
      .error (.failed (.unrecognized 16)) ∧
    ((receive .none).run (fedWith (.ofVersion 1) slices)).1 =
      .error (.failed (.unregistered 16)) := by
  refine ⟨?_, by decide +kernel, by decide +kernel⟩
  obtain ⟨table, -, h⟩ := relayed_counter
  exact ⟨table, h⟩

end StreamSession

end MessageChannel
