import MessageChannel.Proofs.DatagramAnswers
import MessageChannel.Proofs.Posting

namespace MessageChannel

/-- Answers to send calls that let datagrams of these sizes pass, one after the other: each is taken
whole, if need be after attempts that are repeated. -/
inductive Obliges : List Nat → List SendReply → Prop
  | done (replies) : Obliges [] replies
  | free (sizes) : Obliges sizes []
  | whole {size sizes replies} (hrest : Obliges sizes replies) :
      Obliges (size :: sizes) (.whole :: replies)
  | counted {size sizes replies} (hrest : Obliges sizes replies) :
      Obliges (size :: sizes) (.counted size :: replies)
  | again {size sizes error replies} (herror : ∀ error', error.retry ≠ .never error')
      (hrest : Obliges (size :: sizes) replies) : Obliges (size :: sizes) (.fault error :: replies)

theorem Obliges.post {size : Nat} {sizes : List Nat} {replies : List SendReply}
    (h : Obliges (size :: sizes) replies) (backoff now : Nat) :
    (DatagramSocket.post backoff size replies now).outcome = .ok size ∧
      Obliges sizes (DatagramSocket.post backoff size replies now).replies := by
  fun_induction DatagramSocket.post backoff size replies now with
  | case1 now => exact ⟨rfl, .free sizes⟩
  | case2 replies now =>
      cases h with
      | whole hrest => exact ⟨rfl, hrest⟩
  | case3 told replies now =>
      cases h with
      | counted hrest => exact ⟨rfl, hrest⟩
  | case4 error replies now hretry ih | case5 error replies now hretry ih =>
      cases h with
      | again herror hrest => exact ih hrest
  | case6 error replies now error' hretry =>
      cases h with
      | again herror hrest => exact absurd hretry (herror error')

theorem DatagramSocket.ofTransport_of_post {backoff size now : Nat} {replies : List SendReply}
    {error : ChannelError} (h : (post backoff size replies now).outcome = .error error) :
    (Halt.failed error).ofTransport = true := by
  fun_induction post backoff size replies now with
  | case1 | case2 | case3 => cases h
  | case4 fault replies now hretry ih | case5 fault replies now hretry ih => exact ih h
  | case6 fault replies now error' hretry =>
      obtain rfl := Except.error.inj h
      rcases IoError.eq_of_retry_eq_never hretry with rfl | rfl <;> rfl

namespace DatagramSession

variable {μ : Type}

/-- The socket of the session lets datagrams of these sizes pass. -/
def Obliging (s : DatagramSession μ) (sizes : List Nat) : Prop :=
  ∃ p, s.socket = some p ∧ Obliges sizes p.replies

variable {s : Scene (DatagramSession μ)} {f : Frame} {sizes : List Nat}

theorem Obliging.run_sendFrame (h : s.session.Obliging (f.encode.length :: sizes))
    (target : Endpoint) : ∃ t, (sendFrame f target).run s = (.ok (), t) ∧
      t.session.Obliging sizes := by
  obtain ⟨p, hsocket, hobliges⟩ := h
  obtain ⟨houtcome, hrest⟩ := hobliges.post s.session.config.retryBackoff s.now
  obtain ⟨text, hsend⟩ := DatagramSession.run_sendFrame hsocket f target
  simp only [houtcome, if_true] at hsend
  exact ⟨_, hsend, _, rfl, hrest⟩

theorem Obliging.run_sendVersion
    (h : s.session.Obliging ((tableFrame s.session.registry).encode.length :: sizes))
    (target : Endpoint) : ∃ t, (sendVersion target).run s = (.ok (), t) ∧
      t.session.Obliging sizes := by
  obtain ⟨t, hframe, hrest⟩ := h.run_sendFrame target
  rw [tableFrame] at hframe
  refine ⟨{ t with log := t.log.push (.sentTableTo s.session.registry.table.version target) }, ?_,
    hrest⟩
  simp only [sendVersion, Call.run_bind, Call.session]
  rw [hframe]
  rfl

variable [Message μ]

/-- The frames that a call to send posts for a message. -/
def postFrames (s : DatagramSession μ) (m : μ) (flags : Flags) (payload : List UInt8) :
    List Frame := tableFrames s.registry flags.versioned ++ [messageFrame m payload]

theorem Obliging.run_post {m : μ} {flags : Flags} {payload : List UInt8}
    (h : s.session.Obliging ((s.session.postFrames m flags payload).map (·.encode.length)))
    (target : Endpoint) : ∃ t, (post m target flags payload).run s = (.ok (), t) := by
  have hmessage : ∀ {u : Scene (DatagramSession μ)},
      u.session.Obliging [(messageFrame m payload).encode.length] → ∃ t, (do
        sendFrame (messageFrame m payload) target
        Call.tell (.sentTo (messageFrame m payload).header target) :
          Call (DatagramSession μ) Unit).run u = (.ok (), t) := by
    intro u hu
    obtain ⟨t, hframe, -⟩ := hu.run_sendFrame target
    rw [Call.run_bind, hframe]
    exact ⟨_, rfl⟩
  -- The message goes out the same way, with and without the table before it.
  rw [post]
  cases hversioned : flags.versioned with
  | false =>
      rw [postFrames, tableFrames, hversioned] at h
      simp only [Bool.false_eq_true, if_false]
      exact hmessage h
  | true =>
      rw [postFrames, tableFrames, hversioned] at h
      obtain ⟨u, hversion, hu⟩ := h.run_sendVersion target
      simp only [if_true, Call.run_bind, hversion]
      exact hmessage hu

theorem Obliging.run_send {m : μ} {flags : Flags} {payload : List UInt8}
    (hpayload : Postable m flags payload)
    (h : s.session.Obliging ((s.session.postFrames m flags payload).map (·.encode.length)))
    (target : Endpoint) : ∃ t, (send m target flags).run s = (.ok (), t) ∧
      s.session.Posts (s.session.postFrames m flags payload) target t.session := by
  obtain ⟨t, hpost⟩ := h.run_post target
  obtain ⟨posted, -, hposts, hall⟩ := post_posting hpost
  rw [hall rfl] at hposts
  exact ⟨t, by rw [hpayload.run_send, hpost], hposts⟩

omit [Message μ] in
theorem ofTransport_sendFrame {target : Endpoint} {t : Scene (DatagramSession μ)} {halt : Halt}
    (hrun : (sendFrame f target).run s = (.error halt, t)) : halt.ofTransport = true := by
  cases hsocket : s.session.socket with
  | none =>
      rw [run_sendFrame_closed hsocket] at hrun
      obtain rfl := Except.error.inj (Prod.mk.inj hrun).1
      rfl
  | some p =>
      obtain ⟨text, hsend⟩ := run_sendFrame hsocket f target
      have hended := (Prod.mk.inj (hsend.symm.trans hrun)).1
      split at hended
      · split at hended
        · cases hended
        · obtain rfl := Except.error.inj hended
          rfl
      · next error hposted =>
        obtain rfl := Except.error.inj hended
        exact DatagramSocket.ofTransport_of_post hposted

omit [Message μ] in
theorem ofTransport_sendFrame_tell {target : Endpoint} {event : Event}
    {t : Scene (DatagramSession μ)} {halt : Halt}
    (hrun : (do sendFrame f target; Call.tell event : Call (DatagramSession μ) Unit).run s =
      (.error halt, t)) : halt.ofTransport = true := by
  rw [Call.run_bind] at hrun
  cases hframe : (sendFrame f target).run s with
  | mk ended u =>
      rw [hframe] at hrun
      cases ended with
      | ok _ => cases (Prod.mk.inj hrun).1
      | error halt' =>
          obtain rfl := Except.error.inj (Prod.mk.inj hrun).1
          exact ofTransport_sendFrame hframe

theorem ofTransport_post {m : μ} {target : Endpoint} {flags : Flags} {payload : List UInt8}
    {t : Scene (DatagramSession μ)} {halt : Halt}
    (hrun : (post m target flags payload).run s = (.error halt, t)) : halt.ofTransport = true := by
  rw [post] at hrun
  cases hversioned : flags.versioned with
  | false =>
      simp only [hversioned, Bool.false_eq_true, if_false] at hrun
      exact ofTransport_sendFrame_tell hrun
  | true =>
      simp only [hversioned, if_true, Call.run_bind (sendVersion target)] at hrun
      cases hversion : (sendVersion target).run s with
      | mk ended u =>
          rw [hversion] at hrun
          cases ended with
          | ok _ => exact ofTransport_sendFrame_tell hrun
          | error halt' =>
              obtain rfl := Except.error.inj (Prod.mk.inj hrun).1
              rw [sendVersion, Call.run_bind] at hversion
              exact ofTransport_sendFrame_tell hversion

/-- A send that fails, but not for the transport, is rejected. -/
theorem rejected_of_send {m : μ} {target : Endpoint} {flags : Flags}
    {t : Scene (DatagramSession μ)} {halt : Halt}
    (hrun : (send m target flags).run s = (.error halt, t)) (hhalt : halt.ofTransport = false) :
    Rejected m flags halt ∧ t = s := by
  rcases postable_or_rejected m flags with ⟨payload, hpayload⟩ | ⟨halt', hrejected⟩
  · rw [hpayload.run_send] at hrun
    rw [ofTransport_post hrun] at hhalt
    cases hhalt
  · rw [hrejected.run_send] at hrun
    obtain ⟨hended, rfl⟩ := Prod.mk.inj hrun
    obtain rfl := Except.error.inj hended
    exact ⟨hrejected, rfl⟩

end DatagramSession

variable {μ : Type}

namespace Frame

/-- A receiver with a small buffer gets a frame with the same header and a part of the payload. -/
theorem take_encode (f : Frame) {capacity : Nat} (hlong : headerSize ≤ capacity) :
    f.encode.take capacity = Frame.encode ⟨f.header, f.payload.take (capacity - headerSize)⟩ := by
  rw [encode, encode, List.take_append, f.header.length_encode,
    List.take_of_length_le (by rw [f.header.length_encode]; exact hlong)]

variable [Message μ] {f : Frame} {registry : Registry μ} {limit : UInt32} {flags : Flags}
  {table : PeerTable} {capacity : Nat}

/-- A frame that is cut is taken for no other: the length that it declares gives it away. -/
theorem readDatagram_truncated (hlength : f.payload.length = f.header.length.toNat)
    (hcut : capacity < headerSize + f.payload.length) :
    ∃ fault, readDatagram registry limit flags table (f.encode.take capacity) =
      .error (.failed (.invalidHeader fault)) := by
  have hsize := f.length_encode
  by_cases hshort : capacity < headerSize
  · have hlengthShort : (f.encode.take capacity).length < headerSize := by
      rw [List.length_take]
      omega
    exact ⟨_, readDatagram_of_short hlengthShort⟩
  · have hmissing : f.header.length.toNat ≠ (f.payload.take (capacity - headerSize)).length := by
      rw [List.length_take]
      omega
    rw [f.take_encode (Nat.not_lt.1 hshort), readDatagram_encode, read]
    simp only [hmissing, ne_eq, not_false_eq_true, if_true]
    exact ⟨_, rfl⟩

theorem readDatagram_tooLarge (hlength : f.payload.length = f.header.length.toNat)
    (hwhole : headerSize + f.payload.length ≤ capacity) (hlarge : limit < f.header.length) :
    readDatagram registry limit flags table (f.encode.take capacity) =
      .error (.failed (.tooLarge f.payload.length limit.toNat)) := by
  have hlarge' := UInt32.lt_iff_toNat_lt.1 hlarge
  rw [List.take_of_length_le (by rw [f.length_encode]; exact hwhole), readDatagram_encode, read]
  simp only [hlength, ne_eq, not_true, if_false, gt_iff_lt, hlarge', if_true]

theorem readDatagram_complete (hf : f.Carries .complete)
    (hwhole : headerSize + f.payload.length ≤ capacity) (hfits : f.header.length ≤ limit) :
    readDatagram registry limit flags table (f.encode.take capacity) =
      (Receiver.handOut flags (registry.resolve? f.header.data table) table f.header.data false
        f.payload).map .message := by
  rw [List.take_of_length_le (by rw [f.length_encode]; exact hwhole), readDatagram_encode,
    read_of_fits hf.length hfits, readBody, hf.kind]

end Frame

theorem Tables.tells {limit : UInt32} {table last : PeerTable} {fs : List Frame}
    (h : Tables limit table fs last) : ∀ f ∈ fs, ∃ told, f.Tells limit told := by
  induction h with
  | none table => simp
  | next hf hdata hfits hdecode hrest ih => simpa using ⟨⟨_, hf, hdata, hfits, hdecode⟩, ih⟩

/-- A datagram tells a table to a receiver with this configuration. -/
def Config.learnsFrom (c : Config) (data : List UInt8) : Bool :=
  (datagramTable? c.maxPayload (data.take c.datagramBuffer)).isSome

theorem Tables.learnsFrom {c : Config} {table last : PeerTable} {fs : List Frame}
    {front : List (Endpoint × List UInt8)} (h : Tables c.maxPayload table fs last)
    (hframes : front.map (·.2.take c.datagramBuffer) = fs.map Frame.encode) :
    ∀ d ∈ front, c.learnsFrom d.2 = true := by
  intro d hd
  have hd' : d.2.take c.datagramBuffer ∈ fs.map Frame.encode := by
    rw [← hframes]
    exact List.mem_map_of_mem hd
  obtain ⟨f, hf, hencode⟩ := List.mem_map.1 hd'
  obtain ⟨told, htold⟩ := h.tells f hf
  rw [Config.learnsFrom, ← hencode, datagramTable?_encode htold]
  rfl

namespace DatagramSession

variable [Message μ]

theorem messageFrame_carries {m : μ} {payload : List UInt8}
    (hfits : payload.length ≤ maxDatagramPayload) : (messageFrame m payload).Carries .complete := by
  have hlength : payload.length.toUInt32.toNat = payload.length :=
    UInt32.toNat_ofNat_of_lt' (Nat.lt_of_le_of_lt hfits (by decide))
  exact ⟨Header.kind_ofKind _ _ _, hlength.symm⟩

/-- What a receiver of the datagram of a message makes of it: all of the message, if the datagram
fits into its buffer and the message is within its limit, and an error otherwise. -/
structure Delivers (m : μ) (payload : List UInt8) (sender : Endpoint) (flags : Flags)
    (d : DatagramSession μ) (table : PeerTable) (ended : Except Halt (μ × Endpoint)) : Prop where
  whole : headerSize + payload.length ≤ d.config.datagramBuffer →
    payload.length ≤ d.config.maxPayload.toNat →
    ended = (Receiver.handOut flags (d.registry.resolve? (Message.typeId m) table) table
      (Message.typeId m) false payload).map (·, sender)
  truncated : d.config.datagramBuffer < headerSize + payload.length →
    ∃ fault, ended = .error (.failed (.invalidHeader fault))
  tooLarge : headerSize + payload.length ≤ d.config.datagramBuffer →
    d.config.maxPayload.toNat < payload.length →
    ended = .error (.failed (.tooLarge payload.length d.config.maxPayload.toNat))

theorem delivers_of_read {m : μ} {payload : List UInt8} {sender : Endpoint} {flags : Flags}
    {d : DatagramSession μ} {table : PeerTable} {ended : Except Halt (μ × Endpoint)}
    (hsize : payload.length ≤ maxDatagramPayload)
    (hended : ended.map some = (readDatagram d.registry d.config.maxPayload flags table
      ((messageFrame m payload).encode.take d.config.datagramBuffer)).map
        (·.message?.map (·, sender))) :
    Delivers m payload sender flags d table ended := by
  have hf := messageFrame_carries (m := m) hsize
  have hlength : (messageFrame m payload).header.length.toNat = payload.length := hf.length.symm
  refine ⟨fun hwhole hfits => ?_, fun hcut => ?_, fun hwhole hlarge => ?_⟩
  · have hwithin : (messageFrame m payload).header.length ≤ d.config.maxPayload := by
      rwa [UInt32.le_iff_toNat_le, hlength]
    rw [Frame.readDatagram_complete hf hwhole hwithin] at hended
    generalize hhand : Receiver.handOut flags (d.registry.resolve? (Message.typeId m) table) table
      (Message.typeId m) false payload = got
    replace hended : ended.map some = (got.map Reading.message).map (·.message?.map (·, sender)) := by
      rw [← hhand]
      exact hended
    cases got <;> cases ended <;> cases hended <;> rfl
  · obtain ⟨fault, hread⟩ : ∃ fault, readDatagram d.registry d.config.maxPayload flags table
        ((messageFrame m payload).encode.take d.config.datagramBuffer) =
          .error (.failed (.invalidHeader fault)) := Frame.readDatagram_truncated hf.length hcut
    rw [hread] at hended
    cases ended <;> cases hended
    exact ⟨fault, rfl⟩
  · have hover : d.config.maxPayload < (messageFrame m payload).header.length := by
      rwa [UInt32.lt_iff_toNat_lt, hlength]
    rw [Frame.readDatagram_tooLarge hf.length hwhole hover] at hended
    cases ended <;> cases hended
    rfl

/-- A call that the transport does not end takes the datagrams that tell tables off those that come,
and ends with the one behind them. -/
theorem ReceivesMessage.takes {flags : Flags} {s t : DatagramSession μ}
    {ended : Except Halt (μ × Endpoint)} (h : s.ReceivesMessage flags t ended)
    (hheard : unheard ended = false) {front more : List (Endpoint × List UInt8)}
    {sender : Endpoint} {data : List UInt8} (hincoming : s.incoming = front ++ (sender, data) :: more)
    (hfront : ∀ d ∈ front, s.config.learnsFrom d.2 = true)
    (hdata : s.config.learnsFrom data = false) :
    t.incoming = more ∧
      (∃ fs, front.map (·.2.take s.config.datagramBuffer) = fs.map Frame.encode ∧
        Tables s.config.maxPayload s.peerTable fs t.peerTable) ∧
      ended.map some = (readDatagram s.registry s.config.maxPayload flags t.peerTable
        (data.take s.config.datagramBuffer)).map (·.message?.map (·, sender)) := by
  cases h with
  | nothing hended hhalt hreceives htables hframes =>
      rw [hended, unheard, hhalt] at hheard
      cases hheard
  | @datagram tables fs sender' bytes hreceives htables hframes hended =>
      obtain ⟨front', data', hwhole, hcut, rfl⟩ := hreceives.toDraws.last
      rw [hcut] at hframes
      have hfront' : ∀ d ∈ front', s.config.learnsFrom d.2 = true := htables.learnsFrom hframes
      have hdata' : s.config.learnsFrom data' = false := by
        rw [Config.learnsFrom, datagramTable?_of_ended hended]
        rfl
      -- The first datagram that tells no table is the same on both sides.
      rw [hwhole] at hincoming
      have hsame := congrArg (List.takeWhile fun d => s.config.learnsFrom d.2) hincoming
      rw [List.takeWhile_append_of_pos hfront', List.takeWhile_append_of_pos hfront,
        List.takeWhile_cons_of_neg (by simpa using hdata'),
        List.takeWhile_cons_of_neg (by simpa using hdata), List.append_nil, List.append_nil] at hsame
      subst hsame
      obtain ⟨hd, hmore⟩ := List.cons.inj (List.append_cancel_left hincoming)
      obtain ⟨rfl, rfl⟩ := Prod.mk.inj hd
      exact ⟨hmore, ⟨fs, hframes, htables⟩, hended⟩

theorem learnsFrom_of_take {c : Config} {f : Frame} {data : List UInt8}
    (hkind : f.header.kind = .ok .complete) (hcut : data.take c.datagramBuffer = f.encode) :
    c.learnsFrom data = false := by
  rw [Config.learnsFrom, hcut, Option.isSome_eq_false_iff, Option.isNone_iff_eq_none,
    Option.eq_none_iff_forall_ne_some]
  intro told htable
  obtain ⟨g, hg, hencode⟩ := datagramTable?_eq_some_iff.1 htable
  obtain rfl := Frame.encode_inj hencode
  cases hkind.symm.trans hg.carries.kind

/-- No part of the datagram of a message tells a table. -/
theorem learnsFrom_complete (c : Config) {f : Frame} (hkind : f.header.kind = .ok .complete) :
    c.learnsFrom f.encode = false := by
  by_cases hlong : headerSize ≤ c.datagramBuffer
  · have hcut := f.take_encode hlong
    exact learnsFrom_of_take (by exact hkind) hcut
  · rw [Config.learnsFrom, Option.isSome_eq_false_iff, Option.isNone_iff_eq_none,
      Option.eq_none_iff_forall_ne_some]
    intro told htable
    -- What is cut within the header is no frame.
    obtain ⟨g, -, hencode⟩ := datagramTable?_eq_some_iff.1 htable
    have hsize := g.length_encode
    rw [← hencode, List.length_take] at hsize
    omega

theorem receive_delivers {m : μ} {payload : List UInt8} {flags : Flags}
    {d t : Scene (DatagramSession μ)} {ended : Except Halt (μ × Endpoint)}
    (hrun : (receive flags).run d = (ended, t)) (hheard : unheard ended = false)
    (hsize : payload.length ≤ maxDatagramPayload) {front more : List (Endpoint × List UInt8)}
    {sender : Endpoint}
    (hincoming : d.session.incoming = front ++ (sender, (messageFrame m payload).encode) :: more)
    (hfront : ∀ g ∈ front, d.session.config.learnsFrom g.2 = true) :
    t.session.incoming = more ∧
      Delivers m payload sender flags d.session t.session.peerTable ended := by
  obtain ⟨hmore, -, hended⟩ := (receive_receives hrun).takes hheard hincoming hfront
    (learnsFrom_complete _ (Header.kind_ofKind _ _ _))
  exact ⟨hmore, delivers_of_read hsize hended⟩

/-- A message that can be posted goes out as one datagram, behind that of the table if that is asked
for, and whoever receives it gets all of the message or an error. Of a message that is rejected
nothing goes out, nor does the table. -/
theorem delivery_allOrNothing (m : μ) (flags : Flags) (target : Endpoint)
    (s : Scene (DatagramSession μ)) :
    (∀ payload, Postable m flags payload →
      (s.session.Obliging ((s.session.postFrames m flags payload).map (·.encode.length)) →
        ∃ t, (send m target flags).run s = (.ok (), t) ∧
          s.session.Posts (s.session.postFrames m flags payload) target t.session) ∧
      ∀ (d t : Scene (DatagramSession μ)) (flags' : Flags) (ended : Except Halt (μ × Endpoint))
        (sender : Endpoint) (front more : List (Endpoint × List UInt8)),
        d.session.incoming = front ++ (sender, (messageFrame m payload).encode) :: more →
        (∀ g ∈ front, d.session.config.learnsFrom g.2 = true) →
        (receive flags').run d = (ended, t) → unheard ended = false →
        t.session.incoming = more ∧
          Delivers m payload sender flags' d.session t.session.peerTable ended) ∧
    (∀ halt, Rejected m flags halt → (send m target flags).run s = (.error halt, s)) ∧
    ∀ halt t, (send m target flags).run s = (.error halt, t) → halt.ofTransport = false →
      Rejected m flags halt ∧ t = s := by
  refine ⟨fun payload hpayload => ⟨fun hobliging => hobliging.run_send hpayload target, ?_⟩,
    fun halt hrejected => hrejected.run_send target s,
    fun halt t hrun hhalt => rejected_of_send hrun hhalt⟩
  intro d t flags' ended sender front more hincoming hfront hrun hheard
  exact receive_delivers hrun hheard hpayload.fits hincoming hfront

/-- A socket that takes datagrams at the second attempt. -/
def reluctant : Scene (DatagramSession AnyMessage) where
  session.registry := .ofVersion 1
  session.socket := some { replies :=
    [.fault (.system 4), .whole, .fault (.system IoError.noBuffers), .whole] }

/-- A receiver of one datagram, with room for so many bytes. -/
def roomFor (buffer : Nat) (data : List UInt8) : Scene (DatagramSession AnyMessage) where
  session.registry := .ofVersion 1
  session.config.datagramBuffer := buffer
  session.socket := some { arrivals := [.datagram default data] }

theorem delivery_allOrNothing_reluctant :
    let m : AnyMessage := .raw (.ofBytes 70 none [1, 2, 3])
    let data := (messageFrame m [1, 2, 3]).encode
    let flags : Flags := { versioned := true }
    let got (buffer : Nat) := (receive { keepUnknown := true }).run (roomFor buffer data)
    (∃ t, (send m default flags).run reluctant = (.ok (), t) ∧
      t.session.sent = [(default, (tableFrame reluctant.session.registry).encode),
        (default, data)]) ∧
    (got 13).1 = .ok (m, default) ∧
    (∃ fault, (got 12).1 = .error (.failed (.invalidHeader fault))) ∧
    (send m default { sliced := true }).run reluctant =
      (.error (.failed (.unsupported .slicedDatagram)), reluctant) := by
  intro m data flags got
  have hpostable : Postable m flags [1, 2, 3] := ⟨rfl, rfl, by simp, by decide⟩
  obtain ⟨hsends, hreceives⟩ := (delivery_allOrNothing m flags default reluctant).1 _ hpostable
  have hobliging : reluctant.session.Obliging
      ((reluctant.session.postFrames m flags [1, 2, 3]).map (·.encode.length)) :=
    ⟨_, rfl, .again nofun (.whole (.again nofun (.whole (.done []))))⟩
  have hgot (buffer : Nat) (hheard : unheard (got buffer).1 = false) :=
    (hreceives (roomFor buffer data) (got buffer).2 { keepUnknown := true } (got buffer).1 default
      [] [] rfl (by simp) rfl hheard).2
  obtain ⟨t, hsend, hposts⟩ := hsends hobliging
  refine ⟨⟨t, hsend, hposts.sent⟩, ?_, ?_, ?_⟩
  · have htable : (got 13).2.session.peerTable = .empty := by decide +kernel
    have hwhole := (hgot 13 (by decide +kernel)).whole (by decide) (by decide)
    rw [htable] at hwhole
    exact hwhole
  · exact (hgot 12 (by decide +kernel)).truncated (by decide)
  · exact (delivery_allOrNothing m _ default reluctant).2.1 _ (.sliced rfl)

end DatagramSession

end MessageChannel
