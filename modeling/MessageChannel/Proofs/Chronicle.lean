import MessageChannel.Proofs.DatagramTables
import MessageChannel.Proofs.History
import MessageChannel.Proofs.Posting
import MessageChannel.Proofs.StreamTables

namespace MessageChannel

variable {μ : Type}

namespace StreamSession

/-- The tables that a call puts in force, in order. -/
def Operation.tables (s : StreamSession μ) (ended : Except Halt Unit) (t : StreamSession μ) :
    Operation μ → List PeerTable
  | receive _ => s.told ended t
  | setTable table => [table]
  | replaceTransport _ false => [.empty]
  | replaceTransport _ true | send _ _ | sendVersion | close => []

/-- The sessions that calls make of a new one, with all tables that were put in force on the way, in
order. A call that waits for ever may be given up. Between the calls the transport may change in
any way, and requests to stop may come and go. -/
inductive Chronicle [Message μ] (registry : Registry μ) (config : Config) :
    List PeerTable → StreamSession μ → Prop
  | new (transport : ByteStream) :
      Chronicle registry config [.empty] (.new registry config transport)
  | call {past} {s t : Scene (StreamSession μ)} {op ended}
      (hs : Chronicle registry config past s.session)
      (hrun : (Operation.call op).run s = (ended, t)) :
      Chronicle registry config (past ++ op.tables s.session ended t.session) t.session
  | meanwhile {past} {s : StreamSession μ} (change : ByteStream → ByteStream) (requested : Bool)
      (hs : Chronicle registry config past s) : Chronicle registry config past
        { s with transport := s.transport.map change, cancelRequested := requested }

theorem Chronicle.after [Message μ] {registry : Registry μ} {config : Config}
    {past : List PeerTable} {s : Scene (StreamSession μ)}
    (hs : Chronicle registry config past s.session) (op : Operation μ) :
    Chronicle registry config
      (past ++ op.tables s.session (op.call.run s).1 (op.call.run s).2.session)
      (op.call.run s).2.session := .call hs rfl

section

variable [Message μ] {s t : Scene (StreamSession μ)}

theorem Operation.in_force {op : Operation μ} {ended : Except Halt Unit}
    (hlimit : s.session.receiver.limit = s.session.config.maxPayload)
    (hrun : op.call.run s = (ended, t)) :
    t.session.config = s.session.config ∧ t.session.receiver.limit = s.session.receiver.limit ∧
      t.session.receiver.peerTable =
        (op.tables s.session ended t.session).getLast?.getD s.session.receiver.peerTable := by
  cases op with
  | send m flags =>
      obtain ⟨-, hconfig, hreceiver⟩ := eq_of_hearing ((keeps_send m flags).of_run hrun)
      exact ⟨hconfig, by rw [hreceiver], congrArg Receiver.peerTable hreceiver⟩
  | sendVersion =>
      obtain ⟨-, hconfig, hreceiver⟩ := eq_of_hearing (keeps_sendVersion.of_run hrun)
      exact ⟨hconfig, by rw [hreceiver], congrArg Receiver.peerTable hreceiver⟩
  | receive flags =>
      rw [Operation.call, Call.run_bind] at hrun
      cases hreceive : (StreamSession.receive flags).run s with
      | mk ended' u =>
          have hown := (keeps_receive flags).of_run hreceive
          simp only [own, Prod.mk.injEq] at hown
          obtain ⟨-, hconfig, hsame, -⟩ := hown
          have htold := receive_told hlimit hreceive
          rw [hreceive] at hrun
          cases ended' with
          | ok m =>
              obtain ⟨rfl, rfl⟩ := Prod.mk.inj hrun
              exact ⟨hconfig, hsame, htold⟩
          | error halt =>
              obtain ⟨rfl, rfl⟩ := Prod.mk.inj hrun
              exact ⟨hconfig, hsame, htold⟩
  | setTable table =>
      obtain ⟨-, rfl⟩ := Prod.mk.inj hrun
      exact ⟨rfl, rfl, rfl⟩
  | replaceTransport transport reconnect =>
      cases reconnect with
      | true | false =>
          obtain ⟨-, rfl⟩ := Prod.mk.inj hrun
          exact ⟨rfl, rfl, rfl⟩
  | close =>
      rw [Operation.session_of_close hrun]
      exact ⟨rfl, rfl, rfl⟩

end

variable [Message μ] {registry : Registry μ} {config : Config} {past : List PeerTable}
  {s : StreamSession μ}

theorem Chronicle.settings (h : Chronicle registry config past s) :
    s.config = config ∧ s.receiver.limit = s.config.maxPayload := by
  induction h with
  | new transport => exact ⟨rfl, rfl⟩
  | call hs hrun ih =>
      obtain ⟨hconfig, hlimit, -⟩ := Operation.in_force ih.2 hrun
      exact ⟨hconfig.trans ih.1, by rw [hlimit, hconfig, ih.2]⟩
  | meanwhile change requested hs ih => exact ih

/-- The table that a session goes by is the last one that was put in force. -/
theorem Chronicle.getLast? (h : Chronicle registry config past s) :
    past.getLast? = some s.receiver.peerTable := by
  induction h with
  | new transport => rfl
  | call hs hrun ih =>
      rw [(Operation.in_force hs.settings.2 hrun).2.2, List.getLast?_append, ih, Option.or_some]
  | meanwhile change requested hs ih => exact ih

/-- How a session deals with handshakes, and with what looks like one. -/
structure Handshakes (config : Config) (s : StreamSession μ) : Prop where
  /-- A table is taken over, of whatever version the peer is, and the call goes on behind it. -/
  succeed : ∀ {f table rest flags now log ended t}, s.receiver.assembly.inFlight = none →
    Frame.Tells config.maxPayload f table → s.available = f.encode ++ rest →
    (receiveFrame flags).run ⟨s, now, log⟩ = (ended, t) → ended ≠ .error (.failed .timeout) →
      ended = .ok none ∧ t.session.receiver.peerTable = table ∧ t.session.available = rest
  /-- The tables that a stream begins with stay in force, whatever frame of another kind comes
  behind them, and if it is one of a table that is refused. -/
  stay : ∀ {fs last h bytes flags now log ended t}, s.receiver.assembly.inFlight = none →
    Tables config.maxPayload s.receiver.peerTable fs last →
    s.available = wire fs ++ (h.encode ++ bytes) →
    (h.kind = .ok .versionVerification → Header.Refused config.maxPayload h bytes) →
    (receive flags).run ⟨s, now, log⟩ = (ended, t) → ended ≠ .error (.failed .timeout) →
      t.session.receiver.peerTable = last
  /-- Amid slices no table is taken over. -/
  wait : ∀ {announced flags now log ended t}, s.receiver.assembly.inFlight = some announced →
    (receive flags).run ⟨s, now, log⟩ = (ended, t) →
      t.session.receiver.peerTable = s.receiver.peerTable

theorem Chronicle.handshakes (h : Chronicle registry config past s) : s.Handshakes config := by
  obtain ⟨rfl, hlimit⟩ := h.settings
  refine ⟨fun hidle hf havailable hrun hquiet => ?_,
    fun hidle htables havailable hrefused hrun hquiet => ?_, fun hflight hrun => ?_⟩
  · exact receiveFrame_tells ⟨hidle, hlimit⟩ hf havailable hrun hquiet
  · refine receive_kept ⟨hidle, hlimit⟩ htables havailable ?_ hrun hquiet
    exact toldTables_of_header hrefused
  · rw [receive_told hlimit hrun, told, if_pos (by simp [Assembly.isAssembling, hflight])]
    rfl

end StreamSession

namespace DatagramSession

/-- What the owner of a session can call. -/
inductive Operation (μ : Type) where
  | send (m : μ) (target : Endpoint) (flags : Flags)
  | sendVersion (target : Endpoint)
  | receive (flags : Flags)
  | setTable (table : PeerTable)
  | close

def Operation.call [Message μ] : Operation μ → Call (DatagramSession μ) Unit
  | send m target flags => DatagramSession.send m target flags
  | sendVersion target => DatagramSession.sendVersion target
  | receive flags => do let _ ← DatagramSession.receive flags
  | setTable table => Call.update ({ · with peerTable := table })
  | close => Call.update DatagramSession.close

/-- The tables that a call puts in force, in order. -/
def Operation.tables (s t : DatagramSession μ) : Operation μ → List PeerTable
  | receive _ => s.told t
  | setTable table => [table]
  | send _ _ _ | sendVersion _ | close => []

/-- The sessions that calls make of a new one, with all tables that were put in force on the way, in
order. -/
inductive Chronicle [Message μ] (registry : Registry μ) (config : Config) :
    List PeerTable → DatagramSession μ → Prop
  | new (socket : DatagramSocket) :
      Chronicle registry config [.empty] { registry, config, socket := some socket }
  | call {past} {s t : Scene (DatagramSession μ)} {op ended}
      (hs : Chronicle registry config past s.session)
      (hrun : (Operation.call op).run s = (ended, t)) :
      Chronicle registry config (past ++ op.tables s.session t.session) t.session
  | meanwhile {past} {s : DatagramSession μ} (change : DatagramSocket → DatagramSocket)
      (hs : Chronicle registry config past s) :
      Chronicle registry config past { s with socket := s.socket.map change }

theorem Chronicle.after [Message μ] {registry : Registry μ} {config : Config}
    {past : List PeerTable} {s : Scene (DatagramSession μ)}
    (hs : Chronicle registry config past s.session) (op : Operation μ) :
    Chronicle registry config (past ++ op.tables s.session (op.call.run s).2.session)
      (op.call.run s).2.session := .call hs rfl

variable [Message μ] {s t : Scene (DatagramSession μ)}

omit [Message μ] in
theorem Posting.keeps {s t : DatagramSession μ} {frames : List Frame} {target : Endpoint}
    {ended : Except Halt Unit} (h : s.Posting frames target ended t) :
    t.config = s.config ∧ t.peerTable = s.peerTable := by
  obtain ⟨posted, -, hposts, -⟩ := h
  rw [hposts.session]
  exact ⟨rfl, rfl⟩

theorem Operation.in_force {op : Operation μ} {ended : Except Halt Unit}
    (hrun : op.call.run s = (ended, t)) :
    t.session.config = s.session.config ∧ t.session.peerTable =
      (op.tables s.session t.session).getLast?.getD s.session.peerTable := by
  cases op with
  | send m target flags =>
      rcases send_posting hrun with ⟨-, hsame⟩ | ⟨payload, -, hposting⟩
      · rw [hsame]
        exact ⟨rfl, rfl⟩
      · exact hposting.keeps
  | sendVersion target => exact (sendVersion_posting hrun).keeps
  | receive flags =>
      rw [Operation.call, Call.run_bind] at hrun
      cases hreceive : (DatagramSession.receive flags).run s with
      | mk ended' u =>
          have hlearns := receive_learns hreceive
          rw [hreceive] at hrun
          cases ended' <;> obtain ⟨rfl, rfl⟩ := Prod.mk.inj hrun <;>
            exact ⟨hlearns.config, hlearns.peerTable⟩
  | setTable table | close =>
      obtain ⟨-, rfl⟩ := Prod.mk.inj hrun
      exact ⟨rfl, rfl⟩

variable {registry : Registry μ} {config : Config} {past : List PeerTable} {d : DatagramSession μ}

theorem Chronicle.settings (h : Chronicle registry config past d) : d.config = config := by
  induction h with
  | new socket => rfl
  | call hs hrun ih => exact (Operation.in_force hrun).1.trans ih
  | meanwhile change hs ih => exact ih

/-- The table that a session goes by is the last one that was put in force. -/
theorem Chronicle.getLast? (h : Chronicle registry config past d) :
    past.getLast? = some d.peerTable := by
  induction h with
  | new socket => rfl
  | call hs hrun ih => rw [(Operation.in_force hrun).2, List.getLast?_append, ih, Option.or_some]
  | meanwhile change hs ih => exact ih

/-- How a session deals with handshakes, and with what looks like one. -/
structure Handshakes (config : Config) (d : DatagramSession μ) : Prop where
  /-- A table is taken over, of whatever version the peer is, and the call goes on behind it. -/
  succeed : ∀ {f table flags sender now log}, Frame.Tells config.maxPayload f table →
    ∃ log', (onDatagram flags sender f.encode).run ⟨d, now, log⟩ =
      (.ok none, ⟨{ d with header := f.header, peerTable := table }, now, log'⟩)
  /-- The table in force stays if a datagram is not the whole frame of another one. -/
  stay : ∀ {bytes flags sender now log ended t},
    (∀ f table, Frame.Tells config.maxPayload f table → bytes ≠ f.encode) →
    (onDatagram flags sender bytes).run ⟨d, now, log⟩ = (ended, t) →
      t.session.peerTable = d.peerTable

theorem Chronicle.handshakes (h : Chronicle registry config past d) : d.Handshakes config := by
  obtain rfl := h.settings
  refine ⟨fun hf => onDatagram_tells hf _ _, fun hnone hrun => onDatagram_untold ?_ hrun⟩
  refine Option.eq_none_iff_forall_ne_some.2 fun table htable => ?_
  obtain ⟨f, hf, hbytes⟩ := datagramTable?_eq_some_iff.1 htable
  exact hnone f table hf hbytes

end DatagramSession

section

variable [Message μ] {registry : Registry μ} {config : Config} {past past' : List PeerTable}
  {s : StreamSession μ} {d : DatagramSession μ}

/-- The table that a session goes by is the last one that was put in force, whole: by a handshake,
by its owner, or the empty one that is there for a new peer. That holds on streams and in
datagrams, whatever came in and however the calls ended. -/
theorem peerTable_in_force (hs : StreamSession.Chronicle registry config past s)
    (hd : DatagramSession.Chronicle registry config past' d) :
    past.getLast? = some s.receiver.peerTable ∧ s.Handshakes config ∧
      past'.getLast? = some d.peerTable ∧ d.Handshakes config :=
  ⟨hs.getLast?, hs.handshakes, hd.getLast?, hd.handshakes⟩

end

/-- A table, and a header of the old form behind it. -/
def introduction : List Frame :=
  [tableFrame (StreamSession.both "Ping" "Pong"), ⟨.versionVerification 0 7, []⟩]

def beforeIntroduction : Scene (StreamSession AnyMessage) where
  session := .new (.ofVersion 2) {} { inbound := { arrivals := [.bytes (wire introduction)] } }

def beforeDatagrams : Scene (DatagramSession AnyMessage) where
  session.registry := .ofVersion 2
  session.socket := some { arrivals := introduction.map fun f => .datagram default f.encode }

theorem peerTable_in_force_introduced :
    let stream := (StreamSession.Operation.receive .none).call.run beforeIntroduction
    let datagrams := (DatagramSession.Operation.receive .none).call.run beforeDatagrams
    stream.2.session.receiver.peerTable = (StreamSession.both "Ping" "Pong").table ∧
      datagrams.2.session.peerTable = (StreamSession.both "Ping" "Pong").table := by
  have hs : StreamSession.Chronicle (.ofVersion 2) {} [.empty] beforeIntroduction.session := .new _
  have hd : DatagramSession.Chronicle (.ofVersion 2) {} [.empty] beforeDatagrams.session := .new _
  obtain ⟨hlast, -, hlast', -⟩ :=
    peerTable_in_force (hs.after (.receive .none)) (hd.after (.receive .none))
  refine ⟨Option.some.inj (hlast.symm.trans ?_), Option.some.inj (hlast'.symm.trans ?_)⟩
  · decide +kernel
  · decide +kernel

end MessageChannel
