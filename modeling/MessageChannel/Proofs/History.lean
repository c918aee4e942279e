import MessageChannel.Proofs.Disguise
import MessageChannel.Proofs.Passage
import MessageChannel.Proofs.Recognition

namespace MessageChannel

variable {μ : Type}

namespace StreamSession

/-- What the owner of a session can call. -/
inductive Operation (μ : Type) where
  | send (m : μ) (flags : Flags)
  | sendVersion
  | receive (flags : Flags)
  | setTable (table : PeerTable)
  | replaceTransport (t : ByteStream) (reconnect : Bool)
  | close

def Operation.call [Message μ] : Operation μ → Call (StreamSession μ) Unit
  | send m flags => StreamSession.send m flags
  | sendVersion => StreamSession.sendVersion
  | receive flags => do let _ ← StreamSession.receive flags
  | setTable table => Call.update (·.setTable table)
  | replaceTransport t reconnect => do let _ ← StreamSession.replaceTransport t reconnect
  | close => do
      let (_, ended) ← ⟨fun s => (.ok s.session.close.1, { s with session := s.session.close.2 })⟩
      Call.ofExcept ended

/-- A call to close leaves a session without a transport, whatever comes of its shutdown. -/
theorem Operation.session_of_close [Message μ] {s t : Scene (StreamSession μ)}
    {ended : Except Halt Unit} (hrun : (Operation.call .close).run s = (ended, t)) :
    t.session = { s.session.reset with transport := none } := by
  have hkeeps : Call.Keeps id
      (Call.ofExcept s.session.close.1.2 : Call (StreamSession μ) Unit) := .ofExcept _
  have hsession : t.session = s.session.close.2 := hkeeps.of_run hrun
  rw [hsession, StreamSession.close]
  split <;> rfl

/-- The sessions that calls which come back make of a new one. Between the calls the transport may
change in any way, and requests to stop may come and go. -/
inductive Reachable [Message μ] (registry : Registry μ) (config : Config) : StreamSession μ → Prop
  | new (transport : ByteStream) : Reachable registry config (.new registry config transport)
  | call {s t : Scene (StreamSession μ)} {op ended} (hs : Reachable registry config s.session)
      (hrun : (Operation.call op).run s = (ended, t)) (hback : ended ≠ .error .stalled) :
      Reachable registry config t.session
  | meanwhile {s : StreamSession μ} (change : ByteStream → ByteStream) (requested : Bool)
      (hs : Reachable registry config s) :
      Reachable registry config
        { s with transport := s.transport.map change, cancelRequested := requested }

/-- A session with nothing of a message in its receiver. -/
structure Blank (registry : Registry μ) (config : Config) (s : StreamSession μ) : Prop where
  registry : s.registry = registry
  config : s.config = config
  assembly : s.receiver.assembly = { limit := s.config.maxPayload }
  message : s.receiver.message = none

theorem shortage_cases (s : StreamSession μ) :
    s.shortage = .stalled ∨ ∃ error, s.shortage = .failed error := by
  cases htransport : s.transport with
  | none => exact .inr ⟨closedError, by simp [shortage, htransport]⟩
  | some transport =>
      have hshortage : s.shortage = transport.inbound.ending.halt := by simp [shortage, htransport]
      rw [hshortage]
      cases transport.inbound.ending with
      | failed error => exact .inr ⟨error, rfl⟩
      | expired => exact .inr ⟨.timeout, rfl⟩
      | full | stalled => exact .inl rfl

theorem eq_of_hearing {s t : StreamSession μ} (hsame : hearing t = hearing s) :
    t.registry = s.registry ∧ t.config = s.config ∧ t.receiver = s.receiver := by
  simp only [hearing, Prod.mk.injEq] at hsame
  exact ⟨hsame.1, hsame.2.1, hsame.2.2.2⟩

namespace Blank

variable {registry : Registry μ} {config : Config} {s t : StreamSession μ}

theorem new (registry : Registry μ) (config : Config) (transport : ByteStream) :
    Blank registry config (.new registry config transport) := ⟨rfl, rfl, rfl, rfl⟩

theorem of_hearing (h : Blank registry config s) (hsame : hearing t = hearing s) :
    Blank registry config t := by
  obtain ⟨hregistry, hconfig, hreceiver⟩ := eq_of_hearing hsame
  exact ⟨hregistry.trans h.registry, hconfig.trans h.config,
    by rw [hreceiver, hconfig, h.assembly], by rw [hreceiver, h.message]⟩

theorem reset (h : Blank registry config s) : Blank registry config s.reset := by
  refine ⟨h.registry, h.config, ?_, rfl⟩
  simp only [StreamSession.reset, Receiver.reset, h.assembly]
  rfl

variable [Message μ]

/-- Whatever a call to receive comes back with, it leaves nothing behind. -/
theorem receive {s t : Scene (StreamSession μ)} {flags : Flags} {ended : Except Halt μ}
    (h : Blank registry config s.session) (hrun : (StreamSession.receive flags).run s = (ended, t))
    (hback : ended ≠ .error .stalled) : Blank registry config t.session := by
  have hown := (keeps_receive flags).of_run hrun
  simp only [own, Prod.mk.injEq] at hown
  obtain ⟨hregistry, hconfig, hlimit, -⟩ := hown
  obtain ⟨log, fs, demand, u, v, -, hends, ht⟩ := receive_ends hrun
  obtain ⟨r, hreset⟩ : ∃ r, t.session.receiver = Receiver.reset r := by
    rw [ht]
    rcases hends.cases with ⟨typeId, sliced, -, -, hv⟩ | rfl | ⟨error, rfl⟩
    · rw [hv]
      rcases ended with (_ | _ | _) | _ <;> exact ⟨_, rfl⟩
    · rcases u.session.shortage_cases with hstalled | ⟨error, hfailed⟩
      · exact absurd (congrArg Except.error hstalled) hback
      · rw [hfailed]
        exact ⟨_, rfl⟩
    · exact ⟨_, rfl⟩
  have hmax : r.assembly.limit = t.session.config.maxPayload := by
    rw [Receiver.limit, hreset, Receiver.limit, h.assembly, ← hconfig] at hlimit
    exact hlimit
  refine ⟨hregistry.trans h.registry, hconfig.trans h.config, ?_, ?_⟩
  · rw [hreset, ← hmax]
    rfl
  · rw [hreset]
    rfl

theorem call {s t : Scene (StreamSession μ)} {op : Operation μ} {ended : Except Halt Unit}
    (h : Blank registry config s.session) (hrun : op.call.run s = (ended, t))
    (hback : ended ≠ .error .stalled) : Blank registry config t.session := by
  cases op with
  | send m flags => exact h.of_hearing ((keeps_send m flags).of_run hrun)
  | sendVersion => exact h.of_hearing (keeps_sendVersion.of_run hrun)
  | receive flags =>
      rw [Operation.call, Call.run_bind] at hrun
      cases hreceive : (StreamSession.receive flags).run s with
      | mk ended' u =>
          rw [hreceive] at hrun
          cases ended' with
          | ok m =>
              obtain ⟨-, rfl⟩ := Prod.mk.inj hrun
              exact h.receive hreceive (by simp)
          | error halt =>
              obtain ⟨rfl, rfl⟩ := Prod.mk.inj hrun
              exact h.receive hreceive (by simpa using hback)
  | setTable table =>
      obtain ⟨-, rfl⟩ := Prod.mk.inj hrun
      exact ⟨h.registry, h.config, h.assembly, h.message⟩
  | replaceTransport transport reconnect =>
      have hreset := h.reset
      cases reconnect with
      | true | false =>
          obtain ⟨-, rfl⟩ := Prod.mk.inj hrun
          exact ⟨hreset.registry, hreset.config, hreset.assembly, hreset.message⟩
  | close =>
      have hreset := h.reset
      rw [Operation.session_of_close hrun]
      exact ⟨hreset.registry, hreset.config, hreset.assembly, hreset.message⟩

end Blank

theorem Reachable.blank [Message μ] {registry : Registry μ} {config : Config} {s : StreamSession μ}
    (h : Reachable registry config s) : Blank registry config s := by
  induction h with
  | new transport => exact .new registry config transport
  | call hs hrun hback ih => exact ih.call hrun hback
  | meanwhile change requested hs ih => exact ⟨ih.registry, ih.config, ih.assembly, ih.message⟩

/-- Two such sessions differ in nothing that calls to receive go by. -/
theorem Blank.eq_disguised {registry : Registry μ} {config : Config} {s t : StreamSession μ}
    (hs : Blank registry config s) (ht : Blank registry config t)
    (hinbound : s.transport.map (·.inbound) = t.transport.map (·.inbound))
    (htable : s.receiver.peerTable = t.receiver.peerTable) :
    t = disguised (t.transport.getD {}) t.cancelRequested (fun _ => t.receiver.header) s := by
  have htransport : t.transport =
      s.transport.map fun u => { t.transport.getD {} with inbound := u.inbound } := by
    cases hs' : s.transport <;> cases ht' : t.transport <;> simp_all
  obtain ⟨registry, config, transport, ⟨header, assembly, message, peerTable⟩, requested⟩ := s
  obtain ⟨registry', config', transport', ⟨header', assembly', message', peerTable'⟩,
    requested'⟩ := t
  obtain ⟨hregistry, hconfig, hassembly, hmessage⟩ := hs
  obtain ⟨hregistry', hconfig', hassembly', hmessage'⟩ := ht
  dsimp only at htable htransport hregistry hconfig hassembly hmessage
  dsimp only at hregistry' hconfig' hassembly' hmessage'
  subst htable hregistry hregistry' hconfig hconfig' hassembly hassembly' hmessage hmessage'
  rw [disguised, mk.injEq]
  exact ⟨rfl, rfl, htransport, rfl, rfl⟩

/-- A call to receive does not go by what was called before. For two sessions over the same types
and settings, with the same bytes to come and the same table of their peer, it comes to the same
end at the same time, tells the same, and leaves the same bytes and the same table. Only the last
headers may differ behind it, if it reads no header and they did before. -/
theorem receive_forgets [Message μ] {registry : Registry μ} {config : Config}
    {s t s' t' : StreamSession μ} {flags : Flags} {now later later' : Nat}
    {ended ended' : Except Halt μ} {told told' : List Event} (hs : Reachable registry config s)
    (ht : Reachable registry config t)
    (hinbound : s.transport.map (·.inbound) = t.transport.map (·.inbound))
    (htable : s.receiver.peerTable = t.receiver.peerTable)
    (hrun : (receive flags).start s now = (ended, s', later, told))
    (hrun' : (receive flags).start t now = (ended', t', later', told')) :
    (s.receiver.assembly = { limit := config.maxPayload } ∧ s.receiver.message = none) ∧
    (ended' = ended ∧ later' = later ∧ told' = told ∧
      t'.transport.map (·.inbound) = s'.transport.map (·.inbound) ∧
      t'.receiver.peerTable = s'.receiver.peerTable ∧
      ((∃ log, GetsHeader ⟨s, now, log⟩) ∧ t'.receiver.header = s'.receiver.header ∨
        (∃ log, ¬GetsHeader ⟨s, now, log⟩) ∧ s'.receiver.header = s.receiver.header ∧
          t'.receiver.header = t.receiver.header)) ∧
    s'.cancelRequested = s.cancelRequested ∧
    ∀ m flags, hearing ((send m flags).start s now).2.1 = hearing s ∧
      hearing (sendVersion.start s now).2.1 = hearing s := by
  have hblank := hs.blank
  obtain ⟨log, hreceive, rfl⟩ := Call.run_of_start hrun
  obtain ⟨log', hreceive', rfl⟩ := Call.run_of_start hrun'
  have hown := (keeps_receive flags).of_run hreceive
  simp only [own, Prod.mk.injEq] at hown
  refine ⟨⟨?_, hblank.message⟩, ?_, hown.2.2.2, fun m flags => ⟨?_, ?_⟩⟩
  · rw [hblank.assembly, hblank.config]
  · obtain ⟨log₀, label, hdisguised, hlabel⟩ := receive_disguised (t.transport.getD {})
      t.cancelRequested (fun _ => t.receiver.header) flags ⟨s, now, #[]⟩
    dsimp only at hdisguised
    rw [← hblank.eq_disguised ht.blank hinbound htable, hreceive, hreceive'] at hdisguised
    simp only [Prod.mk.injEq, Scene.mk.injEq] at hdisguised
    obtain ⟨rfl, rfl, rfl, rfl⟩ := hdisguised
    refine ⟨rfl, rfl, rfl, ?_, rfl, ?_⟩
    · rw [disguised, Option.map_map]
      rfl
    · rw [hreceive] at hlabel
      rcases hlabel with ⟨hgets, rfl⟩ | ⟨hnone, rfl, hheader⟩
      · exact .inl ⟨⟨log₀, hgets⟩, rfl⟩
      · exact .inr ⟨⟨log₀, hnone⟩, hheader, rfl⟩
  · exact keeps_send m flags ⟨s, now, #[]⟩
  · exact keeps_sendVersion ⟨s, now, #[]⟩

def letter : Frame := ⟨.complete 1 rawTypeId, [7]⟩

/-- A transport with one message to come, and the end behind it. -/
def post : ByteStream := { inbound := { arrivals := [.bytes letter.encode] } }

def newcomer (transport : ByteStream) : StreamSession AnyMessage := .new (.ofVersion 1) {} transport

/-- A session that has received a message and then got another transport to the same peer. -/
def returned (transport : ByteStream) : Scene (StreamSession AnyMessage) :=
  ((Operation.replaceTransport transport true).call.run
    ((Operation.receive .none).call.run { session := newcomer post }).2).2

theorem Reachable.after [Message μ] {registry : Registry μ} {config : Config}
    {s : Scene (StreamSession μ)} (hs : Reachable registry config s.session) (op : Operation μ)
    (hback : (op.call.run s).1 ≠ .error .stalled) :
    Reachable registry config (op.call.run s).2.session := .call hs rfl hback

theorem reachable_newcomer (transport : ByteStream) :
    Reachable (.ofVersion 1) {} (newcomer transport) := .new transport

theorem reachable_returned (transport : ByteStream) :
    Reachable (.ofVersion 1) {} (returned transport).session := by
  refine .after (.after (reachable_newcomer post) _ ?_) _ ?_
  · decide +kernel
  · exact fun h => by cases h

theorem receive_forgets_returned :
    ((receive .none).start (returned post).session 0).1.isOk = true := by
  have hended : ((receive .none).start (newcomer post) 0).1.isOk = true := by decide +kernel
  generalize hrun : (receive .none).start (newcomer post) 0 = result at hended
  generalize hrun' : (receive .none).start (returned post).session 0 = result'
  obtain ⟨ended, s, later, told⟩ := result
  obtain ⟨ended', t, later', told'⟩ := result'
  have hforgets := receive_forgets (reachable_newcomer post) (reachable_returned post)
    (by decide +kernel) (by decide +kernel) hrun hrun'
  rw [hforgets.2.1.1]
  exact hended

/-- A session that reads no header keeps the one that it read last, so calls that were made before
can be told from that. -/
theorem receive_keeps_lastHeader :
    Reachable (.ofVersion 1) {} (newcomer {}) ∧ Reachable (.ofVersion 1) {} (returned {}).session ∧
    (newcomer {}).transport.map (·.inbound) = (returned {}).session.transport.map (·.inbound) ∧
    (newcomer {}).receiver.peerTable = (returned {}).session.receiver.peerTable ∧
    ((receive .none).start (newcomer {}) 0).2.1.receiver.header ≠
      ((receive .none).start (returned {}).session 0).2.1.receiver.header :=
  ⟨reachable_newcomer {}, reachable_returned {}, by decide +kernel, by decide +kernel,
    by decide +kernel⟩

end StreamSession

end MessageChannel
