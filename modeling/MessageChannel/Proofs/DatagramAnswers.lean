import MessageChannel.Message.Any
import MessageChannel.Proofs.DatagramTables
import Mathlib.Data.List.Forall2

namespace MessageChannel

variable {μ : Type}

/-- A datagram that is one whole message for a receiver with this limit. -/
structure WellFormed (limit : UInt32) (bytes : List UInt8) (h : Header) : Prop where
  long : headerSize ≤ bytes.length
  header : Header.decode? bytes = some h
  length : h.length.toNat = bytes.length - headerSize
  fits : h.length ≤ limit
  kind : h.kind = .ok .complete

theorem wellFormed_encode_iff {limit : UInt32} {f : Frame} {h : Header} :
    WellFormed limit f.encode h ↔ f.header = h ∧ f.Carries .complete ∧ f.header.length ≤ limit := by
  have hdecode : Header.decode? f.encode = some f.header := by
    rw [Frame.encode, Header.decode?_encode_append]
  have hlength := f.length_encode
  constructor
  · rintro ⟨hlong, hheader, hsize, hfits, hkind⟩
    obtain rfl := Option.some.inj (hdecode.symm.trans hheader)
    exact ⟨rfl, ⟨hkind, by omega⟩, hfits⟩
  · rintro ⟨rfl, hf, hfits⟩
    have hsize := hf.length
    exact ⟨by omega, hdecode, by omega, hfits, hf.kind⟩

theorem ofTransport_of_refusal {error : ChannelError} (hcode : error.code ∈ refusals) :
    (Halt.failed error).ofTransport = false := by
  cases error <;> simp [ChannelError.code, refusals] at hcode <;> rfl

variable [Message μ]

theorem Receiver.ofTransport_handOut {flags : Flags} {blank? : Option μ} {peer : PeerTable}
    {typeId : Int32} {sliced : Bool} {payload : List UInt8} {halt : Halt}
    (hhand : Receiver.handOut flags blank? peer typeId sliced payload = .error halt) :
    halt.ofTransport = false := by
  rcases handOut_fails hhand with ⟨error, rfl, hundelivered⟩ | ⟨rfl, -⟩
  · cases hundelivered <;> rfl
  · rfl

section

variable {registry : Registry μ} {limit : UInt32} {flags : Flags} {table : PeerTable}
  {bytes : List UInt8} {halt : Halt}

theorem Frame.ofTransport_readBody {f : Frame}
    (hread : f.readBody registry flags table = .error halt) : halt.ofTransport = false := by
  rw [Frame.readBody] at hread
  split at hread
  · next hkind =>
    obtain rfl := Except.error.inj hread
    exact ofTransport_of_refusal (Header.kind_refuses hkind)
  · generalize hhand : Receiver.handOut flags (registry.resolve? f.header.data table) table
      f.header.data false f.payload = ended at hread
    cases ended with
    | ok m => cases hread
    | error halt' =>
        obtain rfl := Except.error.inj hread
        exact Receiver.ofTransport_handOut hhand
  · split at hread
    · split at hread
      · cases hread
      · next hdecode =>
        obtain rfl := Except.error.inj hread
        exact ofTransport_of_refusal (PeerTable.decode_refuses hdecode)
    · obtain rfl := Except.error.inj hread
      rfl
  · obtain rfl := Except.error.inj hread
    rfl

/-- No datagram looks like an end that the transport makes. -/
theorem ofTransport_readDatagram
    (hread : readDatagram registry limit flags table bytes = .error halt) :
    halt.ofTransport = false := by
  rw [readDatagram] at hread
  split at hread
  · next f hframe =>
    rcases Frame.read_cases registry limit flags table f with
      ⟨-, -, hbody⟩ | ⟨error, hcode, hrefused⟩
    · exact Frame.ofTransport_readBody (hbody.symm.trans hread)
    · obtain rfl := Except.error.inj (hrefused.symm.trans hread)
      exact ofTransport_of_refusal hcode
  · obtain rfl := Except.error.inj hread
    rfl

/-- What a call to receive answers to a datagram that tells no table, and when that is a message. -/
structure Verdict (registry : Registry μ) (limit : UInt32) (flags : Flags) (table : PeerTable)
    (sender : Endpoint) (bytes : List UInt8) (ended : Except Halt (μ × Endpoint)) : Prop where
  eq_read : ended.map some =
    (readDatagram registry limit flags table bytes).map (·.message?.map (·, sender))
  eq_ok_iff : ∀ m origin, ended = .ok (m, origin) ↔ origin = sender ∧
    ∃ h, WellFormed limit bytes h ∧ Yields registry flags table h.data (bytes.drop headerSize) m

theorem readDatagram_eq_message_iff_wellFormed {m : μ} :
    readDatagram registry limit flags table bytes = .ok (.message m) ↔
      ∃ h, WellFormed limit bytes h ∧
        Yields registry flags table h.data (bytes.drop headerSize) m := by
  rw [readDatagram_eq_message_iff]
  constructor
  · rintro ⟨f, rfl, hf, hfits, hyields⟩
    refine ⟨f.header, wellFormed_encode_iff.2 ⟨rfl, hf, hfits⟩, ?_⟩
    rwa [Frame.encode, List.drop_left' f.header.length_encode]
  · rintro ⟨h, hwell, hyields⟩
    obtain ⟨f, rfl⟩ := Frame.exists_encode_eq hwell.long
    obtain ⟨rfl, hf, hfits⟩ := wellFormed_encode_iff.1 hwell
    rw [Frame.encode, List.drop_left' f.header.length_encode] at hyields
    exact ⟨f, rfl, hf, hfits, hyields⟩

theorem verdict_of_read {sender : Endpoint} {ended : Except Halt (μ × Endpoint)}
    (hended : ended.map some =
      (readDatagram registry limit flags table bytes).map (·.message?.map (·, sender))) :
    Verdict registry limit flags table sender bytes ended := by
  refine ⟨hended, fun m origin => ?_⟩
  rw [← readDatagram_eq_message_iff_wellFormed]
  cases hread : readDatagram registry limit flags table bytes with
  | error halt =>
      rw [hread] at hended
      cases ended <;> cases hended
      simp
  | ok reading =>
      rw [hread] at hended
      cases reading with
      | table told => cases ended <;> cases hended
      | message m' =>
          cases ended with
          | error halt => cases hended
          | ok got =>
              obtain rfl : got = (m', sender) := Option.some.inj (Except.ok.inj hended)
              simp [eq_comm, and_comm]

theorem Verdict.not_ofTransport {sender : Endpoint} {ended : Except Halt (μ × Endpoint)}
    (h : Verdict registry limit flags table sender bytes ended) {halt : Halt}
    (hended : ended = .error halt) : halt.ofTransport = false := by
  have hread := h.eq_read
  rw [hended] at hread
  cases hread' : readDatagram registry limit flags table bytes with
  | ok reading =>
      rw [hread'] at hread
      cases hread
  | error halt' =>
      rw [hread'] at hread
      obtain rfl := Except.error.inj hread
      exact ofTransport_readDatagram hread'

end

/-- The datagrams that tell no table, each with the table that is in force when it comes. -/
def untold (limit : UInt32) : PeerTable → List (Endpoint × List UInt8) →
    List (PeerTable × Endpoint × List UInt8)
  | _, [] => []
  | table, (sender, bytes) :: datagrams =>
      match datagramTable? limit bytes with
      | some told => untold limit told datagrams
      | none => (table, sender, bytes) :: untold limit table datagrams

omit [Message μ] in
theorem untold_tables {limit : UInt32} {table told : PeerTable} {fs : List Frame}
    {tables : List (Endpoint × List UInt8)} (htables : Tables limit table fs told)
    (hframes : tables.map Prod.snd = fs.map Frame.encode)
    (datagrams : List (Endpoint × List UInt8)) :
    untold limit table (tables ++ datagrams) = untold limit told datagrams := by
  induction htables generalizing tables with
  | none table =>
      obtain rfl := List.map_eq_nil_iff.1 hframes
      rfl
  | @next f fs table told last hf hdata hfits hdecode hrest ih =>
      obtain ⟨⟨sender, bytes⟩, tables, rfl, rfl, hbehind⟩ := List.map_eq_cons_iff.1 hframes
      rw [List.cons_append, untold, datagramTable?_encode ⟨hf, hdata, hfits, hdecode⟩]
      exact ih hbehind

namespace DatagramSession

/-- The datagrams that a receiver gets between two sessions, with who sent them. -/
def received (s t : DatagramSession μ) : List (Endpoint × List UInt8) :=
  (frontOf s.arrivals t.arrivals).filterMap (DatagramSocket.received? s.config.datagramBuffer)

omit [Message μ] in
theorem Draws.received {s t : DatagramSession μ} {datagrams : List (Endpoint × List UInt8)}
    (h : s.Draws datagrams t) : s.received t = datagrams := by
  obtain ⟨taken, harrivals, rfl⟩ := h.arrivals
  rw [DatagramSession.received, harrivals, frontOf_append]

/-- Calls to receive, one after the other, with how each ends. One that waits for ever is given
up. -/
def receiveAll : List Flags → Scene (DatagramSession μ) →
    List (Flags × Except Halt (μ × Endpoint)) × Scene (DatagramSession μ)
  | [], s => ([], s)
  | flags :: calls, s =>
      let (ended, t) := (receive flags).run s
      let (others, u) := receiveAll calls t
      ((flags, ended) :: others, u)

/-- Whether the transport has ended a call. -/
def unheard : Except Halt (μ × Endpoint) → Bool
  | .ok _ => false
  | .error halt => halt.ofTransport

/-- The calls that the transport has not ended. -/
def heard (calls : List (Flags × Except Halt (μ × Endpoint))) :
    List (Flags × Except Halt (μ × Endpoint)) :=
  calls.filter fun call => !unheard call.2

variable {s t : Scene (DatagramSession μ)}

theorem receiveAll_cons (flags : Flags) (calls : List Flags) (s : Scene (DatagramSession μ)) :
    receiveAll (flags :: calls) s =
      let t := ((receive flags).run s).2
      ((flags, ((receive flags).run s).1) :: (receiveAll calls t).1, (receiveAll calls t).2) := rfl

theorem receiveAll_draws (calls : List Flags) (s : Scene (DatagramSession μ)) :
    ∃ datagrams, s.session.Draws datagrams (receiveAll calls s).2.session ∧
      List.Forall₂ (fun (table, sender, bytes) (flags, ended) =>
        Verdict s.session.registry s.session.config.maxPayload flags table sender bytes ended)
      (untold s.session.config.maxPayload s.session.peerTable datagrams)
      (heard (receiveAll calls s).1) := by
  induction calls generalizing s with
  | nil => exact ⟨[], .refl _, .nil⟩
  | cons flags calls ih =>
      cases hrun : (receive flags).run s with
      | mk ended t =>
          rw [receiveAll_cons, hrun]
          dsimp only
          obtain ⟨datagrams, hdraws, hverdicts⟩ := ih t
          cases receive_receives hrun with
          | @nothing halt tables fs hended hhalt hreceives htables hframes =>
              rw [hreceives.registry, hreceives.config] at hverdicts
              refine ⟨tables ++ datagrams, hreceives.toDraws.trans hdraws, ?_⟩
              rw [untold_tables htables hframes]
              simpa [heard, unheard, hended, hhalt] using hverdicts
          | @datagram tables fs sender bytes hreceives htables hframes hended =>
              rw [hreceives.registry, hreceives.config] at hverdicts
              refine ⟨_, hreceives.toDraws.trans hdraws, ?_⟩
              have hverdict := verdict_of_read hended
              have hheard : unheard ended = false := by
                cases ended with
                | ok got => rfl
                | error halt => exact hverdict.not_ofTransport rfl
              rw [List.append_assoc, untold_tables htables hframes, List.singleton_append, untold,
                datagramTable?_of_ended hended]
              simpa [heard, hheard] using And.intro hverdict hverdicts

/-- The same scene with other bytes in the buffer. -/
def withBuffer (buffer : List UInt8) (s : Scene (DatagramSession μ)) : Scene (DatagramSession μ) :=
  { s with session := { s.session with buffer } }

omit [Message μ] in
/-- What a wait makes of the buffer shows at most behind the datagram. -/
theorem pickUp_withBuffer (buffer : List UInt8) (s : Scene (DatagramSession μ)) :
    ∃ buffer', pickUp.run (withBuffer buffer s) =
        ((pickUp.run s).1, withBuffer buffer' (pickUp.run s).2) ∧
      ∀ sender length, (pickUp.run s).1 = .ok (sender, length) →
        buffer'.take length = (pickUp.run s).2.session.buffer.take length := by
  cases hsocket : s.session.socket with
  | none =>
      refine ⟨buffer, ?_, ?_⟩
      all_goals
        simp only [pickUp, connected, Call.run_bind, Call.session, withBuffer, hsocket, Call.fail,
          Call.halt]
      intro sender length hgot
      cases hgot
  | some p =>
      simp only [pickUp, connected, Call.run_bind, Call.session, withBuffer, hsocket, Call.scene,
        Call.settle, Call.run_pure]
      obtain ⟨outcome, p', later⟩ := p.receive s.session.config.datagramBuffer
        s.session.config.retryBackoff (s.session.config.recvTimeout.map (s.now + ·)) s.now
      refine ⟨outcome.fill { s.session with buffer }.resizedBuffer, ?_⟩
      cases outcome with
      | datagram sender bytes =>
          by_cases hshort : bytes.length < headerSize
          · simp only [hshort, if_true]
            exact ⟨rfl, fun _ _ hgot => by cases hgot⟩
          · simp only [hshort, if_false]
            refine ⟨rfl, fun sender' length hgot => ?_⟩
            obtain ⟨rfl, rfl⟩ := Prod.mk.inj (Except.ok.inj hgot)
            exact List.take_left.trans List.take_left.symm
      | failed error | expired | stalled => exact ⟨rfl, fun _ _ hgot => by cases hgot⟩

theorem ignores_onDatagram (buffer : List UInt8) (flags : Flags) (sender : Endpoint)
    (bytes : List UInt8) : Call.Ignores (fun s : DatagramSession μ => { s with buffer })
      (onDatagram flags sender bytes) := by
  refine .bind (.ofExcept _) fun h => .bind (.update fun _ => rfl) fun _ => .bind (.tell _) fun _ =>
    .bindSession (fun _ => rfl) fun s => .bind (.failIf _ _) fun _ => .bind (.failIf _ _) fun _ =>
    .bind (.ofExcept _) fun kind => ?_
  cases kind with
  | slice | sliceHeader | cancel => exact .fail _
  | versionVerification =>
      refine .bind (.bind (.failIf _ _) fun _ => .bind (.ofExcept _) fun table =>
        .bindSession (fun _ => rfl) fun _ => .bind (.tellIf _ _) fun _ => ?_) fun _ => .pure _
      exact .update fun _ => rfl
  | complete =>
      refine .map (.bindSession (fun _ => rfl) fun s => ?_)
      cases s.registry.resolve? h.data s.peerTable with
      | some blank => exact .ofHalting _
      | none =>
          cases flags.keepUnknown
          · exact .bind (.tell _) fun _ => .fail _
          · exact .pure _

theorem receiveDatagram_withBuffer (flags : Flags) (buffer : List UInt8)
    (s : Scene (DatagramSession μ)) : ∃ buffer', (receiveDatagram flags).run (withBuffer buffer s) =
      (((receiveDatagram flags).run s).1, withBuffer buffer' ((receiveDatagram flags).run s).2) := by
  obtain ⟨buffer', hpick, hfront⟩ := pickUp_withBuffer buffer s
  refine ⟨buffer', ?_⟩
  rw [receiveDatagram, Call.run_bind, Call.run_bind, hpick]
  cases hgot : pickUp.run s with
  | mk got t =>
      rw [hgot] at hfront
      cases got with
      | error halt => rfl
      | ok taken =>
          obtain ⟨sender, length⟩ := taken
          have hsame : buffer'.take length = t.session.buffer.take length := hfront _ _ rfl
          simp only [Call.run_bind, Call.session, withBuffer, hsame]
          have hon := ignores_onDatagram buffer' flags sender (t.session.buffer.take length) t
          rw [hon]
          cases (onDatagram flags sender (t.session.buffer.take length)).run t with
          | mk ended u => cases ended <;> rfl

theorem receiveMessage_eq (flags : Flags) (s : Scene (DatagramSession μ)) :
    receiveMessage flags s = match (receiveDatagram flags).run s with
      | (.ok none, t) => receiveMessage flags t
      | (.ok (some m), t) => (.ok m, t)
      | (.error halt, t) => (.error halt, t) := by
  rw [receiveMessage]
  split <;> simp [*]

theorem receiveMessage_withBuffer (flags : Flags) (buffer : List UInt8)
    (s : Scene (DatagramSession μ)) : ∃ buffer', receiveMessage flags (withBuffer buffer s) =
      ((receiveMessage flags s).1, withBuffer buffer' (receiveMessage flags s).2) := by
  fun_induction receiveMessage flags s generalizing buffer with
  | case1 s t hdatagram ih =>
      obtain ⟨buffer', hother⟩ := receiveDatagram_withBuffer flags buffer s
      obtain ⟨buffer'', hbehind⟩ := ih buffer'
      exact ⟨buffer'', by rw [receiveMessage_eq, hother, hdatagram, ← hbehind]⟩
  | case2 s m t hdatagram | case3 s halt t hdatagram =>
      obtain ⟨buffer', hother⟩ := receiveDatagram_withBuffer flags buffer s
      exact ⟨buffer', by rw [receiveMessage_eq, hother, hdatagram]⟩

theorem receive_withBuffer (flags : Flags) (buffer : List UInt8) (s : Scene (DatagramSession μ)) :
    ∃ buffer', (receive flags).run (withBuffer buffer s) =
      (((receive flags).run s).1, withBuffer buffer' ((receive flags).run s).2) := by
  obtain ⟨log, hreceive⟩ := run_receive flags s.now s.log (μ := μ)
  obtain ⟨buffer', hmessage⟩ := receiveMessage_withBuffer flags buffer { s with log }
  refine ⟨buffer', ?_⟩
  rw [withBuffer, hreceive, hreceive s.session]
  exact hmessage

/-- What earlier datagrams have left in the buffer makes no difference to any call. -/
theorem receiveAll_withBuffer (calls : List Flags) (buffer : List UInt8)
    (s : Scene (DatagramSession μ)) : ∃ buffer', receiveAll calls (withBuffer buffer s) =
      ((receiveAll calls s).1, withBuffer buffer' (receiveAll calls s).2) := by
  induction calls generalizing buffer s with
  | nil => exact ⟨buffer, rfl⟩
  | cons flags calls ih =>
      obtain ⟨buffer', hreceive⟩ := receive_withBuffer flags buffer s
      obtain ⟨buffer'', hbehind⟩ := ih buffer' ((receive flags).run s).2
      refine ⟨buffer'', ?_⟩
      rw [receiveAll_cons, receiveAll_cons, hreceive]
      simp only [hbehind]

/-- A call that is not ended by the transport takes some datagrams that tell tables and then exactly
one more, and it succeeds just if that one is a whole message that can be handed out. So do any
number of calls, each at the datagram where the one before it has stopped, and what earlier
datagrams have left in the buffer does not matter to them. -/
theorem receiveAll_verdicts (s : Scene (DatagramSession μ)) :
    (∀ flags ended t, (receive flags).run s = (ended, t) → unheard ended = false →
      ∃ tables fs sender bytes,
        s.session.received t.session = tables ++ [(sender, bytes)] ∧
        tables.map Prod.snd = fs.map Frame.encode ∧
        Tables s.session.config.maxPayload s.session.peerTable fs t.session.peerTable ∧
        datagramTable? s.session.config.maxPayload bytes = none ∧
        Verdict s.session.registry s.session.config.maxPayload flags t.session.peerTable sender
          bytes ended) ∧
    (∀ calls, List.Forall₂ (fun (table, sender, bytes) (flags, ended) =>
        Verdict s.session.registry s.session.config.maxPayload flags table sender bytes ended)
      (untold s.session.config.maxPayload s.session.peerTable
        (s.session.received (receiveAll calls s).2.session))
      (heard (receiveAll calls s).1)) ∧
    ∀ calls buffer, ∃ buffer', receiveAll calls (withBuffer buffer s) =
      ((receiveAll calls s).1, withBuffer buffer' (receiveAll calls s).2) := by
  refine ⟨fun flags ended t hrun hheard => ?_, fun calls => ?_, fun calls buffer => ?_⟩
  · cases receive_receives hrun with
    | nothing hended hhalt hreceives htables hframes =>
        rw [hended, unheard, hhalt] at hheard
        cases hheard
    | datagram hreceives htables hframes hended =>
        exact ⟨_, _, _, _, hreceives.toDraws.received, hframes, htables,
          datagramTable?_of_ended hended, verdict_of_read hended⟩
  · obtain ⟨datagrams, hdraws, hverdicts⟩ := receiveAll_draws calls s
    rwa [hdraws.received]
  · exact receiveAll_withBuffer calls buffer s

/-- A message, the same message cut short, and a shorter one. -/
def cutShort : Scene (DatagramSession AnyMessage) where
  session.registry := .ofVersion 1
  session.config.datagramBuffer := 32
  session.socket := some { arrivals :=
    let whole := Frame.encode ⟨.complete 6 70, [1, 2, 3, 4, 5, 6]⟩
    let shorter := Frame.encode ⟨.complete 1 70, [7]⟩
    [whole, whole.take 12, shorter].map (.datagram default) }

/-- The bytes that the cut lacks are in the buffer still, and they are not taken for its own. -/
theorem receiveAll_verdicts_cutShort :
    let calls : List Flags := List.replicate 3 { keepUnknown := true }
    let bodies (s : Scene (DatagramSession AnyMessage)) := (receiveAll calls s).1.map fun call =>
      call.2.map fun got => (Message.encode got.1).toOption
    bodies cutShort = [.ok (some [1, 2, 3, 4, 5, 6]),
      .error (.failed (.invalidHeader (.lengthMismatch 6 2))), .ok (some [7])] ∧
    ∀ buffer, bodies (withBuffer buffer cutShort) = bodies cutShort := by
  refine ⟨by decide +kernel, fun buffer => ?_⟩
  obtain ⟨buffer', hsame⟩ := (receiveAll_verdicts cutShort).2.2 _ buffer
  dsimp only
  rw [hsame]

end DatagramSession

end MessageChannel
