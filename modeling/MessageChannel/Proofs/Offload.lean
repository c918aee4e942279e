import MessageChannel.Proofs.AllOrNothing
import MessageChannel.Proofs.BodyRoundTrip
import MessageChannel.Proofs.Completion
import MessageChannel.Proofs.Refinement

namespace MessageChannel

variable {μ : Type} [Message μ]

theorem Worker.encode_offloaded {m : μ} (h : Message.encode m ≠ .error .crashed)
    (inWorker inWorker' : Bool) : encode inWorker m = encode inWorker' m := by
  rw [encode_eq, encode_eq]
  cases hencode : Message.encode m with
  | ok bytes => rfl
  | error failure =>
      cases failure with
      | refused error => rfl
      | crashed => exact absurd hencode h

namespace StreamSession

variable {heard : List Header} {s t : Scene (StreamSession μ)}

/-- A call that breaks down does so over a payload that is fed to a message. -/
theorem feeds_of_crashed {flags : Flags}
    (hlimit : s.session.receiver.limit = s.session.config.maxPayload)
    (hs : s.session.receiver.Underway heard)
    (hrun : (receive flags).run s = ((.error .crashed : Except Halt μ), t)) :
    ∃ m payload, s.session.Feeds heard m payload ∧ Message.decode m payload = .error .crashed := by
  obtain ⟨fs, demand, u, v, hpasses, hends, -⟩ := receive_goes hrun
  rcases hends.cases with ⟨typeId, sliced, rfl, hended, -⟩ | hended | ⟨error, hended⟩
  · obtain ⟨htakes, hreads⟩ := hpasses.takes
    have hcompletes := completes_of_takes hlimit hs htakes
    have havailable := hreads.available
    rw [Receiver.taken_delivery] at havailable
    obtain ⟨m, hm, hdecode⟩ := Receiver.crashed_of_handOut hended.symm
    rw [hm] at hcompletes
    exact ⟨m, _, ⟨fs, typeId, sliced, _, hcompletes, havailable⟩, hdecode⟩
  · rcases u.session.shortage_cases with hshortage | ⟨error, hshortage⟩ <;>
      rw [hshortage] at hended <;> cases hended
  · cases hended

theorem receive_offloaded {registry : Registry μ} {config : Config} {before : List Event}
    (hs : Annals registry config before s.session)
    (hsturdy : ∀ m payload, s.session.Feeds (headersIn before) m payload →
      Message.decode m payload ≠ .error .crashed) (flags : Flags) (inWorker : Bool) :
    (receive { flags with inWorker }).run s = (receive flags).run s := by
  obtain ⟨past, hpast⟩ := hs.chronicle
  refine Call.run_offloaded receive_refines (fun flags hcrash => ?_) flags inWorker
  obtain ⟨m, payload, hfeeds, hdecode⟩ :=
    feeds_of_crashed hpast.settings.2 hs.underway (Prod.ext hcrash rfl)
  exact hsturdy m payload hfeeds hdecode

theorem send_offloaded {m : μ} (hm : Message.encode m ≠ .error .crashed) (flags : Flags)
    (inWorker : Bool) : send m { flags with inWorker } = send m flags := by
  rw [send, send, sendMessage, sendMessage, bodyToSend, bodyToSend,
    Worker.encode_offloaded hm inWorker flags.inWorker]

end StreamSession

theorem Frame.crashed_of_read {registry : Registry μ} {limit : UInt32} {flags : Flags}
    {table : PeerTable} {f : Frame} (h : f.read registry limit flags table = .error .crashed) :
    f.Carries .complete ∧ f.header.length ≤ limit ∧
      ∃ m, registry.resolve? f.header.data table = some m ∧
        Message.decode m f.payload = .error .crashed := by
  rcases read_cases registry limit flags table f with ⟨hlength, hfits, hbody⟩ | ⟨error, -, hrefused⟩
  · rw [hbody, readBody] at h
    split at h
    · cases h
    · next hkind =>
      generalize hhand : Receiver.handOut flags (registry.resolve? f.header.data table) table
        f.header.data false f.payload = ended at h
      cases ended with
      | ok m => cases h
      | error halt =>
          obtain rfl := Except.error.inj h
          exact ⟨⟨hkind, hlength⟩, hfits, Receiver.crashed_of_handOut hhand⟩
    · split at h
      · split at h <;> cases h
      · cases h
    · cases h
  · cases h.symm.trans hrefused

namespace DatagramSession

/-- The next message of a session is this frame, as far as its datagram goes into the buffer, and
this table is in force when it comes. -/
structure Next (s : DatagramSession μ) (f : Frame) (table : PeerTable) : Prop where
  carries : f.Carries .complete
  fits : f.header.length ≤ s.config.maxPayload
  incoming : ∃ front sender data more fs, s.incoming = front ++ (sender, data) :: more ∧
    front.map (·.2.take s.config.datagramBuffer) = fs.map Frame.encode ∧
    data.take s.config.datagramBuffer = f.encode ∧
    Tables s.config.maxPayload s.peerTable fs table

/-- What comes next on a session is this payload, for this message. -/
def Feeds (s : DatagramSession μ) (m : μ) (payload : List UInt8) : Prop :=
  ∃ f table, s.Next f table ∧ s.registry.resolve? f.header.data table = some m ∧
    f.payload = payload

variable {s t : Scene (DatagramSession μ)}

theorem feeds_of_crashed {flags : Flags}
    (hrun : (receive flags).run s = ((.error .crashed : Except Halt (μ × Endpoint)), t)) :
    ∃ m payload, s.session.Feeds m payload ∧ Message.decode m payload = .error .crashed := by
  have hreceives := receive_receives hrun
  cases hreceives with
  | nothing hended hhalt hreceives htables hframes =>
      obtain rfl := Except.error.inj hended
      cases hhalt
  | @datagram tables fs sender bytes hreceives htables hframes hended =>
      obtain ⟨front, data, hincoming, hcut, rfl⟩ := hreceives.toDraws.last
      generalize hread : readDatagram s.session.registry s.session.config.maxPayload flags
        t.session.peerTable (data.take s.session.config.datagramBuffer) = read at hended
      cases read with
      | ok reading => cases hended
      | error halt =>
          obtain rfl := Except.error.inj hended
          rw [readDatagram] at hread
          split at hread
          · next f hframe =>
            obtain ⟨hcarries, hfits, m, hm, hdecode⟩ := Frame.crashed_of_read hread
            have hnext : s.session.Next f t.session.peerTable := ⟨hcarries, hfits, front, sender,
              data, _, fs, hincoming, hcut.symm.trans hframes,
              Frame.ofDatagram?_eq_some_iff.1 hframe, htables⟩
            exact ⟨m, _, ⟨f, _, hnext, hm, rfl⟩, hdecode⟩
          · cases hread

theorem receive_offloaded
    (hsturdy : ∀ m payload, s.session.Feeds m payload →
      Message.decode m payload ≠ .error .crashed) (flags : Flags) (inWorker : Bool) :
    (receive { flags with inWorker }).run s = (receive flags).run s := by
  refine Call.run_offloaded receive_refines (fun flags hcrash => ?_) flags inWorker
  obtain ⟨m, payload, hfeeds, hdecode⟩ := feeds_of_crashed (Prod.ext hcrash rfl)
  exact hsturdy m payload hfeeds hdecode

theorem send_offloaded {m : μ} (hm : Message.encode m ≠ .error .crashed) (target : Endpoint)
    (flags : Flags) (inWorker : Bool) :
    send m target { flags with inWorker } = send m target flags := by
  rw [send, send, Worker.encode_offloaded hm inWorker flags.inWorker]

/-- A message that refuses its payload is invalid data, whatever error it refuses it with. -/
theorem receive_refused {flags : Flags} {ended : Except Halt (μ × Endpoint)} {m : μ}
    {payload : List UInt8} {error : ChannelError} (hfeeds : s.session.Feeds m payload)
    (hdecode : Message.decode m payload = .error (.refused error))
    (hrun : (receive flags).run s = (ended, t)) (hheard : unheard ended = false) :
    ended = .error (.failed error.asInvalidData) := by
  obtain ⟨f, table, ⟨hcarries, hfits, front, sender, data, more, fs, hincoming, hframes, hcut,
    htables⟩, hm, rfl⟩ := hfeeds
  obtain ⟨-, ⟨fs', hframes', htables'⟩, hended⟩ := (receive_receives hrun).takes hheard hincoming
    (htables.learnsFrom hframes) (learnsFrom_of_take hcarries.kind hcut)
  obtain rfl : fs = fs' :=
    List.map_injective_iff.2 (fun _ _ h => Frame.encode_inj h) (hframes.symm.trans hframes')
  obtain rfl := htables.last_unique htables'
  rw [hcut, readDatagram_encode, Frame.read_of_fits hcarries.length hfits, Frame.readBody,
    hcarries.kind] at hended
  simp only [hm, Receiver.handOut, Worker.decode_of_error hdecode] at hended
  cases ended with
  | ok got => cases hended
  | error halt =>
      have hhalt : (.error halt : Except Halt (Option (μ × Endpoint))) =
          .error (.failed error.asInvalidData) := hended
      rw [Except.error.inj hhalt]

end DatagramSession

/-- Whether messages work in place or on a worker does not show, if their code does not break down:
calls go the same way, with all that they leave behind in the session, on the wire and in the log. A
message that refuses its payload is invalid data either way, whatever error it refuses it with. -/
theorem offload_invisible (flags : Flags) (inWorker : Bool) :
    (∀ m : μ, Message.encode m ≠ .error .crashed →
      StreamSession.send m { flags with inWorker } = StreamSession.send m flags ∧
      ∀ target, DatagramSession.send m target { flags with inWorker } =
        DatagramSession.send m target flags) ∧
    (∀ {registry : Registry μ} {config before} {s : Scene (StreamSession μ)},
      StreamSession.Annals registry config before s.session →
      ((∀ m payload, s.session.Feeds (headersIn before) m payload →
          Message.decode m payload ≠ .error .crashed) →
        (StreamSession.receive { flags with inWorker }).run s =
          (StreamSession.receive flags).run s) ∧
      ∀ {m payload error ended t}, s.session.Feeds (headersIn before) m payload →
        Message.decode m payload = .error (.refused error) →
        (StreamSession.receive flags).run s = (ended, t) → ended ≠ .error (.failed .timeout) →
          ended = .error (.failed error.asInvalidData)) ∧
    ∀ {s : Scene (DatagramSession μ)},
      ((∀ m payload, s.session.Feeds m payload → Message.decode m payload ≠ .error .crashed) →
        (DatagramSession.receive { flags with inWorker }).run s =
          (DatagramSession.receive flags).run s) ∧
      ∀ {m payload error ended t}, s.session.Feeds m payload →
        Message.decode m payload = .error (.refused error) →
        (DatagramSession.receive flags).run s = (ended, t) →
        DatagramSession.unheard ended = false → ended = .error (.failed error.asInvalidData) := by
  refine ⟨fun m hm => ⟨StreamSession.send_offloaded hm flags inWorker, fun target => ?_⟩,
    fun hs => ⟨fun hsturdy => ?_, StreamSession.receive_refused hs⟩,
    fun {s} => ⟨fun hsturdy => ?_, DatagramSession.receive_refused⟩⟩
  · exact DatagramSession.send_offloaded hm target flags inWorker
  · exact StreamSession.receive_offloaded hs hsturdy flags inWorker
  · exact DatagramSession.receive_offloaded hsturdy flags inWorker

/-- The registry makes such a message for some id, under some table of the peer. -/
def Registry.Makes (registry : Registry μ) (m : μ) : Prop :=
  ∃ typeId table, registry.resolve? typeId table = some m

omit [Message μ] in
theorem Registry.create_of_makes {registry : Registry μ} {m : μ} (h : registry.Makes m) :
    ∃ entry ∈ registry.entries, ∃ typeId, entry.create typeId = m := by
  obtain ⟨typeId, table, hm⟩ := h
  have hcreate {typeId : Int32} (hm : registry.create? typeId = some m) :
      ∃ entry ∈ registry.entries, ∃ typeId, entry.create typeId = m := by
    obtain ⟨entry, hentry, rfl⟩ := Option.map_eq_some_iff.1 hm
    exact ⟨entry, List.mem_of_find?_eq_some hentry, typeId, rfl⟩
  rw [resolve?] at hm
  split at hm
  · exact hcreate hm
  · split at hm
    · obtain ⟨typeId', -, hm⟩ := Option.bind_eq_some_iff.1 hm
      exact hcreate hm
    · exact hcreate hm

/-- The code of the message does not break down over any payload. -/
def Sturdy (m : μ) : Prop := ∀ payload, Message.decode m payload ≠ .error .crashed

/-- Only a message that is made to break down does so. -/
theorem AnyMessage.sturdy {m : AnyMessage} (h : ∀ typeId name, m ≠ .faulty typeId name .crashed) :
    Sturdy m := by
  intro payload hcrash
  cases m with
  | typed typeId type value =>
      simp only [Message.decode, decode, run_load_typed] at hcrash
      cases hread : type.format.decode type.records type.shape payload <;>
        simp [hread, Except.map] at hcrash
  | raw message => cases hcrash
  | counter typeId count =>
      simp only [Message.decode, decode, run_load_counter] at hcrash
      split_ifs at hcrash <;> cases hcrash
  | faulty typeId name failure =>
      obtain rfl := Except.error.inj hcrash
      exact h typeId name rfl

/-- A registry of counters. -/
def counters : Registry AnyMessage :=
  ((Registry.ofVersion 1).registerWith AnyMessage.counterName (.counter · 0)).2

theorem sturdy_counters : ∀ m, counters.Makes m → Sturdy m := by
  intro m hm
  obtain ⟨entry, hentry, typeId, rfl⟩ := Registry.create_of_makes hm
  have hentries : counters.entries = [
      ⟨tableTypeId, PeerTable.messageType.name, fun id => Message.ofTable id .empty⟩,
      ⟨rawTypeId, rawName, fun _ => Message.ofRaw {}⟩,
      ⟨16, AnyMessage.counterName, (.counter · 0)⟩] := rfl
  rw [hentries] at hentry
  refine AnyMessage.sturdy fun typeId' name => ?_
  simp only [List.mem_cons, List.not_mem_nil, or_false] at hentry
  rcases hentry with rfl | rfl | rfl <;> simp [Message.ofTable, Message.ofRaw]

/-- The frame of a counter that is too short. -/
def shortCounter : Frame := ⟨.complete 3 16, [1, 2, 3]⟩

theorem offload_invisible_counters :
    let s : Scene (StreamSession AnyMessage) :=
      ⟨.new counters {} { inbound := { arrivals := [.bytes shortCounter.encode] } }, 0, #[]⟩
    let d : Scene (DatagramSession AnyMessage) :=
      ⟨{ registry := counters, socket := some { arrivals := [.datagram default shortCounter.encode] } },
        0, #[]⟩
    let flags : Flags := { inWorker := true }
    let fault := ChannelError.invalidData (.note "counter needs 8 bytes, got 3")
    StreamSession.send (.counter 16 7 : AnyMessage) .none =
      StreamSession.send (.counter 16 7) flags ∧
    (StreamSession.receive .none).run s = (StreamSession.receive flags).run s ∧
    (DatagramSession.receive .none).run d = (DatagramSession.receive flags).run d ∧
    ((StreamSession.receive flags).run s).1 = .error (.failed fault) ∧
    ((DatagramSession.receive flags).run d).1 = .error (.failed fault) := by
  intro s d flags fault
  obtain ⟨hsends, hstreams, hdatagrams⟩ := @offload_invisible AnyMessage _ flags false
  have hs : StreamSession.Annals counters {} [] s.session := .new _
  have hcarries : shortCounter.Carries .complete := ⟨Header.kind_ofKind .., rfl⟩
  have hdecode : Message.decode (AnyMessage.counter 16 0) shortCounter.payload =
      .error (.refused fault) := rfl
  refine ⟨(hsends _ (by decide)).1, (hstreams hs).1 ?_, hdatagrams.1 ?_, ?_, ?_⟩
  · rintro m payload ⟨fs, typeId, sliced, rest, hcompletes, -⟩
    generalize hm : some m = blank? at hcompletes
    cases hcompletes with
    | begun => exact sturdy_counters m ⟨_, _, hm.symm⟩ payload
    | resumed hheard hkind hflight => cases hflight
  · rintro m payload ⟨f, table, -, hm, -⟩
    exact sturdy_counters m ⟨_, _, hm⟩ payload
  · have hcompletes : StreamSession.Completes [] s.session ([] ++ [shortCounter]) 16 false
        (counters.resolve? 16 .empty) shortCounter.payload :=
      .begun rfl (.none _) (.whole hcarries (by decide))
    have hquiet : ((StreamSession.receive flags).run s).1 ≠ .error (.failed .timeout) := by
      decide +kernel
    exact (hstreams hs).2 ⟨_, _, _, [], hcompletes, (List.append_nil _).symm⟩ hdecode rfl hquiet
  · have hnext : d.session.Next shortCounter .empty :=
      ⟨hcarries, by decide, [], default, shortCounter.encode, [], [], rfl, rfl, by decide, .none _⟩
    have hheard : DatagramSession.unheard ((DatagramSession.receive flags).run d).1 = false := by
      decide +kernel
    exact hdatagrams.2 ⟨shortCounter, .empty, hnext, rfl, rfl⟩ hdecode rfl hheard

end MessageChannel
