import MessageChannel.Proofs.DatagramAnswers
import MessageChannel.Proofs.Disguise

namespace MessageChannel

variable {μ : Type}

theorem Assembly.prepare_of_oversize {a : Assembly} {h : Header} (hidle : a.inFlight = none)
    (hlarge : a.limit < h.length) :
    a.prepare h = (.error (.tooLarge h.length.toNat a.limit.toNat), a) := by
  simp only [prepare, isAssembling, hidle, Option.isSome_none, Bool.false_eq_true, if_false,
    checkSize, UInt32.not_le.2 hlarge]

/-- A frame that both engines take: a whole message, or a table of types. -/
structure Frame.Common (f : Frame) : Prop where
  length : f.payload.length = f.header.length.toNat
  kind : f.header.kind = .ok .complete ∨
    f.header.kind = .ok .versionVerification ∧ f.header.data = tableTypeId

variable [Message μ]

/-- A receiver on a stream makes of such a frame what a receiver of datagrams makes of it. -/
theorem Receiver.Rests.intake?_common {r : Receiver μ} {limit : UInt32} {table : PeerTable}
    (hr : r.Rests limit table) {f : Frame} (hf : f.Common) (registry : Registry μ) (flags : Flags)
    (rest : List UInt8) :
    let read := f.read registry limit flags table
    ∃ r' rest', r.intake? registry flags (f.encode ++ rest) =
        some ⟨read.map Reading.message?, r', rest'⟩ ∧
      r'.header = f.header ∧ r'.peerTable = Reading.tableAfter table read ∧
      ∀ told, read = .ok (.table told) → r'.Rests limit told ∧ rest' = rest := by
  by_cases hfits : f.header.length ≤ limit
  · have hprepare := Assembly.prepare_eq_ok_iff.2 ⟨hr.inFlight, hr.limit ▸ hfits, rfl⟩
    simp only [Frame.read_of_fits hf.length hfits, Frame.readBody]
    rcases hf.kind with hkind | ⟨hkind, hdata⟩
    · rw [intake?_frame, intakeOf?_complete hkind, hprepare, hkind]
      simp only [splitExactly?_payload ⟨hkind, hf.length⟩, Option.map_some, hr.peerTable]
      cases handOut flags (registry.resolve? f.header.data table) table f.header.data false
        f.payload <;> exact ⟨_, _, rfl, rfl, rfl, fun _ htold => by cases htold⟩
    · rw [intake?_frame, intakeOf?_versionVerification hkind, if_pos hdata, hprepare, hkind]
      simp only [splitExactly?_payload ⟨hkind, hf.length⟩, Option.map_some, hdata, if_true]
      cases PeerTable.decode f.payload with
      | error error => exact ⟨_, _, rfl, rfl, hr.peerTable, fun _ htold => by cases htold⟩
      | ok told =>
          refine ⟨_, _, rfl, rfl, rfl, fun told' htold => ?_⟩
          obtain rfl := Reading.table.inj (Except.ok.inj htold)
          exact ⟨⟨rfl, hr.limit, rfl⟩, rfl⟩
  · have hlarge := UInt32.not_le.1 hfits
    have hprepare := Assembly.prepare_of_oversize hr.inFlight (hr.limit ▸ hlarge)
    have hread : f.read registry limit flags table =
        .error (.failed (.tooLarge f.header.length.toNat limit.toNat)) := by
      have hlt := UInt32.lt_iff_toNat_lt.1 hlarge
      simp only [Frame.read, hf.length, ne_eq, not_true, if_false, gt_iff_lt, hlt, if_true]
    simp only [hread]
    rw [hr.limit] at hprepare
    rcases hf.kind with hkind | ⟨hkind, hdata⟩
    · rw [intake?_frame, intakeOf?_complete hkind, hprepare]
      exact ⟨_, _, rfl, rfl, hr.peerTable, fun _ htold => by cases htold⟩
    · rw [intake?_frame, intakeOf?_versionVerification hkind, if_pos hdata, hprepare]
      exact ⟨_, _, rfl, rfl, hr.peerTable, fun _ htold => by cases htold⟩

/-- A stream and a socket that bring the same frames, each a whole datagram within the buffer, to
sessions that have the same types and limits, and know the same of their peers. -/
structure Parallel (s : StreamSession μ) (d : DatagramSession μ) (fs : List Frame) : Prop where
  idle : s.Idle
  registry : d.registry = s.registry
  maxPayload : d.config.maxPayload = s.config.maxPayload
  peerTable : d.peerTable = s.receiver.peerTable
  stream : ∃ rest, s.available = wire fs ++ rest
  datagrams : ∃ more, d.incoming.map Prod.snd = fs.map Frame.encode ++ more
  common : ∀ f ∈ fs, f.Common
  fits : ∀ f ∈ fs, f.encode.length ≤ d.config.datagramBuffer

namespace Parallel

variable {s s' : Scene (StreamSession μ)} {d d' : Scene (DatagramSession μ)} {f : Frame}
  {fs : List Frame} {flags : Flags}

theorem receiveFrame_reads (h : Parallel s.session d.session (f :: fs))
    {ended : Except Halt (Option μ)} (hs : (StreamSession.receiveFrame flags).run s = (ended, s'))
    (hquiet : ended ≠ .error (.failed .timeout)) :
    let read := f.read s.session.registry s.session.config.maxPayload flags
      s.session.receiver.peerTable
    ended = read.map Reading.message? ∧ s'.session.receiver.header = f.header ∧
      s'.session.receiver.peerTable = Reading.tableAfter s.session.receiver.peerTable read ∧
      s'.session.registry = s.session.registry ∧ s'.session.config = s.session.config ∧
      ∀ told, read = .ok (.table told) → s'.session.Idle ∧
        ∃ rest, s'.session.available = wire fs ++ rest := by
  obtain ⟨rest, havailable⟩ := h.stream
  rw [wire_cons, List.append_assoc] at havailable
  obtain ⟨r', rest', hintake, hheader, htable, hbehind⟩ := h.idle.rests.intake?_common
    (h.common f List.mem_cons_self) s.session.registry flags (wire fs ++ rest)
  have hfollows := StreamSession.receiveFrame_intake hs hquiet
  rw [havailable, hintake] at hfollows
  obtain ⟨hended, hreceiver, hleft, bytes, hears⟩ := hfollows
  dsimp only at hended hreceiver hleft
  refine ⟨hended, hreceiver ▸ hheader, hreceiver ▸ htable, hears.registry, hears.config,
    fun told htold => ?_⟩
  obtain ⟨hrests, rfl⟩ := hbehind told htold
  rw [← hreceiver] at hrests
  exact ⟨⟨hrests.inFlight, by rw [hrests.limit, hears.config]⟩, rest, hleft⟩

theorem receiveDatagram_reads (h : Parallel s.session d.session (f :: fs))
    {ended : Except Halt (Option (μ × Endpoint))}
    (hd : (DatagramSession.receiveDatagram flags).run d = (ended, d'))
    (hheard : ∀ halt, ended = .error halt → halt.ofTransport = false) :
    let read := f.read s.session.registry s.session.config.maxPayload flags
      s.session.receiver.peerTable
    ended.map (Option.map Prod.fst) = read.map Reading.message? ∧ d'.session.header = f.header ∧
      d'.session.peerTable = Reading.tableAfter s.session.receiver.peerTable read ∧
      d'.session.registry = d.session.registry ∧ d'.session.config = d.session.config ∧
      ∃ more, d'.session.incoming.map Prod.snd = fs.map Frame.encode ++ more := by
  obtain ⟨more, hincoming⟩ := h.datagrams
  cases DatagramSession.receiveDatagram_receivesOne hd with
  | nothing hended hhalt hreceives htable =>
      rw [hheard _ hended] at hhalt
      cases hhalt
  | @datagram sender bytes read hreceives hread htable hended =>
      obtain ⟨whole, hwhole, hcut⟩ := hreceives.toDraws.incoming
      obtain ⟨⟨sender', data⟩, rfl, hdata⟩ := List.map_eq_singleton_iff.1 hcut.symm
      rw [hwhole, List.map_append, List.map_cons, List.cons_append] at hincoming
      obtain ⟨rfl, hbehind⟩ := List.cons.inj hincoming
      dsimp only at hdata
      rw [List.take_of_length_le (h.fits f List.mem_cons_self)] at hdata
      obtain ⟨rfl, rfl⟩ := Prod.mk.inj hdata
      rw [readDatagram_encode, h.registry, h.maxPayload, h.peerTable] at hread
      rw [h.peerTable] at htable
      dsimp only
      rw [hread]
      refine ⟨?_, ?_, htable, hreceives.registry, hreceives.config, more, hbehind⟩
      · rw [hended]
        cases read with
        | error halt => rfl
        | ok reading => cases reading <;> rfl
      · rw [hreceives.header]
        simp [headerAfter, Frame.encode, Header.decode?_encode_append]

/-- One frame comes to the same on both sides, and after a table both wait for the next one. -/
theorem frame_agrees (h : Parallel s.session d.session (f :: fs))
    {ended : Except Halt (Option μ)} {ended' : Except Halt (Option (μ × Endpoint))}
    (hs : (StreamSession.receiveFrame flags).run s = (ended, s'))
    (hd : (DatagramSession.receiveDatagram flags).run d = (ended', d'))
    (hquiet : ended ≠ .error (.failed .timeout))
    (hheard : ∀ halt, ended' = .error halt → halt.ofTransport = false) :
    ended = ended'.map (Option.map Prod.fst) ∧
      s'.session.receiver.header = f.header ∧ d'.session.header = f.header ∧
      s'.session.receiver.peerTable = d'.session.peerTable ∧
      (∀ told, f.Tells s.session.config.maxPayload told →
        ended = .ok none ∧ d'.session.peerTable = told ∧
          s'.session.config = s.session.config ∧ Parallel s'.session d'.session fs) ∧
      ((∀ told, ¬f.Tells s.session.config.maxPayload told) →
        ended ≠ .ok none ∧ d'.session.peerTable = d.session.peerTable) := by
  obtain ⟨hended, hheader, htable, hregistry, hconfig, hstream⟩ := h.receiveFrame_reads hs hquiet
  obtain ⟨hended', hheader', htable', hregistry', hconfig', hdatagrams⟩ :=
    h.receiveDatagram_reads hd hheard
  refine ⟨hended.trans hended'.symm, hheader, hheader', htable.trans htable'.symm,
    fun told hf => ?_, fun hf => ?_⟩
  · have hread : f.read s.session.registry s.session.config.maxPayload flags
        s.session.receiver.peerTable = .ok (.table told) := Frame.read_eq_table_iff.2 hf
    obtain ⟨hidle, hrest⟩ := hstream told hread
    rw [hread] at hended htable htable'
    refine ⟨hended, htable', hconfig, hidle, ?_, ?_, htable'.trans htable.symm, hrest, hdatagrams,
      fun g hg => h.common g (List.mem_cons_of_mem _ hg), fun g hg => ?_⟩
    · rw [hregistry', h.registry, hregistry]
    · rw [hconfig', h.maxPayload, hconfig]
    · rw [hconfig']
      exact h.fits g (List.mem_cons_of_mem _ hg)
  · refine ⟨fun hnone => ?_, ?_⟩
    · obtain ⟨told, hread⟩ := Reading.eq_table_of_message? (hended.symm.trans hnone)
      exact hf told (Frame.read_eq_table_iff.1 hread)
    · rw [htable', h.peerTable]
      exact Reading.tableAfter_eq_self fun told hread => hf told (Frame.read_eq_table_iff.1 hread)

/-- What a call comes to is decided on both sides by the first frame that tells no table. -/
theorem message_agrees (h : Parallel s.session d.session fs)
    (hlast : ∃ f ∈ fs, ∀ told, ¬f.Tells s.session.config.maxPayload told) {ended : Except Halt μ}
    {ended' : Except Halt (μ × Endpoint)}
    (hs : StreamSession.receiveMessage flags s = (ended, s'))
    (hd : DatagramSession.receiveMessage flags d = (ended', d'))
    (hquiet : ended ≠ .error (.failed .timeout)) (hheard : DatagramSession.unheard ended' = false) :
    ended = ended'.map Prod.fst ∧ s'.session.receiver.peerTable = d'.session.peerTable ∧
      ∃ front f back, fs = front ++ f :: back ∧
        Tables s.session.config.maxPayload d.session.peerTable front d'.session.peerTable ∧
        (∀ told, ¬f.Tells s.session.config.maxPayload told) ∧
        s'.session.receiver.header = f.header ∧ d'.session.header = f.header := by
  induction fs generalizing s d with
  | nil => simp at hlast
  | cons f fs ih =>
      rw [StreamSession.receiveMessage_eq] at hs
      rw [DatagramSession.receiveMessage_eq] at hd
      cases hframe : (StreamSession.receiveFrame flags).run s with
      | mk frame u =>
      cases hdatagram : (DatagramSession.receiveDatagram flags).run d with
      | mk got v =>
          rw [hframe] at hs
          rw [hdatagram] at hd
          have hquietFrame : frame ≠ .error (.failed .timeout) := by
            rintro rfl
            exact hquiet (Prod.mk.inj hs).1.symm
          have hheardGot : ∀ halt, got = .error halt → halt.ofTransport = false := by
            rintro halt rfl
            obtain ⟨rfl, -⟩ := Prod.mk.inj hd
            exact hheard
          obtain ⟨hsame, hheader, hheader', htable, htells, hother⟩ :=
            h.frame_agrees hframe hdatagram hquietFrame hheardGot
          by_cases htold : ∃ told, f.Tells s.session.config.maxPayload told
          · -- Both calls go on behind the table.
            obtain ⟨told, hf⟩ := htold
            obtain ⟨rfl, rfl, hconfig, hparallel⟩ := htells told hf
            obtain rfl : got = .ok none := by
              cases got with
              | error halt => cases hsame
              | ok m? =>
                  cases m? <;> cases hsame
                  rfl
            obtain ⟨g, hg, hlast⟩ := hlast
            have hbehind : g ∈ fs := by
              rcases List.mem_cons.1 hg with rfl | hg
              · exact absurd hf (hlast _)
              · exact hg
            obtain ⟨hended, hpeer, front, f', back, rfl, htables, hf', hheaders⟩ :=
              ih hparallel ⟨g, hbehind, hconfig ▸ hlast⟩ hs hd
            rw [hconfig] at htables hf'
            exact ⟨hended, hpeer, f :: front, f', back, rfl,
              .next hf.carries hf.data hf.fits hf.decode htables, hf', hheaders⟩
          · have hnot : ∀ told, ¬f.Tells s.session.config.maxPayload told :=
              fun told hf => htold ⟨told, hf⟩
            obtain ⟨hnone, hkept⟩ := hother hnot
            have htables : Tables s.session.config.maxPayload d.session.peerTable []
                v.session.peerTable := by
              rw [hkept]
              exact .none _
            cases got with
            | error halt =>
                subst hsame
                obtain ⟨rfl, rfl⟩ := Prod.mk.inj hs
                obtain ⟨rfl, rfl⟩ := Prod.mk.inj hd
                exact ⟨rfl, htable, [], f, fs, rfl, htables, hnot, hheader, hheader'⟩
            | ok m? =>
                cases m? with
                | none => exact absurd hsame hnone
                | some m =>
                    subst hsame
                    obtain ⟨rfl, rfl⟩ := Prod.mk.inj hs
                    obtain ⟨rfl, rfl⟩ := Prod.mk.inj hd
                    exact ⟨rfl, htable, [], f, fs, rfl, htables, hnot, hheader, hheader'⟩

/-- The same for calls to receive. -/
theorem receive_agrees (h : Parallel s.session d.session fs)
    (hlast : ∃ f ∈ fs, ∀ told, ¬f.Tells s.session.config.maxPayload told) {ended : Except Halt μ}
    {ended' : Except Halt (μ × Endpoint)} (hs : (StreamSession.receive flags).run s = (ended, s'))
    (hd : (DatagramSession.receive flags).run d = (ended', d'))
    (hquiet : ended ≠ .error (.failed .timeout)) (hheard : DatagramSession.unheard ended' = false) :
    ended = ended'.map Prod.fst ∧ s'.session.receiver.peerTable = d'.session.peerTable ∧
      ∃ front f back, fs = front ++ f :: back ∧
        Tables s.session.config.maxPayload d.session.peerTable front d'.session.peerTable ∧
        (∀ told, ¬f.Tells s.session.config.maxPayload told) ∧
        s'.session.receiver.header = f.header ∧ d'.session.header = f.header := by
  obtain ⟨log, u, hmessage, rfl⟩ := StreamSession.receive_settled hs
  obtain ⟨log', hreceive⟩ := DatagramSession.run_receive flags d.now d.log (μ := μ)
  rw [hreceive d.session] at hd
  have hagrees := message_agrees (s := { s with log }) (d := { d with log := log' }) h hlast
    hmessage hd hquiet hheard
  have hsettled : (StreamSession.settled ended u.session.receiver).peerTable =
        u.session.receiver.peerTable ∧
      (StreamSession.settled ended u.session.receiver).header = u.session.receiver.header := by
    cases ended with
    | ok m => exact ⟨rfl, rfl⟩
    | error halt => cases halt <;> exact ⟨rfl, rfl⟩
  simpa only [hsettled] using hagrees

end Parallel

/-- The two engines agree on the frames that both take. One frame comes to the same on a stream and
in a datagram: a table is taken over by both, which then wait for the next frame, or it is refused
by both. A call that gets past the tables ends on both sides with the same message or the same
error, and both leave the same last header and the same table behind. -/
theorem engines_agree {s s' : Scene (StreamSession μ)} {d d' : Scene (DatagramSession μ)}
    {f : Frame} {fs : List Frame} (h : Parallel s.session d.session (f :: fs)) (flags : Flags) :
    (∀ ended ended', (StreamSession.receiveFrame flags).run s = (ended, s') →
      (DatagramSession.receiveDatagram flags).run d = (ended', d') →
      ended ≠ .error (.failed .timeout) →
      (∀ halt, ended' = .error halt → halt.ofTransport = false) →
        ended = ended'.map (Option.map Prod.fst) ∧
        s'.session.receiver.header = f.header ∧ d'.session.header = f.header ∧
        s'.session.receiver.peerTable = d'.session.peerTable ∧
        (∀ told, f.Tells s.session.config.maxPayload told →
          ended = .ok none ∧ d'.session.peerTable = told ∧
            s'.session.config = s.session.config ∧ Parallel s'.session d'.session fs) ∧
        ((∀ told, ¬f.Tells s.session.config.maxPayload told) →
          ended ≠ .ok none ∧ d'.session.peerTable = d.session.peerTable)) ∧
    ∀ ended ended', (∃ g ∈ f :: fs, ∀ told, ¬g.Tells s.session.config.maxPayload told) →
      (StreamSession.receive flags).run s = (ended, s') →
      (DatagramSession.receive flags).run d = (ended', d') →
      ended ≠ .error (.failed .timeout) → DatagramSession.unheard ended' = false →
        ended = ended'.map Prod.fst ∧
        s'.session.receiver.peerTable = d'.session.peerTable ∧
        ∃ front g back, f :: fs = front ++ g :: back ∧
          Tables s.session.config.maxPayload d.session.peerTable front d'.session.peerTable ∧
          (∀ told, ¬g.Tells s.session.config.maxPayload told) ∧
          s'.session.receiver.header = g.header ∧ d'.session.header = g.header :=
  ⟨fun _ _ hs hd hquiet hheard => h.frame_agrees hs hd hquiet hheard,
    fun _ _ hlast hs hd hquiet hheard => h.receive_agrees hlast hs hd hquiet hheard⟩

/-- A table of a peer without types. -/
def emptyTable : Frame := tableFrame (Registry.ofVersion 3 : Registry AnyMessage)

/-- A message of a type that nobody knows. -/
def unnamed : Frame := ⟨.complete 2 70, [1, 2]⟩

def unnamedOnStream : Scene (StreamSession AnyMessage) where
  session := .new (.ofVersion 2) {}
    { inbound := { arrivals := [.bytes (wire [emptyTable, unnamed])] } }

def unnamedInDatagrams : Scene (DatagramSession AnyMessage) where
  session.registry := .ofVersion 2
  session.socket := some
    { arrivals := [emptyTable, unnamed].map fun f => .datagram default f.encode }

theorem engines_agree_unnamed :
    ((StreamSession.receive .none).run unnamedOnStream).1 =
      ((DatagramSession.receive .none).run unnamedInDatagrams).1.map Prod.fst := by
  have hkind : unnamed.header.kind = .ok .complete := by decide +kernel
  have h : Parallel unnamedOnStream.session unnamedInDatagrams.session [emptyTable, unnamed] := by
    refine ⟨⟨rfl, rfl⟩, rfl, rfl, rfl, ⟨[], by decide +kernel⟩, ⟨[], by decide +kernel⟩, ?_,
      by decide +kernel⟩
    simp only [List.forall_mem_cons, List.not_mem_nil, false_implies, implies_true, and_true]
    exact ⟨⟨by decide +kernel, .inr ⟨by decide +kernel, by decide +kernel⟩⟩,
      ⟨by decide +kernel, .inl hkind⟩⟩
  have hlast : ∃ g ∈ [emptyTable, unnamed],
      ∀ told, ¬g.Tells unnamedOnStream.session.config.maxPayload told :=
    ⟨unnamed, by simp, fun told hf => by
      have hother := hf.carries.kind
      rw [hkind] at hother
      cases hother⟩
  exact ((engines_agree h .none).2 _ _ hlast rfl rfl (by decide +kernel) (by decide +kernel)).1

end MessageChannel
