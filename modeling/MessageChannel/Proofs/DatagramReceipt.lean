import MessageChannel.Proofs.DatagramReading

namespace MessageChannel

variable {μ : Type}

/-- An end that the transport makes of a wait: no datagram comes of it. -/
def Halt.ofTransport : Halt → Bool
  | .failed .timeout | .failed .connectionReset | .failed (.io _) | .stalled => true
  | .failed _ | .crashed => false

def DatagramArrival.datagram? : DatagramArrival → Option (Endpoint × List UInt8)
  | .datagram sender data => some (sender, data)
  | .pause _ | .fault _ => none

namespace DatagramSocket

/-- What a receiver with a buffer of this size gets of an arrival, and who sent it. -/
def received? (capacity : Nat) : DatagramArrival → Option (Endpoint × List UInt8)
  | .datagram sender data => some (sender, data.take capacity)
  | .pause _ | .fault _ => none

/-- A wait takes pauses and faults off the arrivals, and then the datagram with which it ends, if
one comes. -/
theorem pickUp_takes (capacity backoff : Nat) (deadline : Option Nat)
    (arrivals : List DatagramArrival) (now : Nat) :
    let picked := pickUp capacity backoff deadline arrivals now
    ∃ taken, arrivals = taken ++ picked.arrivals ∧ taken.filterMap (received? capacity) =
      match picked.outcome with
      | .datagram sender bytes => [(sender, bytes)]
      | _ => [] := by
  fun_induction pickUp capacity backoff deadline arrivals now with
  | case1 | case2 => exact ⟨[], rfl, rfl⟩
  | case3 sender data rest now => exact ⟨[_], rfl, rfl⟩
  | case4 duration rest now htime ih =>
      obtain ⟨taken, harrivals, hreceived⟩ := ih
      exact ⟨.pause duration :: taken, by rw [List.cons_append, ← harrivals], hreceived⟩
  | case6 error rest now hretry ih | case7 error rest now hretry htime ih =>
      obtain ⟨taken, harrivals, hreceived⟩ := ih
      exact ⟨.fault error :: taken, by rw [List.cons_append, ← harrivals], hreceived⟩
  | case5 | case8 | case9 => exact ⟨[_], rfl, rfl⟩

theorem ofTransport_of_pickUp {capacity backoff now : Nat} {deadline : Option Nat}
    {arrivals : List DatagramArrival} {error : ChannelError}
    (h : (pickUp capacity backoff deadline arrivals now).outcome = .failed error) :
    (Halt.failed error).ofTransport = true := by
  fun_induction pickUp capacity backoff deadline arrivals now with
  | case1 | case2 | case3 | case5 | case8 => cases h
  | case4 duration rest now htime ih => exact ih h
  | case6 fault rest now hretry ih | case7 fault rest now hretry htime ih => exact ih h
  | case9 fault rest now error' hretry =>
      obtain rfl := PickupEnd.failed.inj h
      rcases IoError.eq_of_retry_eq_never hretry with rfl | rfl <;> rfl

end DatagramSocket

namespace DatagramSession

open DatagramSocket (received?)

def arrivals (s : DatagramSession μ) : List DatagramArrival :=
  (s.socket.map (·.arrivals)).getD []

/-- The datagrams that are yet to come, uncut. -/
def incoming (s : DatagramSession μ) : List (Endpoint × List UInt8) :=
  s.arrivals.filterMap (·.datagram?)

/-- One session becomes the other by taking these datagrams off its socket. What they leave in the
session is not said here. -/
structure Draws (s : DatagramSession μ) (datagrams : List (Endpoint × List UInt8))
    (t : DatagramSession μ) : Prop where
  registry : t.registry = s.registry
  config : t.config = s.config
  arrivals : ∃ taken, s.arrivals = taken ++ t.arrivals ∧
    taken.filterMap (received? s.config.datagramBuffer) = datagrams

namespace Draws

variable {s t u : DatagramSession μ} {front back : List (Endpoint × List UInt8)}

theorem refl (s : DatagramSession μ) : s.Draws [] s := ⟨rfl, rfl, [], rfl, rfl⟩

theorem trans (hst : s.Draws front t) (htu : t.Draws back u) : s.Draws (front ++ back) u := by
  obtain ⟨taken, harrivals, rfl⟩ := hst.arrivals
  obtain ⟨taken', harrivals', rfl⟩ := htu.arrivals
  refine ⟨htu.registry.trans hst.registry, htu.config.trans hst.config, taken ++ taken', ?_, ?_⟩
  · rw [harrivals, harrivals', List.append_assoc]
  · rw [hst.config, List.filterMap_append]

/-- The datagrams that a session receives are the next that come, each cut to its buffer. -/
theorem incoming (h : s.Draws front t) : ∃ whole, s.incoming = whole ++ t.incoming ∧
    front = whole.map fun d => (d.1, d.2.take s.config.datagramBuffer) := by
  obtain ⟨taken, harrivals, rfl⟩ := h.arrivals
  refine ⟨taken.filterMap (·.datagram?), ?_, ?_⟩
  · rw [DatagramSession.incoming, harrivals, List.filterMap_append]
    rfl
  · rw [List.map_filterMap]
    congr 1
    funext a
    cases a <;> rfl

theorem last {sender : Endpoint} {bytes : List UInt8} (h : s.Draws (front ++ [(sender, bytes)]) t) :
    ∃ whole data, s.incoming = whole ++ (sender, data) :: t.incoming ∧
      front.map Prod.snd = whole.map (·.2.take s.config.datagramBuffer) ∧
      bytes = data.take s.config.datagramBuffer := by
  obtain ⟨all, hall, hcut⟩ := h.incoming
  obtain ⟨whole, last, rfl, rfl, hlast⟩ := List.map_eq_append_iff.1 hcut.symm
  obtain ⟨⟨sender', data⟩, rfl, hgot⟩ := List.map_eq_singleton_iff.1 hlast
  obtain ⟨rfl, rfl⟩ := Prod.mk.inj hgot
  rw [List.append_assoc, List.singleton_append] at hall
  exact ⟨whole, data, hall, List.map_map, rfl⟩

end Draws

variable {s t : Scene (DatagramSession μ)}

/-- How a wait for a datagram goes. -/
inductive PicksUp (s t : DatagramSession μ) : Except Halt (Endpoint × Nat) → Prop
  | nothing {halt} (hhalt : halt.ofTransport = true) (hdraws : s.Draws [] t) :
      PicksUp s t (.error halt)
  | short {sender bytes} (hshort : bytes.length < headerSize)
      (hdraws : s.Draws [(sender, bytes)] t) :
      PicksUp s t (.error (.failed (.invalidHeader (.shortDatagram bytes.length))))
  | datagram {sender bytes} (hlong : headerSize ≤ bytes.length)
      (hdraws : s.Draws [(sender, bytes)] t) (hbuffer : t.buffer.take bytes.length = bytes) :
      PicksUp s t (.ok (sender, bytes.length))

theorem pickUp_picksUp {ended : Except Halt (Endpoint × Nat)} (hrun : pickUp.run s = (ended, t)) :
    s.session.PicksUp t.session ended ∧ t.session.header = s.session.header ∧
      t.session.peerTable = s.session.peerTable := by
  cases hsocket : s.session.socket with
  | none =>
      simp only [pickUp, connected, Call.run_bind, Call.session, hsocket, Call.fail,
        Call.halt] at hrun
      obtain ⟨rfl, rfl⟩ := Prod.mk.inj hrun
      exact ⟨.nothing rfl (.refl _), rfl, rfl⟩
  | some p =>
      simp only [pickUp, connected, Call.run_bind, Call.session, hsocket, Call.scene, Call.settle,
        Call.run_pure, DatagramSocket.receive] at hrun
      obtain ⟨taken, harrivals, hreceived⟩ := DatagramSocket.pickUp_takes
        s.session.config.datagramBuffer s.session.config.retryBackoff
        (s.session.config.recvTimeout.map (s.now + ·)) p.arrivals s.now
      have hsame : s.session.arrivals = p.arrivals := by simp [arrivals, hsocket]
      split at hrun
      · next sender bytes hgot =>
        rw [hgot] at hreceived hrun
        split at hrun
        · next hshort =>
          obtain ⟨rfl, rfl⟩ := Prod.mk.inj hrun
          exact ⟨.short hshort ⟨rfl, rfl, taken, hsame.trans harrivals, hreceived⟩, rfl, rfl⟩
        · next hlong =>
          obtain ⟨rfl, rfl⟩ := Prod.mk.inj hrun
          exact ⟨.datagram (Nat.not_lt.1 hlong)
            ⟨rfl, rfl, taken, hsame.trans harrivals, hreceived⟩ List.take_left, rfl, rfl⟩
      · next error hgot =>
        rw [hgot] at hreceived hrun
        obtain ⟨rfl, rfl⟩ := Prod.mk.inj hrun
        exact ⟨.nothing (DatagramSocket.ofTransport_of_pickUp hgot)
          ⟨rfl, rfl, taken, hsame.trans harrivals, hreceived⟩, rfl, rfl⟩
      all_goals
        next hgot =>
        rw [hgot] at hreceived hrun
        obtain ⟨rfl, rfl⟩ := Prod.mk.inj hrun
        exact ⟨.nothing rfl ⟨rfl, rfl, taken, hsame.trans harrivals, hreceived⟩, rfl, rfl⟩

/-- One session becomes the other by receiving these datagrams. What they leave in the buffer and
in the table of the peer is not said here. -/
structure Receives (s : DatagramSession μ) (datagrams : List (Endpoint × List UInt8))
    (t : DatagramSession μ) : Prop extends s.Draws datagrams t where
  header : t.header = (datagrams.map Prod.snd).foldl headerAfter s.header

namespace Receives

variable {s t u : DatagramSession μ} {front back : List (Endpoint × List UInt8)}

theorem trans (hst : s.Receives front t) (htu : t.Receives back u) :
    s.Receives (front ++ back) u := by
  refine ⟨hst.toDraws.trans htu.toDraws, ?_⟩
  rw [htu.header, hst.header, List.map_append, List.foldl_append]

end Receives

variable [Message μ]

/-- How the receipt of one datagram goes. -/
inductive ReceivesOne (flags : Flags) (s t : DatagramSession μ)
    (ended : Except Halt (Option (μ × Endpoint))) : Prop
  | nothing {halt} (hended : ended = .error halt) (hhalt : halt.ofTransport = true)
      (hreceives : s.Receives [] t) (htable : t.peerTable = s.peerTable)
  | datagram {sender bytes read} (hreceives : s.Receives [(sender, bytes)] t)
      (hread : readDatagram s.registry s.config.maxPayload flags s.peerTable bytes = read)
      (htable : t.peerTable = Reading.tableAfter s.peerTable read)
      (hended : ended = read.map (·.message?.map (·, sender)))

theorem receiveDatagram_receivesOne {flags : Flags} {ended : Except Halt (Option (μ × Endpoint))}
    (hrun : (receiveDatagram flags).run s = (ended, t)) :
    s.session.ReceivesOne flags t.session ended := by
  rw [receiveDatagram, Call.run_bind] at hrun
  cases hpick : pickUp.run s with
  | mk picked u =>
      obtain ⟨hpicksUp, hheader, htable⟩ := pickUp_picksUp hpick
      rw [hpick] at hrun
      cases hpicksUp with
      | nothing hhalt hdraws =>
          obtain ⟨rfl, rfl⟩ := Prod.mk.inj hrun
          exact .nothing rfl hhalt ⟨hdraws, hheader⟩ htable
      | short hshort hdraws =>
          obtain ⟨rfl, rfl⟩ := Prod.mk.inj hrun
          refine .datagram ⟨hdraws, ?_⟩ (readDatagram_of_short hshort) htable rfl
          rw [hheader]
          simp [headerAfter, Header.decode?_eq_none_iff.2 hshort]
      | @datagram sender bytes hlong hdraws hbuffer =>
          obtain ⟨f, rfl⟩ := Frame.exists_encode_eq hlong
          obtain ⟨log, hon⟩ := run_onDatagram_encode flags sender f (s := u)
          simp only [Call.run_bind, Call.session, hbuffer, hon] at hrun
          rw [hdraws.registry, hdraws.config, htable, ← readDatagram_encode] at hrun
          have hheader' : f.header = headerAfter s.session.header f.encode := by
            simp [headerAfter, Frame.encode, Header.decode?_encode_append]
          -- The frame is read the same whatever comes of it.
          generalize hread : readDatagram s.session.registry s.session.config.maxPayload flags
            s.session.peerTable f.encode = read at hrun
          cases read with
          | error halt | ok reading =>
              obtain ⟨rfl, rfl⟩ := Prod.mk.inj hrun
              exact .datagram ⟨⟨rfl, rfl, hdraws.arrivals⟩, hheader'⟩ hread rfl rfl

/-- How a call to receive goes: some datagrams tell tables, and it ends with the first that tells
none, unless the transport ends it before that. -/
inductive ReceivesMessage (flags : Flags) (s t : DatagramSession μ)
    (ended : Except Halt (μ × Endpoint)) : Prop
  | nothing {halt tables fs} (hended : ended = .error halt) (hhalt : halt.ofTransport = true)
      (hreceives : s.Receives tables t)
      (htables : Tables s.config.maxPayload s.peerTable fs t.peerTable)
      (hframes : tables.map Prod.snd = fs.map Frame.encode)
  | datagram {tables fs sender bytes}
      (hreceives : s.Receives (tables ++ [(sender, bytes)]) t)
      (htables : Tables s.config.maxPayload s.peerTable fs t.peerTable)
      (hframes : tables.map Prod.snd = fs.map Frame.encode)
      (hended : ended.map some =
        (readDatagram s.registry s.config.maxPayload flags t.peerTable bytes).map
          (·.message?.map (·, sender)))

section

variable {flags : Flags} {s t u : DatagramSession μ} {ended : Except Halt (μ × Endpoint)}

/-- A table in front of what a call receives. -/
theorem ReceivesMessage.behind {sender : Endpoint} {f : Frame} {told : PeerTable}
    (h : t.ReceivesMessage flags u ended) (hf : f.Tells s.config.maxPayload told)
    (hreceives : s.Receives [(sender, f.encode)] t) (htable : t.peerTable = told) :
    s.ReceivesMessage flags u ended := by
  subst htable
  cases h with
  | nothing hended hhalt hrest htables hframes =>
      rw [hreceives.config] at htables
      exact .nothing hended hhalt (hreceives.trans hrest)
        (.next hf.carries hf.data hf.fits hf.decode htables) (by simp [hframes])
  | @datagram tables fs sender' bytes hrest htables hframes hended =>
      rw [hreceives.config] at htables hended
      rw [hreceives.registry] at hended
      have hall := hreceives.trans hrest
      rw [← List.append_assoc] at hall
      exact .datagram hall (.next hf.carries hf.data hf.fits hf.decode htables) (by simp [hframes])
        hended

/-- The receipt of a datagram that ends a call. -/
theorem ReceivesOne.last (h : s.ReceivesOne flags t (ended.map some)) :
    s.ReceivesMessage flags t ended := by
  cases h with
  | @nothing halt hended hhalt hreceives htable =>
      cases ended with
      | ok m => cases hended
      | error halt =>
          obtain rfl := Except.error.inj hended
          have htables : Tables s.config.maxPayload s.peerTable [] t.peerTable := by
            rw [htable]
            exact .none _
          exact .nothing rfl hhalt hreceives htables rfl
  | @datagram sender bytes read hreceives hread htable hended =>
      have hsame : t.peerTable = s.peerTable := by
        refine htable.trans (Reading.tableAfter_eq_self fun told htold => ?_)
        rw [htold] at hended
        cases ended <;> cases hended
      have htables : Tables s.config.maxPayload s.peerTable [] t.peerTable := by
        rw [hsame]
        exact .none _
      have hlast : s.Receives ([] ++ [(sender, bytes)]) t := hreceives
      refine .datagram hlast htables rfl ?_
      rw [hended, hsame, hread]

end

theorem receiveMessage_receives {flags : Flags} {ended : Except Halt (μ × Endpoint)}
    (hrun : receiveMessage flags s = (ended, t)) :
    s.session.ReceivesMessage flags t.session ended := by
  -- Datagram by datagram: one that is not the last tells a table.
  fun_induction receiveMessage flags s with
  | case1 s u hdatagram ih =>
      cases receiveDatagram_receivesOne hdatagram with
      | nothing hended hhalt hreceives htable => cases hended
      | @datagram sender bytes read hreceives hread htable hended =>
          cases read with
          | error halt => cases hended
          | ok reading =>
              cases reading with
              | message m => cases hended
              | table told =>
                  obtain ⟨f, hf, rfl⟩ := readDatagram_eq_table_iff.1 hread
                  exact (ih hrun).behind hf hreceives htable
  | case2 s m u hdatagram | case3 s halt u hdatagram =>
      obtain ⟨rfl, rfl⟩ := Prod.mk.inj hrun
      exact (receiveDatagram_receivesOne hdatagram).last

/-- The flags that only senders go by are told of, and nothing else comes of them, whatever the
session is. -/
theorem run_receive (flags : Flags) (now : Nat) (log : Array Event) :
    ∃ log', ∀ session : DatagramSession μ,
      (receive flags).run ⟨session, now, log⟩ = receiveMessage flags ⟨session, now, log'⟩ := by
  simp only [receive, Call.tellIf, Call.run_bind]
  cases flags.sliced <;> cases flags.versioned <;>
    simp only [Bool.false_eq_true, if_true, if_false, Call.run_pure, Call.tell] <;>
    exact ⟨_, fun _ => rfl⟩

theorem receive_receives {flags : Flags} {ended : Except Halt (μ × Endpoint)}
    (hrun : (receive flags).run s = (ended, t)) :
    s.session.ReceivesMessage flags t.session ended := by
  obtain ⟨log, hreceive⟩ := run_receive flags s.now s.log (μ := μ)
  rw [hreceive s.session] at hrun
  exact receiveMessage_receives (s := { s with log }) hrun

end DatagramSession

end MessageChannel
