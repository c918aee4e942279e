import MessageChannel.Proofs.DatagramReceipt

namespace MessageChannel

/-- The table that a datagram tells, if it is one whole frame. -/
def datagramTable? (limit : UInt32) (bytes : List UInt8) : Option PeerTable :=
  match Frame.split? bytes with
  | some (f, []) => f.table? limit
  | _ => none

theorem datagramTable?_eq_some_iff {limit : UInt32} {bytes : List UInt8} {table : PeerTable} :
    datagramTable? limit bytes = some table ↔
      ∃ f : Frame, f.Tells limit table ∧ bytes = f.encode := by
  constructor
  · intro htable
    rw [datagramTable?] at htable
    split at htable
    · next f hsplit =>
      obtain ⟨hf, hbytes⟩ := Frame.tells_of_split? hsplit htable
      exact ⟨f, hf, by rw [hbytes, List.append_nil]⟩
    · cases htable
  · rintro ⟨f, hf, rfl⟩
    have hsplit := hf.split? []
    rw [List.append_nil] at hsplit
    rw [datagramTable?, hsplit]
    exact hf.table?

theorem datagramTable?_encode {limit : UInt32} {f : Frame} {table : PeerTable}
    (hf : f.Tells limit table) : datagramTable? limit f.encode = some table :=
  datagramTable?_eq_some_iff.2 ⟨f, hf, rfl⟩

/-- A datagram with which a call ends tells no table. -/
theorem datagramTable?_of_ended {μ : Type} [Message μ] {registry : Registry μ} {limit : UInt32}
    {flags : Flags} {table : PeerTable} {sender : Endpoint} {bytes : List UInt8}
    {ended : Except Halt (μ × Endpoint)}
    (hended : ended.map some = (readDatagram registry limit flags table bytes).map
      (·.message?.map (·, sender))) : datagramTable? limit bytes = none := by
  refine Option.eq_none_iff_forall_ne_some.2 fun told htable => ?_
  rw [readDatagram_eq_table_iff.2 (datagramTable?_eq_some_iff.1 htable)] at hended
  cases ended <;> cases hended

/-- Of the tables that datagrams tell, the last is the one that a receiver goes by. -/
theorem Tables.getLast?_datagrams {limit : UInt32} {table last : PeerTable} {fs : List Frame}
    (h : Tables limit table fs last) :
    ((fs.map Frame.encode).filterMap (datagramTable? limit)).getLast?.getD table = last := by
  induction h with
  | none table => rfl
  | next hf hdata hfits hdecode hrest ih =>
      rw [List.map_cons, List.filterMap_cons, datagramTable?_encode ⟨hf, hdata, hfits, hdecode⟩]
      dsimp only
      rw [List.getLast?_cons, Option.getD_some]
      exact ih

namespace DatagramSocket

/-- What a receiver with a buffer of this size gets of an arrival. -/
def cut? (capacity : Nat) : DatagramArrival → Option (List UInt8)
  | .datagram _ data => some (data.take capacity)
  | .pause _ | .fault _ => none

theorem cut?_eq_map (capacity : Nat) (a : DatagramArrival) :
    cut? capacity a = (received? capacity a).map Prod.snd := by
  cases a <;> rfl

end DatagramSocket

open DatagramSocket (cut?)

/-- The table that an arrival tells. -/
def Config.tableIn? (c : Config) (a : DatagramArrival) : Option PeerTable :=
  (cut? c.datagramBuffer a).bind (datagramTable? c.maxPayload)

namespace DatagramSession

variable {μ : Type}

/-- The tables that the peers tell in a call to receive that makes one session of the other. -/
def told (s t : DatagramSession μ) : List PeerTable :=
  (frontOf s.arrivals t.arrivals).filterMap s.config.tableIn?

/-- One session becomes the other by taking arrivals that tell these tables. -/
structure Learns (s : DatagramSession μ) (tables : List PeerTable) (t : DatagramSession μ) :
    Prop where
  config : t.config = s.config
  arrivals : ∃ taken, s.arrivals = taken ++ t.arrivals ∧ taken.filterMap s.config.tableIn? = tables
  peerTable : t.peerTable = tables.getLast?.getD s.peerTable

theorem Learns.told {s t : DatagramSession μ} {tables : List PeerTable} (h : s.Learns tables t) :
    s.told t = tables := by
  obtain ⟨taken, harrivals, rfl⟩ := h.arrivals
  rw [DatagramSession.told, harrivals, frontOf_append]

variable {s t : Scene (DatagramSession μ)}

/-- What datagrams tell, out of all that came. -/
theorem Draws.tables {s t : DatagramSession μ} {datagrams : List (Endpoint × List UInt8)}
    (h : s.Draws datagrams t) : ∃ taken, s.arrivals = taken ++ t.arrivals ∧
      taken.filterMap s.config.tableIn? =
        (datagrams.map Prod.snd).filterMap (datagramTable? s.config.maxPayload) := by
  obtain ⟨taken, harrivals, rfl⟩ := h.arrivals
  refine ⟨taken, harrivals, ?_⟩
  rw [List.map_filterMap, List.filterMap_filterMap]
  congr 1
  funext a
  rw [Config.tableIn?, DatagramSocket.cut?_eq_map]

variable [Message μ]

/-- A table is taken over, of whatever version it is, and the call goes on. -/
theorem onDatagram_tells {f : Frame} {table : PeerTable}
    (hf : f.Tells s.session.config.maxPayload table) (flags : Flags) (sender : Endpoint) :
    ∃ log, (onDatagram flags sender f.encode).run s = (.ok none,
      { s with session := { s.session with header := f.header, peerTable := table }, log }) := by
  obtain ⟨log, hrun⟩ := run_onDatagram_encode flags sender f (s := s)
  rw [Frame.read_eq_table_iff.2 hf] at hrun
  exact ⟨log, hrun⟩

/-- Whatever else is in a datagram leaves the table as it is. -/
theorem onDatagram_untold {flags : Flags} {sender : Endpoint} {bytes : List UInt8}
    {ended : Except Halt (Option μ)}
    (hnone : datagramTable? s.session.config.maxPayload bytes = none)
    (hrun : (onDatagram flags sender bytes).run s = (ended, t)) :
    t.session.peerTable = s.session.peerTable := by
  by_cases hshort : bytes.length < headerSize
  · have hdecode := Header.decode?_eq_none_iff.2 hshort
    simp only [onDatagram, Header.parse, hdecode, Call.run_bind, Call.ofExcept, Call.fail,
      Call.halt] at hrun
    obtain ⟨-, rfl⟩ := Prod.mk.inj hrun
    rfl
  · obtain ⟨f, rfl⟩ := Frame.exists_encode_eq (Nat.not_lt.1 hshort)
    obtain ⟨log, hon⟩ := run_onDatagram_encode flags sender f (s := s)
    rw [hon] at hrun
    obtain ⟨-, rfl⟩ := Prod.mk.inj hrun
    refine Reading.tableAfter_eq_self fun told hread => ?_
    rw [datagramTable?_encode (Frame.read_eq_table_iff.1 hread)] at hnone
    cases hnone

/-- Whatever a call to receive comes to, the table in force behind it is the last one that was told
in it, if one was. -/
theorem receive_learns {flags : Flags} {ended : Except Halt (μ × Endpoint)}
    (hrun : (receive flags).run s = (ended, t)) :
    s.session.Learns (s.session.told t.session) t.session := by
  obtain ⟨tables, hlearns⟩ : ∃ tables, s.session.Learns tables t.session := by
    cases receive_receives hrun with
    | nothing hended hhalt hreceives htables hframes =>
        obtain ⟨taken, harrivals, htold⟩ := hreceives.tables
        rw [hframes] at htold
        exact ⟨_, hreceives.config, ⟨taken, harrivals, htold⟩, htables.getLast?_datagrams.symm⟩
    | @datagram tables fs sender bytes hreceives htables hframes hended =>
        obtain ⟨taken, harrivals, htold⟩ := hreceives.tables
        have hlast : datagramTable? s.session.config.maxPayload bytes = none :=
          datagramTable?_of_ended hended
        rw [List.map_append, hframes, List.filterMap_append, List.map_singleton,
          List.filterMap_cons_none hlast, List.filterMap_nil, List.append_nil] at htold
        exact ⟨_, hreceives.config, ⟨taken, harrivals, htold⟩, htables.getLast?_datagrams.symm⟩
  rwa [← hlearns.told] at hlearns

end DatagramSession

end MessageChannel
