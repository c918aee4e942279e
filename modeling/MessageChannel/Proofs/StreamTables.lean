import MessageChannel.Proofs.Handshake
import MessageChannel.Proofs.Reconciliation
import MessageChannel.Proofs.Timeouts

namespace MessageChannel

variable {μ : Type}

namespace Receiver

variable {registry : Registry μ} {r r' : Receiver μ} {h : Header} {halt : Halt} {fs : List Frame}
  {demand : Demand} {bytes : List UInt8}

/-- Between messages, the header of a table is refused only if it is of the old form or declares
too much. -/
theorem refused_of_onHeader (hkind : h.kind = .ok .versionVerification)
    (hidle : r.assembly.inFlight = none)
    (heffect : (onHeader registry h).effect r = (.error halt, r')) :
    h.data ≠ tableTypeId ∨ r.assembly.limit < h.length := by
  by_cases hdata : h.data = tableTypeId
  · refine .inr (UInt32.not_le.1 fun hfits => ?_)
    have hprepare := Assembly.prepare_eq_ok_iff.2 ⟨hidle, hfits, rfl⟩
    simp [effect_onHeader, hkind, hdata, hprepare] at heffect
  · exact .inl hdata

/-- A table that comes whole is refused only if it cannot be decoded. -/
theorem refused_of_onBody (hkind : h.kind = .ok .versionVerification)
    (heffect : (onBody registry h).effect r = (.error halt, r')) :
    ∃ error, PeerTable.decode r.assembly.payload.toList = .error error := by
  cases hdecode : PeerTable.decode r.assembly.payload.toList with
  | error error => exact ⟨error, rfl⟩
  | ok told => simp [effect_onBody, hkind, hdecode] at heffect

/-- Amid slices a receiver takes nothing but slices, so the table in force stays. -/
theorem Takes.amidSlices {announced : Announced} (htakes : Takes registry r fs demand r')
    (hflight : r.assembly.inFlight = some announced) :
    r'.peerTable = r.peerTable ∧ (demand = .frame → r'.assembly.inFlight = some announced) ∧
      (∀ range, demand = .body range →
        r'.assembly.inFlight = some announced ∧ r'.header.kind = .ok .slice) := by
  induction htakes with
  | nothing => exact ⟨rfl, fun _ => hflight, by simp⟩
  | bare htakes hheeds hbare ih =>
      have hflight' := ih.2.1 rfl
      cases hheeds with
      | table hkind hdata hidle | whole hkind hidle | announcement hkind hidle =>
          rw [hflight'] at hidle
          cases hidle
      | slice => exact absurd rfl (hbare _)
  | opened htakes hheeds ih =>
      have hflight' := ih.2.1 rfl
      cases hheeds with
      | table hkind hdata hidle | whole hkind hidle | announcement hkind hidle =>
          rw [hflight'] at hidle
          cases hidle
      | slice hkind => exact ⟨ih.1, by simp, fun _ _ => ⟨hflight', hkind⟩⟩
  | @filled fs range bytes demand r' r'' htakes hlength habsorbs ih =>
      obtain ⟨hflight', hkind⟩ := ih.2.2 range rfl
      obtain ⟨-, rfl⟩ := habsorbs.kind.2.2 hkind
      exact ⟨ih.1, fun _ => hflight',
        fun range' hbody => absurd hbody (habsorbs.ne_body range')⟩

end Receiver

namespace StreamSession

open Receiver (taken Stands)

section

variable {s t : Scene (StreamSession μ)} {limit : UInt32} {range : SliceRange} {halt : Halt}

theorem toldTables_of_noHeader (hrun : readHeader.run s = (.error halt, t))
    (hquiet : halt ≠ .failed .timeout) : toldTables limit s.session.available = [] := by
  rcases readHeader_cases hrun with (⟨bytes, hended, -⟩ | ⟨-, hshort⟩) | ⟨hended, -⟩
  · cases hended
  · exact toldTables_of_short hshort
  · exact absurd (Except.error.inj hended) hquiet

theorem toldTables_of_badHeader {h : Header} {u : Scene (StreamSession μ)}
    (hidle : s.session.receiver.assembly.inFlight = none)
    (hlimit : s.session.receiver.assembly.limit = limit)
    (hread : readHeader.run s = (.ok h.encode, u))
    (hheader : (onReceiver (Receiver.onHeader u.session.registry h)).run u = (.error halt, t)) :
    toldTables limit s.session.available = [] := by
  obtain ⟨hears, hreceiver⟩ := hears_of_readHeader hread
  rw [hears.available]
  by_cases hkind : h.kind = .ok .versionVerification
  · obtain ⟨heffect, -⟩ := effect_of_onReceiver (Receiver.timeless_onHeader _ _) hheader
    rw [hreceiver] at heffect
    rcases Receiver.refused_of_onHeader hkind hidle heffect with hdata | hlarge
    · exact Header.Refused.toldTables (.inl hdata)
    · exact Header.Refused.toldTables (.inr (.inl (hlimit ▸ hlarge)))
  · exact toldTables_of_kind hkind _

theorem toldTables_of_noBody {front : List UInt8} {u : StreamSession μ} {h : Header}
    (hears : u.Hears front s.session)
    (hrun : (readBody ⟨0, h.length.toNat⟩).run s = (.error halt, t)) :
    toldTables limit (h.encode ++ s.session.available) = [] := by
  obtain ⟨transport, htransport⟩ := hears.connected
  rcases readBody_cases htransport hrun with ⟨bytes, hended, -⟩ | ⟨-, hshort⟩
  · cases hended
  · exact Header.Refused.toldTables (.inr (.inr (.inl hshort)))

theorem toldTables_of_badBody {front : List UInt8} {u : StreamSession μ} {h : Header}
    {v : Scene (StreamSession μ)} (hears : u.Hears front s.session)
    (hkind : h.kind = .ok .versionVerification)
    (hsize : s.session.receiver.assembly.size = h.length.toNat)
    (hread : (readBody ⟨0, h.length.toNat⟩).run s = (.ok (), v))
    (hbody : (onReceiver (Receiver.onBody v.session.registry h)).run v = (.error halt, t)) :
    toldTables limit (h.encode ++ s.session.available) = [] := by
  obtain ⟨transport, htransport⟩ := hears.connected
  rcases readBody_cases htransport hread with ⟨bytes, -, hlength, hears', hreceiver⟩ | ⟨hended, -⟩
  · obtain ⟨heffect, -⟩ := effect_of_onReceiver (Receiver.timeless_onBody _ _) hbody
    obtain ⟨error, hdecode⟩ := Receiver.refused_of_onBody hkind heffect
    have hlength' : bytes.length = h.length.toNat := hlength
    have hpayload : v.session.receiver.assembly.payload.toList = bytes := by
      rw [hreceiver]
      exact Receiver.payload_fill_whole (hlength'.trans hsize.symm)
    refine Header.Refused.toldTables (.inr (.inr (.inr ⟨error, ?_⟩)))
    rw [hears'.available, ← hlength', List.take_left, ← hpayload, hdecode]
  · cases hended

theorem toldTables_of_head {f : Frame} (hkind : f.header.kind ≠ .ok .versionVerification)
    (fs : List Frame) (bytes : List UInt8) :
    toldTables limit (wire (f :: fs) ++ bytes) = [] := by
  rw [wire_cons, Frame.encode, List.append_assoc, List.append_assoc]
  exact toldTables_of_kind hkind _

end

variable [Message μ] {s t u v : Scene (StreamSession μ)} {flags : Flags} {ended : Except Halt μ}
  {demand : Demand} {limit : UInt32} {table : PeerTable} {fs : List Frame}

/-- A call that does not give up has taken all the tables that come before anything else. -/
theorem Ends.getLast?_toldTables
    (hstands : Stands s.session.registry limit table fs demand u.session.receiver)
    (hreads : s.session.Reads (taken fs demand u.session.receiver) u.session)
    (hends : Ends flags u demand ended v) (hquiet : ended ≠ .error (.failed .timeout)) :
    (toldTables limit s.session.available).getLast?.getD table = u.session.receiver.peerTable := by
  have hsame := hreads.available
  -- What stands behind the leading tables tells none, in every place a call can stop.
  cases hstands with
  | rests htables hr =>
      rw [Receiver.taken_frame] at hsame
      rw [hsame, hr.peerTable]
      refine htables.getLast?_toldTables ?_
      cases hends with
      | noHeader hread => exact toldTables_of_noHeader hread fun hhalt => hquiet (hhalt ▸ rfl)
      | badHeader hread hheader =>
          exact toldTables_of_badHeader hr.inFlight hr.limit hread hheader
  | @opensTable _ told h _ htables hr hheader hkind hdata hfits hsize =>
      subst hheader
      have hears : ∃ front, s.session.Hears front u.session := by
        rcases hreads with ⟨hnothing, -⟩ | hears
        · have hlength := congrArg List.length hnothing
          simp [taken, Header.length_encode, headerSize] at hlength
        · exact ⟨_, hears⟩
      obtain ⟨front, hears⟩ := hears
      rw [taken, List.append_assoc] at hsame
      rw [hsame, hr.peerTable]
      refine htables.getLast?_toldTables ?_
      cases hends with
      | noBody hread => exact toldTables_of_noBody hears hread
      | badBody hread hbody => exact toldTables_of_badBody hears hkind hsize hread hbody
  | @opensWhole _ told h _ htables hr hheader hkind hfits hsize =>
      subst hheader
      rw [taken, List.append_assoc] at hsame
      rw [hsame, hr.peerTable]
      exact htables.getLast?_toldTables (toldTables_of_kind (by simp [hkind]) _)
  | gathers htables hf hslices hg =>
      rw [Receiver.taken_frame, wire_append, List.append_assoc] at hsame
      rw [hsame, hg.peerTable]
      exact htables.getLast?_toldTables (toldTables_of_head (by simp [hf.kind]) _ _)
  | opensSlice htables hf hslices hg =>
      rw [taken, wire_append, List.append_assoc, List.append_assoc] at hsame
      rw [hsame, hg.peerTable]
      exact htables.getLast?_toldTables (toldTables_of_head (by simp [hf.kind]) _ _)
  | delivers htables hbody hmessage htold =>
      obtain ⟨f, gs, rfl, hkind⟩ := hbody.head
      rw [Receiver.taken_delivery, wire_append, List.append_assoc] at hsame
      rw [hsame, htold]
      exact htables.getLast?_toldTables (toldTables_of_head hkind _ _)

/-- The bytes that a call to receive goes by: all that are available, but if it gives up its wait,
those that it has taken by then. -/
def considered {α : Type} (s : StreamSession μ) (ended : Except Halt α) (t : StreamSession μ) :
    List UInt8 :=
  match ended with
  | .error halt => if halt = .failed .timeout then frontOf s.available t.available else s.available
  | .ok _ => s.available

omit [Message μ] in
theorem considered_of_quiet {α : Type} {s t : StreamSession μ} {ended : Except Halt α}
    (hquiet : ended ≠ .error (.failed .timeout)) : s.considered ended t = s.available := by
  cases ended with
  | ok a => rfl
  | error halt =>
      refine if_neg ?_
      rintro rfl
      exact hquiet rfl

/-- The tables that the peer tells in a call to receive that ends like this. Amid slices it tells
none. -/
def told {α : Type} (s : StreamSession μ) (ended : Except Halt α) (t : StreamSession μ) :
    List PeerTable :=
  if s.receiver.assembly.isAssembling then []
  else toldTables s.config.maxPayload (s.considered ended t)

/-- Whatever a call to receive comes to, the table in force behind it is the last one that the peer
has told in it, if it has told any. -/
theorem receive_told (hlimit : s.session.receiver.limit = s.session.config.maxPayload)
    (hrun : (receive flags).run s = (ended, t)) :
    t.session.receiver.peerTable =
      (s.session.told ended t.session).getLast?.getD s.session.receiver.peerTable := by
  obtain ⟨log, fs, demand, u, v, hpasses, hends, ht⟩ := receive_ends hrun
  obtain ⟨htakes, hreads⟩ := hpasses.takes
  have htable : t.session.receiver.peerTable = u.session.receiver.peerTable := by
    rw [← hends.peerTable, ht]
    rcases ended with (_ | _ | _) | _ <;> rfl
  rw [htable, told]
  cases hflight : s.session.receiver.assembly.inFlight with
  | some announced =>
      rw [if_pos (by simp [Assembly.isAssembling, hflight])]
      exact (htakes.amidSlices hflight).1
  | none =>
      rw [if_neg (by simp [Assembly.isAssembling, hflight])]
      have hstands := htakes.stands
        (⟨hflight, hlimit, rfl⟩ : s.session.receiver.Rests s.session.config.maxPayload _)
      by_cases hquiet : ended = .error (.failed .timeout)
      · subst hquiet
        obtain ⟨rfl, hidle, hears, -⟩ := hends.of_timeout
        obtain ⟨last, htables, hr⟩ := hstands.rests_of_idle hidle
        have hrest : u.session.available = t.session.available := by
          rw [ht]
          exact hears.available
        have hsame : s.session.available = wire fs ++ u.session.available := by
          rw [← Receiver.taken_frame fs u.session.receiver]
          exact hreads.available
        rw [considered, if_pos rfl, ← hrest, hsame, frontOf_append, ← List.append_nil (wire fs),
          htables.getLast?_toldTables (toldTables_of_short (by decide)), hr.peerTable]
      · rw [considered_of_quiet hquiet]
        exact (hends.getLast?_toldTables hstands hreads hquiet).symm

/-- Between messages a table is taken over, of whatever version it is, and the call goes on. -/
theorem receiveFrame_tells {f : Frame} {rest : List UInt8} {ended : Except Halt (Option μ)}
    (hidle : s.session.Idle) (hf : f.Tells s.session.config.maxPayload table)
    (havailable : s.session.available = f.encode ++ rest)
    (hrun : (receiveFrame flags).run s = (ended, t)) (hquiet : ended ≠ .error (.failed .timeout)) :
    ended = .ok none ∧ t.session.receiver.peerTable = table ∧ t.session.available = rest := by
  have hintake := receiveFrame_intake hrun hquiet
  obtain ⟨r, htaken, hr⟩ := hidle.rests.intake_table s.session.registry flags hf.carries hf.data
    hf.fits hf.decode rest
  rw [havailable, htaken] at hintake
  obtain ⟨rfl, hreceiver, hrest, -⟩ := hintake
  exact ⟨rfl, by rw [hreceiver, hr.peerTable], hrest⟩

/-- What stands behind the tables that a stream begins with does not undo them. -/
theorem receive_kept {last : PeerTable} {bytes : List UInt8} (hidle : s.session.Idle)
    (htables : Tables s.session.config.maxPayload s.session.receiver.peerTable fs last)
    (havailable : s.session.available = wire fs ++ bytes)
    (hbytes : toldTables s.session.config.maxPayload bytes = [])
    (hrun : (receive flags).run s = (ended, t)) (hquiet : ended ≠ .error (.failed .timeout)) :
    t.session.receiver.peerTable = last := by
  have hnotAssembling : ¬s.session.receiver.assembly.isAssembling = true := by
    simp [Assembly.isAssembling, hidle.inFlight]
  rw [receive_told hidle.limit hrun, told, if_neg hnotAssembling, considered_of_quiet hquiet,
    havailable, htables.getLast?_toldTables hbytes]

end StreamSession

end MessageChannel
