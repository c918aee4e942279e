import MessageChannel.Datagram.Receive
import MessageChannel.Proofs.CallFrame
import MessageChannel.Proofs.FailureCodes
import MessageChannel.Proofs.Handshake
import MessageChannel.Proofs.Recognition

namespace MessageChannel

variable {μ : Type}

/-- What there is in a datagram that is not refused. -/
inductive Reading (μ : Type) where
  | table (told : PeerTable)
  | message (m : μ)

namespace Reading

def message? : Reading μ → Option μ
  | table _ => none
  | message m => some m

theorem eq_table_of_message? {read : Except Halt (Reading μ)} (h : read.map message? = .ok none) :
    ∃ told, read = .ok (table told) := by
  cases read with
  | error halt => cases h
  | ok reading =>
      cases reading with
      | table told => exact ⟨told, rfl⟩
      | message m => cases h

/-- The table in force behind a datagram. -/
def tableAfter (table : PeerTable) : Except Halt (Reading μ) → PeerTable
  | .ok (.table told) => told
  | .ok (.message _) | .error _ => table

theorem tableAfter_eq_self {table : PeerTable} {read : Except Halt (Reading μ)}
    (h : ∀ told, read ≠ .ok (.table told)) : tableAfter table read = table := by
  cases read with
  | error halt => rfl
  | ok reading =>
      cases reading with
      | message m => rfl
      | table told => exact absurd rfl (h told)

end Reading

namespace Frame

variable {f : Frame} {bytes : List UInt8} {limit : UInt32} {table told : PeerTable} {flags : Flags}

/-- A datagram as a frame: all that is behind the header is its payload, whatever the header
declares. -/
def ofDatagram? (bytes : List UInt8) : Option Frame :=
  (Header.decode? bytes).map (⟨·, bytes.drop headerSize⟩)

theorem ofDatagram?_encode (f : Frame) : ofDatagram? f.encode = some f := by
  rw [ofDatagram?, encode, Header.decode?_encode_append, Option.map_some,
    List.drop_left' f.header.length_encode]

theorem ofDatagram?_eq_some_iff : ofDatagram? bytes = some f ↔ bytes = f.encode := by
  constructor
  · intro hframe
    obtain ⟨h, hdecode, rfl⟩ := Option.map_eq_some_iff.1 hframe
    obtain ⟨payload, rfl⟩ := Header.decode?_eq_some_iff.1 hdecode
    rw [encode, List.drop_left' h.length_encode]
  · rintro rfl
    exact ofDatagram?_encode f

theorem ofDatagram?_eq_none_iff : ofDatagram? bytes = none ↔ bytes.length < headerSize := by
  rw [ofDatagram?, Option.map_eq_none_iff, Header.decode?_eq_none_iff]

theorem encode_inj {f g : Frame} (h : f.encode = g.encode) : f = g :=
  Option.some.inj ((ofDatagram?_encode f).symm.trans (ofDatagram?_eq_some_iff.2 h))

theorem exists_encode_eq (hlong : headerSize ≤ bytes.length) : ∃ f : Frame, bytes = f.encode := by
  cases hframe : ofDatagram? bytes with
  | none => exact absurd (ofDatagram?_eq_none_iff.1 hframe) (Nat.not_lt.2 hlong)
  | some f => exact ⟨f, ofDatagram?_eq_some_iff.1 hframe⟩

variable [Message μ] {registry : Registry μ}

/-- What a receiver makes of a frame that has the size that it declares. -/
def readBody (registry : Registry μ) (flags : Flags) (table : PeerTable) (f : Frame) :
    Except Halt (Reading μ) :=
  match f.header.kind with
  | .error error => .error (.failed error)
  | .ok .complete => (Receiver.handOut flags (registry.resolve? f.header.data table) table
      f.header.data false f.payload).map .message
  | .ok .versionVerification =>
      if f.header.data = tableTypeId then match PeerTable.decode f.payload with
        | .ok told => .ok (.table told)
        | .error error => .error (.failed error)
      else .error (.failed (.unsupportedVersion (.legacy f.header.data f.header.length)))
  | .ok kind => .error (.failed (.invalidHeader (.notInDatagrams kind)))

/-- What a receiver makes of the frame of a datagram. -/
def read (registry : Registry μ) (limit : UInt32) (flags : Flags) (table : PeerTable) (f : Frame) :
    Except Halt (Reading μ) :=
  let size := f.header.length.toNat
  if size ≠ f.payload.length then
    .error (.failed (.invalidHeader (.lengthMismatch size f.payload.length)))
  else if size > limit.toNat then .error (.failed (.tooLarge size limit.toNat))
  else f.readBody registry flags table

theorem read_of_fits (hlength : f.payload.length = f.header.length.toNat)
    (hfits : f.header.length ≤ limit) :
    f.read registry limit flags table = f.readBody registry flags table := by
  have hwithin := Nat.not_lt.2 (UInt32.le_iff_toNat_le.1 hfits)
  simp only [read, hlength, ne_eq, not_true, if_false, gt_iff_lt, hwithin]

/-- A frame that does not have the size that it declares, or more than the limit, is refused. -/
theorem read_cases (registry : Registry μ) (limit : UInt32) (flags : Flags) (table : PeerTable)
    (f : Frame) :
    (f.payload.length = f.header.length.toNat ∧ f.header.length ≤ limit ∧
      f.read registry limit flags table = f.readBody registry flags table) ∨
    ∃ error, error.code ∈ refusals ∧ f.read registry limit flags table = .error (.failed error) := by
  by_cases hlength : f.payload.length = f.header.length.toNat
  · by_cases hfits : f.header.length ≤ limit
    · exact .inl ⟨hlength, hfits, read_of_fits hlength hfits⟩
    · have hlarge := UInt32.lt_iff_toNat_lt.1 (UInt32.not_le.1 hfits)
      refine .inr ⟨.tooLarge f.header.length.toNat limit.toNat, by simp [ChannelError.code, refusals],
        ?_⟩
      simp only [read, hlength, ne_eq, not_true, if_false, gt_iff_lt, hlarge, if_true]
  · refine .inr ⟨.invalidHeader (.lengthMismatch f.header.length.toNat f.payload.length),
      by simp [ChannelError.code, refusals], ?_⟩
    simp only [read, ne_eq, Ne.symm hlength, not_false_eq_true, if_true]

theorem fits_of_read {reading : Reading μ}
    (hread : f.read registry limit flags table = .ok reading) :
    f.payload.length = f.header.length.toNat ∧ f.header.length ≤ limit := by
  rcases read_cases registry limit flags table f with ⟨hlength, hfits, -⟩ | ⟨error, -, hrefused⟩
  · exact ⟨hlength, hfits⟩
  · cases hread.symm.trans hrefused

theorem readBody_eq_table_iff : f.readBody registry flags table = .ok (.table told) ↔
    f.header.kind = .ok .versionVerification ∧ f.header.data = tableTypeId ∧
      PeerTable.decode f.payload = .ok told := by
  rw [readBody]
  split
  · next hkind => simp [hkind]
  · next hkind =>
    cases Receiver.handOut flags (registry.resolve? f.header.data table) table f.header.data false
      f.payload <;> simp [hkind, Except.map]
  · next hkind =>
    by_cases hdata : f.header.data = tableTypeId
    · cases PeerTable.decode f.payload <;> simp [hkind, hdata]
    · simp [hdata]
  · next hkind => simp_all

theorem readBody_eq_message_iff {m : μ} : f.readBody registry flags table = .ok (.message m) ↔
    f.header.kind = .ok .complete ∧
      Yields registry flags table f.header.data f.payload m := by
  have hyields : Receiver.handOut flags (registry.resolve? f.header.data table) table f.header.data
      false f.payload = .ok m ↔ Yields registry flags table f.header.data f.payload m :=
    handOut_eq_ok_iff
  rw [readBody, ← hyields]
  split
  · next hkind => simp [hkind]
  · next hkind =>
    cases Receiver.handOut flags (registry.resolve? f.header.data table) table f.header.data false
      f.payload <;> simp [hkind, Except.map]
  · next hkind =>
    by_cases hdata : f.header.data = tableTypeId
    · cases PeerTable.decode f.payload <;> simp [hkind, hdata]
    · simp [hkind, hdata]
  · next hkind => simp_all

/-- A table is read from the frames that tell one. -/
theorem read_eq_table_iff :
    f.read registry limit flags table = .ok (.table told) ↔ f.Tells limit told := by
  constructor
  · intro hread
    obtain ⟨hlength, hfits⟩ := fits_of_read hread
    rw [read_of_fits hlength hfits] at hread
    obtain ⟨hkind, hdata, hdecode⟩ := readBody_eq_table_iff.1 hread
    exact ⟨⟨hkind, hlength⟩, hdata, hfits, hdecode⟩
  · intro hf
    rw [read_of_fits hf.carries.length hf.fits]
    exact readBody_eq_table_iff.2 ⟨hf.carries.kind, hf.data, hf.decode⟩

/-- A message is read from the whole frames within the limit that yield it. -/
theorem read_eq_message_iff {m : μ} :
    f.read registry limit flags table = .ok (.message m) ↔ f.Carries .complete ∧
      f.header.length ≤ limit ∧ Yields registry flags table f.header.data f.payload m := by
  constructor
  · intro hread
    obtain ⟨hlength, hfits⟩ := fits_of_read hread
    rw [read_of_fits hlength hfits] at hread
    obtain ⟨hkind, hyields⟩ := readBody_eq_message_iff.1 hread
    exact ⟨⟨hkind, hlength⟩, hfits, hyields⟩
  · rintro ⟨hf, hfits, hyields⟩
    rw [read_of_fits hf.length hfits]
    exact readBody_eq_message_iff.2 ⟨hf.kind, hyields⟩

end Frame

/-- What a receiver makes of a datagram. -/
def readDatagram [Message μ] (registry : Registry μ) (limit : UInt32) (flags : Flags)
    (table : PeerTable) (bytes : List UInt8) : Except Halt (Reading μ) :=
  match Frame.ofDatagram? bytes with
  | some f => f.read registry limit flags table
  | none => .error (.failed (.invalidHeader (.shortDatagram bytes.length)))

/-- The last header behind a datagram. -/
def headerAfter (header : Header) (bytes : List UInt8) : Header :=
  (Header.decode? bytes).getD header

section

variable [Message μ] {registry : Registry μ} {limit : UInt32} {flags : Flags} {table told : PeerTable}
  {bytes : List UInt8} {m : μ}

theorem readDatagram_encode (f : Frame) :
    readDatagram registry limit flags table f.encode = f.read registry limit flags table := by
  rw [readDatagram, Frame.ofDatagram?_encode]

theorem readDatagram_of_short (hshort : bytes.length < headerSize) :
    readDatagram registry limit flags table bytes =
      .error (.failed (.invalidHeader (.shortDatagram bytes.length))) := by
  rw [readDatagram, Frame.ofDatagram?_eq_none_iff.2 hshort]

theorem exists_encode_of_readDatagram {reading : Reading μ}
    (hread : readDatagram registry limit flags table bytes = .ok reading) :
    ∃ f : Frame, bytes = f.encode ∧ f.read registry limit flags table = .ok reading := by
  rw [readDatagram] at hread
  split at hread
  · next f hframe => exact ⟨f, Frame.ofDatagram?_eq_some_iff.1 hframe, hread⟩
  · cases hread

theorem readDatagram_eq_table_iff :
    readDatagram registry limit flags table bytes = .ok (.table told) ↔
      ∃ f : Frame, f.Tells limit told ∧ bytes = f.encode := by
  constructor
  · intro hread
    obtain ⟨f, rfl, hf⟩ := exists_encode_of_readDatagram hread
    exact ⟨f, Frame.read_eq_table_iff.1 hf, rfl⟩
  · rintro ⟨f, hf, rfl⟩
    rw [readDatagram_encode, Frame.read_eq_table_iff]
    exact hf

theorem readDatagram_eq_message_iff :
    readDatagram registry limit flags table bytes = .ok (.message m) ↔
      ∃ f : Frame, bytes = f.encode ∧ f.Carries .complete ∧ f.header.length ≤ limit ∧
        Yields registry flags table f.header.data f.payload m := by
  constructor
  · intro hread
    obtain ⟨f, rfl, hf⟩ := exists_encode_of_readDatagram hread
    exact ⟨f, rfl, Frame.read_eq_message_iff.1 hf⟩
  · rintro ⟨f, rfl, hf⟩
    rw [readDatagram_encode, Frame.read_eq_message_iff]
    exact hf

end

namespace DatagramSession

variable {s : Scene (DatagramSession μ)}

theorem run_absorbTable (h : Header) (payload : List UInt8) :
    ∃ log, (absorbTable h payload).run s =
      if h.data = tableTypeId then match PeerTable.decode payload with
        | .ok told => (.ok (), { s with session := { s.session with peerTable := told }, log })
        | .error error => (.error (.failed error), { s with log })
      else (.error (.failed (.unsupportedVersion (.legacy h.data h.length))), { s with log }) := by
  simp only [absorbTable, Call.run_bind, Call.failIf, ne_eq]
  by_cases hdata : h.data = tableTypeId
  · simp only [hdata, not_true, if_false, if_true, Call.run_pure]
    cases PeerTable.decode payload with
    | error error => exact ⟨s.log, rfl⟩
    | ok told =>
        simp only [Call.ofExcept, Call.run_pure, Call.session]
        obtain ⟨log, hlog⟩ := Call.run_tellIf (told.version ≠ s.session.registry.version)
          (.versionMismatch s.session.registry.version told.version) s
        exact ⟨log, by rw [hlog]; rfl⟩
  · simp only [hdata, not_false_eq_true, if_true, if_false]
    exact ⟨s.log, rfl⟩

variable [Message μ]

theorem run_deliver (flags : Flags) (typeId : Int32) (payload : List UInt8) :
    ∃ log, (deliver flags typeId payload).run s =
      (Receiver.handOut flags (s.session.registry.resolve? typeId s.session.peerTable)
        s.session.peerTable typeId false payload, { s with log }) := by
  simp only [deliver, ← decode_eq_ite, Call.run_bind, Call.session, Receiver.handOut]
  cases s.session.registry.resolve? typeId s.session.peerTable with
  | some blank =>
      refine ⟨s.log, ?_⟩
      cases hdecode : Worker.decode flags.inWorker blank payload <;>
        simp only [hdecode, Call.ofHalting] <;> rfl
  | none =>
      cases flags.keepUnknown
      · exact ⟨_, rfl⟩
      · exact ⟨s.log, rfl⟩

/-- What is in a datagram, as far as its frame tells: how it is taken in, the last header and the
table in force behind it. -/
theorem run_onDatagram_encode (flags : Flags) (sender : Endpoint) (f : Frame) :
    let read := f.read s.session.registry s.session.config.maxPayload flags s.session.peerTable
    ∃ log, (onDatagram flags sender f.encode).run s = (read.map Reading.message?,
      { s with
        session := { s.session with
          header := f.header, peerTable := Reading.tableAfter s.session.peerTable read }
        log }) := by
  have hparse : Header.parse f.encode = .ok f.header := by
    rw [Header.parse, Frame.encode, Header.decode?_encode_append]
  have hpayload : f.encode.drop headerSize = f.payload := by
    rw [Frame.encode, List.drop_left' f.header.length_encode]
  simp only [onDatagram, hparse, hpayload, Call.run_bind, Call.ofExcept, Call.run_pure, Call.update,
    Call.tell, Call.session, Call.failIf, ne_eq, gt_iff_lt, Frame.read]
  by_cases hlength : f.header.length.toNat = f.payload.length
  · simp only [hlength, not_true, if_false, Call.run_pure]
    by_cases hlarge : s.session.config.maxPayload.toNat < f.payload.length
    · simp only [hlarge, if_true]
      exact ⟨_, rfl⟩
    · simp only [hlarge, if_false, Call.run_pure, Frame.readBody]
      -- Only the kind of the frame decides now.
      cases f.header.kind with
      | error error => exact ⟨_, rfl⟩
      | ok kind =>
          cases kind with
          | slice | sliceHeader | cancel => exact ⟨_, rfl⟩
          | complete =>
              obtain ⟨log, hdeliver⟩ := run_deliver flags f.header.data f.payload (s :=
                ⟨{ s.session with header := f.header }, s.now,
                  s.log.push (.receivedFrom f.header sender)⟩)
              refine ⟨log, ?_⟩
              simp only [Call.run_pure, map_eq_pure_bind, Call.run_bind, hdeliver]
              cases Receiver.handOut flags
                (s.session.registry.resolve? f.header.data s.session.peerTable)
                s.session.peerTable f.header.data false f.payload <;> rfl
          | versionVerification =>
              obtain ⟨log, habsorb⟩ := run_absorbTable f.header f.payload (s :=
                ⟨{ s.session with header := f.header }, s.now,
                  s.log.push (.receivedFrom f.header sender)⟩)
              refine ⟨log, ?_⟩
              simp only [Call.run_pure, Call.run_bind, habsorb]
              by_cases hdata : f.header.data = tableTypeId
              · simp only [hdata, if_true]
                cases PeerTable.decode f.payload <;> rfl
              · simp only [hdata, if_false]
                rfl
  · simp only [hlength, not_false_eq_true, if_true]
    exact ⟨_, rfl⟩

end DatagramSession

end MessageChannel
