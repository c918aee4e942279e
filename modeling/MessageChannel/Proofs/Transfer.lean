import MessageChannel.Proofs.Agreement
import MessageChannel.Proofs.Registration
import MessageChannel.Proofs.Speaking

namespace MessageChannel

variable {μ : Type}

theorem Assembly.start_of_oversize {a : Assembly} {h : Header} (hidle : a.inFlight = none)
    (hlarge : a.limit < h.length) :
    a.start h = (.error (.tooLarge h.length.toNat a.limit.toNat), a) := by
  simp only [start, isAssembling, hidle, Option.isSome_none, Bool.false_eq_true, if_false,
    checkSize, UInt32.not_le.2 hlarge]

/-- A frame with which a message or a table begins. -/
inductive Frame.Begins (f : Frame) : Prop
  | whole (hkind : f.header.kind = .ok .complete)
  | announcement (hkind : f.header.kind = .ok .sliceHeader)
  | table (hkind : f.header.kind = .ok .versionVerification) (hdata : f.header.data = tableTypeId)

theorem exists_bodyFrames_eq_cons (sliceSize : Nat) (sliced : Bool) (typeId : Int32)
    (payload : List UInt8) : ∃ f fs, bodyFrames sliceSize sliced typeId payload = f :: fs ∧
      f.Begins ∧ f.header.length = payload.length.toUInt32 := by
  cases sliced with
  | false => exact ⟨_, _, rfl, .whole (Header.kind_ofKind ..), rfl⟩
  | true => exact ⟨_, _, rfl, .announcement (Header.kind_ofKind ..), rfl⟩

variable [Message μ]

namespace Receiver

/-- What a receiver with this limit makes of a payload that its peer sends under some id, whole or
in slices. -/
def answer (registry : Registry μ) (limit : UInt32) (flags : Flags) (table : PeerTable)
    (typeId : Int32) (sliced : Bool) (payload : List UInt8) : Except Halt μ :=
  if payload.length ≤ limit.toNat then
    handOut flags (registry.resolve? typeId table) table typeId sliced payload
  else .error (.failed (.tooLarge payload.length limit.toNat))

variable {r : Receiver μ} {limit : UInt32} {table : PeerTable} {payload : List UInt8}

section

variable {registry : Registry μ} {flags : Flags} {typeId : Int32} {sliced : Bool}

/-- A payload within the limit that a receiver neither has a type for nor is to keep. -/
structure Unresolved (registry : Registry μ) (limit : UInt32) (flags : Flags) (table : PeerTable)
    (typeId : Int32) (payload : List UInt8) : Prop where
  fits : payload.length ≤ limit.toNat
  resolve : registry.resolve? typeId table = none
  dropped : flags.keepUnknown = false

theorem Unresolved.answer (h : Unresolved registry limit flags table typeId payload) :
    answer registry limit flags table typeId sliced payload =
      .error (.failed (if sliced then .unregistered typeId else .unrecognized typeId)) := by
  rw [Receiver.answer, if_pos h.fits, h.resolve, handOut, h.dropped]
  rfl

/-- Else it makes no difference whether the payload comes in slices. -/
theorem answer_sliced (h : ¬Unresolved registry limit flags table typeId payload) :
    answer registry limit flags table typeId true payload =
      answer registry limit flags table typeId false payload := by
  rw [answer, answer]
  by_cases hfits : payload.length ≤ limit.toNat
  · rw [if_pos hfits, if_pos hfits]
    cases hresolve : registry.resolve? typeId table with
    | some blank => rfl
    | none =>
        cases hkeep : flags.keepUnknown with
        | true => rw [handOut, handOut, hkeep, if_pos rfl, if_pos rfl]
        | false => exact absurd ⟨hfits, hresolve, hkeep⟩ h
  · rw [if_neg hfits, if_neg hfits]

/-- A message that a receiver gets without a type for it is the payload as it came. -/
theorem eq_of_answer {m : μ} (hresolve : registry.resolve? typeId table = none)
    (hanswer : answer registry limit flags table typeId sliced payload = .ok m) :
    m = Message.ofRaw (.ofBytes typeId (table.nameOf? typeId) payload) := by
  rw [answer] at hanswer
  split at hanswer
  · rw [handOut_eq_ok_iff] at hanswer
    cases hanswer with
    | decoded hresolve' hdecode =>
        rw [hresolve] at hresolve'
        cases hresolve'
    | raw hresolve' hkeep => rfl
  · cases hanswer

end

theorem Rests.message?_oversize (hr : r.Rests limit table) {f : Frame} (hf : f.Begins)
    (hlarge : limit < f.header.length) (registry : Registry μ) (flags : Flags)
    (rest : List UInt8) :
    ∃ r' rest', r.message? registry flags (f.encode ++ rest) =
        some ⟨.error (.failed (.tooLarge f.header.length.toNat limit.toNat)), r', rest'⟩ ∧
      r'.peerTable = table := by
  have hprepare := Assembly.prepare_of_oversize hr.inFlight (hr.limit ▸ hlarge)
  have hstart := Assembly.start_of_oversize hr.inFlight (hr.limit ▸ hlarge)
  rw [hr.limit] at hprepare hstart
  rw [message?_eq, intake?_frame]
  cases hf with
  | whole hkind =>
      rw [intakeOf?_complete hkind, hprepare]
      exact ⟨_, _, rfl, hr.peerTable⟩
  | announcement hkind =>
      rw [intakeOf?_sliceHeader hkind, hstart]
      exact ⟨_, _, rfl, hr.peerTable⟩
  | table hkind hdata =>
      rw [intakeOf?_versionVerification hkind, if_pos hdata, hprepare]
      exact ⟨_, _, rfl, hr.peerTable⟩

theorem Rests.message?_badTable (hr : r.Rests limit table) {f : Frame}
    (hf : f.Carries .versionVerification) (hdata : f.header.data = tableTypeId)
    (hfits : f.header.length ≤ limit) {error : ChannelError}
    (hdecode : PeerTable.decode f.payload = .error error) (registry : Registry μ) (flags : Flags)
    (rest : List UInt8) :
    ∃ r', r.message? registry flags (f.encode ++ rest) =
      some ⟨.error (.failed error), r', rest⟩ := by
  have hprepare := Assembly.prepare_eq_ok_iff.2 ⟨hr.inFlight, hr.limit ▸ hfits, rfl⟩
  rw [message?_eq, intake?_frame, intakeOf?_versionVerification hf.kind, if_pos hdata, hprepare]
  simp only [splitExactly?_payload hf, Option.map_some, hdecode]
  exact ⟨_, rfl⟩

/-- The frames of a payload bring that payload to a receiver, or the news that it is too large. -/
theorem Rests.message?_bodyFrames (hr : r.Rests limit table) (hsize : payload.length < 2 ^ 32)
    (sliceSize : Nat) (sliced : Bool) (typeId : Int32) (registry : Registry μ) (flags : Flags)
    (rest : List UInt8) :
    ∃ r' rest',
      r.message? registry flags (wire (bodyFrames sliceSize sliced typeId payload) ++ rest) =
        some ⟨answer registry limit flags table typeId sliced payload, r', rest'⟩ ∧
      r'.peerTable = table := by
  rw [answer]
  by_cases hfits : payload.length ≤ limit.toNat
  · obtain ⟨r', hmessage, hr'⟩ := hr.message?_body registry flags
      (body_bodyFrames sliceSize hfits sliced typeId) rest
    rw [if_pos hfits]
    exact ⟨r', rest, hmessage, hr'.peerTable⟩
  · obtain ⟨f, fs, hframes, hf, hlength⟩ :=
      exists_bodyFrames_eq_cons sliceSize sliced typeId payload
    have htoNat : f.header.length.toNat = payload.length := by
      rw [hlength]
      exact UInt32.toNat_ofNat_of_lt' hsize
    have hlarge : limit < f.header.length := by
      rw [UInt32.lt_iff_toNat_lt, htoNat]
      exact Nat.lt_of_not_le hfits
    rw [hframes, wire_cons, List.append_assoc, if_neg hfits, ← htoNat]
    exact hr.message?_oversize hf hlarge registry flags _

/-- So do they behind the table of the sender, which the receiver goes by then. -/
theorem Rests.message?_tableFrames {sender : Registry μ} {versioned : Bool}
    (hr : r.Rests limit table) (hsize : payload.length < 2 ^ 32)
    (htable : versioned = true → sender.table.encode.length ≤ limit.toNat)
    (sliceSize : Nat) (sliced : Bool) (typeId : Int32) (registry : Registry μ) (flags : Flags)
    (rest : List UInt8) :
    let told := if versioned then sender.table else table
    ∃ r' rest', r.message? registry flags
        (wire (tableFrames sender versioned ++ bodyFrames sliceSize sliced typeId payload) ++ rest) =
          some ⟨answer registry limit flags told typeId sliced payload, r', rest'⟩ ∧
      r'.peerTable = told := by
  cases versioned with
  | false => exact hr.message?_bodyFrames hsize sliceSize sliced typeId registry flags rest
  | true =>
      have hle := htable rfl
      have hdecode := PeerTable.decode_encode (Nat.lt_of_le_of_lt hle limit.toNat_lt)
      have htables : Tables limit table [tableFrame sender] sender.table :=
        .next ⟨Header.kind_ofKind .., (toNat_length_of_le hle).symm⟩ rfl (length_le_of_le hle)
          hdecode (.none _)
      obtain ⟨r', hnext, hr'⟩ := hr.message?_tables registry flags htables
        (wire (bodyFrames sliceSize sliced typeId payload) ++ rest)
      have hframes : tableFrames sender true = [tableFrame sender] := rfl
      rw [hframes, wire_append, List.append_assoc, hnext]
      exact hr'.message?_bodyFrames hsize sliceSize sliced typeId registry flags rest

end Receiver

namespace StreamSession

/-- The frames that a call to send has to write for a message. -/
def sentFrames (s : StreamSession μ) (m : μ) (flags : Flags) (payload : List UInt8) : List Frame :=
  tableFrames s.registry flags.versioned ++
    bodyFrames s.config.sliceSize flags.sliced (Message.typeId m) payload

theorem frames_of_send {s t : Scene (StreamSession μ)} {m : μ} {flags : Flags}
    (hrun : (send m flags).run s = (.ok (), t)) : ∃ payload,
      Sendable s.session.config.maxPayload m payload ∧
      s.session.Says (wire (s.session.sentFrames m flags payload)) t.session := by
  obtain ⟨bytes, -, hspoke, houtcome⟩ := send_outcome hrun
  cases houtcome with
  | sent hconnected hpayload hquiet hsent =>
      cases hsent with
      | whole hasked => exact ⟨_, hpayload, hspoke hconnected⟩

/-- On a transport that does not fail, a message that can be sent is sent whole, unless a request to
stop comes between two of its slices. -/
theorem send_smooth {s t : Scene (StreamSession μ)} {m : μ} {flags : Flags} {payload : List UInt8}
    {ended : Except Halt Unit} (hpayload : Sendable s.session.config.maxPayload m payload)
    (hsmooth : s.session.Smooth) (hquiet : s.session.cancelRequested = false)
    (hrun : (send m flags).run s = (ended, t)) :
    (ended = .ok () ∧ s.session.Says (wire (s.session.sentFrames m flags payload)) t.session) ∨
      (flags.sliced = true ∧ ended = .error (.failed .canceled)) := by
  obtain ⟨bytes, -, hspoke, houtcome⟩ := send_outcome hrun
  have hspoke := hspoke hsmooth.isSome
  cases houtcome with
  | unfit hunfit => exact absurd hpayload (hunfit payload)
  | requested hrequested =>
      rw [hquiet] at hrequested
      cases hrequested
  | closed hclosed hquiet' =>
      have hconnected := hsmooth.isSome
      rw [hclosed] at hconnected
      cases hconnected
  | @sent payload' _ _ hconnected hpayload' hquiet' hsent =>
      obtain rfl : payload = payload' :=
        Except.ok.inj (hpayload.encode.symm.trans hpayload'.encode)
      cases hsent with
      | whole hasked => exact .inl ⟨rfl, hspoke⟩
      | broken hrough herror hfront => exact absurd hsmooth hrough
      | stopped hsliced hpos hk hasked htail hwhole hsmooth' => exact .inr ⟨hsliced, rfl⟩

variable {s t : Scene (StreamSession μ)} {flags : Flags} {payload rest : List UInt8}
  {sender : Registry μ} {sliceSize : Nat} {versioned sliced : Bool} {typeId : Int32}

omit [Message μ] in
theorem peerTable_settled (ended : Except Halt μ) (r : Receiver μ) :
    (settled ended r).peerTable = r.peerTable := by
  cases ended with
  | ok m => rfl
  | error halt => cases halt <;> rfl

/-- A call that has all frames of a message to read answers to its payload. -/
theorem receive_answer {ended : Except Halt μ} (hidle : s.session.Idle)
    (hsize : payload.length < 2 ^ 32)
    (htable : versioned = true →
      sender.table.encode.length ≤ s.session.config.maxPayload.toNat)
    (havailable : s.session.available =
      wire (tableFrames sender versioned ++ bodyFrames sliceSize sliced typeId payload) ++ rest)
    (hrun : (receive flags).run s = (ended, t)) (hquiet : ended ≠ .error (.failed .timeout)) :
    ended = Receiver.answer s.session.registry s.session.config.maxPayload flags
        t.session.receiver.peerTable typeId sliced payload ∧
      t.session.registry = s.session.registry ∧ t.session.receiver.peerTable =
        if versioned then sender.table else s.session.receiver.peerTable := by
  obtain ⟨r', rest', hmessage, htold⟩ := hidle.rests.message?_tableFrames hsize htable sliceSize
    sliced typeId s.session.registry flags rest
  have hfollows := receive_message hrun hquiet
  rw [havailable, hmessage] at hfollows
  obtain ⟨hended, hreceiver, -, bytes, hears⟩ := hfollows
  dsimp only [settledIntake] at hended hreceiver
  have htold' : t.session.receiver.peerTable =
      if versioned then sender.table else s.session.receiver.peerTable := by
    rw [hreceiver, peerTable_settled, htold]
  rw [htold']
  exact ⟨hended, hears.registry, rfl⟩

omit [Message μ] in
/-- A table that is longer than its frame can say is cut short for whoever reads the frame. -/
theorem exists_cutTable (hnames : ∀ e ∈ sender.table.entries, (textBytes e.2).length < 2 ^ 32)
    (hcut : (tableFrame sender).header.length.toNat ≠ sender.table.encode.length) :
    ∃ (f : Frame) (back : List UInt8), (tableFrame sender).encode = f.encode ++ back ∧
      f.header = (tableFrame sender).header ∧ f.Carries .versionVerification ∧
      PeerTable.decode f.payload = .error (.invalidData (.malformed .messagePack)) := by
  have htoNat : (tableFrame sender).header.length.toNat = sender.table.encode.length % 2 ^ 32 :=
    UInt32.toNat_ofNat'
  have hshort : (tableFrame sender).header.length.toNat < sender.table.encode.length := by
    omega
  have hlength : (sender.table.encode.take (tableFrame sender).header.length.toNat).length =
      (tableFrame sender).header.length.toNat :=
    List.length_take_of_le (Nat.le_of_lt hshort)
  refine ⟨⟨(tableFrame sender).header,
    sender.table.encode.take (tableFrame sender).header.length.toNat⟩,
    sender.table.encode.drop (tableFrame sender).header.length.toNat, ?_, rfl,
    ⟨Header.kind_ofKind .., hlength⟩, ?_⟩
  · rw [Frame.encode, Frame.encode, List.append_assoc, List.take_append_drop]
    rfl
  · refine PeerTable.decode_of_proper_prefix sender.size_table_lt hnames (List.take_prefix _ _) ?_
    exact fun heq => hcut (hlength.symm.trans (congrArg List.length heq))

/-- A call that succeeds has had room for the table in front of the message, and the table was not
cut short. -/
theorem table_fits_of_receive {m : μ} (hidle : s.session.Idle)
    (hnames : ∀ e ∈ sender.table.entries, (textBytes e.2).length < 2 ^ 32)
    (havailable : s.session.available = wire [tableFrame sender] ++ rest)
    (hrun : (receive flags).run s = (.ok m, t)) :
    sender.table.encode.length ≤ s.session.config.maxPayload.toNat := by
  have hfollows := receive_message hrun (by simp)
  rw [havailable, wire_cons, wire_nil, List.append_nil] at hfollows
  have hfits : (tableFrame sender).header.length ≤ s.session.config.maxPayload := by
    apply UInt32.not_lt.1
    intro hlarge
    obtain ⟨r', rest', hmessage, -⟩ := hidle.rests.message?_oversize
      (.table (Header.kind_ofKind ..) rfl) hlarge s.session.registry flags rest
    rw [hmessage] at hfollows
    cases hfollows.1
  by_cases hwhole : (tableFrame sender).header.length.toNat = sender.table.encode.length
  · rw [← hwhole]
    exact UInt32.le_iff_toNat_le.1 hfits
  · obtain ⟨f, back, hencode, hheader, hcarries, hdecode⟩ := exists_cutTable hnames hwhole
    rw [← hheader] at hfits
    have hdata : f.header.data = tableTypeId := by
      rw [hheader]
      rfl
    obtain ⟨r', hmessage⟩ := hidle.rests.message?_badTable hcarries hdata hfits hdecode
      s.session.registry flags (back ++ rest)
    rw [hencode, List.append_assoc, hmessage] at hfollows
    cases hfollows.1

end StreamSession

end MessageChannel
