import MessageChannel.Proofs.Reassembly
import MessageChannel.Proofs.TableCodec

namespace MessageChannel

variable {μ : Type} [Message μ]

/-- A message to be sent. -/
structure SendCall (μ : Type) where
  message : μ
  flags : Flags := .none
  /-- Whether the sender is asked to stop before the call. -/
  asked : Bool := false

/-- A message that a call was made to send, with how the call ended and what it wrote. -/
structure SendRecord (μ : Type) where
  message : μ
  flags : Flags
  ended : Except Halt Unit
  bytes : List UInt8

/-- A receiver with this limit has room for the message, and for the sender's table if that goes
before it. -/
structure SendCall.Fits (p : SendCall μ) (limit : UInt32) (own : PeerTable) : Prop where
  payload : ∀ payload, Message.encode p.message = .ok payload → payload.length ≤ limit.toNat
  table : p.flags.versioned = true → own.encode.length ≤ limit.toNat

theorem SendCall.Fits.of_encode {p : SendCall μ} {limit : UInt32} {own : PeerTable}
    {payload : List UInt8} (hencode : Message.encode p.message = .ok payload)
    (hpayload : payload.length ≤ limit.toNat)
    (htable : p.flags.versioned = true → own.encode.length ≤ limit.toNat) : p.Fits limit own := by
  refine ⟨fun payload' hencode' => ?_, htable⟩
  obtain rfl := Except.ok.inj (hencode.symm.trans hencode')
  exact hpayload

namespace SendRecord

omit [Message μ] in
/-- The table that a receiver goes by from this message on, if it went by another one before. -/
def tableFrom (p : SendRecord μ) (own table : PeerTable) : PeerTable :=
  if p.flags.versioned ∧ p.bytes ≠ [] then own else table

def payload (p : SendRecord μ) : List UInt8 :=
  match Message.encode p.message with
  | .ok payload => payload
  | .error _ => []

/-- What a receiver that goes by some table gets of the message: what its type and its payload call
for if it was sent, and an error if it was given up after some of it was written. -/
def reply? (p : SendRecord μ) (registry : Registry μ) (table : PeerTable) :
    Option (Flags → Except Halt μ) :=
  match p.ended with
  | .ok () =>
      let typeId := Message.typeId p.message
      some fun flags => Receiver.handOut flags (registry.resolve? typeId table) table typeId
        p.flags.sliced p.payload
  | .error _ => if p.bytes = [] then none else some fun _ => .error (.failed .canceled)

end SendRecord

/-- What a receiver gets of some messages. It goes by the sender's own table from the first of them
on that brings it along, and by another one before. -/
def replies (registry : Registry μ) (own : PeerTable) :
    PeerTable → List (SendRecord μ) → List (Flags → Except Halt μ)
  | _, [] => []
  | table, p :: records =>
      (p.reply? registry (p.tableFrom own table)).toList ++
        replies registry own (p.tableFrom own table) records

omit [Message μ] in
def spoken (records : List (SendRecord μ)) : List UInt8 := records.flatMap SendRecord.bytes

/-- Messages that were all sent get one reply each. -/
theorem length_replies {registry : Registry μ} {own : PeerTable} {records : List (SendRecord μ)}
    (h : ∀ p ∈ records, p.ended = .ok ()) (table : PeerTable) :
    (replies registry own table records).length = records.length := by
  induction records generalizing table with
  | nil => rfl
  | cons p records ih =>
      have hp := h p List.mem_cons_self
      have htail := ih (fun q hq => h q (List.mem_cons_of_mem _ hq)) (p.tableFrom own table)
      rw [replies, List.length_append, htail, SendRecord.reply?, hp, List.length_cons]
      exact Nat.add_comm _ _

variable {registry sender : Registry μ} {limit : UInt32} {table : PeerTable} {fs : List Frame}
  {all : List (Flags → Except Halt μ)}

theorem Conversation.tableFrames {versioned : Bool}
    (hfits : versioned = true → sender.table.encode.length ≤ limit.toNat)
    (hrest : Conversation registry limit (if versioned then sender.table else table) fs all) :
    Conversation registry limit table (MessageChannel.tableFrames sender versioned ++ fs) all := by
  cases versioned with
  | false => exact hrest
  | true =>
      have hle := hfits rfl
      refine .table ⟨Header.kind_ofKind .., ?_⟩ rfl (length_le_of_le hle) ?_ hrest
      · exact (toNat_length_of_le hle).symm
      · exact PeerTable.decode_encode (Nat.lt_of_le_of_lt hle limit.toNat_lt)

namespace StreamSession

/-- The frames that a call to send has written, when it succeeds or is stopped. -/
inductive Speech (s : StreamSession μ) (m : μ) (flags : Flags) :
    Except Halt Unit → List Frame → Prop
  | whole {payload} (hencode : Message.encode m = .ok payload) : Speech s m flags (.ok ())
      (tableFrames s.registry flags.versioned ++
        bodyFrames s.config.sliceSize flags.sliced (Message.typeId m) payload)
  | silent : Speech s m flags (.error (.failed .canceled)) []
  | stopped {payload k} (hencode : Message.encode m = .ok payload)
      (hk : k < (sliceFrames s.config.sliceSize payload).length) :
      Speech s m flags (.error (.failed .canceled)) (tableFrames s.registry flags.versioned ++
        (announcement (Message.typeId m) payload ::
          (sliceFrames s.config.sliceSize payload).take k ++ [cancelFrame (Message.typeId m)]))

theorem send_speech {s t : Scene (StreamSession μ)} {m : μ} {flags : Flags}
    {ended : Except Halt Unit} (hrun : (send m flags).run s = (ended, t))
    (hended : ended = .ok () ∨ ended = .error (.failed .canceled) ∧ s.session.Smooth) :
    ∃ fs, s.session.Says (wire fs) t.session ∧ Speech s.session m flags ended fs := by
  obtain ⟨bytes, -, hspoke, houtcome⟩ := send_outcome hrun
  have hconnected : s.session.transport.isSome := by
    rcases hended with rfl | ⟨-, hsmooth⟩
    · cases houtcome with
      | sent hconnected => exact hconnected
    · exact hsmooth.isSome
  have hspoke := hspoke hconnected
  cases houtcome with
  | unfit hunfit =>
      rcases hended with hok | ⟨hcanceled, -⟩
      · cases hok
      · rw [hcanceled]
        exact ⟨[], hspoke, .silent⟩
  | requested hrequested => exact ⟨[], hspoke, .silent⟩
  | closed hclosed hquiet => simp [hclosed] at hconnected
  | sent hconnected hpayload hquiet hsent =>
      cases hsent with
      | whole hasked => exact ⟨_, hspoke, .whole hpayload.encode⟩
      | broken hrough herror hfront =>
          rcases hended with hok | ⟨-, hsmooth⟩
          · cases hok
          · exact absurd hsmooth hrough
      | stopped hsliced hpos hk hasked htail hwhole hsmooth =>
          rcases hended with hok | ⟨-, hs⟩
          · cases hok
          · refine ⟨_, ?_, .stopped hpayload.encode hk⟩
            rw [hsmooth hs] at hspoke
            simpa using hspoke

omit [Message μ] in
theorem bodyFrames_ne_nil (sliceSize : Nat) (sliced : Bool) (typeId : Int32)
    (payload : List UInt8) : bodyFrames sliceSize sliced typeId payload ≠ [] := by
  cases sliced <;> simp [bodyFrames]

/-- What a call has said goes before the rest of a conversation. -/
theorem Speech.conversation {s : StreamSession μ} {p : SendCall μ} {ended : Except Halt Unit}
    {front : List Frame} (h : Speech s p.message p.flags ended front)
    (hfits : p.Fits limit s.registry.table) :
    let record : SendRecord μ := ⟨p.message, p.flags, ended, wire front⟩
    let told := record.tableFrom s.registry.table table
    Conversation registry limit told fs all →
      Conversation registry limit table (front ++ fs)
        ((record.reply? registry told).toList ++ all) := by
  intro record told hrest
  have htold : front ≠ [] → told = if p.flags.versioned then s.registry.table else table := by
    intro hfront
    simp [told, record, SendRecord.tableFrom, wire_eq_nil_iff, hfront]
  cases h with
  | @whole payload hencode =>
      rw [htold (by simp [bodyFrames_ne_nil])] at hrest ⊢
      have hpayload : record.payload = payload := by
        simp only [record, SendRecord.payload, hencode]
      simp only [SendRecord.reply?, record, Option.toList_some, List.singleton_append]
      rw [List.append_assoc, ← hpayload]
      refine .tableFrames hfits.table (.body (body_bodyFrames _ ?_ _ _) hrest)
      exact hfits.payload _ (hpayload ▸ hencode)
  | silent =>
      simp only [told, record, SendRecord.reply?, SendRecord.tableFrom, wire_nil] at hrest ⊢
      simpa using hrest
  | @stopped payload k hencode hk =>
      have hle := hfits.payload _ hencode
      rw [htold (by simp)] at hrest ⊢
      have hreply : record.reply? registry (if p.flags.versioned then s.registry.table else table) =
          some fun _ => .error (.failed .canceled) := by
        exact if_neg (mt wire_eq_nil_iff.1 (by simp))
      rw [hreply, Option.toList_some, List.singleton_append, List.append_assoc, List.append_assoc]
      refine .tableFrames hfits.table (.canceled (Header.kind_ofKind ..) rfl
        (length_le_of_le hle) ?_ (Header.kind_ofKind ..) rfl hrest)
      rw [show (announcement (Message.typeId p.message) payload).header.length.toNat =
        payload.length from toNat_length_of_le hle]
      exact unfinished_take _ (Nat.lt_of_le_of_lt hle limit.toNat_lt) hk

/-- What a call finds: its sender may be asked to stop once more before it. -/
def asking (s : Scene (StreamSession μ)) (asked : Bool) : Scene (StreamSession μ) :=
  { s with session := { s.session with cancelRequested := s.session.cancelRequested || asked } }

/-- Calls to send, one after the other. -/
def sendAll : List (SendCall μ) → Scene (StreamSession μ) →
    List (SendRecord μ) × Scene (StreamSession μ)
  | [], s => ([], s)
  | p :: calls, s =>
      let (ended, t) := (send p.message p.flags).run (asking s p.asked)
      let bytes := t.session.written.drop s.session.written.length
      (⟨p.message, p.flags, ended, bytes⟩ :: (sendAll calls t).1, (sendAll calls t).2)

theorem sendAll_cons_of_run {p : SendCall μ} {calls : List (SendCall μ)}
    {s t : Scene (StreamSession μ)} {ended : Except Halt Unit}
    (hrun : (send p.message p.flags).run (asking s p.asked) = (ended, t)) :
    sendAll (p :: calls) s = (⟨p.message, p.flags, ended,
      t.session.written.drop s.session.written.length⟩ :: (sendAll calls t).1,
        (sendAll calls t).2) := by
  rw [sendAll, hrun]

/-- Calls that all succeed or are stopped have made up a conversation. -/
theorem sendAll_conversation {calls : List (SendCall μ)} {s t : Scene (StreamSession μ)}
    {records : List (SendRecord μ)} (hrun : sendAll calls s = (records, t))
    (hended : ∀ p ∈ records, p.ended = .ok () ∨
      p.ended = .error (.failed .canceled) ∧ s.session.Smooth)
    (hfits : ∀ p ∈ calls, p.Fits limit s.session.registry.table) (table : PeerTable) :
    ∃ fs, spoken records = wire fs ∧ Conversation registry limit table fs
      (replies registry s.session.registry.table table records) := by
  induction calls generalizing s records table with
  | nil =>
      obtain ⟨rfl, rfl⟩ := Prod.mk.inj hrun
      exact ⟨[], rfl, .silence table⟩
  | cons p calls ih =>
      cases hsend : (send p.message p.flags).run (asking s p.asked) with
      | mk ended u =>
          rw [sendAll_cons_of_run hsend] at hrun
          obtain ⟨rfl, rfl⟩ := Prod.mk.inj hrun
          -- The receiver's table is carried along: it changes with the first call that sends one.
          obtain ⟨front, hspoke, hspeech⟩ := send_speech hsend (hended _ List.mem_cons_self)
          have hwritten : u.session.written.drop s.session.written.length = wire front := by
            rw [hspoke.written]
            exact List.drop_left
          have hregistry : u.session.registry = s.session.registry := hspoke.registry
          obtain ⟨back, hspoken, hback⟩ := ih rfl
            (fun q hq => (hended q (List.mem_cons_of_mem _ hq)).imp_right fun ⟨hcanceled, hs⟩ =>
              ⟨hcanceled, hspoke.smooth hs⟩)
            (fun q hq => hregistry ▸ hfits q (List.mem_cons_of_mem _ hq))
            (SendRecord.tableFrom ⟨p.message, p.flags, ended, wire front⟩ s.session.registry.table
              table)
          rw [hregistry] at hback
          refine ⟨front ++ back, ?_, ?_⟩
          · rw [spoken, List.flatMap_cons, wire_append, ← hspoken, hwritten]
            rfl
          · rw [replies, hwritten]
            exact hspeech.conversation (hfits p List.mem_cons_self) hback

end StreamSession

end MessageChannel
