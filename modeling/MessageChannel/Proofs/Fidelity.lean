import MessageChannel.Message.Any
import MessageChannel.Proofs.Listening
import MessageChannel.Proofs.Registration
import MessageChannel.Proofs.Speaking

namespace MessageChannel.StreamSession

variable {μ : Type} [Message μ] {calls : List (SendCall μ)} {s s' t t' : Scene (StreamSession μ)}
  {records : List (SendRecord μ)} {flags : List Flags} {outcomes : List (Flags × Except Halt μ)}

theorem sendAll_take (hsend : sendAll calls s = (records, s')) (n : Nat) :
    ∃ u, sendAll (calls.take n) s = (records.take n, u) := by
  induction n generalizing calls s records with
  | zero => exact ⟨s, by simp [sendAll]⟩
  | succ n ih =>
      cases calls with
      | nil =>
          obtain ⟨rfl, rfl⟩ := Prod.mk.inj hsend
          exact ⟨s, by simp [sendAll]⟩
      | cons p calls =>
          cases hrun : (send p.message p.flags).run (asking s p.asked) with
          | mk ended u =>
              rw [sendAll_cons_of_run hrun] at hsend
              obtain ⟨rfl, rfl⟩ := Prod.mk.inj hsend
              obtain ⟨v, htake⟩ := @ih calls u _ rfl
              refine ⟨v, ?_⟩
              rw [List.take_succ_cons, sendAll_cons_of_run hrun, htake, List.take_succ_cons]

/-- The messages of one session have the calls of the other return what they call for, one by one.
Nothing is passed over once it is there to be read, unless there are no more calls. -/
theorem heard_records (hsend : sendAll calls s = (records, s'))
    (hended : ∀ p ∈ records, p.ended = .ok () ∨
      p.ended = .error (.failed .canceled) ∧ s.session.Smooth)
    (hfits : ∀ p ∈ calls, p.Fits t.session.config.maxPayload s.session.registry.table)
    (hreceive : receiveAll flags t = (outcomes, t')) (hidle : t.session.Idle)
    (hopened : t.session.shortage = .stalled) :
    let expected := replies t.session.registry s.session.registry.table t.session.receiver.peerTable
    (t.session.available <+: spoken records → ∃ front back, expected records = front ++ back ∧
      List.Forall₂ Answers front (heard outcomes)) ∧
    ∀ n, spoken (records.take n) <+: t.session.available →
      outcomes.length < flags.length ∨ t'.session.available = [] →
      (expected (records.take n)).length ≤ (heard outcomes).length := by
  intro expected
  refine ⟨fun havailable => ?_, fun n havailable hend => ?_⟩
  · obtain ⟨fs, hspoken, hconversation⟩ := sendAll_conversation hsend hended hfits
      t.session.receiver.peerTable
    have hheard := Listens.heard_prefix ⟨hidle, hopened, hconversation⟩ (hspoken ▸ havailable) flags
    rwa [hreceive] at hheard
  · obtain ⟨u, htake⟩ := sendAll_take hsend n
    obtain ⟨fs, hspoken, hconversation⟩ := sendAll_conversation htake
      (fun p hp => hended p (List.mem_of_mem_take hp))
      (fun p hp => hfits p (List.mem_of_mem_take hp))
      t.session.receiver.peerTable
    have hlength := Listens.length_le_heard ⟨hidle, hopened, hconversation⟩ (hspoken ▸ havailable)
      flags
    rw [hreceive] at hlength
    exact hlength hend

omit [Message μ] in
theorem heard_eq_self (h : ∀ call ∈ outcomes, call.2 ≠ .error (.failed .timeout)) :
    heard outcomes = outcomes :=
  List.filter_eq_self.2 fun call hcall => by simpa using h call hcall

/-- What one session has sent comes out at the other, message by message, in whatever part of it
has arrived, and all of it once all is read. What a call returns for a message is what its type id
and its payload call for under the call's flags and the table in force. -/
theorem receiveAll_sent (hsend : sendAll calls s = (records, s'))
    (hok : ∀ p ∈ records, p.ended = .ok ())
    (hfits : ∀ p ∈ calls, p.Fits t.session.config.maxPayload s.session.registry.table)
    (hreceive : receiveAll flags t = (outcomes, t')) (hidle : t.session.Idle)
    (hopened : t.session.shortage = .stalled)
    (hquiet : ∀ call ∈ outcomes, call.2 ≠ .error (.failed .timeout))
    (havailable : t.session.available <+: spoken records) :
    let expected := replies t.session.registry s.session.registry.table
      t.session.receiver.peerTable records
    expected.length = records.length ∧
      (∃ front back, expected = front ++ back ∧ List.Forall₂ Answers front outcomes) ∧
      ∀ n ≤ records.length, spoken (records.take n) <+: t.session.available →
        outcomes.length < flags.length ∨ t'.session.available = [] → n ≤ outcomes.length := by
  obtain ⟨hheard, hall⟩ := heard_records hsend (fun p hp => .inl (hok p hp)) hfits
    hreceive hidle hopened
  rw [heard_eq_self hquiet] at hheard hall
  refine ⟨length_replies hok _, hheard havailable, fun n hn hread hend => ?_⟩
  have hlength := hall n hread hend
  rw [length_replies fun p hp => hok p (List.mem_of_mem_take hp), List.length_take,
    Nat.min_eq_left hn] at hlength
  exact hlength

/-- What was sent under an id that stands for a registered type is read as a message of that type.
It is neither refused as unknown nor kept raw. -/
theorem reply?_of_registered {registry : Registry μ} {table : PeerTable} {p : SendRecord μ}
    {entry : Registration μ} (hbuilt : registry.Built) (hentry : entry ∈ registry.entries)
    (hstands : entry.StandsFor (Message.typeId p.message) table) (hsent : p.ended = .ok ()) :
    p.reply? registry table =
      some fun flags => Worker.decode flags.inWorker (entry.create entry.typeId) p.payload := by
  have hresolve := hbuilt.distinct.resolve?_eq_some_iff.2 ⟨entry, hentry, hstands, rfl⟩
  simp only [SendRecord.reply?, hsent, hresolve, Receiver.handOut]

/-- A type that both sides have registered is understood by its name, from the first message on that
brings the sender's table along. -/
theorem reply?_of_shared {sender registry : Registry μ} {table : PeerTable} {p : SendRecord μ}
    {entry : Registration μ} (hsender : sender.Built) (hbuilt : registry.Built)
    (hentry : entry ∈ registry.entries) (huser : firstUserTypeId ≤ Message.typeId p.message)
    (hname : sender.nameOf? (Message.typeId p.message) = some entry.name)
    (hsent : p.ended = .ok ()) (hversioned : p.flags.versioned = true) (hwritten : p.bytes ≠ []) :
    p.reply? registry (p.tableFrom sender.table table) =
      some fun flags => Worker.decode flags.inWorker (entry.create entry.typeId) p.payload := by
  rw [SendRecord.tableFrom, if_pos ⟨hversioned, hwritten⟩]
  exact reply?_of_registered hbuilt hentry (hsender.distinct.standsFor_table huser hname) hsent

/-- Two messages on a transport that takes seven bytes at a time: one in slices behind the table,
and one of an id that nobody knows. -/
def talking : Scene (StreamSession AnyMessage) where
  session := .new (.ofVersion 1) { sliceSize := 12 } { outbound := { limit := some 7 } }

def talkingCalls : List (SendCall AnyMessage) :=
  [{ message := .raw (.ofBytes rawTypeId none [1, 2, 3, 4, 5])
     flags := { sliced := true, versioned := true } },
    { message := .counter 20 7 }]

/-- They arrive in two stretches that are not cut at a frame. -/
def listening : Scene (StreamSession AnyMessage) where
  session := .new (.ofVersion 1) {} { inbound :=
    { arrivals := [.bytes ((spoken (sendAll talkingCalls talking).1).take 60), .pause 5,
        .bytes ((spoken (sendAll talkingCalls talking).1).drop 60)], staysOpen := true } }

theorem receiveAll_talking :
    let records := (sendAll talkingCalls talking).1
    let outcomes := (receiveAll [.none, { keepUnknown := true }, .none] listening).1
    outcomes.length = 2 ∧ List.Forall₂ Answers (replies (.ofVersion 1)
      (Registry.ofVersion (μ := AnyMessage) 1).table {} records) outcomes := by
  intro records outcomes
  have hok : ∀ p ∈ records, p.ended = .ok () := by
    decide +kernel
  have hfits : ∀ p ∈ talkingCalls, p.Fits 4294967295 talking.session.registry.table := by
    intro p hp
    rcases List.mem_cons.1 hp with rfl | hp
    · exact .of_encode rfl (by decide) fun _ => by decide +kernel
    · obtain rfl := List.mem_singleton.1 hp
      exact .of_encode rfl (by decide) nofun
  have hsend : sendAll talkingCalls talking = (records, (sendAll talkingCalls talking).2) := rfl
  have hreceive : receiveAll [.none, { keepUnknown := true }, .none] listening =
    (outcomes, (receiveAll [.none, { keepUnknown := true }, .none] listening).2) := rfl
  have hquiet : ∀ call ∈ outcomes, call.2 ≠ .error (.failed .timeout) := by
    decide +kernel
  have havailable : listening.session.available = spoken records := by
    decide +kernel
  have hcount : records.length = 2 ∧ outcomes.length = 2 := by
    decide +kernel
  obtain ⟨hlength, ⟨front, back, hsplit, hall⟩, -⟩ := receiveAll_sent hsend hok hfits hreceive
    ⟨rfl, rfl⟩ rfl hquiet (havailable ▸ List.prefix_refl _)
  have hfront := hall.length_eq
  rw [hsplit, List.length_append] at hlength
  obtain rfl : back = [] := List.length_eq_zero_iff.1 (by omega)
  rw [List.append_nil] at hsplit
  exact ⟨hcount.2, hsplit ▸ hall⟩

/-- Sends that are stopped leave the two sessions in step: each has the other's caller told once, if
any of it was written, and no other message is touched by it. -/
theorem receiveAll_sentOrCanceled (hsend : sendAll calls s = (records, s'))
    (hsmooth : s.session.Smooth)
    (hended : ∀ p ∈ records, p.ended = .ok () ∨ p.ended = .error (.failed .canceled))
    (hfits : ∀ p ∈ calls, p.Fits t.session.config.maxPayload s.session.registry.table)
    (hreceive : receiveAll flags t = (outcomes, t')) (hidle : t.session.Idle)
    (hopened : t.session.shortage = .stalled)
    (havailable : t.session.available <+: spoken records) :
    let expected := replies t.session.registry s.session.registry.table t.session.receiver.peerTable
    (∃ front back, expected records = front ++ back ∧
      List.Forall₂ Answers front (heard outcomes)) ∧
    ∀ n, spoken (records.take n) <+: t.session.available →
      outcomes.length < flags.length ∨ t'.session.available = [] →
      (expected (records.take n)).length ≤ (heard outcomes).length := by
  obtain ⟨hheard, hall⟩ := heard_records hsend
    (fun p hp => (hended p hp).imp_right fun hcanceled => ⟨hcanceled, hsmooth⟩) hfits hreceive hidle
    hopened
  exact ⟨hheard havailable, hall⟩

/-- A message that is given up behind its first slice, and another one after it. -/
def interrupted : Scene (StreamSession AnyMessage) where
  session := .new (.ofVersion 1) { sliceSize := 12 } { outbound :=
    { script := [⟨3, .fault (.system 11)⟩, ⟨15, .cancel⟩], limit := some 7 } }

def interruptedCalls : List (SendCall AnyMessage) :=
  [{ message := .raw (.ofBytes rawTypeId none [1, 2, 3, 4, 5]), flags := { sliced := true } },
    { message := .raw (.ofBytes rawTypeId none [6, 7]), flags := { sliced := true } }]

/-- The receiver does not wait long for a message, and the end of the second comes late. -/
def waiting : Scene (StreamSession AnyMessage) where
  session := .new (.ofVersion 1) { recvTimeout := some 20 } { inbound :=
    { arrivals := [.bytes ((spoken (sendAll interruptedCalls interrupted).1).take 32), .pause 50,
        .bytes ((spoken (sendAll interruptedCalls interrupted).1).drop 32)], staysOpen := true } }

theorem receiveAll_interrupted :
    let records := (sendAll interruptedCalls interrupted).1
    let outcomes := (receiveAll [.none, .none, .none, .none] waiting).1
    records.map SendRecord.ended = [.error (.failed .canceled), .ok ()] ∧
      List.Forall₂ Answers (replies (.ofVersion 1) (Registry.ofVersion (μ := AnyMessage) 1).table {}
        records) (heard outcomes) := by
  intro records outcomes
  have hsmooth : interrupted.session.Smooth := by
    refine ⟨_, rfl, ?_, by decide, rfl⟩
    intro e he
    rcases List.mem_cons.1 he with rfl | he
    · exact nofun
    · obtain rfl := List.mem_singleton.1 he
      trivial
  have hrecords : records.map SendRecord.ended = [.error (.failed .canceled), .ok ()] := by
    decide +kernel
  have hended : ∀ p ∈ records, p.ended = .ok () ∨ p.ended = .error (.failed .canceled) := by
    decide +kernel
  have hfits : ∀ p ∈ interruptedCalls, p.Fits 4294967295 interrupted.session.registry.table := by
    intro p hp
    rcases List.mem_cons.1 hp with rfl | hp
    · exact .of_encode rfl (by decide) nofun
    · obtain rfl := List.mem_singleton.1 hp
      exact .of_encode rfl (by decide) nofun
  have hsend : sendAll interruptedCalls interrupted =
    (records, (sendAll interruptedCalls interrupted).2) := rfl
  have hreceive : receiveAll [.none, .none, .none, .none] waiting =
    (outcomes, (receiveAll [.none, .none, .none, .none] waiting).2) := rfl
  have havailable : waiting.session.available = spoken records := by
    decide +kernel
  obtain ⟨⟨front, back, hsplit, hall⟩, hlength⟩ := receiveAll_sentOrCanceled hsend hsmooth hended
    hfits hreceive ⟨rfl, rfl⟩ rfl (havailable ▸ List.prefix_refl _)
  have htwo : records.take 2 = records := List.take_of_length_le (by
    have hcount := congrArg List.length hrecords
    rw [List.length_map] at hcount
    exact Nat.le_of_eq hcount)
  have hall' := hlength 2 (by rw [htwo]; exact havailable ▸ List.prefix_refl _)
    (.inr (by decide +kernel))
  rw [htwo, hsplit, ← hall.length_eq, List.length_append] at hall'
  obtain rfl : back = [] := List.length_eq_zero_iff.1 (by omega)
  rw [List.append_nil] at hsplit
  exact ⟨hrecords, hsplit ▸ hall⟩

end MessageChannel.StreamSession
