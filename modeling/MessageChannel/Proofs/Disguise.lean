import MessageChannel.Proofs.Receipt
import MessageChannel.Proofs.Untouched

namespace MessageChannel.StreamSession

variable {μ : Type}

/-- The session with another sending side and another last header: what calls to receive do not
go by. -/
def disguised (voice : ByteStream) (requested : Bool) (label : Header → Header)
    (s : StreamSession μ) : StreamSession μ :=
  { s with
    transport := s.transport.map fun t => { voice with inbound := t.inbound }
    cancelRequested := requested
    receiver := { s.receiver with header := label s.receiver.header } }

section Disguise

variable (voice : ByteStream) (requested : Bool) (label : Header → Header)

theorem ignores_pull (n : Nat) (deadline : Option Nat) :
    Call.Ignores (disguised voice requested label) (pull (μ := μ) n deadline) := by
  intro s
  cases htransport : s.session.transport with
  | none =>
      simp [pull, connected, Call.run_bind, Call.session, disguised, htransport, Call.fail,
        Call.halt]
  | some transport =>
      have htransport' : (disguised voice requested label s.session).transport =
          some { voice with inbound := transport.inbound } := by simp [disguised, htransport]
      rw [run_pull htransport, run_pull htransport']
      rfl

theorem ignores_checkEnd (ended : FillEnd) :
    Call.Ignores (disguised voice requested label) (checkEnd (μ := μ) ended) := by
  cases ended
  · exact .pure _
  · exact .fail _
  · exact .fail _
  · exact .halt _

theorem ignores_readHeader :
    Call.Ignores (disguised voice requested label) (readHeader (μ := μ)) := by
  refine .bindScene (fun s => rfl) fun s => ?_
  split
  · refine .bind (ignores_pull _ _ _ _ _) fun _ => .bind (ignores_checkEnd _ _ _ _) fun _ => ?_
    exact .bind (ignores_pull _ _ _ _ _) fun _ => .bind (ignores_checkEnd _ _ _ _) fun _ => .pure _
  · exact .bind (ignores_pull _ _ _ _ _) fun _ => .bind (ignores_checkEnd _ _ _ _) fun _ => .pure _

theorem ignores_readBody (range : SliceRange) :
    Call.Ignores (disguised voice requested label) (readBody (μ := μ) range) :=
  .bind (ignores_pull _ _ _ _ _) fun _ => .bind (.update fun _ => rfl) fun _ =>
    ignores_checkEnd _ _ _ _

theorem ignores_onReceiver {α : Type} (act : Call (Receiver μ) α) :
    Call.Ignores (disguised voice requested id) (onReceiver act) :=
  .within (fun _ => rfl) fun _ _ => rfl

variable [Message μ]

theorem ignores_receiveRest (registry : Registry μ) (flags : Flags) (h : Header) :
    Call.Ignores (disguised voice requested id) (receiveRest registry flags h) := by
  refine .bind (ignores_onReceiver _ _ _) fun demand => ?_
  cases demand with
  | frame | delivery typeId sliced => exact ignores_onReceiver _ _ _
  | body range => exact .bind (ignores_readBody _ _ _ _) fun _ => ignores_onReceiver _ _ _

/-- A header that is read takes the place of the last one, whatever that was. -/
theorem run_receiveRest_disguised (registry : Registry μ) (flags : Flags) (h : Header)
    (s : Scene (StreamSession μ)) :
    (receiveRest registry flags h).run
        { s with session := disguised voice requested label s.session } =
      (receiveRest registry flags h).run
        { s with session := disguised voice requested id s.session } := rfl

variable {s t : Scene (StreamSession μ)}

theorem receiveFrame_of_header {bytes : List UInt8} (hread : readHeader.run s = (.ok bytes, t))
    (flags : Flags) :
    (receiveFrame flags).run { s with session := disguised voice requested label s.session } =
      (((receiveFrame flags).run s).1, { ((receiveFrame flags).run s).2 with
        session := disguised voice requested id ((receiveFrame flags).run s).2.session }) := by
  obtain ⟨h, rfl⟩ := Header.exists_encode_eq (unread_readHeader hread).2
  have hrest : ∀ u : Scene (StreamSession μ), ∀ v, readHeader.run u = (.ok h.encode, v) →
      (receiveFrame flags).run u = (receiveRest v.session.registry flags h).run v := by
    intro u v hu
    rw [receiveFrame_eq, Call.run_bind, hu]
    dsimp only
    rw [Header.parse_encode]
    rfl
  rw [hrest s t hread, hrest _ { t with session := disguised voice requested label t.session }
    (by rw [ignores_readHeader, hread]), run_receiveRest_disguised]
  exact ignores_receiveRest voice requested _ flags h t

theorem receiveFrame_of_noHeader {halt : Halt} (hread : readHeader.run s = (.error halt, t))
    (flags : Flags) : (receiveFrame flags).run s = (.error halt, t) := by
  rw [receiveFrame, Call.run_bind, hread]

theorem ignores_receiveFrame (flags : Flags) :
    Call.Ignores (disguised voice requested id) (receiveFrame (μ := μ) flags) := by
  intro s
  cases hread : readHeader.run s with
  | mk ended t =>
      cases ended with
      | ok bytes => exact receiveFrame_of_header voice requested id hread flags
      | error halt =>
          have hread' := ignores_readHeader voice requested id s
          rw [hread] at hread'
          rw [receiveFrame_of_noHeader hread, receiveFrame_of_noHeader hread']

theorem receiveMessage_eq (flags : Flags) (s : Scene (StreamSession μ)) :
    receiveMessage flags s =
      match (receiveFrame flags).run s with
      | (.ok none, t) => receiveMessage flags t
      | (.ok (some m), t) => (.ok m, t)
      | (.error halt, t) => (.error halt, t) := by
  rw [receiveMessage]
  split <;> simp_all

theorem ignores_receiveMessage (flags : Flags) :
    Call.Ignores (disguised voice requested id)
      (⟨receiveMessage flags⟩ : Call (StreamSession μ) μ) := by
  intro s
  dsimp only
  fun_induction receiveMessage flags s with
  | case1 s t hframe ih =>
      rw [receiveMessage_eq, ignores_receiveFrame voice requested flags s, hframe]
      exact ih
  | case2 s m t hframe =>
      rw [receiveMessage_eq, ignores_receiveFrame voice requested flags s, hframe]
  | case3 s halt t hframe =>
      rw [receiveMessage_eq, ignores_receiveFrame voice requested flags s, hframe]

theorem receiveMessage_of_header {bytes : List UInt8} (hread : readHeader.run s = (.ok bytes, t))
    (flags : Flags) :
    receiveMessage flags { s with session := disguised voice requested label s.session } =
      ((receiveMessage flags s).1, { (receiveMessage flags s).2 with
        session := disguised voice requested id (receiveMessage flags s).2.session }) := by
  rw [receiveMessage_eq, receiveFrame_of_header voice requested label hread flags,
    ← ignores_receiveFrame voice requested flags s, ← receiveMessage_eq]
  exact ignores_receiveMessage voice requested flags s

theorem receiveMessage_of_noHeader {halt : Halt} (hread : readHeader.run s = (.error halt, t))
    (flags : Flags) : receiveMessage flags s = (.error halt, t) := by
  rw [receiveMessage_eq, receiveFrame_of_noHeader hread]

/-- Whether a call that begins here gets to read a header. -/
def GetsHeader (s : Scene (StreamSession μ)) : Prop :=
  ∃ bytes t, readHeader.run s = (.ok bytes, t)

/-- Another sending side and another last header make no difference to a call to receive, but for
the last header itself if no other is read. -/
theorem receive_disguised (flags : Flags) (s : Scene (StreamSession μ)) :
    ∃ log label', (receive flags).run
        { s with session := disguised voice requested label s.session } =
          (((receive flags).run s).1, { ((receive flags).run s).2 with
            session := disguised voice requested label' ((receive flags).run s).2.session }) ∧
      (GetsHeader { s with log } ∧ label' = id ∨
        ¬GetsHeader { s with log } ∧ label' = label ∧
          ((receive flags).run s).2.session.receiver.header = s.session.receiver.header) := by
  obtain ⟨log, hreceive⟩ := run_receive_changed flags s
  have hplain : (receive flags).run s =
      (Call.onFailure ⟨receiveMessage flags⟩ fun _ => Call.update reset).run { s with log } :=
    hreceive id
  rw [hplain, hreceive]
  simp only [Call.onFailure]
  cases hread : readHeader.run { s with log } with
  | mk endedRead t =>
      cases endedRead with
      | ok bytes =>
          refine ⟨log, id, ?_, .inl ⟨⟨bytes, t, hread⟩, rfl⟩⟩
          rw [receiveMessage_of_header voice requested label hread flags]
          cases receiveMessage flags { s with log } with
          | mk ended u =>
              cases ended with
              | ok m => rfl
              | error halt => cases halt <;> rfl
      | error halt =>
          have hread' := ignores_readHeader voice requested label { s with log }
          rw [hread] at hread'
          have hkept := receiver_of_readHeader hread
          have hheader : t.session.receiver.header = s.session.receiver.header :=
            congrArg Receiver.header hkept
          rw [receiveMessage_of_noHeader hread, receiveMessage_of_noHeader hread']
          refine ⟨log, label, ?_, .inr ⟨?_, rfl, ?_⟩⟩
          · cases halt <;> rfl
          · rintro ⟨bytes, u, hread''⟩
            rw [hread] at hread''
            cases hread''
          · cases halt <;> exact hheader

end Disguise

end MessageChannel.StreamSession
