import MessageChannel.Proofs.AllOrNothing
import MessageChannel.Proofs.MessagePackDepth
import MessageChannel.Proofs.MessagePackExtent
import MessageChannel.Proofs.Refusal

namespace MessageChannel

section Sending

variable {μ : Type} [Message μ] {m : μ} {body : List UInt8}

theorem StreamSession.spares_noData_send (hbody : Message.encode m = .ok body) (hne : body ≠ [])
    (flags : Flags) : Call.Spares .noData (send m flags) := by
  intro s hnone
  have hrun : (send m flags).run s = (.error (.failed .noData), ((send m flags).run s).2) :=
    Prod.ext hnone rfl
  rcases refused_or_ready s.session m flags with ⟨halt, hrefused⟩ | ⟨payload, hready⟩
  · obtain rfl := Except.error.inj (send_of_refused hrefused hrun).1
    cases hrefused with
    | unfit hunfit =>
        cases hunfit with
        | unencoded hencode => cases hencode.symm.trans (Worker.encode_eq_ok_iff.2 hbody)
        | empty hencode => exact hne (Except.ok.inj (hbody.symm.trans hencode))
  · rcases error_of_ready hready hrun with h | h | ⟨_, h⟩ <;> cases h

theorem DatagramSession.spares_noData_send (hbody : Message.encode m = .ok body) (hne : body ≠ [])
    (target : Endpoint) (flags : Flags) : Call.Spares .noData (send m target flags) := by
  intro s hnone
  have hrun : (send m target flags).run s =
      (.error (.failed .noData), ((send m target flags).run s).2) := Prod.ext hnone rfl
  obtain ⟨hrejected, -⟩ := rejected_of_send hrun rfl
  cases hrejected with
  | unencodable hwhole hencode => cases hencode.symm.trans (Worker.encode_eq_ok_iff.2 hbody)
  | empty hwhole hencode => exact hne (Except.ok.inj (hbody.symm.trans hencode))

end Sending

namespace AnyMessage

theorem run_load_typed (typeId : Int32) (type : MessageType) (value : Value) (bytes : List UInt8) :
    (load bytes).run (typed typeId type value) =
      match type.format.decode type.records type.shape bytes with
      | .ok read => (.ok (), typed typeId type read)
      | .error error => (.error (.refused error), typed typeId type value) := by
  have hrun : (load bytes).run (typed typeId type value) =
      (match type.format.decode type.records type.shape bytes with
        | .ok read => set (typed typeId type read)
        | .error error => throw (.refused error) :
          ExceptT BodyFailure (StateM AnyMessage) Unit).run (typed typeId type value) := rfl
  rw [hrun]
  cases type.format.decode type.records type.shape bytes <;> rfl

theorem run_load_counter (typeId : Int32) (count : UInt64) (bytes : List UInt8) :
    (load bytes).run (counter typeId count) =
      if bytes.length = 8 then (.ok (), counter typeId (.ofNat (ofBigEndian bytes.reverse)))
      else (.error (.refused (.invalidData
        (.note s!"counter needs 8 bytes, got {bytes.length}"))), counter typeId count) := by
  have hrun : (load bytes).run (counter typeId count) =
      (if bytes.length = 8 then set (counter typeId (.ofNat (ofBigEndian bytes.reverse)))
        else throw (.refused (.invalidData (.note s!"counter needs 8 bytes, got {bytes.length}"))) :
          ExceptT BodyFailure (StateM AnyMessage) Unit).run (counter typeId count) := rfl
  rw [hrun]
  split_ifs <;> rfl

/-- A message that does not take in a body stays as it is. -/
theorem load_failed {m t : AnyMessage} {bytes : List UInt8} {failure : BodyFailure}
    (h : (load bytes).run m = (.error failure, t)) : t = m := by
  cases m with
  | typed typeId type value =>
      rw [run_load_typed] at h
      split at h
      · cases h
      · exact (Prod.mk.inj h).2.symm
  | raw => cases h
  | counter typeId count =>
      rw [run_load_counter] at h
      split_ifs at h
      · cases h
      · exact (Prod.mk.inj h).2.symm
  | faulty typeId name failure => exact (Prod.mk.inj h).2.symm

section MessagePack

variable {type : MessageType} {value : Value}

theorem encode_messagePack (hformat : type.format = .messagePack) (typeId : Int32)
    (value : Value) :
    Message.encode (typed typeId type value) = .ok (MessagePack.encode value) := by
  simp only [Message.encode, encode, hformat, Format.encode]
  rfl

theorem run_load_messagePack (hformat : type.format = .messagePack) (typeId : Int32)
    (old : Value) (bytes : List UInt8) :
    (load bytes).run (typed typeId type old) =
      match MessagePack.decode? type.records type.shape bytes with
      | some read => (.ok (), typed typeId type read)
      | none => (.error (.refused (.invalidData (.malformed .messagePack))),
          typed typeId type old) := by
  rw [run_load_typed, hformat, Format.decode, Format.decode?]
  cases MessagePack.decode? type.records type.shape bytes <;> rfl

theorem load_encode_messagePack (hformat : type.format = .messagePack)
    (hfits : MessagePack.Fits type.records MessagePack.maxDepth type.shape value)
    (typeId : Int32) (old : Value) (rest : List UInt8) :
    (load (MessagePack.encode value ++ rest)).run (typed typeId type old) =
      (.ok (), typed typeId type value.restored) := by
  rw [run_load_messagePack hformat, MessagePack.decode?, hfits.reads, Option.map_some]

theorem load_too_deep (hformat : type.format = .messagePack) {depth : Nat}
    (hfits : MessagePack.Fits type.records depth type.shape value)
    (hdeep : ¬MessagePack.Fits type.records MessagePack.maxDepth type.shape value)
    (typeId : Int32) (old : Value) (rest : List UInt8) :
    (load (MessagePack.encode value ++ rest)).run (typed typeId type old) =
      (.error (.refused (.invalidData (.malformed .messagePack))), typed typeId type old) := by
  rw [run_load_messagePack hformat, MessagePack.decode?_too_deep hfits hdeep]

/-- A message with a MessagePack body: its body is there, and any message of the type that takes it
in, with bytes behind it or without, gets the value, but for options that hold nothing. -/
theorem messagePack_roundTrip (type : MessageType) (hformat : type.format = .messagePack) :
    (∀ value, MessagePack.Fits type.records MessagePack.maxDepth type.shape value → ∀ typeId,
      ∃ body, Message.encode (typed typeId type value) = .ok body ∧ body ≠ [] ∧
        (∀ flags, Call.Spares .noData (StreamSession.send (typed typeId type value) flags)) ∧
        (∀ target flags,
          Call.Spares .noData (DatagramSession.send (typed typeId type value) target flags)) ∧
        (∀ typeId' old rest, (load (body ++ rest)).run (typed typeId' type old) =
          (.ok (), typed typeId' type value.restored)) ∧
        (value.restored = value ↔ value.hasHollow = false)) ∧
      ∀ typeId old bytes failure m,
        (load bytes).run (typed typeId type old) = (.error failure, m) →
          m = typed typeId type old := by
  refine ⟨fun value hfits typeId => ?_, fun typeId old bytes failure m h => load_failed h⟩
  have hbody := encode_messagePack hformat typeId value
  have hne := MessagePack.encode_ne_nil value
  exact ⟨_, hbody, hne, StreamSession.spares_noData_send hbody hne,
    DatagramSession.spares_noData_send hbody hne, load_encode_messagePack hformat hfits,
    value.restored_eq_self_iff⟩

end MessagePack

/-- A type with a field of its own type. -/
def linkType : MessageType where
  ident := "Link"
  name := "Link"
  records := [[⟨"id", .int .i64⟩, ⟨"tags", .map .text (.int .u32)⟩,
    ⟨"next", .optional (.record 0)⟩]]

def link (next : Value) : Value :=
  .record [("id", .int (-0x8000000000000000)),
    ("tags", .map [(.text "a", .int 0xff), (.text "b", .int 0x10000)]), ("next", next)]

def chain : Nat → Value
  | 0 => link .absent
  | n + 1 => link (.present (chain n))

theorem link_fits {depth : Nat} {next : Value}
    (hnext : MessagePack.Fits linkType.records (depth + 1) (.optional (.record 0)) next) :
    MessagePack.Fits linkType.records (depth + 2) (.record 0) (link next) := by
  refine .record rfl (by simp) rfl (by decide) (by decide +kernel) ?_
  intro p hp
  simp only [List.zip_cons_cons, List.zip_nil_left, List.mem_cons, List.not_mem_nil,
    or_false] at hp
  rcases hp with rfl | rfl | rfl
  · exact .int (by decide)
  · refine .map (by decide) (by decide +kernel) ?_ ?_
    · intro e he
      simp only [List.mem_cons, List.not_mem_nil, or_false] at he
      rcases he with rfl | rfl <;> exact .text (by decide +kernel)
    · intro e he
      simp only [List.mem_cons, List.not_mem_nil, or_false] at he
      rcases he with rfl | rfl <;> exact .int (by decide)
  · exact hnext

theorem chain_fits (n : Nat) :
    MessagePack.Fits linkType.records (n + 2) (.record 0) (chain n) := by
  induction n with
  | zero => exact link_fits .absent
  | succ n ih => exact link_fits (.present ih)

theorem hasHollow_chain (n : Nat) : (chain n).hasHollow = false := by
  induction n with
  | zero => rfl
  | succ n ih =>
      have hhollow : (chain n).isHollow = false := by cases n <;> rfl
      simp [chain, link, Value.hasHollow, Value.fieldsHaveHollow, Value.entriesHaveHollow, hhollow,
        ih]

/-- As deep as it goes: 1022 links, with a map in the last of them. -/
theorem messagePack_roundTrip_chain :
    linkType.format = .messagePack ∧
      MessagePack.Fits linkType.records MessagePack.maxDepth linkType.shape (chain 1021) ∧
      ∃ body, Message.encode (typed 17 linkType (chain 1021)) = .ok body ∧ body ≠ [] ∧
        (load (body ++ [0xc1])).run (blank linkType 18) = (.ok (), typed 18 linkType (chain 1021)) ∧
        (load [0xc1]).run (typed 18 linkType (chain 1021)) =
          (.error (.refused (.invalidData (.malformed .messagePack))),
            typed 18 linkType (chain 1021)) := by
  have hfits : MessagePack.Fits linkType.records MessagePack.maxDepth linkType.shape (chain 1021) :=
    chain_fits 1021
  obtain ⟨hvalue, hfailed⟩ := messagePack_roundTrip linkType rfl
  obtain ⟨body, hbody, hne, -, -, hload, hsame⟩ := hvalue (chain 1021) hfits 17
  have hrefused : ((load [0xc1]).run (typed 18 linkType (chain 1021))).1 =
      .error (.refused (.invalidData (.malformed .messagePack))) := by
    rw [run_load_typed]
    rfl
  have hrestored := hload 18 linkType.default [0xc1]
  rw [hsame.2 (hasHollow_chain 1021)] at hrestored
  exact ⟨rfl, hfits, body, hbody, hne, hrestored,
    Prod.ext hrefused (hfailed 18 _ [0xc1] _ _ (Prod.ext hrefused rfl))⟩

/-- A type with an option of an option. -/
def levelType (format : Format) : MessageType where
  ident := "Level"
  name := "Level"
  format := format
  records := [[⟨"level", .optional (.optional (.int .u8))⟩]]

def level (value : Value) : Value := .record [("level", value)]

theorem depth_of_chain {n depth : Nat}
    (h : MessagePack.Fits linkType.records depth (.record 0) (chain n)) : n + 2 ≤ depth := by
  induction n generalizing depth with
  | zero =>
      cases h with
      | record hschema _ _ _ _ hfields =>
          obtain rfl := Option.some.inj hschema
          cases hfields (⟨"tags", _⟩, "tags", _) (.tail _ (.head _)) with
          | map => omega
  | succ n ih =>
      cases h with
      | record hschema _ _ _ _ hfields =>
          obtain rfl := Option.some.inj hschema
          cases hfields (⟨"next", _⟩, "next", _) (.tail _ (.tail _ (.head _))) with
          | present hitem =>
              have hdepth := ih hitem
              omega

/-- Nothing inside an option that is there is read as an option that is not. And in a chain of 1023
links no field stands inside more than 1023 maps, but the map in its last link is one too many. -/
theorem messagePack_ambiguous :
    (Message.encode (typed 17 (levelType .messagePack) (level (.present .absent))) =
        .ok [0x81, 0xa5, 0x6c, 0x65, 0x76, 0x65, 0x6c, 0xc0] ∧
      (load [0x81, 0xa5, 0x6c, 0x65, 0x76, 0x65, 0x6c, 0xc0]).run
          (blank (levelType .messagePack) 18) =
        (.ok (), typed 18 (levelType .messagePack) (level .absent)) ∧
      level .absent ≠ level (.present .absent)) ∧
    MessagePack.Fits linkType.records 1024 linkType.shape (chain 1022) ∧
      ∃ body, Message.encode (typed 17 linkType (chain 1022)) = .ok body ∧
        (load body).run (blank linkType 18) =
          (.error (.refused (.invalidData (.malformed .messagePack))), blank linkType 18) := by
  have hbody : MessagePack.encode (level (.present .absent)) =
      [0x81, 0xa5, 0x6c, 0x65, 0x76, 0x65, 0x6c, 0xc0] := by decide +kernel
  have hlevel : MessagePack.Fits (levelType .messagePack).records MessagePack.maxDepth
      (levelType .messagePack).shape (level (.present .absent)) := by
    refine .record rfl (by simp) rfl (by decide) (by decide +kernel) ?_
    intro p hp
    obtain rfl := List.mem_singleton.1 hp
    exact .present .absent
  have hdeep : ¬MessagePack.Fits linkType.records MessagePack.maxDepth linkType.shape
      (chain 1022) := fun hfits => absurd (depth_of_chain hfits) (by decide)
  have hrefused := load_too_deep rfl (chain_fits 1022) hdeep 18 linkType.default []
  rw [List.append_nil] at hrefused
  have hrestored := load_encode_messagePack rfl hlevel 18 (levelType .messagePack).default []
  rw [List.append_nil, hbody] at hrestored
  exact ⟨⟨hbody ▸ encode_messagePack rfl 17 _, hrestored, by simp [level]⟩, chain_fits 1022, _,
    encode_messagePack rfl 17 _, hrefused⟩

end AnyMessage

end MessageChannel
