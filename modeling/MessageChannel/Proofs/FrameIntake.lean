import MessageChannel.Proofs.Intake

namespace MessageChannel

variable {μ : Type}

namespace Assembly

theorem overlay_full (payload : Array UInt8) {bytes : List UInt8}
    (hlength : bytes.length = payload.size) : (overlay payload 0 bytes).toList = bytes := by
  apply List.ext_getElem?
  intro i
  rw [Array.getElem?_toList, getElem?_overlay]
  by_cases hi : i < bytes.length
  · rw [if_pos (by omega), Nat.sub_zero]
  · rw [if_neg (by omega), List.getElem?_eq_none (by omega), Array.getElem?_eq_none (by omega)]

theorem prepare_eq_ok_iff {a b : Assembly} {h : Header} : a.prepare h = (.ok (), b) ↔
    a.inFlight = none ∧ h.length ≤ a.limit ∧
      b = { a with size := h.length.toNat, writes := [] } := by
  cases hidle : a.inFlight with
  | none =>
      by_cases hfits : h.length ≤ a.limit
      · simp [prepare, isAssembling, checkSize, hidle, hfits, eq_comm]
      · simp [prepare, isAssembling, checkSize, hidle, hfits]
  | some announced => simp [prepare, isAssembling, hidle]

theorem start_eq_ok_iff {a b : Assembly} {h : Header} : a.start h = (.ok (), b) ↔
    a.inFlight = none ∧ h.length ≤ a.limit ∧
      b = ⟨a.limit, h.length.toNat, [], some ⟨h.data, h.length.toNat⟩, 0⟩ := by
  cases hidle : a.inFlight with
  | none =>
      by_cases hfits : h.length ≤ a.limit
      · simp [start, isAssembling, checkSize, hidle, hfits, eq_comm]
      · simp [start, isAssembling, checkSize, hidle, hfits]
  | some announced => simp [start, isAssembling, hidle]

theorem slot_eq_ok_iff {a : Assembly} {h : Header} {r : SliceRange} : a.slot h = .ok r ↔
    ∃ announced, a.inFlight = some announced ∧ h.offset + h.length.toNat ≤ announced.total ∧
      r = ⟨h.offset, h.length.toNat⟩ := by
  cases hflight : a.inFlight with
  | none => simp [slot, hflight]
  | some announced =>
      by_cases hwithin : h.offset + h.length.toNat ≤ announced.total
      · simp [slot, hflight, hwithin, eq_comm]
      · simp [slot, hflight, hwithin]

/-- A refusal leaves the payload alone: the checks come first. -/
theorem prepare_refused {a b : Assembly} {h : Header} {error : ChannelError}
    (hprepare : a.prepare h = (.error error, b)) : b = a := by
  rw [prepare] at hprepare
  split at hprepare
  · exact (Prod.mk.inj hprepare).2.symm
  · split at hprepare
    · exact (Prod.mk.inj hprepare).2.symm
    · cases hprepare

theorem start_refused {a b : Assembly} {h : Header} {error : ChannelError}
    (hstart : a.start h = (.error error, b)) : b = a := by
  rw [start] at hstart
  split at hstart
  · exact (Prod.mk.inj hstart).2.symm
  · split at hstart
    · exact (Prod.mk.inj hstart).2.symm
    · cases hstart

theorem exists_error_iff {α : Type} {ended : Except ChannelError α} :
    (∃ error, ended = .error error) ↔ ¬∃ a, ended = .ok a := by
  cases ended <;> simp

theorem exists_refusal_iff {ended : Except ChannelError Unit × Assembly} :
    (∃ error b, ended = (.error error, b)) ↔ ¬∃ b, ended = (.ok (), b) := by
  obtain ⟨error | _, b⟩ := ended <;> simp

theorem prepare_error_iff {a : Assembly} {h : Header} :
    (∃ error b, a.prepare h = (.error error, b)) ↔ a.inFlight ≠ none ∨ a.limit < h.length := by
  rw [exists_refusal_iff, ← UInt32.not_le, ← Classical.not_and_iff_not_or_not]
  simp only [prepare_eq_ok_iff, exists_and_left, exists_eq, and_true]

theorem start_error_iff {a : Assembly} {h : Header} :
    (∃ error b, a.start h = (.error error, b)) ↔ a.inFlight ≠ none ∨ a.limit < h.length := by
  rw [exists_refusal_iff, ← UInt32.not_le, ← Classical.not_and_iff_not_or_not]
  simp only [start_eq_ok_iff, exists_and_left, exists_eq, and_true]

theorem payload_prepare {a b : Assembly} {h : Header} {bytes : List UInt8}
    (hprepare : a.prepare h = (.ok (), b)) (hlength : bytes.length = h.length.toNat) :
    (b.fill 0 bytes).payload.toList = bytes := by
  obtain ⟨-, -, rfl⟩ := prepare_eq_ok_iff.1 hprepare
  rw [payload_fill]
  apply overlay_full
  rw [size_payload, hlength]

end Assembly

namespace Receiver

theorem effect_onHeader (registry : Registry μ) (h : Header) (r : Receiver μ) :
    (onHeader registry h).effect r =
      let r : Receiver μ := { r with header := h }
      match h.kind with
      | .error error => (.error (.failed error), r)
      | .ok .cancel => (.error (.failed .canceled), r.reset)
      | .ok .versionVerification =>
          if h.data = tableTypeId then match r.assembly.prepare h with
            | (.ok (), assembly) => (.ok (.body ⟨0, h.length.toNat⟩), { r with assembly })
            | (.error error, _) => (.error (.failed error), r)
          else (.error (.failed (.unsupportedVersion (.legacy h.data h.length))), r)
      | .ok .complete => match r.assembly.prepare h with
          | (.ok (), assembly) => (.ok (.body ⟨0, h.length.toNat⟩), { r with assembly })
          | (.error error, _) => (.error (.failed error), r)
      | .ok .sliceHeader => match r.assembly.start h with
          | (.ok (), assembly) =>
              (.ok (if assembly.isComplete then .delivery h.data true else .frame),
                { r with assembly, message := registry.resolve? h.data r.peerTable })
          | (.error error, _) => (.error (.failed error), r)
      | .ok .slice => match r.assembly.slot h with
          | .ok range => (.ok (.body range), r)
          | .error error => (.error (.failed error), r) := by
  simp only [Call.effect, onHeader, Call.run_bind, Call.update, Call.tell]
  cases hkind : h.kind with
  | error error => rfl
  | ok kind =>
      cases kind with
      | cancel => rfl
      | versionVerification =>
          by_cases hdata : h.data = tableTypeId
          · simp only [Call.ofExcept, Call.run_pure, Call.failIf, hdata, ne_eq, not_true,
              if_false, if_true, Call.run_bind, assemble, Call.session]
            rcases hprepare : r.assembly.prepare h with ⟨error | _, assembly⟩
            · obtain rfl := Assembly.prepare_refused hprepare
              rfl
            · rfl
          · simp only [Call.ofExcept, Call.run_pure, Call.failIf, hdata, ne_eq, not_false_eq_true,
              if_false, if_true, Call.run_bind]
            rfl
      | complete =>
          simp only [Call.ofExcept, Call.run_pure, Call.run_bind, assemble, Call.session]
          rcases hprepare : r.assembly.prepare h with ⟨error | _, assembly⟩
          · obtain rfl := Assembly.prepare_refused hprepare
            rfl
          · rfl
      | sliceHeader =>
          simp only [Call.ofExcept, Call.run_pure, Call.run_bind, assemble, Call.session]
          rcases hstart : r.assembly.start h with ⟨error | _, assembly⟩
          · obtain rfl := Assembly.start_refused hstart
            rfl
          · simp only [Call.run_pure, Call.update, resolve, Call.tellIf]
            cases registry.resolve? h.data r.peerTable <;> rfl
      | slice =>
          simp only [Call.ofExcept, Call.run_pure, Call.run_bind, Call.session]
          cases r.assembly.slot h <;> rfl

theorem effect_onBody (registry : Registry μ) (h : Header) (r : Receiver μ) :
    (onBody registry h).effect r =
      match h.kind with
      | .error error => (.error (.failed error), r)
      | .ok .versionVerification => match PeerTable.decode r.assembly.payload.toList with
          | .ok peerTable =>
              (.ok .frame, { r with assembly := r.assembly.finish, peerTable })
          | .error error => (.error (.failed error), r)
      | .ok .slice =>
          let assembly := r.assembly.commit h.length.toNat
          (.ok (if assembly.isComplete then .delivery (assembly.typeId?.getD 0) true else .frame),
            { r with assembly })
      | .ok _ => (.ok (.delivery h.data false),
          { r with message := registry.resolve? h.data r.peerTable }) := by
  simp only [Call.effect, onBody, Call.run_bind]
  cases hkind : h.kind with
  | error error => rfl
  | ok kind =>
      cases kind with
      | complete | sliceHeader | cancel | slice => rfl
      | versionVerification =>
          simp only [Call.ofExcept, Call.run_pure, Call.run_bind, absorbTable, Call.session]
          cases PeerTable.decode r.assembly.payload.toList with
          | error error => rfl
          | ok table =>
              simp only [Call.run_pure, Call.update, Call.tellIf, Call.tell]
              by_cases hversion : table.version ≠ registry.version
              · simp only [if_pos hversion]
              · simp only [if_neg hversion, Call.run_pure]

variable [Message μ]

/-- What the caller gets of a payload that came under some id, when this blank message, if any,
stands for it. -/
def handOut (flags : Flags) (blank? : Option μ) (peer : PeerTable) (typeId : Int32) (sliced : Bool)
    (payload : List UInt8) : Except Halt μ :=
  match blank? with
  | some blank => Worker.decode flags.inWorker blank payload
  | none =>
      if flags.keepUnknown then .ok (Message.ofRaw (.ofBytes typeId (peer.nameOf? typeId) payload))
      else .error (.failed (if sliced then .unregistered typeId else .unrecognized typeId))

def delivered (flags : Flags) (typeId : Int32) (sliced : Bool) (r : Receiver μ) : Except Halt μ :=
  handOut flags r.message r.peerTable typeId sliced r.assembly.payload.toList

theorem effect_deliver (flags : Flags) (typeId : Int32) (sliced : Bool) (r : Receiver μ) :
    (deliver flags typeId sliced).effect r = (r.delivered flags typeId sliced, r.reset) := by
  simp only [Call.effect, deliver_eq, Call.run_bind, Call.session, Call.update, delivered, handOut]
  cases r.message with
  | some m => cases hdecode : Worker.decode flags.inWorker m r.assembly.payload.toList <;>
      simp only [Assembly.take, hdecode] <;> rfl
  | none => cases flags.keepUnknown <;> rfl

theorem effect_conclude_delivery (flags : Flags) (typeId : Int32) (sliced : Bool)
    (r : Receiver μ) : (conclude flags (.delivery typeId sliced)).effect r =
      ((r.delivered flags typeId sliced).map some, r.reset) := by
  rw [conclude, map_eq_pure_bind, Call.effect_bind fun _ => .pure _, effect_deliver]
  cases r.delivered flags typeId sliced <;> rfl

theorem effect_afterBody (registry : Registry μ) (flags : Flags) (h : Header) (r : Receiver μ) :
    (afterBody registry flags h).effect r =
      match (onBody registry h).effect r with
      | (.ok demand, r) => (conclude flags demand).effect r
      | (.error halt, r) => (.error halt, r) := by
  rw [afterBody, Call.effect_bind fun _ => timeless_conclude _ _]
  obtain ⟨ended, r'⟩ := (onBody registry h).effect r
  cases ended <;> rfl

section

variable {registry : Registry μ} {flags : Flags} {r : Receiver μ} {h : Header} {bytes : List UInt8}

theorem intakeOf?_unknown {error : ChannelError} (hkind : h.kind = .error error) :
    r.intakeOf? registry flags h bytes =
      some ⟨.error (.failed error), { r with header := h }, bytes⟩ := by
  simp only [intakeOf?, effect_onHeader, hkind]

theorem intakeOf?_cancel (hkind : h.kind = .ok .cancel) :
    r.intakeOf? registry flags h bytes =
      some ⟨.error (.failed .canceled), ({ r with header := h } : Receiver μ).reset, bytes⟩ := by
  simp only [intakeOf?, effect_onHeader, hkind]

theorem intakeOf?_versionVerification (hkind : h.kind = .ok .versionVerification) :
    r.intakeOf? registry flags h bytes =
      if h.data = tableTypeId then match r.assembly.prepare h with
        | (.error error, _) => some ⟨.error (.failed error), { r with header := h }, bytes⟩
        | (.ok (), assembly) => (splitExactly? h.length.toNat bytes).map fun (payload, rest) =>
            let assembly := assembly.fill 0 payload
            match PeerTable.decode payload with
            | .error error => ⟨.error (.failed error), { r with header := h, assembly }, rest⟩
            | .ok peerTable =>
                ⟨.ok none, { r with header := h, assembly := assembly.finish, peerTable }, rest⟩
      else some ⟨.error (.failed (.unsupportedVersion (.legacy h.data h.length))),
        { r with header := h }, bytes⟩ := by
  simp only [intakeOf?, effect_onHeader, hkind]
  by_cases hdata : h.data = tableTypeId
  · simp only [if_pos hdata]
    rcases hprepare : r.assembly.prepare h with ⟨error | _, assembly⟩
    · rfl
    · simp only
      cases hsplit : splitExactly? h.length.toNat bytes with
      | none => rfl
      | some parts =>
          have hpayload := Assembly.payload_prepare hprepare
            (splitExactly?_eq_some_iff.1 hsplit).2
          simp only [Option.map_some, effect_afterBody, effect_onBody, hkind, fill, hpayload]
          cases PeerTable.decode parts.1 <;> rfl
  · simp only [if_neg hdata]

theorem intakeOf?_complete (hkind : h.kind = .ok .complete) :
    r.intakeOf? registry flags h bytes = match r.assembly.prepare h with
      | (.error error, _) => some ⟨.error (.failed error), { r with header := h }, bytes⟩
      | (.ok (), _) => (splitExactly? h.length.toNat bytes).map fun (payload, rest) =>
          ⟨(handOut flags (registry.resolve? h.data r.peerTable) r.peerTable h.data false
            payload).map some, ({ r with header := h } : Receiver μ).reset, rest⟩ := by
  simp only [intakeOf?, effect_onHeader, hkind]
  rcases hprepare : r.assembly.prepare h with ⟨error | _, assembly⟩
  · rfl
  · simp only
    cases hsplit : splitExactly? h.length.toNat bytes with
    | none => rfl
    | some parts =>
        have hpayload := Assembly.payload_prepare hprepare (splitExactly?_eq_some_iff.1 hsplit).2
        obtain ⟨-, -, rfl⟩ := Assembly.prepare_eq_ok_iff.1 hprepare
        simp only [Option.map_some, effect_afterBody, effect_onBody, hkind, fill,
          effect_conclude_delivery, delivered, hpayload]
        rfl

theorem intakeOf?_sliceHeader (hkind : h.kind = .ok .sliceHeader) :
    r.intakeOf? registry flags h bytes = match r.assembly.start h with
      | (.error error, _) => some ⟨.error (.failed error), { r with header := h }, bytes⟩
      | (.ok (), assembly) =>
          let blank? := registry.resolve? h.data r.peerTable
          if h.length = 0 then
            some ⟨(handOut flags blank? r.peerTable h.data true []).map some,
              ({ r with header := h } : Receiver μ).reset, bytes⟩
          else some ⟨.ok none, { r with header := h, assembly, message := blank? }, bytes⟩ := by
  simp only [intakeOf?, effect_onHeader, hkind]
  rcases hstart : r.assembly.start h with ⟨error | _, assembly⟩
  · rfl
  · obtain ⟨-, -, rfl⟩ := Assembly.start_eq_ok_iff.1 hstart
    by_cases hzero : h.length = 0
    · have hcomplete : (⟨r.assembly.limit, h.length.toNat, [], some ⟨h.data, h.length.toNat⟩, 0⟩ :
          Assembly).isComplete = true := by simp [Assembly.isComplete, hzero]
      simp only [hcomplete, if_true, if_pos hzero, effect_conclude_delivery, delivered]
      rw [hzero]
      rfl
    · have hcomplete : (⟨r.assembly.limit, h.length.toNat, [], some ⟨h.data, h.length.toNat⟩, 0⟩ :
          Assembly).isComplete = false := by
        have hpos : h.length.toNat ≠ 0 := fun hnone => hzero (UInt32.toNat_inj.1 hnone)
        simpa [Assembly.isComplete] using hpos
      simp only [hcomplete, if_neg hzero]
      rfl

theorem intakeOf?_slice (hkind : h.kind = .ok .slice) :
    r.intakeOf? registry flags h bytes = match r.assembly.slot h with
      | .error error => some ⟨.error (.failed error), { r with header := h }, bytes⟩
      | .ok range => (splitExactly? range.length bytes).map fun (payload, rest) =>
          let assembly := (r.assembly.fill range.offset payload).commit h.length.toNat
          if assembly.isComplete then
            ⟨(handOut flags r.message r.peerTable (assembly.typeId?.getD 0) true
              assembly.payload.toList).map some, ({ r with header := h } : Receiver μ).reset, rest⟩
          else ⟨.ok none, { r with header := h, assembly }, rest⟩ := by
  simp only [intakeOf?, effect_onHeader, hkind]
  cases hslot : r.assembly.slot h with
  | error error => rfl
  | ok range =>
      simp only
      cases hsplit : splitExactly? range.length bytes with
      | none => rfl
      | some parts =>
          simp only [Option.map_some, effect_afterBody, effect_onBody, hkind, fill]
          cases ((r.assembly.fill range.offset parts.1).commit h.length.toNat).isComplete with
          | true => simp only [if_true, effect_conclude_delivery, delivered]; rfl
          | false => rfl

end

end Receiver

end MessageChannel
