import MessageChannel.Proofs.FrameIntake

namespace MessageChannel

variable {μ : Type}

/-- The codes of errors for frames that are not taken: a header that is none, that does not fit the
moment or asks for too much, and a table that is none. -/
def refusals : List ErrorCode := [.invalidHeader, .invalidData, .unsupportedVersion, .tooLarge]

theorem ChannelError.asInvalidData_eq (error : ChannelError) :
    ∃ fault, error.asInvalidData = .invalidData fault := by
  cases error <;> exact ⟨_, rfl⟩

namespace Assembly

variable {a b : Assembly} {h : Header} {error : ChannelError}

theorem checkSize_refuses {length : UInt32} (hsize : a.checkSize length = .error error) :
    error.code ∈ refusals := by
  rw [checkSize] at hsize
  split at hsize
  · cases hsize
  · obtain rfl := Except.error.inj hsize
    simp [ChannelError.code, refusals]

theorem prepare_refuses (hprepare : a.prepare h = (.error error, b)) :
    error.code ∈ refusals := by
  rw [prepare] at hprepare
  split at hprepare
  · obtain ⟨rfl⟩ := (Prod.mk.inj hprepare).1
    decide
  · split at hprepare
    · next fault hsize =>
      obtain ⟨rfl⟩ := (Prod.mk.inj hprepare).1
      exact checkSize_refuses hsize
    · cases hprepare

theorem start_refuses (hstart : a.start h = (.error error, b)) : error.code ∈ refusals := by
  rw [start] at hstart
  split at hstart
  · obtain ⟨rfl⟩ := (Prod.mk.inj hstart).1
    decide
  · split at hstart
    · next fault hsize =>
      obtain ⟨rfl⟩ := (Prod.mk.inj hstart).1
      exact checkSize_refuses hsize
    · cases hstart

theorem slot_refuses (hslot : a.slot h = .error error) : error.code ∈ refusals := by
  rw [slot] at hslot
  split at hslot
  · obtain rfl := Except.error.inj hslot
    decide
  · split at hslot
    · cases hslot
    · obtain rfl := Except.error.inj hslot
      simp [ChannelError.code, refusals]

end Assembly

theorem Header.kind_refuses {h : Header} {error : ChannelError} (hkind : h.kind = .error error) :
    error.code ∈ refusals := by
  rw [Header.kind] at hkind
  split at hkind
  · cases hkind
  · obtain rfl := Except.error.inj hkind
    simp [ChannelError.code, refusals]

theorem PeerTable.decode_refuses {bytes : List UInt8} {error : ChannelError}
    (hdecode : PeerTable.decode bytes = .error error) : error.code ∈ refusals := by
  rw [PeerTable.decode] at hdecode
  split at hdecode
  · cases hdecode
  · obtain rfl := Except.error.inj hdecode
    decide

namespace Receiver

variable {registry : Registry μ} {r r' : Receiver μ} {h : Header} {error : ChannelError}

/-- A cancel frame cancels the call, and any other header that is not taken is refused. -/
theorem onHeader_refuses
    (heffect : (onHeader registry h).effect r = (.error (.failed error), r')) :
    error = .canceled ∧ h.kind = .ok .cancel ∨ error.code ∈ refusals ∧ h.kind ≠ .ok .cancel := by
  rw [effect_onHeader] at heffect
  cases hkind : h.kind with
  | error fault =>
      simp only [hkind, Prod.mk.injEq, Except.error.injEq, Halt.failed.injEq] at heffect
      exact .inr ⟨heffect.1 ▸ h.kind_refuses hkind, by simp⟩
  | ok kind =>
      simp only [hkind] at heffect
      cases kind with
      | cancel =>
          simp only [Prod.mk.injEq, Except.error.injEq, Halt.failed.injEq] at heffect
          exact .inl ⟨heffect.1.symm, rfl⟩
      | versionVerification =>
          refine .inr ⟨?_, by simp⟩
          by_cases hdata : h.data = tableTypeId
          · rcases hprepare : r.assembly.prepare h with ⟨error | _, assembly⟩
            · simp only [if_pos hdata, hprepare, Prod.mk.injEq, Except.error.injEq,
                Halt.failed.injEq] at heffect
              exact heffect.1 ▸ Assembly.prepare_refuses hprepare
            · simp [hdata, hprepare] at heffect
          · simp only [if_neg hdata, Prod.mk.injEq, Except.error.injEq, Halt.failed.injEq] at heffect
            rw [← heffect.1]
            simp [ChannelError.code, refusals]
      | complete =>
          rcases hprepare : r.assembly.prepare h with ⟨error | _, assembly⟩
          · simp only [hprepare, Prod.mk.injEq, Except.error.injEq, Halt.failed.injEq] at heffect
            exact .inr ⟨heffect.1 ▸ Assembly.prepare_refuses hprepare, by simp⟩
          · simp [hprepare] at heffect
      | sliceHeader =>
          rcases hstart : r.assembly.start h with ⟨error | _, assembly⟩
          · simp only [hstart, Prod.mk.injEq, Except.error.injEq, Halt.failed.injEq] at heffect
            exact .inr ⟨heffect.1 ▸ Assembly.start_refuses hstart, by simp⟩
          · simp [hstart] at heffect
      | slice =>
          cases hslot : r.assembly.slot h with
          | ok range => simp [hslot] at heffect
          | error error' =>
              simp only [hslot, Prod.mk.injEq, Except.error.injEq, Halt.failed.injEq] at heffect
              exact .inr ⟨heffect.1 ▸ Assembly.slot_refuses hslot, by simp⟩

theorem onBody_refuses
    (heffect : (onBody registry h).effect r = (.error (.failed error), r')) :
    error.code ∈ refusals := by
  rw [effect_onBody] at heffect
  cases hkind : h.kind with
  | error fault =>
      simp only [hkind, Prod.mk.injEq, Except.error.injEq, Halt.failed.injEq] at heffect
      exact heffect.1 ▸ h.kind_refuses hkind
  | ok kind =>
      simp only [hkind] at heffect
      cases kind with
      | versionVerification =>
          cases hdecode : PeerTable.decode r.assembly.payload.toList with
          | ok told => simp [hdecode] at heffect
          | error error' =>
              simp only [hdecode, Prod.mk.injEq, Except.error.injEq, Halt.failed.injEq] at heffect
              exact heffect.1 ▸ PeerTable.decode_refuses hdecode
      | slice | complete | sliceHeader | cancel => simp at heffect

variable [Message μ]

/-- Why a payload is not handed out: nothing stands for its type, or the message that does refuses
it or breaks down over it on a worker. -/
inductive Undelivered (flags : Flags) (typeId : Int32) (payload : List UInt8) :
    Bool → Option μ → ChannelError → Prop
  | unrecognized (hkeep : flags.keepUnknown = false) :
      Undelivered flags typeId payload false none (.unrecognized typeId)
  | unregistered (hkeep : flags.keepUnknown = false) :
      Undelivered flags typeId payload true none (.unregistered typeId)
  | refused {sliced m error fault} (hdecode : Message.decode m payload = .error (.refused error))
      (hfault : error.asInvalidData = .invalidData fault) :
      Undelivered flags typeId payload sliced (some m) (.invalidData fault)
  | lost {sliced m} (hdecode : Message.decode m payload = .error .crashed)
      (hworker : flags.inWorker = true) :
      Undelivered flags typeId payload sliced (some m) (.serialization .workerLost)

section

variable {flags : Flags} {blank? : Option μ} {table : PeerTable} {typeId : Int32} {sliced : Bool}
  {payload : List UInt8} {halt : Halt}

/-- A payload that is not handed out is undelivered, unless the message breaks down in place. -/
theorem handOut_fails (h : handOut flags blank? table typeId sliced payload = .error halt) :
    (∃ error, halt = .failed error ∧ Undelivered flags typeId payload sliced blank? error) ∨
      halt = .crashed ∧ ∃ m, blank? = some m ∧ Message.decode m payload = .error .crashed := by
  cases blank? with
  | none =>
      rw [handOut] at h
      split at h
      · cases h
      · next hkeep =>
        have hkeep' : flags.keepUnknown = false := by simpa using hkeep
        obtain rfl := Except.error.inj h
        cases sliced with
        | false => exact .inl ⟨_, rfl, .unrecognized hkeep'⟩
        | true => exact .inl ⟨_, rfl, .unregistered hkeep'⟩
  | some m =>
      rw [handOut] at h
      cases hdecode : Message.decode m payload with
      | ok m' =>
          rw [Worker.decode_of_ok hdecode] at h
          cases h
      | error failure =>
          rw [Worker.decode_of_error hdecode] at h
          cases failure with
          | refused error =>
              obtain ⟨fault, hfault⟩ := error.asInvalidData_eq
              obtain rfl := Except.error.inj h
              exact .inl ⟨_, congrArg Halt.failed hfault, .refused hdecode hfault⟩
          | crashed =>
              obtain rfl := Except.error.inj h
              cases hworker : flags.inWorker with
              | true => exact .inl ⟨_, rfl, .lost hdecode hworker⟩
              | false => exact .inr ⟨rfl, m, rfl, hdecode⟩

theorem undelivered_of_handOut {error : ChannelError}
    (h : handOut flags blank? table typeId sliced payload = .error (.failed error)) :
    Undelivered flags typeId payload sliced blank? error := by
  rcases handOut_fails h with ⟨error', hfailed, hundelivered⟩ | ⟨hcrashed, -⟩
  · rwa [Halt.failed.inj hfailed]
  · cases hcrashed

theorem crashed_of_handOut
    (h : handOut flags blank? table typeId sliced payload = .error .crashed) :
    ∃ m, blank? = some m ∧ Message.decode m payload = .error .crashed := by
  rcases handOut_fails h with ⟨error, hfailed, -⟩ | ⟨-, hcrashed⟩
  · cases hfailed
  · exact hcrashed

end

theorem handOut_ne_stalled (flags : Flags) (blank? : Option μ) (peer : PeerTable) (typeId : Int32)
    (sliced : Bool) (payload : List UInt8) :
    handOut flags blank? peer typeId sliced payload ≠ .error .stalled := by
  intro h
  rcases handOut_fails h with ⟨error, hfailed, -⟩ | ⟨hcrashed, -⟩
  · cases hfailed
  · cases hcrashed

end Receiver

end MessageChannel
