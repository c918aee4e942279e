import MessageChannel.Proofs.FrameGrammar

namespace MessageChannel

variable {μ : Type}

namespace Receiver

/-- The headers that a receiver goes along with, and what it makes of them. -/
inductive Heeds (registry : Registry μ) (r : Receiver μ) (h : Header) : Demand → Receiver μ → Prop
  | table (hkind : h.kind = .ok .versionVerification) (hdata : h.data = tableTypeId)
      (hidle : r.assembly.inFlight = none) (hfits : h.length ≤ r.assembly.limit) :
      Heeds registry r h (.body ⟨0, h.length.toNat⟩) { r with
        header := h, assembly := { r.assembly with size := h.length.toNat, writes := [] } }
  | whole (hkind : h.kind = .ok .complete) (hidle : r.assembly.inFlight = none)
      (hfits : h.length ≤ r.assembly.limit) :
      Heeds registry r h (.body ⟨0, h.length.toNat⟩) { r with
        header := h, assembly := { r.assembly with size := h.length.toNat, writes := [] } }
  | announcement {demand} (hkind : h.kind = .ok .sliceHeader) (hidle : r.assembly.inFlight = none)
      (hfits : h.length ≤ r.assembly.limit)
      (hdemand : demand = if h.length.toNat = 0 then .delivery h.data true else .frame) :
      Heeds registry r h demand { r with
        header := h
        assembly := ⟨r.assembly.limit, h.length.toNat, [], some ⟨h.data, h.length.toNat⟩, 0⟩
        message := registry.resolve? h.data r.peerTable }
  | slice {announced} (hkind : h.kind = .ok .slice) (hflight : r.assembly.inFlight = some announced)
      (hwithin : h.offset + h.length.toNat ≤ announced.total) :
      Heeds registry r h (.body ⟨h.offset, h.length.toNat⟩) { r with header := h }

/-- The bodies that a receiver goes along with, and what it makes of them. -/
inductive Absorbs (registry : Registry μ) (r : Receiver μ) : Demand → Receiver μ → Prop
  | table {told} (hkind : r.header.kind = .ok .versionVerification)
      (hdecode : PeerTable.decode r.assembly.payload.toList = .ok told) :
      Absorbs registry r .frame { r with assembly := r.assembly.finish, peerTable := told }
  | whole (htable : r.header.kind ≠ .ok .versionVerification)
      (hslice : r.header.kind ≠ .ok .slice) :
      Absorbs registry r (.delivery r.header.data false)
        { r with message := registry.resolve? r.header.data r.peerTable }
  | slice {demand} (hkind : r.header.kind = .ok .slice)
      (hdemand : demand = if (r.assembly.commit r.header.length.toNat).isComplete
        then .delivery (r.assembly.typeId?.getD 0) true else .frame) :
      Absorbs registry r demand { r with assembly := r.assembly.commit r.header.length.toNat }

variable {registry : Registry μ} {r r' : Receiver μ} {h : Header} {demand : Demand}

theorem heeds_of_effect (heffect : (onHeader registry h).effect r = (.ok demand, r')) :
    Heeds registry r h demand r' := by
  rw [effect_onHeader] at heffect
  cases hkind : h.kind with
  | error error => simp [hkind] at heffect
  | ok kind =>
      simp only [hkind] at heffect
      cases kind with
      | cancel => simp at heffect
      | versionVerification =>
          by_cases hdata : h.data = tableTypeId
          · simp only [if_pos hdata] at heffect
            rcases hprepare : r.assembly.prepare h with ⟨error | _, assembly⟩
            · simp [hprepare] at heffect
            · obtain ⟨hidle, hfits, rfl⟩ := Assembly.prepare_eq_ok_iff.1 hprepare
              simp only [hprepare, Prod.mk.injEq, Except.ok.injEq] at heffect
              obtain ⟨rfl, rfl⟩ := heffect
              exact .table hkind hdata hidle hfits
          · simp [if_neg hdata] at heffect
      | complete =>
          rcases hprepare : r.assembly.prepare h with ⟨error | _, assembly⟩
          · simp [hprepare] at heffect
          · obtain ⟨hidle, hfits, rfl⟩ := Assembly.prepare_eq_ok_iff.1 hprepare
            simp only [hprepare, Prod.mk.injEq, Except.ok.injEq] at heffect
            obtain ⟨rfl, rfl⟩ := heffect
            exact .whole hkind hidle hfits
      | sliceHeader =>
          rcases hstart : r.assembly.start h with ⟨error | _, assembly⟩
          · simp [hstart] at heffect
          · obtain ⟨hidle, hfits, rfl⟩ := Assembly.start_eq_ok_iff.1 hstart
            simp only [hstart, Prod.mk.injEq, Except.ok.injEq] at heffect
            obtain ⟨rfl, rfl⟩ := heffect
            exact .announcement hkind hidle hfits (by simp [Assembly.isComplete])
      | slice =>
          cases hflight : r.assembly.inFlight with
          | none => simp [Assembly.slot, hflight] at heffect
          | some announced =>
              by_cases hwithin : h.offset + h.length.toNat ≤ announced.total
              · simp only [Assembly.slot, hflight, if_pos hwithin, Prod.mk.injEq,
                  Except.ok.injEq] at heffect
                obtain ⟨rfl, rfl⟩ := heffect
                exact .slice hkind hflight hwithin
              · simp [Assembly.slot, hflight, if_neg hwithin] at heffect

theorem absorbs_of_effect (heffect : (onBody registry r.header).effect r = (.ok demand, r')) :
    Absorbs registry r demand r' := by
  rw [effect_onBody] at heffect
  cases hkind : r.header.kind with
  | error error => simp [hkind] at heffect
  | ok kind =>
      simp only [hkind] at heffect
      cases kind with
      | versionVerification =>
          cases hdecode : PeerTable.decode r.assembly.payload.toList with
          | error error => simp [hdecode] at heffect
          | ok told =>
              simp only [hdecode, Prod.mk.injEq, Except.ok.injEq] at heffect
              obtain ⟨rfl, rfl⟩ := heffect
              exact .table hkind hdecode
      | slice =>
          simp only [Prod.mk.injEq, Except.ok.injEq] at heffect
          obtain ⟨rfl, rfl⟩ := heffect
          exact .slice hkind rfl
      | complete | sliceHeader | cancel =>
          simp only [Prod.mk.injEq, Except.ok.injEq] at heffect
          obtain ⟨rfl, rfl⟩ := heffect
          exact .whole (by simp [hkind]) (by simp [hkind])

theorem Heeds.header_eq (hheeds : Heeds registry r h demand r') : r'.header = h := by
  cases hheeds <;> rfl

theorem Absorbs.ne_body (habsorbs : Absorbs registry r demand r') (range : SliceRange) :
    demand ≠ .body range := by
  cases habsorbs with
  | table | whole => simp
  | slice hkind hdemand =>
      rw [hdemand]
      split <;> simp

/-- A header that is refused is refused with an error. -/
theorem onHeader_failed {halt : Halt}
    (heffect : (onHeader registry h).effect r = (.error halt, r')) :
    ∃ error, halt = .failed error := by
  rw [effect_onHeader] at heffect
  dsimp only at heffect
  repeat' split at heffect
  all_goals obtain ⟨⟨⟩, -⟩ := Prod.mk.inj heffect
  all_goals exact ⟨_, rfl⟩

theorem onBody_failed {halt : Halt}
    (heffect : (onBody registry h).effect r = (.error halt, r')) :
    (∃ error, halt = .failed error) ∧ r' = r := by
  rw [effect_onBody] at heffect
  dsimp only at heffect
  repeat' split at heffect
  all_goals obtain ⟨⟨⟩, rfl⟩ := Prod.mk.inj heffect
  all_goals exact ⟨⟨_, rfl⟩, rfl⟩

/-- What a receiver becomes of frames that it takes one after the other, and what it then asks for.
A frame whose body is asked for is not among them yet. -/
inductive Takes (registry : Registry μ) (r : Receiver μ) :
    List Frame → Demand → Receiver μ → Prop
  | nothing : Takes registry r [] .frame r
  | bare {fs h demand r' r''} (htakes : Takes registry r fs .frame r')
      (hheeds : Heeds registry r' h demand r'') (hbare : ∀ range, demand ≠ .body range) :
      Takes registry r (fs ++ [⟨h, []⟩]) demand r''
  | opened {fs h range r' r''} (htakes : Takes registry r fs .frame r')
      (hheeds : Heeds registry r' h (.body range) r'') : Takes registry r fs (.body range) r''
  | filled {fs range bytes demand r' r''} (htakes : Takes registry r fs (.body range) r')
      (hlength : bytes.length = range.length)
      (habsorbs : Absorbs registry (r'.fill range bytes) demand r'') :
      Takes registry r (fs ++ [⟨r'.header, bytes⟩]) demand r''

/-- The bytes of whole frames, and of the header of a frame whose body is asked for. -/
def taken (fs : List Frame) (demand : Demand) (r : Receiver μ) : List UInt8 :=
  wire fs ++ match demand with
    | .body _ => r.header.encode
    | _ => []

@[simp] theorem taken_frame (fs : List Frame) (r : Receiver μ) : taken fs .frame r = wire fs :=
  List.append_nil _

@[simp] theorem taken_delivery (fs : List Frame) (typeId : Int32) (sliced : Bool)
    (r : Receiver μ) : taken fs (.delivery typeId sliced) r = wire fs := List.append_nil _

end Receiver

end MessageChannel
