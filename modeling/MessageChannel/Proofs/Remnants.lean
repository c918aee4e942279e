import MessageChannel.Proofs.Fragmentation

namespace MessageChannel

variable {μ : Type}

namespace Assembly

theorem prepare_recycle (a : Assembly) (h : Header) :
    a.recycle.prepare h = match a.prepare h with
      | (.ok (), b) => (.ok (), b)
      | (.error error, _) => (.error error, a.recycle) := by
  have hflight : a.recycle.isAssembling = a.isAssembling := rfl
  have hsize : a.recycle.checkSize h.length = a.checkSize h.length := rfl
  rw [prepare, prepare, hflight, hsize]
  cases a.isAssembling with
  | true => rfl
  | false => cases a.checkSize h.length <;> rfl

theorem start_recycle (a : Assembly) (h : Header) :
    a.recycle.start h = match a.start h with
      | (.ok (), b) => (.ok (), b)
      | (.error error, _) => (.error error, a.recycle) := by
  have hflight : a.recycle.isAssembling = a.isAssembling := rfl
  have hsize : a.recycle.checkSize h.length = a.checkSize h.length := rfl
  rw [start, start, hflight, hsize]
  cases a.isAssembling with
  | true => rfl
  | false => cases a.checkSize h.length <;> rfl

end Assembly

namespace Receiver

/-- A receiver without what the last payload left in its memory, which is of no use to it between
two messages. -/
def essence (r : Receiver μ) : Receiver μ :=
  { r with assembly := if r.assembly.isAssembling then r.assembly else r.assembly.recycle }

variable {r : Receiver μ}

theorem essence_of_assembling (h : r.assembly.isAssembling = true) : r.essence = r := by
  rw [essence, if_pos h]

theorem essence_of_idle (h : r.assembly.inFlight = none) :
    r.essence = { r with assembly := r.assembly.recycle } := by
  rw [essence, if_neg (by simp [Assembly.isAssembling, h])]

theorem essence_reset (r : Receiver μ) : r.reset.essence = r.reset := essence_of_idle rfl

theorem reset_essence (r : Receiver μ) : r.essence.reset = r.reset := by
  cases h : r.assembly.isAssembling with
  | true => rw [essence_of_assembling h]
  | false =>
      rw [essence_of_idle (by simpa [Assembly.isAssembling] using h)]
      rfl

theorem prepare_essence (r : Receiver μ) (h : Header) :
    r.essence.assembly.prepare h = match r.assembly.prepare h with
      | (.ok (), assembly) => (.ok (), assembly)
      | (.error error, _) => (.error error, r.essence.assembly) := by
  cases hassembling : r.assembly.isAssembling with
  | true =>
      rw [essence_of_assembling hassembling]
      rcases hprepare : r.assembly.prepare h with ⟨error | _, assembly⟩
      · rw [Assembly.prepare_refused hprepare]
      · rfl
  | false =>
      rw [essence_of_idle (by simpa [Assembly.isAssembling] using hassembling)]
      exact r.assembly.prepare_recycle h

theorem start_essence (r : Receiver μ) (h : Header) :
    r.essence.assembly.start h = match r.assembly.start h with
      | (.ok (), assembly) => (.ok (), assembly)
      | (.error error, _) => (.error error, r.essence.assembly) := by
  cases hassembling : r.assembly.isAssembling with
  | true =>
      rw [essence_of_assembling hassembling]
      rcases hstart : r.assembly.start h with ⟨error | _, assembly⟩
      · rw [Assembly.start_refused hstart]
      · rfl
  | false =>
      rw [essence_of_idle (by simpa [Assembly.isAssembling] using hassembling)]
      exact r.assembly.start_recycle h

theorem slot_essence (r : Receiver μ) (h : Header) :
    r.essence.assembly.slot h = r.assembly.slot h := by
  rw [essence]
  split <;> rfl

/-- What the last payload left is overwritten as soon as a header asks for room. -/
theorem effect_onHeader_essence (registry : Registry μ) (h : Header) (r : Receiver μ) :
    (onHeader registry h).effect r.essence =
      match (onHeader registry h).effect r with
      | (.ok demand, r) => (.ok demand, r)
      | (.error halt, r) => (.error halt, r.essence) := by
  rw [effect_onHeader, effect_onHeader]
  dsimp only
  rw [prepare_essence, start_essence, slot_essence]
  cases hkind : h.kind with
  | error error => rfl
  | ok kind =>
      cases kind with
      | cancel =>
          have hreset := reset_essence { r with header := h }
          dsimp only
          rw [essence_reset, ← hreset]
          rfl
      | complete => rcases r.assembly.prepare h with ⟨error | _, assembly⟩ <;> rfl
      | versionVerification =>
          by_cases hdata : h.data = tableTypeId
          · simp only [if_pos hdata]
            rcases r.assembly.prepare h with ⟨error | _, assembly⟩ <;> rfl
          · simp only [if_neg hdata]
            rfl
      | sliceHeader => rcases r.assembly.start h with ⟨error | _, assembly⟩ <;> rfl
      | slice =>
          cases hslot : r.assembly.slot h with
          | error error => rfl
          | ok range =>
              have hflight : r.assembly.isAssembling = true := by
                cases hnone : r.assembly.inFlight with
                | none => simp [Assembly.slot, hnone] at hslot
                | some announced => simp [Assembly.isAssembling, hnone]
              simp only [essence_of_assembling hflight]

end Receiver

namespace StreamSession

def Gist.essence (g : Gist μ) : Gist μ := { g with receiver := g.receiver.essence }

/-- What calls to receive go by. -/
def essence (s : StreamSession μ) : Gist μ := s.gist.essence

theorem Gist.pull_essence (g : Gist μ) (n : Nat) :
    g.essence.pull n = ((g.pull n).1, (g.pull n).2.essence) := by
  cases hcourse : g.course with
  | none => simp only [pull, essence, hcourse]
  | some c => simp only [pull, essence, hcourse]

theorem goesBy_readHeader : Call.GoesBy essence .timeout (readHeader (μ := μ)) := by
  refine .of_spec (·.pull headerSize) fun {s t ended} hrun hquiet => ?_
  rw [essence, essence, Gist.pull_essence, ← readHeader_gist hrun hquiet]

theorem essence_reset_congr {s t : StreamSession μ} (h : s.essence = t.essence) :
    s.reset.essence = t.reset.essence := by
  simp only [essence, Gist.essence, gist, Gist.mk.injEq] at h ⊢
  obtain ⟨hregistry, hreceiver, hcourse⟩ := h
  refine ⟨hregistry, ?_, hcourse⟩
  have hreset := congrArg Receiver.reset hreceiver
  rw [Receiver.reset_essence, Receiver.reset_essence] at hreset
  exact congrArg Receiver.essence hreset

variable [Message μ]

theorem goesBy_receiveRest (registry : Registry μ) (flags : Flags) (h : Header) :
    Call.GoesBy essence .timeout (receiveRest registry flags h) := by
  intro s t s' t' ended ended' hessence hs ht hquiet hquiet'
  rw [receiveRest, Call.run_bind] at hs ht
  obtain ⟨log, hs₀⟩ := (Receiver.timeless_onHeader registry h).run_within
    (fun s : StreamSession μ => s.receiver) (fun r s => { s with receiver := r }) s
  obtain ⟨log', ht₀⟩ := (Receiver.timeless_onHeader registry h).run_within
    (fun s : StreamSession μ => s.receiver) (fun r s => { s with receiver := r }) t
  rw [onReceiver, hs₀] at hs
  rw [onReceiver, ht₀] at ht
  simp only [essence, Gist.essence, gist, Gist.mk.injEq] at hessence
  obtain ⟨hregistry, hreceiver, hcourse⟩ := hessence
  have hr := Receiver.effect_onHeader_essence registry h s.session.receiver
  rw [hreceiver, Receiver.effect_onHeader_essence] at hr
  cases heffect : (Receiver.onHeader registry h).effect s.session.receiver with
  | mk demanded r =>
      cases heffect' : (Receiver.onHeader registry h).effect t.session.receiver with
      | mk demanded' r' =>
          rw [heffect] at hs hr
          rw [heffect'] at ht hr
          cases demanded with
          | ok demand =>
              cases demanded' with
              | error halt => cases (Prod.mk.inj hr).1
              | ok demand' =>
                  obtain ⟨hdemand, rfl⟩ := Prod.mk.inj hr
                  obtain rfl := Except.ok.inj hdemand
                  -- From here on the two receivers are the same.
                  have hgist : (⟨s.session.registry, r', s.session.course⟩ : Gist μ) =
                      ⟨t.session.registry, r', t.session.course⟩ := by rw [hregistry, hcourse]
                  obtain ⟨hended, hlast⟩ := goesBy_receiveDemanded registry flags h demand'
                    (s := ⟨{ s.session with receiver := r' }, s.now, log⟩)
                    (t := ⟨{ t.session with receiver := r' }, t.now, log'⟩) hgist hs ht hquiet
                    hquiet'
                  exact ⟨hended, congrArg Gist.essence hlast⟩
          | error halt =>
              cases demanded' with
              | ok demand => cases (Prod.mk.inj hr).1
              | error halt' =>
                  obtain ⟨hhalt, hessence⟩ := Prod.mk.inj hr
                  obtain rfl := Except.error.inj hhalt
                  obtain ⟨rfl, rfl⟩ := Prod.mk.inj hs
                  obtain ⟨rfl, rfl⟩ := Prod.mk.inj ht
                  refine ⟨rfl, ?_⟩
                  simp only [essence, Gist.essence, gist, Gist.mk.injEq]
                  exact ⟨hregistry, hessence.symm, hcourse⟩

theorem goesBy_receiveFrame_essence (flags : Flags) :
    Call.GoesBy essence .timeout (receiveFrame (μ := μ) flags) :=
  goesBy_receiveFrame_of goesBy_readHeader (fun _ _ h => congrArg Gist.registry h)
    fun registry h => goesBy_receiveRest registry flags h

/-- As `goesBy_receive`, but what the last payload left in the memory of the receivers may
differ. -/
theorem goesBy_receive_essence (flags : Flags) :
    Call.GoesBy essence .timeout (receive (μ := μ) flags) :=
  goesBy_receive_of (goesBy_receiveFrame_essence flags) fun _ _ => essence_reset_congr

end StreamSession

end MessageChannel
