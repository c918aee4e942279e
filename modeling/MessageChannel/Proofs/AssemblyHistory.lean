import MessageChannel.Proofs.Containment

namespace MessageChannel.Assembly

/-- A call on a payload, with the bytes that its caller writes into the region it is given. -/
inductive Operation where
  | prepare (h : Header) (bytes : List UInt8)
  | start (h : Header)
  | slot (h : Header) (bytes : List UInt8)
  | commit (length : Nat)
  | finish
  | take
  | recycle
  | clear
deriving DecidableEq, Repr

/-- Writes to the front of a region, if it lies within the payload. -/
def write? (a : Assembly) (r : SliceRange) (bytes : List UInt8) : Option Assembly :=
  (a.region? r).map fun region => a.fill r.offset (bytes.take region.length)

namespace Operation

/-- What a call leaves of a payload. Nothing is written into a region that is refused, and a call
that indexes outside the payload breaks down. -/
def run? (a : Assembly) : Operation → Option Assembly
  | prepare h bytes => match a.prepare h with
      | (.ok (), b) => b.write? ⟨0, b.size⟩ bytes
      | (.error _, b) => some b
  | start h => some (a.start h).2
  | slot h bytes => match a.slot h with
      | .ok r => a.write? r bytes
      | .error _ => some a
  | commit length => some (a.commit length)
  | finish => some a.finish
  | take => some a.take.2
  | recycle => some a.recycle
  | clear => some a.clear

/-- No vector is handed back amid the bytes of a message. -/
def spares (a : Assembly) : Operation → Bool
  | recycle => a.inFlight.all (·.total == 0)
  | _ => true

end Operation

def runAll? (a : Assembly) : List Operation → Option Assembly
  | [] => some a
  | op :: ops => (op.run? a).bind (runAll? · ops)

def undisturbed (a : Assembly) : List Operation → Bool
  | [] => true
  | op :: ops => op.spares a && (op.run? a).all (undisturbed · ops)

variable {a b : Assembly} {limit : UInt32} {r : SliceRange} {h : Header} {op : Operation}
  {ops : List Operation}

theorem runAll?_append (a : Assembly) (ops more : List Operation) :
    a.runAll? (ops ++ more) = (a.runAll? ops).bind (runAll? · more) := by
  induction ops generalizing a with
  | nil => rfl
  | cons op ops ih =>
      rw [List.cons_append, runAll?, runAll?]
      cases op.run? a with
      | none => rfl
      | some b => exact ih b

theorem region?_of_within (hwithin : r.stop ≤ a.size) :
    ∃ region, a.region? r = some region ∧ region.length = r.length := by
  refine ⟨_, if_pos hwithin, ?_⟩
  rw [SliceRange.stop] at hwithin
  simp only [Array.length_toList, Array.size_extract, size_payload, SliceRange.stop]
  omega

theorem region?_eq_none_iff : a.region? r = none ↔ a.size < r.stop := by
  rw [region?]
  split <;> simp <;> omega

theorem write?_of_within (hwithin : r.stop ≤ a.size) (bytes : List UInt8) :
    a.write? r bytes = some (a.fill r.offset (bytes.take r.length)) := by
  obtain ⟨region, hregion, hlength⟩ := region?_of_within hwithin
  rw [write?, hregion, ← hlength]
  rfl

theorem Contained.slot_within (ha : a.Contained limit) (hslot : a.slot h = .ok r) :
    r.stop ≤ a.size ∧ r.length = h.length.toNat := by
  obtain ⟨announced, hflight, hwithin, rfl⟩ := slot_eq_ok_iff.1 hslot
  rw [ha.announced announced hflight]
  exact ⟨hwithin, rfl⟩

theorem Contained.fill (ha : a.Contained limit) (offset : Nat) (bytes : List UInt8) :
    (a.fill offset bytes).Contained limit := ⟨ha.limit_eq, ha.fits, ha.announced⟩

theorem Contained.prepare (ha : a.Contained limit) (hprepare : a.prepare h = (.ok (), b)) :
    b.Contained limit := by
  obtain ⟨hidle, hfits, rfl⟩ := prepare_eq_ok_iff.1 hprepare
  rw [ha.limit_eq] at hfits
  exact ⟨ha.limit_eq, UInt32.le_iff_toNat_le.1 hfits, by simp [hidle]⟩

theorem Contained.start (ha : a.Contained limit) (h : Header) : (a.start h).2.Contained limit := by
  rcases hstart : a.start h with ⟨error | _, b⟩
  · rw [start_refused hstart]
    exact ha
  · obtain ⟨hidle, hfits, rfl⟩ := start_eq_ok_iff.1 hstart
    rw [ha.limit_eq] at hfits
    refine ⟨ha.limit_eq, UInt32.le_iff_toNat_le.1 hfits, ?_⟩
    rintro announced ⟨⟩
    rfl

theorem contained_of_idle (hlimit : a.limit = limit) (hfits : a.size ≤ limit.toNat)
    (hidle : a.inFlight = none) : a.Contained limit := ⟨hlimit, hfits, by simp [hidle]⟩

/-- Only a vector that is handed back in the midst of a message can part a payload from the size
that was announced. -/
theorem Contained.operation (ha : a.Contained limit) (hspares : op.spares a = true) :
    ∃ b, op.run? a = some b ∧ b.Contained limit := by
  cases op with
  | prepare h bytes =>
      rw [Operation.run?]
      rcases hprepare : a.prepare h with ⟨error | _, b⟩
      · rw [prepare_refused hprepare]
        exact ⟨a, rfl, ha⟩
      · have hwithin : SliceRange.stop ⟨0, b.size⟩ ≤ b.size := Nat.le_of_eq (Nat.zero_add _)
        exact ⟨_, write?_of_within hwithin bytes, (ha.prepare hprepare).fill _ _⟩
  | start h => exact ⟨_, rfl, ha.start h⟩
  | slot h bytes =>
      rw [Operation.run?]
      cases hslot : a.slot h with
      | error error => exact ⟨a, rfl, ha⟩
      | ok r => exact ⟨_, write?_of_within (ha.slot_within hslot).1 bytes, ha.fill _ _⟩
  | commit length => exact ⟨_, rfl, ha.limit_eq, ha.fits, ha.announced⟩
  | finish => exact ⟨_, rfl, contained_of_idle ha.limit_eq ha.fits rfl⟩
  | take | clear => exact ⟨_, rfl, contained_of_idle ha.limit_eq (Nat.zero_le _) rfl⟩
  | recycle =>
      refine ⟨_, rfl, ha.limit_eq, Nat.zero_le _, fun announced hflight => ?_⟩
      have hflight : a.inFlight = some announced := hflight
      rw [Operation.spares, hflight, Option.all_some, beq_iff_eq] at hspares
      exact hspares.symm

theorem Contained.runAll? (ha : a.Contained limit) (hquiet : a.undisturbed ops = true) :
    ∃ b, a.runAll? ops = some b ∧ b.Contained limit := by
  induction ops generalizing a with
  | nil => exact ⟨a, rfl, ha⟩
  | cons op ops ih =>
      rw [undisturbed, Bool.and_eq_true] at hquiet
      obtain ⟨b, hrun, hb⟩ := ha.operation hquiet.1
      rw [hrun] at hquiet
      rw [Assembly.runAll?, hrun]
      exact ih hb hquiet.2

/-- As long as no vector is handed back amid the bytes of a message, a payload has the size that was
announced, and every slot is a region of it. One that is handed back there leaves neither. -/
theorem regions_granted (limit : UInt32) {ops : List Operation}
    (hquiet : ({ limit } : Assembly).undisturbed ops = true) :
    ∃ a, ({ limit } : Assembly).runAll? ops = some a ∧
      (∀ announced, a.inFlight = some announced → a.payload.size = announced.total) ∧
      (∀ h r, a.slot h = .ok r →
        ∃ region, a.region? r = some region ∧ region.length = h.length.toNat) ∧
      ∀ announced, a.inFlight = some announced → announced.total ≠ 0 →
        a.recycle.inFlight = some announced ∧ a.recycle.payload.size = 0 ∧
          ∀ h r, a.recycle.slot h = .ok r → (a.recycle.region? r = none ↔ 0 < r.stop) := by
  have hnew : ({ limit } : Assembly).Contained limit :=
    contained_of_idle rfl (Nat.zero_le _) rfl
  obtain ⟨a, hrun, ha⟩ := hnew.runAll? hquiet
  refine ⟨a, hrun, fun announced hflight => ?_, fun h r hslot => ?_,
    fun announced hflight hsome => ?_⟩
  · rw [size_payload, ha.announced announced hflight]
  · obtain ⟨hwithin, hlength⟩ := ha.slot_within hslot
    rw [← hlength]
    exact region?_of_within hwithin
  · refine ⟨hflight, size_payload _, fun h r hslot => ?_⟩
    exact region?_eq_none_iff

/-- A message that came whole is taken and its vector handed back before the next one is put
together, of two slices that overlap and one that leaves the payload. -/
def takingTurns : List Operation :=
  [.prepare (.complete 2 16) [7, 8], .take, .recycle, .start (.sliceHeader 4 16),
    .slot (.slice 3 0) [1, 2, 3], .commit 3, .slot (.slice 3 2) [4, 5, 6],
    .slot (.slice 2 1) [9, 9]]

theorem regions_granted_takingTurns : ∃ a, ({ limit := 16 } : Assembly).runAll? takingTurns =
    some a ∧ a.inFlight = some ⟨16, 4⟩ ∧ a.payload.size = 4 ∧ a.payload.toList = [1, 9, 9, 0] := by
  obtain ⟨a, hrun, hsize, -, -⟩ :=
    regions_granted 16 (by decide +kernel : undisturbed _ takingTurns = true)
  have hresult : ({ limit := 16 } : Assembly).runAll? takingTurns =
      some ⟨16, 4, [(1, [9, 9]), (0, [1, 2, 3])], some ⟨16, 4⟩, 3⟩ := by decide +kernel
  obtain rfl := Option.some.inj (hrun.symm.trans hresult)
  exact ⟨_, hrun, rfl, hsize _ rfl, by decide⟩

/-- A vector that was taken before is handed back between a slice header and its slices. The payload
that was announced is gone then, and a slice of it has its slot outside what is left. -/
theorem recycle_amid_slices : ∃ a,
    ({ limit := 16 } : Assembly).runAll? [.take, .start (.sliceHeader 4 16), .recycle] = some a ∧
      a.inFlight = some ⟨16, 4⟩ ∧ a.payload.size = 0 ∧ a.slot (.slice 4 0) = .ok ⟨0, 4⟩ ∧
      a.region? ⟨0, 4⟩ = none :=
  ⟨⟨16, 0, [], some ⟨16, 4⟩, 0⟩, by decide +kernel, rfl, rfl, rfl, by decide⟩

end MessageChannel.Assembly
