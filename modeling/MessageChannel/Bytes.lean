namespace MessageChannel

/-- The last `width` base-256 digits of a number, most significant first. -/
def bigEndian : Nat → Nat → List UInt8
  | 0, _ => []
  | width + 1, n => UInt8.ofNat (n >>> (8 * width)) :: bigEndian width n

def ofBigEndian (bytes : List UInt8) : Nat :=
  bytes.foldl (fun n b => 256 * n + b.toNat) 0

def splitExactly? (n : Nat) (bytes : List UInt8) : Option (List UInt8 × List UInt8) :=
  let front := bytes.take n
  if front.length = n then some (front, bytes.drop n) else none

def textBytes (s : String) : List UInt8 := s.toUTF8.toList

def textOfBytes? (bytes : List UInt8) : Option String := String.fromUTF8? bytes.toByteArray

theorem length_bigEndian (width n : Nat) : (bigEndian width n).length = width := by
  induction width with
  | zero => rfl
  | succ width ih => simp [bigEndian, ih]

theorem splitExactly?_append (front rest : List UInt8) :
    splitExactly? front.length (front ++ rest) = some (front, rest) := by
  simp [splitExactly?]

theorem splitExactly?_eq_some_iff {n : Nat} {bytes front rest : List UInt8} :
    splitExactly? n bytes = some (front, rest) ↔ bytes = front ++ rest ∧ front.length = n := by
  constructor
  · intro h
    simp only [splitExactly?] at h
    split at h
    · next hn =>
      simp only [Option.some.injEq, Prod.mk.injEq] at h
      obtain ⟨rfl, rfl⟩ := h
      exact ⟨(List.take_append_drop n bytes).symm, hn⟩
    · simp at h
  · rintro ⟨rfl, rfl⟩
    exact splitExactly?_append front rest

theorem splitExactly?_eq_none_iff {n : Nat} {bytes : List UInt8} :
    splitExactly? n bytes = none ↔ bytes.length < n := by
  simp only [splitExactly?, List.length_take]
  split <;> simp <;> omega

end MessageChannel
