import MessageChannel.Header

namespace MessageChannel

/-- A header and the bytes that travel with it. -/
structure Frame where
  header : Header
  payload : List UInt8 := []
deriving DecidableEq, Repr

namespace Frame

def encode (f : Frame) : List UInt8 := f.header.encode ++ f.payload

def pieces (f : Frame) : List (List UInt8) :=
  if f.payload.isEmpty then [f.header.encode] else [f.header.encode, f.payload]

/-- The number of bytes that follow a header: slice headers and cancel frames carry none. -/
def payloadSize (h : Header) : Nat :=
  match FrameKind.ofCode? h.code with
  | some .sliceHeader | some .cancel => 0
  | _ => h.length.toNat

def split? (bytes : List UInt8) : Option (Frame × List UInt8) := do
  let header ← Header.decode? bytes
  let (payload, rest) ← splitExactly? (payloadSize header) (bytes.drop headerSize)
  return (⟨header, payload⟩, rest)

theorem length_of_split? {bytes rest : List UInt8} {f : Frame}
    (h : split? bytes = some (f, rest)) : rest.length < bytes.length := by
  simp only [split?, Option.bind_eq_bind, Option.bind_eq_some_iff] at h
  obtain ⟨header, hheader, ⟨payload, rest'⟩, hsplit, hpure⟩ := h
  simp only [Option.pure_def, Option.some.injEq, Prod.mk.injEq] at hpure
  obtain ⟨-, rfl⟩ := hpure
  obtain ⟨hdrop, -⟩ := splitExactly?_eq_some_iff.1 hsplit
  have hlen := congrArg List.length hdrop
  have hne : bytes ≠ [] := by
    rintro rfl
    simp [Header.decode?, splitExactly?] at hheader
  have hpos := List.length_pos_iff.2 hne
  simp only [List.length_drop, List.length_append, headerSize] at hlen
  omega

/-- The whole frames at the front of some bytes, and what forms no whole frame after them. -/
def splitAll (bytes : List UInt8) : List Frame × List UInt8 :=
  match h : split? bytes with
  | none => ([], bytes)
  | some (f, rest) =>
      have := length_of_split? h
      let (fs, rest) := splitAll rest
      (f :: fs, rest)
termination_by bytes.length

end Frame

end MessageChannel
