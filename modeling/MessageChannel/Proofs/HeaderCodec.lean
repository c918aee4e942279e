import MessageChannel.Proofs.FrameCodec
import Mathlib.Logic.Function.Basic

namespace MessageChannel.Header

theorem decode?_isSome_iff {bytes : List UInt8} :
    (decode? bytes).isSome ↔ headerSize ≤ bytes.length := by
  rw [← Nat.not_lt, ← decode?_eq_none_iff, Option.isSome_iff_ne_none]

theorem encode_decode? {bytes : List UInt8} {h : Header} (hdecode : decode? bytes = some h) :
    h.encode = bytes.take headerSize := by
  obtain ⟨rest, rfl⟩ := decode?_eq_some_iff.1 hdecode
  rw [← h.length_encode, List.take_left]

theorem bijective_encode : Function.Bijective fun h : Header =>
    (⟨h.encode, h.length_encode⟩ : { bytes : List UInt8 // bytes.length = headerSize }) := by
  constructor
  · intro g h heq
    have hencode : g.encode ++ [] = h.encode ++ [] := congrArg (·.val ++ []) heq
    exact (encode_append_inj hencode).1
  · rintro ⟨bytes, hlength⟩
    obtain ⟨h, rfl⟩ := exists_encode_eq hlength
    exact ⟨h, rfl⟩

theorem parse_eq_ok_iff {bytes : List UInt8} {h : Header} :
    parse bytes = .ok h ↔ decode? bytes = some h := by
  rw [parse]
  cases decode? bytes <;> simp

theorem parse_eq_error_iff {bytes : List UInt8} {error : ChannelError} :
    parse bytes = .error error ↔
      bytes.length < headerSize ∧ error = .invalidHeader (.short bytes.length) := by
  rw [parse, ← decode?_eq_none_iff]
  cases decode? bytes <;> simp [eq_comm]

theorem encodeInto?_eq_none_iff {h : Header} {buffer : List UInt8} :
    h.encodeInto? buffer = none ↔ buffer.length < headerSize := by
  rw [encodeInto?, Option.map_eq_none_iff, splitExactly?_eq_none_iff]

/-- A header goes over the first ten bytes of a buffer and leaves all others alone. -/
theorem encodeInto?_eq_some_iff {h : Header} {buffer after : List UInt8} :
    h.encodeInto? buffer = some after ↔
      after.length = buffer.length ∧ decode? after = some h ∧
        ∀ i, headerSize ≤ i → after[i]? = buffer[i]? := by
  rw [encodeInto?, Option.map_eq_some_iff]
  constructor
  · rintro ⟨⟨front, rest⟩, hsplit, rfl⟩
    obtain ⟨rfl, hfront⟩ := splitExactly?_eq_some_iff.1 hsplit
    refine ⟨?_, decode?_encode_append h rest, fun i hi => ?_⟩
    · rw [List.length_append, List.length_append, length_encode, hfront]
    · rw [List.getElem?_append_right (by rwa [length_encode]),
        List.getElem?_append_right (by rwa [hfront]), length_encode, hfront]
  · rintro ⟨hlength, hdecode, hbehind⟩
    obtain ⟨rest, rfl⟩ := decode?_eq_some_iff.1 hdecode
    rw [List.length_append, length_encode] at hlength
    have hfront : (buffer.take headerSize).length = headerSize := by
      rw [List.length_take]
      omega
    have hrest : rest = buffer.drop headerSize := by
      apply List.ext_getElem?
      intro i
      have hi := hbehind (headerSize + i) (Nat.le_add_right _ _)
      rw [List.getElem?_append_right (by rw [length_encode]; exact Nat.le_add_right _ _),
        length_encode, Nat.add_sub_cancel_left] at hi
      rw [hi, List.getElem?_drop]
    exact ⟨(buffer.take headerSize, rest),
      splitExactly?_eq_some_iff.2 ⟨by rw [hrest, List.take_append_drop], hfront⟩, rfl⟩

theorem offset_slice_toNat (length offset : UInt32) :
    (slice length offset).offset = offset.toNat := by
  simpa using offset_slice length offset.toNat_lt

/-- Headers of any kind, known or not, are the strings of ten bytes. Reading takes the first ten
bytes of what is there, and writing changes no byte behind them. -/
theorem codec_bijective :
    (Function.Bijective fun h : Header =>
        (⟨h.encode, h.length_encode⟩ : { bytes : List UInt8 // bytes.length = headerSize })) ∧
      (∀ (h : Header) (rest : List UInt8), decode? (h.encode ++ rest) = some h) ∧
      (∀ bytes : List UInt8, headerSize ≤ bytes.length →
        ∃ h, decode? bytes = some h ∧ parse bytes = .ok h ∧ h.encode = bytes.take headerSize) ∧
      (∀ bytes : List UInt8, decode? bytes = none ↔ bytes.length < headerSize) ∧
      (∀ (bytes : List UInt8) (error : ChannelError), parse bytes = .error error ↔
        bytes.length < headerSize ∧ error = .invalidHeader (.short bytes.length)) ∧
      (∀ (h : Header) (buffer : List UInt8),
        h.encodeInto? buffer = none ↔ buffer.length < headerSize) ∧
      (∀ (h : Header) (buffer after : List UInt8), h.encodeInto? buffer = some after ↔
        after.length = buffer.length ∧ decode? after = some h ∧
          ∀ i, headerSize ≤ i → after[i]? = buffer[i]?) ∧
      ∀ (length offset : UInt32) (rest : List UInt8),
        ∃ h, decode? ((slice length offset).encode ++ rest) = some h ∧ h.offset = offset.toNat := by
  refine ⟨bijective_encode, decode?_encode_append, fun bytes hlong => ?_,
    fun _ => decode?_eq_none_iff, fun _ _ => parse_eq_error_iff,
    fun _ _ => encodeInto?_eq_none_iff, fun _ _ _ => encodeInto?_eq_some_iff,
    fun length offset rest => ?_⟩
  · obtain ⟨h, hdecode⟩ := Option.isSome_iff_exists.1 (decode?_isSome_iff.2 hlong)
    exact ⟨h, hdecode, parse_eq_ok_iff.2 hdecode, encode_decode? hdecode⟩
  · exact ⟨_, decode?_encode_append _ rest, offset_slice_toNat length offset⟩

/-- An unknown kind, an offset that is negative as a signed number, a byte behind the header. -/
theorem codec_bijective_pastSigned :
    (∃ h, decode? [0, 0, 0, 5, 0xff, 0, 0, 0, 0x12, 0x34, 7] = some h ∧
        h.encode = [0, 0, 0, 5, 0xff, 0, 0, 0, 0x12, 0x34]) ∧
      (slice 5 0xff000000).data < 0 ∧
      (∃ h, decode? ((slice 5 0xff000000).encode ++ [7]) = some h ∧ h.offset = 0xff000000) ∧
      decode? [0, 0, 0, 5, 0xff, 0, 0, 0, 0x12] = none := by
  obtain ⟨-, -, hread, hshort, -, -, -, hoffset⟩ := codec_bijective
  obtain ⟨h, hdecode, -, hencode⟩ :=
    hread [0, 0, 0, 5, 0xff, 0, 0, 0, 0x12, 0x34, 7] (by decide)
  exact ⟨⟨h, hdecode, hencode⟩, by decide, hoffset 5 0xff000000 [7], (hshort _).2 (by decide)⟩

end MessageChannel.Header
