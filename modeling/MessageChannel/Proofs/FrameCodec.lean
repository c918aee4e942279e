import MessageChannel.Frame
import MessageChannel.Proofs.BigEndian

namespace MessageChannel

namespace Header

theorem decode?_encode_append (h : Header) (rest : List UInt8) :
    decode? (h.encode ++ rest) = some h := by
  have hlength := h.length.toNat_lt
  have hdata := h.data.toUInt32.toNat_lt
  have hcode := h.code.toNat_lt
  simp only [encode, decode?, List.append_assoc, splitExactly?_bigEndian, ofBigEndian_bigEndian,
    Option.bind_eq_bind, Option.bind_some, Option.pure_def]
  rw [Nat.mod_eq_of_lt (by omega), Nat.mod_eq_of_lt (by omega), Nat.mod_eq_of_lt (by omega)]
  simp

/-- Ten bytes are a header, whatever they are, and no other header is written as they are. -/
theorem decode?_eq_some_iff {bytes : List UInt8} {h : Header} :
    decode? bytes = some h ↔ ∃ rest, bytes = h.encode ++ rest := by
  constructor
  · intro hdecode
    simp only [decode?, Option.bind_eq_bind, Option.bind_eq_some_iff, Option.pure_def,
      Option.some.injEq] at hdecode
    obtain ⟨⟨length, bytes₁⟩, hlength, ⟨data, bytes₂⟩, hdata, ⟨code, rest⟩, hcode, rfl⟩ := hdecode
    obtain ⟨rfl, hlen₁⟩ := splitExactly?_eq_some_iff.1 hlength
    obtain ⟨rfl, hlen₂⟩ := splitExactly?_eq_some_iff.1 hdata
    obtain ⟨rfl, hlen₃⟩ := splitExactly?_eq_some_iff.1 hcode
    have hlt₁ := ofBigEndian_lt_of_length hlen₁
    have hlt₂ := ofBigEndian_lt_of_length hlen₂
    have hlt₃ := ofBigEndian_lt_of_length hlen₃
    refine ⟨rest, ?_⟩
    simp only [encode, UInt32.toUInt32_toInt32, UInt32.toNat_ofNat',
      UInt16.toNat_ofNat']
    rw [Nat.mod_eq_of_lt (by omega), Nat.mod_eq_of_lt (by omega), Nat.mod_eq_of_lt (by omega),
      bigEndian_ofBigEndian_of_length hlen₁, bigEndian_ofBigEndian_of_length hlen₂,
      bigEndian_ofBigEndian_of_length hlen₃]
    simp
  · rintro ⟨rest, rfl⟩
    exact decode?_encode_append h rest

theorem decode?_eq_none_iff {bytes : List UInt8} :
    decode? bytes = none ↔ bytes.length < headerSize := by
  constructor
  · intro hnone
    apply Nat.lt_of_not_le
    intro hlong
    simp only [headerSize] at hlong
    obtain ⟨h, hsome⟩ : ∃ h, decode? bytes = some h := by
      simp only [decode?, splitExactly?, List.length_take]
      rw [if_pos (by omega)]
      simp only [Option.bind_eq_bind, Option.bind_some, List.length_drop]
      rw [if_pos (by omega)]
      simp only [Option.bind_some, List.length_drop]
      rw [if_pos (by omega)]
      exact ⟨_, rfl⟩
    simp [hsome] at hnone
  · intro hshort
    cases hdecode : decode? bytes with
    | none => rfl
    | some h =>
        obtain ⟨rest, rfl⟩ := decode?_eq_some_iff.1 hdecode
        simp only [List.length_append, length_encode] at hshort
        omega

theorem encode_append_inj {g h : Header} {a b : List UInt8} (he : g.encode ++ a = h.encode ++ b) :
    g = h ∧ a = b := by
  have hg := decode?_encode_append g a
  rw [he, decode?_encode_append] at hg
  obtain rfl := Option.some.inj hg
  exact ⟨rfl, List.append_cancel_left he⟩

theorem parse_encode (h : Header) : parse h.encode = .ok h := by
  have hdecode := decode?_encode_append h []
  rw [List.append_nil] at hdecode
  rw [parse, hdecode]

/-- All strings of ten bytes are headers. -/
theorem exists_encode_eq {bytes : List UInt8} (hlength : bytes.length = headerSize) :
    ∃ h : Header, bytes = h.encode := by
  cases hdecode : decode? bytes with
  | none =>
      have := decode?_eq_none_iff.1 hdecode
      omega
  | some h =>
      obtain ⟨rest, rfl⟩ := decode?_eq_some_iff.1 hdecode
      rw [List.length_append, length_encode] at hlength
      obtain rfl := List.length_eq_zero_iff.1 (show rest.length = 0 by omega)
      exact ⟨h, List.append_nil _⟩

/-- An offset of four bytes survives the signed field that it travels in. -/
theorem offset_slice (length : UInt32) {offset : Nat} (h : offset < 2 ^ 32) :
    (slice length offset.toUInt32).offset = offset := by
  simp only [slice, ofKind, Header.offset]
  simpa using h

theorem kind_ofKind (kind : FrameKind) (length : UInt32) (data : Int32) :
    (ofKind kind length data).kind = .ok kind := by
  simp [Header.kind, ofKind]

end Header

namespace Frame

theorem flatten_pieces (f : Frame) : f.pieces.flatten = f.encode := by
  cases hpayload : f.payload <;> simp [pieces, encode, hpayload]

theorem payloadSize_of_kind {h : Header} {kind : FrameKind} (hkind : h.kind = .ok kind) :
    payloadSize h = match kind with
      | .sliceHeader | .cancel => 0
      | _ => h.length.toNat := by
  rw [Header.kind] at hkind
  cases hcode : FrameKind.ofCode? h.code with
  | none => simp [hcode] at hkind
  | some kind' =>
      obtain rfl : kind' = kind := by simpa [hcode] using hkind
      rw [payloadSize, hcode]
      cases kind' <;> rfl

theorem length_encode (f : Frame) : f.encode.length = headerSize + f.payload.length := by
  rw [encode, List.length_append, Header.length_encode]

/-- The bytes of a frame: its length, its data and its kind, most significant byte first, and its
payload. -/
theorem encode_ofKind (kind : FrameKind) (length : Nat) (data : Int32) (payload : List UInt8) :
    (⟨.ofKind kind length.toUInt32 data, payload⟩ : Frame).encode =
      bigEndian 4 length ++ bigEndian 4 data.toUInt32.toNat ++ bigEndian 2 kind.code.toNat ++
        payload := by
  rw [encode, Header.encode, Header.ofKind, bigEndian_toUInt32]

end Frame

/-- Frames as they stand on a stream, one behind the other. -/
def wire (fs : List Frame) : List UInt8 := fs.flatMap Frame.encode

@[simp] theorem wire_nil : wire [] = [] := rfl

@[simp] theorem wire_cons (f : Frame) (fs : List Frame) :
    wire (f :: fs) = f.encode ++ wire fs := rfl

@[simp] theorem wire_append (fs gs : List Frame) : wire (fs ++ gs) = wire fs ++ wire gs :=
  List.flatMap_append

theorem wire_eq_nil_iff {fs : List Frame} : wire fs = [] ↔ fs = [] := by
  cases fs with
  | nil => simp
  | cons f fs =>
      have hlength := f.length_encode
      rw [wire_cons, List.append_eq_nil_iff]
      refine iff_of_false (fun h => ?_) (List.cons_ne_nil _ _)
      rw [h.1, headerSize, List.length_nil] at hlength
      omega

end MessageChannel
