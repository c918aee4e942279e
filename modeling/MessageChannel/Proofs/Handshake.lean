import MessageChannel.Proofs.Standing

namespace MessageChannel

/-- What a list that ends with the other has in front of it. -/
def frontOf {α : Type} (whole rest : List α) : List α := whole.take (whole.length - rest.length)

theorem frontOf_append {α : Type} (front rest : List α) : frontOf (front ++ rest) rest = front := by
  rw [frontOf, List.length_append, Nat.add_sub_cancel, List.take_left]

namespace Frame

/-- A frame with a table of types that a receiver with this limit takes over, of whatever version
the table is. -/
structure Tells (limit : UInt32) (f : Frame) (table : PeerTable) : Prop where
  carries : f.Carries .versionVerification
  data : f.header.data = tableTypeId
  fits : f.header.length ≤ limit
  decode : PeerTable.decode f.payload = .ok table

/-- The table that a whole frame tells. -/
def table? (limit : UInt32) (f : Frame) : Option PeerTable :=
  match f.header.kind with
  | .ok .versionVerification =>
      if f.header.data = tableTypeId ∧ f.header.length ≤ limit then
        (PeerTable.decode f.payload).toOption
      else none
  | _ => none

variable {limit : UInt32} {table : PeerTable} {f : Frame} {bytes rest : List UInt8}

theorem table?_eq_some_iff : f.table? limit = some table ↔
    f.header.kind = .ok .versionVerification ∧ f.header.data = tableTypeId ∧
      f.header.length ≤ limit ∧ PeerTable.decode f.payload = .ok table := by
  rw [table?]
  split
  · next hkind =>
    split
    · next hhead =>
      cases hdecode : PeerTable.decode f.payload <;> simp [hkind, hhead, Except.toOption]
    · next hhead => exact iff_of_false (by simp) fun h => hhead ⟨h.2.1, h.2.2.1⟩
  · next hkind => exact iff_of_false (by simp) fun h => hkind h.1

theorem split?_eq_some_iff : split? bytes = some (f, rest) ↔
    bytes = f.encode ++ rest ∧ f.payload.length = payloadSize f.header := by
  constructor
  · intro h
    simp only [split?, Option.bind_eq_bind, Option.bind_eq_some_iff, Option.pure_def] at h
    obtain ⟨header, hdecode, ⟨payload, rest'⟩, hsplit, hpure⟩ := h
    obtain ⟨rfl, rfl⟩ := Prod.mk.inj (Option.some.inj hpure)
    obtain ⟨behind, rfl⟩ := Header.decode?_eq_some_iff.1 hdecode
    rw [List.drop_left' header.length_encode] at hsplit
    obtain ⟨rfl, hlength⟩ := splitExactly?_eq_some_iff.1 hsplit
    exact ⟨by rw [encode, List.append_assoc], hlength⟩
  · rintro ⟨rfl, hlength⟩
    have hdecode := Header.decode?_encode_append f.header (f.payload ++ rest)
    have hsplit := splitExactly?_eq_some_iff.2
      ⟨(rfl : f.payload ++ rest = f.payload ++ rest), hlength⟩
    simp only [split?, encode, List.append_assoc, hdecode, Option.bind_eq_bind, Option.bind_some,
      List.drop_left' f.header.length_encode, hsplit, Option.pure_def]

theorem Tells.split? (hf : f.Tells limit table) (rest : List UInt8) :
    Frame.split? (f.encode ++ rest) = some (f, rest) :=
  split?_eq_some_iff.2 ⟨rfl, hf.carries.length.trans (payloadSize_of_kind hf.carries.kind).symm⟩

theorem Tells.table? (hf : f.Tells limit table) : f.table? limit = some table :=
  table?_eq_some_iff.2 ⟨hf.carries.kind, hf.data, hf.fits, hf.decode⟩

/-- A whole frame at the front of some bytes tells a table just if the bytes begin with it. -/
theorem tells_of_split? (hsplit : split? bytes = some (f, rest))
    (htable : f.table? limit = some table) : f.Tells limit table ∧ bytes = f.encode ++ rest := by
  obtain ⟨rfl, hlength⟩ := split?_eq_some_iff.1 hsplit
  obtain ⟨hkind, hdata, hfits, hdecode⟩ := table?_eq_some_iff.1 htable
  exact ⟨⟨⟨hkind, hlength.trans (payloadSize_of_kind hkind)⟩, hdata, hfits, hdecode⟩, rfl⟩

end Frame

/-- The tables that frames tell, up to the first frame that tells none. -/
def leadingTables (limit : UInt32) : List Frame → List PeerTable
  | [] => []
  | f :: fs =>
      match f.table? limit with
      | some table => table :: leadingTables limit fs
      | none => []

/-- The tables that some bytes begin with, in whole frames one behind the other. -/
def toldTables (limit : UInt32) (bytes : List UInt8) : List PeerTable :=
  leadingTables limit (Frame.splitAll bytes).1

section

variable {limit : UInt32} {table last : PeerTable} {f : Frame} {fs : List Frame} {h : Header}
  {bytes : List UInt8}

theorem toldTables_of_tells (hf : f.Tells limit table) (rest : List UInt8) :
    toldTables limit (f.encode ++ rest) = table :: toldTables limit rest := by
  rw [toldTables, Frame.splitAll]
  split
  · next hsplit => simp [hf.split? rest] at hsplit
  · next f' rest' hsplit =>
    rw [hf.split? rest] at hsplit
    obtain ⟨rfl, rfl⟩ := Prod.mk.inj (Option.some.inj hsplit)
    simp only [leadingTables, hf.table?, toldTables]

theorem toldTables_eq_nil
    (h : ∀ f table rest, Frame.Tells limit f table → bytes ≠ f.encode ++ rest) :
    toldTables limit bytes = [] := by
  rw [toldTables, Frame.splitAll]
  split
  · rfl
  · next f rest hsplit =>
    dsimp only
    rw [leadingTables]
    split
    · next table htable =>
      obtain ⟨hf, rfl⟩ := Frame.tells_of_split? hsplit htable
      exact absurd rfl (h f table rest hf)
    · rfl

theorem toldTables_of_short (hshort : bytes.length < headerSize) :
    toldTables limit bytes = [] := by
  refine toldTables_eq_nil fun f table rest hf hbytes => ?_
  rw [hbytes, List.length_append, f.length_encode] at hshort
  omega

theorem toldTables_of_kind (hkind : h.kind ≠ .ok .versionVerification) (bytes : List UInt8) :
    toldTables limit (h.encode ++ bytes) = [] := by
  refine toldTables_eq_nil fun f table rest hf hbytes => hkind ?_
  rw [Frame.encode, List.append_assoc] at hbytes
  rw [(Header.encode_append_inj hbytes).1, hf.carries.kind]

/-- A header that no table comes behind: of the old form, of a table that is too large, cut short,
or one that cannot be decoded. -/
def Header.Refused (limit : UInt32) (h : Header) (bytes : List UInt8) : Prop :=
  h.data ≠ tableTypeId ∨ limit < h.length ∨ bytes.length < h.length.toNat ∨
    ∃ error, PeerTable.decode (bytes.take h.length.toNat) = .error error

theorem Header.Refused.toldTables (hrefused : h.Refused limit bytes) :
    toldTables limit (h.encode ++ bytes) = [] := by
  refine toldTables_eq_nil fun f table rest hf hbytes => ?_
  rw [Frame.encode, List.append_assoc] at hbytes
  obtain ⟨rfl, rfl⟩ := Header.encode_append_inj hbytes
  rcases hrefused with hdata | hlarge | hshort | ⟨error, hdecode⟩
  · exact hdata hf.data
  · exact UInt32.not_lt.2 hf.fits hlarge
  · rw [List.length_append, hf.carries.length] at hshort
    omega
  · rw [← hf.carries.length, List.take_left, hf.decode] at hdecode
    cases hdecode

/-- No table is told where a frame of another kind begins, or one that is refused. -/
theorem toldTables_of_header
    (hrefused : h.kind = .ok .versionVerification → h.Refused limit bytes) :
    toldTables limit (h.encode ++ bytes) = [] := by
  by_cases hkind : h.kind = .ok .versionVerification
  · exact (hrefused hkind).toldTables
  · exact toldTables_of_kind hkind bytes

/-- Of the tables that a stream begins with, the last is the one that a receiver goes by. -/
theorem Tables.getLast?_toldTables (h : Tables limit table fs last)
    (hbytes : toldTables limit bytes = []) :
    (toldTables limit (wire fs ++ bytes)).getLast?.getD table = last := by
  induction h with
  | none table => rw [wire_nil, List.nil_append, hbytes]; rfl
  | next hf hdata hfits hdecode hrest ih =>
      rw [wire_cons, List.append_assoc, toldTables_of_tells ⟨hf, hdata, hfits, hdecode⟩,
        List.getLast?_cons, Option.getD_some]
      exact ih

end

end MessageChannel
