import MessageChannel.PeerTable
import MessageChannel.Proofs.MessagePackExtent

namespace MessageChannel

namespace MessagePack

theorem writeText_length (s : String) : (textBytes s).length ≤ (writeText s).length := by
  rw [writeText, List.length_append]
  exact Nat.le_add_left _ _

theorem encodeEntries_length_of_mem {e : Value × Value} {entries : List (Value × Value)}
    (h : e ∈ entries) : (encode e.2).length ≤ (encodeEntries entries).length := by
  induction entries with
  | nil => cases h
  | cons head entries ih =>
      simp only [encodeEntries, List.length_append]
      rcases List.mem_cons.1 h with rfl | h
      · omega
      · have := ih h
        omega

theorem length_le_encodeEntries {entries : List (Value × Value)}
    (h : ∀ e ∈ entries, encode e.1 ≠ []) : entries.length ≤ (encodeEntries entries).length := by
  induction entries with
  | nil => exact Nat.zero_le _
  | cons head entries ih =>
      have hhead := List.length_pos_iff.2 (h head List.mem_cons_self)
      have htail := ih fun e he => h e (List.mem_cons_of_mem _ he)
      simp only [encodeEntries, List.length_append, List.length_cons]
      omega

end MessagePack

namespace PeerTable

open MessagePack

theorem ext_entries {t u : PeerTable} (hversion : t.version = u.version)
    (hentries : t.entries = u.entries) : t = u := by
  cases t
  cases u
  simp_all

theorem idLt_asymm (a b : UInt32) (h : idLt a b) : ¬idLt b a := by
  simp only [idLt, decide_eq_true_eq] at h ⊢
  exact UInt32.lt_asymm h

theorem foldl_insert {t : PeerTable} {entries : List (UInt32 × String)}
    (h : OrderedEntries idLt (t.entries ++ entries)) :
    (entries.foldl (fun t (id, name) => t.insert id name) t).version = t.version ∧
      (entries.foldl (fun t (id, name) => t.insert id name) t).entries = t.entries ++ entries := by
  induction entries generalizing t with
  | nil => simp
  | cons entry entries ih =>
      obtain ⟨id, name⟩ := entry
      have hlast : (t.insert id name).entries = t.entries ++ [(id, name)] :=
        insertEntry_last idLt_asymm fun e he =>
          (List.pairwise_append.1 h).2.2 e he (id, name) List.mem_cons_self
      have hentries := @ih (t.insert id name) (by rw [hlast]; simpa using h)
      rw [List.foldl_cons, hentries.1, hentries.2, hlast]
      exact ⟨rfl, by simp⟩

theorem ofEntries_entries (t : PeerTable) : ofEntries t.version t.entries = t := by
  obtain ⟨hversion, hentries⟩ := @foldl_insert { version := t.version } t.entries
    (by simpa using t.ordered)
  exact ext_entries hversion hentries

theorem ofValue?_toValue (t : PeerTable) : ofValue? t.toValue = some t := by
  have hentries : (t.entries.map fun e => (Value.int e.1.toNat, Value.text e.2)).mapM
      entryOfValue? = some t.entries := by
    induction t.entries with
    | nil => rfl
    | cons entry entries ih => simp [ih, entryOfValue?]
  simp only [toValue, ofValue?, hentries, Option.map_some]
  rw [Int.toNat_natCast, UInt32.ofNat_toNat, ofEntries_entries]

/-- The table as a map of values, the second field of its form. -/
def valueEntries (t : PeerTable) : List (Value × Value) :=
  t.entries.map fun (id, name) => (.int id.toNat, .text name)

theorem encodeEntries_valueEntries (entries : List (UInt32 × String)) :
    encodeEntries (entries.map fun (id, name) => (.int id.toNat, .text name)) =
      entries.flatMap fun e => writeInt e.1.toNat ++ writeText e.2 := by
  induction entries with
  | nil => rfl
  | cons entry entries ih =>
      rw [List.map_cons, encodeEntries, ih, List.flatMap_cons]
      rfl

/-- The written form: a map of the two fields, the second a map from ids to names. -/
theorem encode_eq (t : PeerTable) :
    t.encode = mapMarkers.write 2 ++ (writeText versionField ++ writeInt t.version.toNat ++
      (writeText entriesField ++ (mapMarkers.write t.size ++
        t.entries.flatMap fun e => writeInt e.1.toNat ++ writeText e.2))) := by
  simp only [encode, toValue, MessagePack.encode, encodeFields, List.append_nil, List.length_map,
    encodeEntries_valueEntries]
  rfl

theorem encodeEntries_length (t : PeerTable) :
    (encodeEntries t.valueEntries).length ≤ t.encode.length := by
  rw [encode_eq, valueEntries, encodeEntries_valueEntries]
  simp only [List.length_append]
  omega

theorem valueEntries_ordered (t : PeerTable) : OrderedEntries Value.keyLt t.valueEntries := by
  refine List.pairwise_map.2 (t.ordered.imp ?_)
  intro a b h
  simp only [idLt, decide_eq_true_eq, UInt32.lt_iff_toNat_lt] at h
  simp only [Value.keyLt, decide_eq_true_eq]
  omega

theorem toValue_fits {t : PeerTable} (hsize : t.size < 2 ^ 32)
    (hnames : ∀ e ∈ t.entries, (textBytes e.2).length < 2 ^ 32) :
    Fits messageType.records maxDepth messageType.shape t.toValue := by
  have hkey : ∀ id : UInt32, IntKind.u32.Holds id.toNat := by
    intro id
    have hlt := id.toNat_lt
    exact ⟨Int.natCast_nonneg _, by simp only [IntKind.hi]; omega⟩
  have hmap : Fits messageType.records 1022 (.map (.int .u32) .text) (.map t.valueEntries) := by
    refine .map ?_ t.valueEntries_ordered ?_ ?_
    · rwa [valueEntries, List.length_map]
    · intro e he
      obtain ⟨entry, _, rfl⟩ := List.mem_map.1 he
      exact .int (hkey entry.1)
    · intro e he
      obtain ⟨entry, hentry, rfl⟩ := List.mem_map.1 he
      exact .text (hnames entry hentry)
  refine .record rfl (by simp) rfl (by decide) (by decide +kernel) ?_
  intro p hp
  simp only [List.zip_cons_cons, List.zip_nil_left, List.mem_cons, List.not_mem_nil,
    or_false] at hp
  rcases hp with rfl | rfl
  · exact .int (hkey t.version)
  · exact hmap

theorem restored_toValue (t : PeerTable) : t.toValue.restored = t.toValue := by
  have hentries : Value.restoredEntries t.valueEntries = t.valueEntries := by
    rw [Value.restoredEntries_eq_map, valueEntries, List.map_map]
    rfl
  rw [toValue, Value.restored]
  exact congrArg (fun entries => Value.record
    [(versionField, .int t.version.toNat), (entriesField, .map entries)]) hentries

theorem decode_append {t : PeerTable} (hsize : t.size < 2 ^ 32)
    (hnames : ∀ e ∈ t.entries, (textBytes e.2).length < 2 ^ 32) (rest : List UInt8) :
    decode (t.encode ++ rest) = .ok t := by
  rw [decode, MessagePack.decode?, encode, (toValue_fits hsize hnames).reads]
  simp [restored_toValue, ofValue?_toValue]

theorem decode_of_proper_prefix {t : PeerTable} (hsize : t.size < 2 ^ 32)
    (hnames : ∀ e ∈ t.entries, (textBytes e.2).length < 2 ^ 32) {front : List UInt8}
    (hfront : front <+: t.encode) (hne : front ≠ t.encode) :
    decode front = .error (.invalidData (.malformed .messagePack)) := by
  rw [decode, decode?_of_proper_prefix (toValue_fits hsize hnames) hfront hne]
  rfl

/-- A peer reads the table that was written, whatever follows it. -/
theorem decode_encode_append {t : PeerTable} (h : t.encode.length < 2 ^ 32) (rest : List UInt8) :
    decode (t.encode ++ rest) = .ok t := by
  have hencoded := Nat.lt_of_le_of_lt t.encodeEntries_length h
  have hsize : t.size < 2 ^ 32 := by
    have hle := @length_le_encodeEntries t.valueEntries ?_
    · simp only [valueEntries, List.length_map] at hle
      exact Nat.lt_of_le_of_lt hle hencoded
    · intro e he
      obtain ⟨entry, _, rfl⟩ := List.mem_map.1 he
      exact writeInt_ne_nil _
  have hnames : ∀ e ∈ t.entries, (textBytes e.2).length < 2 ^ 32 := by
    intro e he
    have hmem : (Value.int e.1.toNat, Value.text e.2) ∈ t.valueEntries :=
      List.mem_map_of_mem he
    have hle := encodeEntries_length_of_mem hmem
    have htext := writeText_length e.2
    simp only [MessagePack.encode] at hle
    omega
  exact decode_append hsize hnames rest

theorem decode_encode {t : PeerTable} (h : t.encode.length < 2 ^ 32) :
    decode t.encode = .ok t := by
  simpa using decode_encode_append h []

/-- A table's written form is read as the table whatever follows it. Cut short anywhere, it is no
table. -/
theorem encode_selfDelimiting (t : PeerTable) (hsize : t.size < 2 ^ 32)
    (hnames : ∀ e ∈ t.entries, (textBytes e.2).length < 2 ^ 32) :
    t.encode = mapMarkers.write 2 ++ (writeText versionField ++ writeInt t.version.toNat ++
        (writeText entriesField ++ (mapMarkers.write t.size ++
          t.entries.flatMap fun e => writeInt e.1.toNat ++ writeText e.2))) ∧
      (∀ junk, decode (t.encode ++ junk) = .ok t) ∧
      ∀ front, front <+: t.encode → front ≠ t.encode →
        decode front = .error (.invalidData (.malformed .messagePack)) :=
  ⟨encode_eq t, decode_append hsize hnames,
    fun _ hfront hne => decode_of_proper_prefix hsize hnames hfront hne⟩

/-- Ids and lengths on both sides of the places where the forms change. -/
def boundaryTable : PeerTable :=
  ofEntries 0x10000 [(0x7f, "thirty-one characters, no more."), (0x80, "and thirty-two of them, one more"),
    (0xffff, "é")]

theorem encode_selfDelimiting_boundary :
    boundaryTable.size < 2 ^ 32 ∧
      (∀ e ∈ boundaryTable.entries, (textBytes e.2).length < 2 ^ 32) ∧
      decode (boundaryTable.encode ++ [0xc1, 0x00]) = .ok boundaryTable ∧
      decode (boundaryTable.encode.take 80) = .error (.invalidData (.malformed .messagePack)) := by
  have hsize : boundaryTable.size < 2 ^ 32 := by decide
  have hnames : ∀ e ∈ boundaryTable.entries, (textBytes e.2).length < 2 ^ 32 := by decide +kernel
  obtain ⟨-, hwhole, hcut⟩ := encode_selfDelimiting boundaryTable hsize hnames
  have hshort : boundaryTable.encode.take 80 ≠ boundaryTable.encode := by decide +kernel
  exact ⟨hsize, hnames, hwhole _, hcut _ (List.take_prefix 80 _) hshort⟩

end PeerTable

end MessageChannel
