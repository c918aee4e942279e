import MessageChannel.Proofs.JsonContainers
import MessageChannel.Proofs.JsonNumbers

namespace MessageChannel.Json

section Containers

variable {records : List Schema} {depth : Nat} {shape : Shape}

/-- A container between the brackets `b` and `c` is read by what reads its items. -/
theorem legible_container {b c : UInt8} {inner : List UInt8} {value : Value}
    (hplain : shape.isOptional = false) (hform : encode? value = some (b :: (inner ++ [c])))
    (hscalar : ∀ rest, readScalar? shape (b :: rest) = none)
    (hread : ∀ rest, container? records (read records depth) shape (b :: (inner ++ c :: rest)) =
      some (value.restored, rest)) :
    Legible (read records (depth + 1) shape) value (b :: (inner ++ [c])) := by
  refine ⟨hform, fun rest _ => ?_⟩
  obtain ⟨head, tail, heq, hblank, -⟩ := exists_head_of_encode? hform
  obtain ⟨rfl, rfl⟩ := List.cons.inj heq
  rw [List.cons_append, List.append_assoc, List.singleton_append,
    read_container hplain hblank (hscalar _), hread]

theorem encodeItems?_bytes (bytes : List UInt8) :
    encodeItems? (bytes.map fun b => .int b.toNat) =
      some (bytes.flatMap fun b => 0x2c :: decimal b.toNat) := by
  induction bytes with
  | nil => rfl
  | cons b bytes ih =>
      simp [encodeItems?, encode?, writeInt_natCast, ih]

theorem filterMap_byte? (bytes : List UInt8) :
    (bytes.map fun b => Value.int b.toNat).filterMap Value.byte? = bytes := by
  induction bytes with
  | nil => rfl
  | cons b bytes ih => simp [Value.byte?, ih]

theorem legible_blob (bytes : List UInt8) :
    ∃ form, Legible (read records (depth + 1) .blob) (.blob bytes) form := by
  have hbytes : ∀ v ∈ bytes.map fun b => Value.int b.toNat,
      ∃ form, Legible (read records depth (.int .u8)) v form := by
    intro v hv
    obtain ⟨b, -, rfl⟩ := List.mem_map.1 hv
    have hlt := b.toNat_lt
    exact ⟨_, legible_int ⟨Int.natCast_nonneg _, by simp only [IntKind.hi]; omega⟩⟩
  obtain ⟨inner, hinner, hread⟩ := readArray_encodeItems? hbytes
  obtain rfl := Option.some.inj ((encodeItems?_bytes bytes).symm.trans hinner)
  have hsame : (bytes.map fun b => Value.int b.toNat).map Value.restored =
      bytes.map fun b => Value.int b.toNat := by
    rw [List.map_map]
    rfl
  refine ⟨0x5b :: ((bytes.flatMap fun b => 0x2c :: decimal b.toNat).drop 1 ++ [0x5d]),
    legible_container rfl rfl (fun rest => ?_) fun rest => ?_⟩
  · have hopen : after? [quoteMark] (0x5b :: rest) = none := after?_cons_ne (by decide)
    simp [readScalar?, hopen]
  · rw [container?, hread, hsame]
    simp only [filterMap_byte?, Option.bind_eq_bind, Option.bind_some, Option.pure_def,
      Value.restored]

theorem legible_list {item : Shape} {items : List Value}
    (hitems : ∀ v ∈ items, ∃ form, Legible (read records depth item) v form) :
    ∃ form, Legible (read records (depth + 1) (.list item)) (.list items) form := by
  obtain ⟨inner, hinner, hread⟩ := readArray_encodeItems? hitems
  refine ⟨0x5b :: (inner.drop 1 ++ [0x5d]), legible_container rfl ?_ (fun _ => rfl) fun rest => ?_⟩
  · rw [encode?, hinner]
    rfl
  · rw [container?, hread, Value.restored, Value.restoredItems_eq_map]
    rfl

theorem legible_map {key : KeyShape} {item : Shape} {entries : List (Value × Value)}
    (hordered : OrderedEntries Value.keyLt entries) (hkeys : ∀ e ∈ entries, KeyFits key e.1)
    (hitems : ∀ e ∈ entries, ∃ form, Legible (read records depth item) e.2 form) :
    ∃ form, Legible (read records (depth + 1) (.map key item)) (.map entries) form := by
  obtain ⟨inner, hinner, hmembers⟩ := members_encodeEntries? hkeys hitems [] hordered
  refine ⟨0x7b :: (inner.drop 1 ++ [0x7d]), legible_container rfl ?_ (fun _ => rfl) fun rest => ?_⟩
  · rw [encode?, hinner]
    rfl
  · rw [container?, hmembers.readObject, Value.restored, Value.restoredEntries_eq_map]
    rfl

theorem legible_record {index : Nat} {schema : Schema} {fields : List (String × Value)}
    (hschema : records[index]? = some schema)
    (hnames : fields.map Prod.fst = schema.map Field.name)
    (hdistinct : (schema.map Field.name).Nodup)
    (hfields : ∀ p ∈ schema.zip fields, ∃ form,
      Legible (read records depth p.1.shape) p.2.2 form) :
    ∃ form, Legible (read records (depth + 1) (.record index)) (.record fields) form := by
  obtain ⟨inner, hinner, hmembers⟩ :=
    @members_encodeFields? (read records depth) [] schema fields []
    hnames hdistinct hfields rfl
  simp only [List.map_nil, List.nil_append] at hmembers
  refine ⟨0x7b :: (inner.drop 1 ++ [0x7d]), legible_container rfl ?_ (fun _ => rfl) fun rest => ?_⟩
  · rw [encode?, hinner]
    rfl
  · simp only [container?, hschema, hmembers.readObject, Schema.close?_map_restored hnames,
      Option.bind_eq_bind, Option.bind_some, Option.pure_def, Value.restored]

theorem exists_legible {value : Value} (h : Fits records depth shape value) :
    ∃ form, Legible (read records depth shape) value form := by
  induction h with
  | absent => exact ⟨_, legible_absent⟩
  | present _ ih => exact ih.imp fun _ => legible_present
  | int hholds => exact ⟨_, legible_int hholds⟩
  | bool => exact ⟨_, legible_bool _⟩
  | text => exact ⟨_, legible_text _⟩
  | blob => exact legible_blob _
  | list _ ih => exact legible_list ih
  | map hordered hkeys _ ih => exact legible_map hordered hkeys ih
  | record hschema hnames hdistinct _ ih => exact legible_record hschema hnames hdistinct ih

example : encode? (.record [("a", .int (-70)), ("b", .list [.text "\"\n\x01é", .absent])]) =
    some (textBytes "\x7b\"a\":-70,\"b\":[\"\\\"\\n\\u0001é\",null]\x7d") := by
  cbv

end Containers

section Whole

variable {records : List Schema} {depth : Nat} {shape : Shape} {value : Value}
  {before form rest : List UInt8}

theorem read_blanks (hbefore : ∀ b ∈ before, isBlank b) (bytes : List UInt8) :
    read records depth shape (before ++ bytes) = read records depth shape bytes := by
  rw [read_eq, read_eq, skipBlanks_append hbefore]

/-- A form is taken for its value if nothing but blanks comes behind it, and for none if anything
else does. -/
theorem Legible.decode? (h : Legible (Json.read records maxDepth shape) value form)
    (hbefore : ∀ b ∈ before, isBlank b) (hstops : Stops value rest) :
    decode? records shape (before ++ (form ++ rest)) =
      if skipBlanks rest = [] then some value.restored else none := by
  rw [Json.decode?, read_blanks hbefore, h.read rest hstops]
  split
  · next hblank =>
    have hguard : (guard (skipBlanks rest).isEmpty : Option Unit) = some () :=
      if_pos (List.isEmpty_iff.2 hblank)
    simp only [hguard, Option.bind_eq_bind, Option.bind_some, Option.pure_def]
  · next hmore =>
    have hguard : (guard (skipBlanks rest).isEmpty : Option Unit) = none :=
      if_neg fun hempty => hmore (List.isEmpty_iff.1 hempty)
    simp only [hguard, Option.bind_eq_bind, Option.bind_some, Option.bind_none]

theorem endsNumber_blank {b : UInt8} (h : isBlank b) (bytes : List UInt8) :
    EndsNumber (b :: bytes) := by
  simp only [isBlank, Bool.or_eq_true, decide_eq_true_eq] at h
  rcases h with ((rfl | rfl) | rfl) | rfl <;> exact endsNumber_cons (by decide)

/-- A number is read where an integer is, and every other integer of its kind stands for a value of
the same shape. -/
theorem exists_number (h : Fits records depth shape value) (hnumber : value.isNumber) :
    ∃ kind n, encode? value = some (writeInt n) ∧
      (∀ bytes other, read records depth shape (writeInt n ++ bytes) = some other →
        ∃ m, readIntOf? kind (writeInt n ++ bytes) = some m) ∧
      ∀ m, kind.Holds m →
        ∃ longer, Fits records depth shape longer ∧ encode? longer = some (writeInt m) := by
  induction h with
  | @present depth item value hitem ih =>
      obtain ⟨kind, n, hform, hread, hothers⟩ := ih hnumber
      have hthere : ¬value.isHollow := @Value.not_isHollow_of_isNumber value hnumber
      obtain ⟨c, digits, hhead, hblank, -, hnull⟩ := exists_head_of_encode? hform
      refine ⟨kind, n, hform, fun bytes other h => ?_, fun m hm => ?_⟩
      · rw [hhead, List.cons_append, read_present hblank (hnull hthere)] at h
        obtain ⟨inner, hinner, -⟩ := Option.map_eq_some_iff.1 h
        exact hread bytes inner (by rw [hhead, List.cons_append, hinner])
      · obtain ⟨longer, hlonger, hencode⟩ := hothers m hm
        exact ⟨.present longer, .present hlonger, hencode⟩
  | @int depth kind n hholds =>
      obtain ⟨c, digits, hhead, hblank, -⟩ :=
        @exists_head_of_encode? (.int n) (writeInt n) rfl
      refine ⟨kind, n, rfl, fun bytes other h => ?_, fun m hm => ⟨.int m, .int hm, rfl⟩⟩
      cases hint : readIntOf? kind (writeInt n ++ bytes) with
      | some m => exact ⟨m, rfl⟩
      | none =>
          have hskip : skipBlanks (writeInt n ++ bytes) = writeInt n ++ bytes := by
            rw [hhead]
            exact skipBlanks_cons hblank
          rw [read_eq, hskip, readOptional_plain _ rfl, readPlain, readScalar?, hint] at h
          cases depth <;> cases h
  | absent | bool | text | blob | list | map | record => cases hnumber

/-- What goes on behind a value and makes another of it is a digit behind a number, and the two are
the form of a value of the same shape. -/
theorem exists_longer_value {b : UInt8} {other : Value × List UInt8}
    (h : Fits records depth shape value) (hform : encode? value = some form)
    (hstops : ¬Stops value (b :: rest))
    (hread : read records depth shape (form ++ b :: rest) = some other) :
    value.isNumber ∧ isDigit b ∧
      ∃ longer, Fits records depth shape longer ∧ encode? longer = some (form ++ [b]) := by
  obtain ⟨hnumber, hmore⟩ := Classical.not_imp.1 hstops
  obtain ⟨kind, n, hnumberForm, hint, hothers⟩ := exists_number h hnumber
  obtain rfl := Option.some.inj (hform.symm.trans hnumberForm)
  obtain ⟨⟨m, tail⟩, hm⟩ := hint _ _ hread
  obtain ⟨hdigit, m, hholds, hlonger⟩ := readIntOf?_longer hm hmore
  obtain ⟨longer, hfits, hencode⟩ := hothers m hholds
  exact ⟨hnumber, hdigit, longer, hfits, hencode.trans (congrArg some hlonger)⟩

theorem skipBlanks_blanks {after : List UInt8} (hafter : ∀ b ∈ after, isBlank b) :
    skipBlanks after = [] := by
  have hskip := @skipBlanks_append after [] hafter
  rwa [List.append_nil] at hskip

end Whole

end MessageChannel.Json
