import MessageChannel.Proofs.MessagePackCodec

namespace MessageChannel.MessagePack

/-- The form of the value is refused, whatever comes behind it. -/
def Refuses (read : Reader) (value : Value) : Prop :=
  ∀ rest, read (encode value ++ rest) = none

theorem Reads.not_refuses {read : Reader} {value : Value} (h : Reads read value) :
    ¬Refuses read value := fun hrefuse =>
  Option.some_ne_none _ ((h []).symm.trans (hrefuse []))

section Containers

variable {readKey readItem : Reader}

theorem readItems_eq_none {items : List Value}
    (hitems : ∀ v ∈ items, Reads readItem v ∨ Refuses readItem v)
    (hsome : ∃ v ∈ items, Refuses readItem v) (acc : List Value) (rest : List UInt8) :
    readItems readItem items.length acc (encodeItems items ++ rest) = none := by
  induction items generalizing acc with
  | nil => simp at hsome
  | cons item items ih =>
      rw [encodeItems, List.append_assoc, List.length_cons, readItems]
      rcases hitems item List.mem_cons_self with hread | hrefuse
      · rw [hread]
        exact ih (fun v hv => hitems v (List.mem_cons_of_mem _ hv))
          (by simpa [hread.not_refuses] using hsome) _
      · rw [hrefuse]

theorem readEntries_eq_none {entries : List (Value × Value)}
    (hkeys : ∀ e ∈ entries, Reads readKey e.1)
    (hitems : ∀ e ∈ entries, Reads readItem e.2 ∨ Refuses readItem e.2)
    (hsome : ∃ e ∈ entries, Refuses readItem e.2) (acc : List (Value × Value))
    (rest : List UInt8) :
    readEntries readKey readItem entries.length acc (encodeEntries entries ++ rest) = none := by
  induction entries generalizing acc with
  | nil => simp at hsome
  | cons entry entries ih =>
      obtain ⟨key, item⟩ := entry
      have hkey := hkeys (key, item) List.mem_cons_self
      rw [encodeEntries, List.append_assoc, List.append_assoc, List.length_cons, readEntries, hkey]
      dsimp only
      rcases hitems (key, item) List.mem_cons_self with hread | hrefuse
      · rw [hread]
        exact ih (fun e he => hkeys e (List.mem_cons_of_mem _ he))
          (fun e he => hitems e (List.mem_cons_of_mem _ he))
          (by simpa [hread.not_refuses] using hsome) _
      · rw [hrefuse]

theorem readFields_eq_none {read : Shape → Reader} {skip : List UInt8 → Option (List UInt8)}
    {front todo : Schema} {fields : List (String × Value)} {items : List Value}
    (hnames : fields.map Prod.fst = todo.map Field.name)
    (hdistinct : ((front ++ todo).map Field.name).Nodup)
    (hshort : ∀ f ∈ todo, (textBytes f.name).length < 2 ^ 32)
    (hfields : ∀ p ∈ todo.zip fields, Reads (read p.1.shape) p.2.2 ∨ Refuses (read p.1.shape) p.2.2)
    (hsome : ∃ p ∈ todo.zip fields, Refuses (read p.1.shape) p.2.2)
    (hitems : items.length = front.length) (rest : List UInt8) :
    readFields (front ++ todo) read skip fields.length (items.map some ++ todo.map fun _ => none)
      (encodeFields fields ++ rest) = none := by
  induction todo generalizing front fields items with
  | nil => simp at hsome
  | cons field todo ih =>
      obtain ⟨item, fields, rfl, htail⟩ := Schema.exists_field hnames
      rw [encodeFields, List.append_assoc, List.append_assoc, List.length_cons, List.map_cons,
        readFields_succ (hshort field List.mem_cons_self) hdistinct hitems]
      rcases hfields (field, (field.name, item)) List.mem_cons_self with hread | hrefuse
      · rw [hread, List.append_cons front]
        exact @ih (front ++ [field]) fields (items ++ [item.restored]) htail
          (by simpa using hdistinct) (fun f hf => hshort f (List.mem_cons_of_mem _ hf))
          (fun p hp => hfields p (List.mem_cons_of_mem _ hp))
          (by simpa [hread.not_refuses] using hsome) (by simp [hitems])
      · rw [hrefuse, Option.bind_none]

end Containers

section Values

variable {records : List Schema} {item shape : Shape} {value : Value}

/-- A value either fits into the depth that is left or is refused there. -/
def Tells (records : List Schema) (depth : Nat) (shape : Shape) (value : Value) : Prop :=
  Fits records depth shape value ∨ Refuses (read records depth shape) value

theorem Tells.reads_or_refuses {depth : Nat} (h : Tells records depth shape value) :
    Reads (read records depth shape) value ∨ Refuses (read records depth shape) value :=
  h.imp_left Fits.reads

theorem exists_refuses {α : Type} {parts : List α} {depth : Nat} {shape : α → Shape}
    {value : α → Value} (htells : ∀ p ∈ parts, Tells records depth (shape p) (value p))
    (hnone : ¬∀ p ∈ parts, Fits records depth (shape p) (value p)) :
    ∃ p ∈ parts, Refuses (read records depth (shape p)) (value p) := by
  push Not at hnone
  exact hnone.imp fun p hp => ⟨hp.1, (htells p hp.1).resolve_left hp.2⟩

theorem tells_list {items : List Value} (hlength : items.length < 2 ^ 32)
    (htells : ∀ depth, ∀ v ∈ items, Tells records depth item v) (depth : Nat) :
    Tells records depth (.list item) (.list items) := by
  cases depth with
  | zero => exact .inr (read_list hlength)
  | succ depth =>
      by_cases hall : ∀ v ∈ items, Fits records depth item v
      · exact .inl (.list hlength hall)
      · refine .inr fun rest => ?_
        rw [read_list hlength, readDeeper, container?,
          readItems_eq_none (fun v hv => (htells depth v hv).reads_or_refuses)
            (exists_refuses (htells depth) hall)]
        rfl

theorem tells_map {key : KeyShape} {entries : List (Value × Value)}
    (hlength : entries.length < 2 ^ 32) (hordered : OrderedEntries Value.keyLt entries)
    (hkeys : ∀ depth, ∀ e ∈ entries, Fits records depth key.shape e.1)
    (htells : ∀ depth, ∀ e ∈ entries, Tells records depth item e.2) (depth : Nat) :
    Tells records depth (.map key item) (.map entries) := by
  cases depth with
  | zero => exact .inr (read_map hlength)
  | succ depth =>
      by_cases hall : ∀ e ∈ entries, Fits records depth item e.2
      · exact .inl (.map hlength hordered (hkeys depth) hall)
      · refine .inr fun rest => ?_
        rw [read_map hlength, readDeeper, container?_map,
          readEntries_eq_none (fun e he => (hkeys depth e he).reads)
            (fun e he => (htells depth e he).reads_or_refuses) (exists_refuses (htells depth) hall)]
        rfl

theorem tells_record {index : Nat} {schema : Schema} {fields : List (String × Value)}
    (hschema : records[index]? = some schema) (hlength : fields.length < 2 ^ 32)
    (hnames : fields.map Prod.fst = schema.map Field.name)
    (hdistinct : (schema.map Field.name).Nodup)
    (hshort : ∀ f ∈ schema, (textBytes f.name).length < 2 ^ 32)
    (htells : ∀ depth, ∀ p ∈ schema.zip fields, Tells records depth p.1.shape p.2.2)
    (depth : Nat) : Tells records depth (.record index) (.record fields) := by
  cases depth with
  | zero => exact .inr (read_record hlength)
  | succ depth =>
      by_cases hall : ∀ p ∈ schema.zip fields, Fits records depth p.1.shape p.2.2
      · exact .inl (.record hschema hlength hnames hdistinct hshort hall)
      · refine .inr fun rest => ?_
        have hfields := @readFields_eq_none (read records depth) (skip depth) [] schema fields []
          hnames hdistinct hshort (fun p hp => (htells depth p hp).reads_or_refuses)
          (exists_refuses (htells depth) hall) rfl rest
        simp only [List.nil_append, List.map_nil] at hfields
        rw [read_record hlength, readDeeper, container?]
        simp only [hschema, hfields, Option.bind_eq_bind, Option.bind_some, Option.bind_none]

/-- A key stands in no container but its map. -/
theorem Fits.key {d : Nat} {key : KeyShape} (h : Fits records d key.shape value) (depth : Nat) :
    Fits records depth key.shape value := by
  cases key with
  | int => cases h with | int hholds => exact .int hholds
  | text => cases h with | text hlength => exact .text hlength

theorem Fits.hollow {d : Nat} (h : Fits records d shape value) (hhollow : value.isHollow)
    (depth : Nat) : Fits records depth shape value := by
  induction h with
  | absent => exact .absent
  | present _ ih => exact .present (ih hhollow)
  | int | bool | text | blob | list | map | record => cases hhollow

/-- Nothing but its depth makes a value with a form unreadable. -/
theorem Fits.tells {d : Nat} (h : Fits records d shape value) (depth : Nat) :
    Tells records depth shape value := by
  induction h generalizing depth with
  | absent => exact .inl .absent
  | @present d item value hitem ih =>
      by_cases hhollow : value.isHollow
      · exact .inl (.present (hitem.hollow hhollow depth))
      · refine (ih depth).imp .present fun hrefuse rest => ?_
        obtain ⟨token, tail, htoken, hnil⟩ := exists_token hitem hhollow rest
        rw [encode, read_present htoken hnil, hrefuse, Option.map_none]
  | int hholds => exact .inl (.int hholds)
  | bool => exact .inl .bool
  | text hlength => exact .inl (.text hlength)
  | blob hlength => exact .inl (.blob hlength)
  | list hlength _ ih => exact tells_list hlength (fun depth v hv => ih v hv depth) depth
  | map hlength hordered hkeys _ _ ih =>
      exact tells_map hlength hordered (fun depth e he => (hkeys e he).key depth)
        (fun depth e he => ih e he depth) depth
  | record hschema hlength hnames hdistinct hshort _ ih =>
      exact tells_record hschema hlength hnames hdistinct hshort (fun depth p hp => ih p hp depth)
        depth

/-- A value that needs more depth than a reader has: its body is refused. -/
theorem decode?_too_deep {d : Nat} (h : Fits records d shape value)
    (hdeep : ¬Fits records maxDepth shape value) (rest : List UInt8) :
    decode? records shape (encode value ++ rest) = none := by
  rw [decode?, (h.tells maxDepth).resolve_left hdeep rest, Option.map_none]

end Values

end MessageChannel.MessagePack
