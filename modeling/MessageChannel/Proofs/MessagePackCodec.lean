import MessageChannel.Proofs.BodyValues
import MessageChannel.Proofs.MessagePackTokens

namespace MessageChannel

def KeyShape.shape : KeyShape → Shape
  | .int kind => .int kind
  | .text => .text

theorem IntKind.bounds (kind : IntKind) : -2 ^ 63 ≤ kind.lo ∧ kind.hi ≤ 2 ^ 64 := by
  cases kind <;> decide

namespace MessagePack

/-- A value of the given shape that has a form: its numbers in range, its lengths and sizes below
`2 ^ 32`, its map keys in order, and at most `depth` containers one inside another. -/
inductive Fits (records : List Schema) : Nat → Shape → Value → Prop where
  | absent {depth : Nat} {item : Shape} : Fits records depth (.optional item) .absent
  | present {depth : Nat} {item : Shape} {value : Value} (hitem : Fits records depth item value) :
      Fits records depth (.optional item) (.present value)
  | int {depth : Nat} {kind : IntKind} {n : Int} (hholds : kind.Holds n) :
      Fits records depth (.int kind) (.int n)
  | bool {depth : Nat} {b : Bool} : Fits records depth .bool (.bool b)
  | text {depth : Nat} {s : String} (hlength : (textBytes s).length < 2 ^ 32) :
      Fits records depth .text (.text s)
  | blob {depth : Nat} {bytes : List UInt8} (hlength : bytes.length < 2 ^ 32) :
      Fits records depth .blob (.blob bytes)
  | list {depth : Nat} {item : Shape} {items : List Value} (hlength : items.length < 2 ^ 32)
      (hitems : ∀ v ∈ items, Fits records depth item v) :
      Fits records (depth + 1) (.list item) (.list items)
  | map {depth : Nat} {item : Shape} {key : KeyShape} {entries : List (Value × Value)}
      (hlength : entries.length < 2 ^ 32) (hordered : OrderedEntries Value.keyLt entries)
      (hkeys : ∀ e ∈ entries, Fits records depth key.shape e.1)
      (hitems : ∀ e ∈ entries, Fits records depth item e.2) :
      Fits records (depth + 1) (.map key item) (.map entries)
  | record {depth index : Nat} {schema : Schema} {fields : List (String × Value)}
      (hschema : records[index]? = some schema) (hlength : fields.length < 2 ^ 32)
      (hnames : fields.map Prod.fst = schema.map Field.name)
      (hdistinct : (schema.map Field.name).Nodup)
      (hshort : ∀ f ∈ schema, (textBytes f.name).length < 2 ^ 32)
      (hfields : ∀ p ∈ schema.zip fields, Fits records depth p.1.shape p.2.2) :
      Fits records (depth + 1) (.record index) (.record fields)

theorem intOf?_of_holds {kind : IntKind} {n : Int} (h : kind.Holds n) :
    intOf? kind n = some (.int n) :=
  if_pos h

theorem scalar?_ofInt (records : List Schema) {kind : IntKind} {n : Int} (h : kind.Holds n) :
    scalar? records (.int kind) (Token.ofInt n) = some (.int n) := by
  by_cases hsign : 0 ≤ n
  · rw [Token.ofInt, if_pos hsign, scalar?, Int.toNat_of_nonneg hsign, intOf?_of_holds h]
  · rw [Token.ofInt, if_neg hsign, scalar?, intOf?_of_holds h]

theorem scalar?_array (records : List Schema) (shape : Shape) (n : Nat) :
    scalar? records shape (.array n) = none := by
  cases shape <;> rfl

theorem scalar?_map (records : List Schema) (shape : Shape) (n : Nat) :
    scalar? records shape (.map n) = none := by
  cases shape <;> rfl

section Reading

variable {records : List Schema} {depth : Nat} {shape : Shape} {token : Token}
  {bytes rest : List UInt8}

/-- What is read behind the first token of a container that stands at this depth. -/
def readDeeper (records : List Schema) : Nat → Shape → Token → Reader
  | 0, _, _, _ => none
  | depth + 1, shape, token, bytes =>
      container? records (read records depth) (skip depth) shape token bytes

theorem read_eq (records : List Schema) (depth : Nat) :
    read records depth = readBehindToken (readPlain records (readDeeper records depth)) := by
  cases depth <;> rfl

theorem readOptional_plain (read : Shape → Token → Reader) (hplain : shape.isOptional = false) :
    readOptional read shape = read shape := by
  cases shape with
  | optional => cases hplain
  | int | bool | text | blob | list | map | record => rfl

theorem read_scalar {value : Value} (htoken : Token.read? bytes = some (token, rest))
    (hplain : shape.isOptional = false) (hvalue : scalar? records shape token = some value) :
    read records depth shape bytes = some (value, rest) := by
  rw [read_eq, readBehindToken, htoken]
  simp only [readOptional_plain _ hplain, readPlain, hvalue]

theorem read_container (htoken : Token.read? bytes = some (token, rest))
    (hplain : shape.isOptional = false) (hvalue : scalar? records shape token = none) :
    read records depth shape bytes = readDeeper records depth shape token rest := by
  rw [read_eq, readBehindToken, htoken]
  simp only [readOptional_plain _ hplain, readPlain, hvalue]

theorem read_list {item : Shape} {items : List Value} (hlength : items.length < 2 ^ 32)
    (rest : List UInt8) :
    read records depth (.list item) (encode (.list items) ++ rest) =
      readDeeper records depth (.list item) (.array items.length) (encodeItems items ++ rest) := by
  rw [encode, List.append_assoc]
  exact read_container (Token.read?_arrayMarkers hlength _) rfl (scalar?_array ..)

theorem read_map {key : KeyShape} {item : Shape} {entries : List (Value × Value)}
    (hlength : entries.length < 2 ^ 32) (rest : List UInt8) :
    read records depth (.map key item) (encode (.map entries) ++ rest) =
      readDeeper records depth (.map key item) (.map entries.length)
        (encodeEntries entries ++ rest) := by
  rw [encode, List.append_assoc]
  exact read_container (Token.read?_mapMarkers hlength _) rfl (scalar?_map ..)

theorem read_record {index : Nat} {fields : List (String × Value)}
    (hlength : fields.length < 2 ^ 32) (rest : List UInt8) :
    read records depth (.record index) (encode (.record fields) ++ rest) =
      readDeeper records depth (.record index) (.map fields.length)
        (encodeFields fields ++ rest) := by
  rw [encode, List.append_assoc]
  exact read_container (Token.read?_mapMarkers hlength _) rfl (scalar?_map ..)

theorem read_absent (htoken : Token.read? bytes = some (.nil, rest)) (item : Shape) :
    read records depth (.optional item) bytes = some (.absent, rest) := by
  rw [read_eq, readBehindToken, htoken]
  exact if_pos rfl

theorem read_present (htoken : Token.read? bytes = some (token, rest)) (hnil : token ≠ .nil)
    (item : Shape) :
    read records depth (.optional item) bytes =
      (read records depth item bytes).map fun (value, rest) => (.present value, rest) := by
  rw [read_eq, readBehindToken, readBehindToken, htoken]
  exact if_neg hnil

/-- The value is read from its form, whatever comes behind it. -/
def Reads (read : Reader) (value : Value) : Prop :=
  ∀ rest, read (encode value ++ rest) = some (value.restored, rest)

theorem readItems_encodeItems {read : Reader} {items : List Value}
    (h : ∀ v ∈ items, Reads read v) (acc : List Value) (rest : List UInt8) :
    readItems read items.length acc (encodeItems items ++ rest) =
      some (acc.reverse ++ items.map Value.restored, rest) := by
  induction items generalizing acc with
  | nil => simp [readItems, encodeItems]
  | cons item items ih =>
      have hitem := h item List.mem_cons_self
      have hitems := ih fun v hv => h v (List.mem_cons_of_mem _ hv)
      rw [encodeItems, List.append_assoc, List.length_cons, readItems, hitem]
      simp only [hitems, List.reverse_cons, List.map_cons, List.append_assoc, List.cons_append,
        List.nil_append]

theorem readEntries_encodeEntries {readKey readItem : Reader} {entries : List (Value × Value)}
    (hkeys : ∀ e ∈ entries, Reads readKey e.1) (hplain : ∀ e ∈ entries, e.1.restored = e.1)
    (hitems : ∀ e ∈ entries, Reads readItem e.2)
    (acc : List (Value × Value)) (hordered : OrderedEntries Value.keyLt (acc ++ entries))
    (rest : List UInt8) :
    readEntries readKey readItem entries.length acc (encodeEntries entries ++ rest) =
      some (acc ++ entries.map fun e => (e.1, e.2.restored), rest) := by
  induction entries generalizing acc with
  | nil => simp [readEntries, encodeEntries]
  | cons entry entries ih =>
      obtain ⟨key, item⟩ := entry
      have hlast : insertEntry Value.keyLt key item.restored acc = acc ++ [(key, item.restored)] :=
        insertEntry_last Value.keyLt_asymm fun e he =>
          (List.pairwise_append.1 hordered).2.2 e he (key, item) List.mem_cons_self
      have hkey : ∀ rest, readKey (encode key ++ rest) = some (key, rest) := fun rest => by
        rw [hkeys (key, item) List.mem_cons_self, hplain (key, item) List.mem_cons_self]
      have hentries := ih (fun e he => hkeys e (List.mem_cons_of_mem _ he))
        (fun e he => hplain e (List.mem_cons_of_mem _ he))
        (fun e he => hitems e (List.mem_cons_of_mem _ he)) (acc ++ [(key, item.restored)])
        (orderedEntries_replace hordered _)
      rw [encodeEntries, List.append_assoc, List.append_assoc, List.length_cons, readEntries, hkey]
      simp only [hitems (key, item) List.mem_cons_self _, hlast, hentries, List.map_cons,
        List.append_assoc, List.cons_append, List.nil_append]

theorem container?_map (read : Shape → Reader) (skip : List UInt8 → Option (List UInt8))
    (key : KeyShape) (item : Shape) (n : Nat) (bytes : List UInt8) :
    container? records read skip (.map key item) (.map n) bytes =
      (readEntries (read key.shape) (read item) n [] bytes).map fun (entries, rest) =>
        (.map entries, rest) := by
  have hmap : ∀ entries? : Option (List (Value × Value) × List UInt8),
      (do let (entries, rest) ← entries?; return (Value.map entries, rest)) =
        entries?.map fun (entries, rest) => (Value.map entries, rest) := by
    intro entries?
    cases entries? <;> rfl
  cases key <;> exact hmap _

theorem keyIndex?_name {front todo : Schema} {field : Field}
    (hdistinct : ((front ++ field :: todo).map Field.name).Nodup) :
    keyIndex? (front ++ field :: todo) (.text (textBytes field.name)) = some front.length := by
  have hname : ∀ f ∈ front, (textBytes f.name == textBytes field.name) = false := fun f hf =>
    beq_eq_false_iff_ne.2 fun heq => Schema.name_ne hdistinct f hf (textBytes_inj heq)
  rw [keyIndex?, Schema.findIdx_field hname (beq_self_eq_true _)]

section Fields

variable {read : Shape → Reader} {skip : List UInt8 → Option (List UInt8)} {front todo : Schema}
  {fields : List (String × Value)} {items : List Value}

/-- The fields come in the order of the struct, so each finds its own place empty. -/
theorem readFields_succ {field : Field} (hshort : (textBytes field.name).length < 2 ^ 32)
    (hdistinct : ((front ++ field :: todo).map Field.name).Nodup)
    (hitems : items.length = front.length) (n : Nat) (bytes : List UInt8) :
    readFields (front ++ field :: todo) read skip (n + 1)
        (items.map some ++ none :: todo.map fun _ => none) (writeText field.name ++ bytes) =
      (read field.shape bytes).bind fun (item, rest) =>
        readFields (front ++ field :: todo) read skip n
          ((items ++ [item]).map some ++ todo.map fun _ => none) rest := by
  have hkey := Token.read?_writeText hshort bytes
  rw [readFields]
  simp only [hkey, keyIndex?_name hdistinct, Option.bind_eq_bind, Option.bind_some,
    getElem?_places hitems, set_places hitems, List.getElem?_append_right (Nat.le_refl _),
    Nat.sub_self, List.getElem?_cons_zero]

theorem readFields_encodeFields (hnames : fields.map Prod.fst = todo.map Field.name)
    (hdistinct : ((front ++ todo).map Field.name).Nodup)
    (hshort : ∀ f ∈ todo, (textBytes f.name).length < 2 ^ 32)
    (hread : ∀ p ∈ todo.zip fields, Reads (read p.1.shape) p.2.2)
    (hitems : items.length = front.length) (rest : List UInt8) :
    readFields (front ++ todo) read skip fields.length (items.map some ++ todo.map fun _ => none)
        (encodeFields fields ++ rest) =
      some (items.map some ++ fields.map (some ·.2.restored), rest) := by
  induction todo generalizing front fields items with
  | nil =>
      obtain rfl : fields = [] := by
        simpa using hnames
      simp [readFields, encodeFields]
  | cons field todo ih =>
      obtain ⟨item, fields, rfl, htail⟩ := Schema.exists_field hnames
      have hitem := hread (field, (field.name, item)) (by simp) (encodeFields fields ++ rest)
      have hfields := @ih (front ++ [field]) fields (items ++ [item.restored]) htail
        (by simpa using hdistinct) (fun f hf => hshort f (List.mem_cons_of_mem _ hf))
        (fun p hp => hread p (List.mem_cons_of_mem _ hp)) (by simp [hitems])
      rw [encodeFields, List.append_assoc, List.append_assoc, List.length_cons, List.map_cons,
        readFields_succ (hshort field List.mem_cons_self) hdistinct hitems, hitem,
        List.append_cons front]
      refine hfields.trans ?_
      simp

end Fields

end Reading

theorem Fits.restored_key {records : List Schema} {depth : Nat} {key : KeyShape} {value : Value}
    (h : Fits records depth key.shape value) : value.restored = value := by
  cases key with
  | int | text => cases h; rfl

theorem encode_of_isHollow : ∀ {value : Value}, value.isHollow → encode value = [0xc0]
  | .absent, _ => by rw [encode]
  | .present item, h => by
      rw [encode]
      exact @encode_of_isHollow item h
  | .int _, h | .bool _, h | .text _, h | .blob _, h | .list _, h | .map _, h | .record _, h => by
      cases h

/-- A value that is there starts with a token that says so. -/
theorem exists_token {records : List Schema} {depth : Nat} {shape : Shape} {value : Value}
    (h : Fits records depth shape value) (hthere : ¬value.isHollow) (rest : List UInt8) :
    ∃ token tail, Token.read? (encode value ++ rest) = some (token, tail) ∧ token ≠ .nil := by
  induction h with
  | absent => exact absurd rfl hthere
  | present hitem ih => exact ih hthere
  | @int depth kind n hholds =>
      obtain ⟨hlo, hhi⟩ := hholds
      have hbounds := kind.bounds
      refine ⟨_, _, Token.read?_writeInt (by omega) (by omega) rest, ?_⟩
      rw [Token.ofInt]
      split <;> simp
  | bool => exact ⟨_, _, Token.read?_writeBool _ rest, by simp⟩
  | text hlength => exact ⟨_, _, Token.read?_writeText hlength rest, by simp⟩
  | blob hlength => exact ⟨_, _, Token.read?_writeBlob hlength rest, by simp⟩
  | list hlength =>
      rw [encode, List.append_assoc]
      exact ⟨_, _, Token.read?_arrayMarkers hlength _, by simp⟩
  | map hlength | record _ hlength =>
      rw [encode, List.append_assoc]
      exact ⟨_, _, Token.read?_mapMarkers hlength _, by simp⟩

theorem Fits.reads {records : List Schema} {depth : Nat} {shape : Shape} {value : Value}
    (h : Fits records depth shape value) : Reads (read records depth shape) value := by
  intro rest
  induction h generalizing rest with
  | absent => exact read_absent rfl _
  | @present depth item value hitem ih =>
      by_cases hhollow : value.isHollow
      · rw [encode, encode_of_isHollow hhollow, Value.restored, if_pos hhollow]
        exact read_absent rfl _
      · obtain ⟨token, tail, htoken, hnil⟩ := exists_token hitem hhollow rest
        rw [encode, read_present htoken hnil, ih, Value.restored, if_neg hhollow]
        rfl
  | @int depth kind n hholds =>
      have hbounds := kind.bounds
      obtain ⟨hlo, hhi⟩ := hholds
      have htoken := Token.read?_writeInt (n := n) (by omega) (by omega) rest
      exact read_scalar htoken rfl (scalar?_ofInt records ⟨hlo, hhi⟩)
  | bool => exact read_scalar (Token.read?_writeBool _ rest) rfl rfl
  | text hlength =>
      refine read_scalar (Token.read?_writeText hlength rest) rfl ?_
      rw [scalar?, textOfBytes?_textBytes, Option.map_some]
      rfl
  | blob hlength => exact read_scalar (Token.read?_writeBlob hlength rest) rfl rfl
  | list hlength hitems ih =>
      rw [read_list hlength, readDeeper, container?, readItems_encodeItems ih, Value.restored,
        Value.restoredItems_eq_map]
      rfl
  | @map depth item key entries hlength hordered hkeys hitems ihkeys ihitems =>
      have hentries := readEntries_encodeEntries ihkeys (fun e he => (hkeys e he).restored_key)
        ihitems [] hordered rest
      rw [read_map hlength, readDeeper, container?_map, hentries, Value.restored,
        Value.restoredEntries_eq_map]
      rfl
  | @record depth index schema fields hschema hlength hnames hdistinct hshort hfields ih =>
      have hread := @readFields_encodeFields (read records depth) (skip depth) [] schema fields []
        hnames hdistinct hshort ih rfl rest
      rw [read_record hlength, readDeeper, container?]
      simp only [List.nil_append, List.map_nil] at hread
      simp only [hschema, hread, Schema.close?_map_restored hnames, Option.bind_eq_bind,
        Option.bind_some, Option.pure_def, Value.restored]

end MessagePack

end MessageChannel
