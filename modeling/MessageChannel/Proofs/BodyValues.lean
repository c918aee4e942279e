import MessageChannel.Body.Value

namespace MessageChannel

theorem toList_loop (bytes : ByteArray) (i : Nat) (acc : List UInt8) :
    ByteArray.toList.loop bytes i acc = acc.reverse ++ bytes.data.toList.drop i := by
  induction i, acc using ByteArray.toList.loop.induct bytes with
  | case1 i acc hlt ih =>
      have hi : i < bytes.data.toList.length := by
        simpa using hlt
      have hget : bytes.get! i = bytes.data.toList[i] := by
        simp only [ByteArray.get!, Array.getElem_toList]
        exact getElem!_pos bytes.data i hlt
      rw [ByteArray.toList.loop, if_pos hlt, ih, List.drop_eq_getElem_cons hi, hget]
      simp
  | case2 i acc hge =>
      have hi : bytes.data.toList.length ≤ i := by
        simpa using hge
      rw [ByteArray.toList.loop, if_neg hge, List.drop_eq_nil_of_le hi, List.append_nil]

theorem toByteArray_textBytes (s : String) : (textBytes s).toByteArray = s.toUTF8 := by
  apply ByteArray.ext
  apply Array.toList_inj.1
  rw [List.toList_data_toByteArray, textBytes, ByteArray.toList, toList_loop]
  simp

theorem textOfBytes?_textBytes (s : String) : textOfBytes? (textBytes s) = some s := by
  rw [textOfBytes?, toByteArray_textBytes, String.fromUTF8?, String.toUTF8_eq_toByteArray,
    dif_pos s.isValidUTF8]
  rfl

theorem textBytes_inj {s t : String} (h : textBytes s = textBytes t) : s = t := by
  have hread := textOfBytes?_textBytes s
  rw [h, textOfBytes?_textBytes, Option.some.injEq] at hread
  exact hread.symm

section SortedEntries

variable {κ ν : Type} {lt : κ → κ → Bool}

theorem insertEntry_last (asymm : ∀ a b, lt a b → ¬lt b a) {key : κ} {item : ν}
    {entries : List (κ × ν)} (h : ∀ e ∈ entries, lt e.1 key) :
    insertEntry lt key item entries = entries ++ [(key, item)] := by
  induction entries with
  | nil => rfl
  | cons head entries ih =>
      obtain ⟨k, v⟩ := head
      have hk : lt k key := h (k, v) List.mem_cons_self
      rw [insertEntry, if_neg (asymm k key hk), if_pos hk,
        ih fun e he => h e (List.mem_cons_of_mem _ he), List.cons_append]

/-- What stands at a key makes no difference to the order. -/
theorem orderedEntries_replace {front entries : List (κ × ν)} {key : κ} {item : ν}
    (h : OrderedEntries lt (front ++ (key, item) :: entries)) (item' : ν) :
    OrderedEntries lt (front ++ [(key, item')] ++ entries) := by
  have hkeys : ((front ++ (key, item) :: entries).map Prod.fst).Pairwise (lt · ·) :=
    List.pairwise_map.2 h
  have hsame : (front ++ [(key, item')] ++ entries).map Prod.fst =
      (front ++ (key, item) :: entries).map Prod.fst := by simp
  exact List.pairwise_map.1 (hsame ▸ hkeys)

end SortedEntries

namespace Value

/-- An absent value, behind however many options. -/
def isHollow : Value → Bool
  | absent => true
  | present item => item.isHollow
  | _ => false

/-- A number, behind however many options. -/
def isNumber : Value → Bool
  | int _ => true
  | present item => item.isNumber
  | _ => false

theorem not_isHollow_of_isNumber : ∀ {value : Value}, value.isNumber → ¬value.isHollow
  | int _, _ => Bool.false_ne_true
  | present item, h => @not_isHollow_of_isNumber item h
  | bool _, h | text _, h | blob _, h | absent, h | list _, h | map _, h | record _, h => by cases h

mutual

/-- What a value comes back as when it has been written and read: an optional value that is there
but holds nothing comes back as one that is not there. -/
def restored : Value → Value
  | present item => if item.isHollow then absent else present item.restored
  | list items => list (restoredItems items)
  | map entries => map (restoredEntries entries)
  | record fields => record (restoredFields fields)
  | value => value

def restoredItems : List Value → List Value
  | [] => []
  | item :: items => item.restored :: restoredItems items

def restoredEntries : List (Value × Value) → List (Value × Value)
  | [] => []
  | (key, item) :: entries => (key, item.restored) :: restoredEntries entries

def restoredFields : List (String × Value) → List (String × Value)
  | [] => []
  | (name, item) :: fields => (name, item.restored) :: restoredFields fields

end

mutual

/-- Somewhere in it an optional value is there but holds nothing. -/
def hasHollow : Value → Bool
  | present item => item.isHollow || item.hasHollow
  | list items => itemsHaveHollow items
  | map entries => entriesHaveHollow entries
  | record fields => fieldsHaveHollow fields
  | _ => false

def itemsHaveHollow : List Value → Bool
  | [] => false
  | item :: items => item.hasHollow || itemsHaveHollow items

def entriesHaveHollow : List (Value × Value) → Bool
  | [] => false
  | (_, item) :: entries => item.hasHollow || entriesHaveHollow entries

def fieldsHaveHollow : List (String × Value) → Bool
  | [] => false
  | (_, item) :: fields => item.hasHollow || fieldsHaveHollow fields

end

mutual

theorem restored_eq_self_iff : ∀ value : Value, value.restored = value ↔ value.hasHollow = false
  | present item => by
      rw [restored, hasHollow, Bool.or_eq_false_iff, ← restored_eq_self_iff item]
      cases item.isHollow <;> simp
  | list items => by rw [restored, hasHollow, list.injEq, restoredItems_eq_self_iff items]
  | map entries => by rw [restored, hasHollow, map.injEq, restoredEntries_eq_self_iff entries]
  | record fields => by rw [restored, hasHollow, record.injEq, restoredFields_eq_self_iff fields]
  | int _ | bool _ | text _ | blob _ | absent => by simp [restored, hasHollow]

theorem restoredItems_eq_self_iff :
    ∀ items, restoredItems items = items ↔ itemsHaveHollow items = false
  | [] => by simp [restoredItems, itemsHaveHollow]
  | item :: items => by
      rw [restoredItems, itemsHaveHollow, List.cons.injEq, Bool.or_eq_false_iff,
        restored_eq_self_iff item, restoredItems_eq_self_iff items]

theorem restoredEntries_eq_self_iff :
    ∀ entries, restoredEntries entries = entries ↔ entriesHaveHollow entries = false
  | [] => by simp [restoredEntries, entriesHaveHollow]
  | (key, item) :: entries => by
      rw [restoredEntries, entriesHaveHollow, List.cons.injEq, Prod.mk.injEq,
        Bool.or_eq_false_iff, restored_eq_self_iff item, restoredEntries_eq_self_iff entries]
      simp

theorem restoredFields_eq_self_iff :
    ∀ fields, restoredFields fields = fields ↔ fieldsHaveHollow fields = false
  | [] => by simp [restoredFields, fieldsHaveHollow]
  | (name, item) :: fields => by
      rw [restoredFields, fieldsHaveHollow, List.cons.injEq, Prod.mk.injEq,
        Bool.or_eq_false_iff, restored_eq_self_iff item, restoredFields_eq_self_iff fields]
      simp

end

theorem restoredItems_eq_map (items : List Value) : restoredItems items = items.map restored := by
  induction items with
  | nil => rfl
  | cons item items ih => rw [restoredItems, ih, List.map_cons]

theorem restoredEntries_eq_map (entries : List (Value × Value)) :
    restoredEntries entries = entries.map fun e => (e.1, e.2.restored) := by
  induction entries with
  | nil => rfl
  | cons entry entries ih => rw [restoredEntries, ih, List.map_cons]

end Value

theorem Value.keyLt_asymm (a b : Value) (h : Value.keyLt a b) : ¬Value.keyLt b a := by
  cases a <;> cases b <;> simp only [Value.keyLt, decide_eq_true_eq, Bool.false_eq_true] at h ⊢
  · omega
  · exact String.lt_asymm h

namespace Schema

variable {front todo : Schema} {field : Field}

theorem name_ne (hdistinct : ((front ++ field :: todo).map Field.name).Nodup) :
    ∀ f ∈ front, f.name ≠ field.name := by
  intro f hf
  rw [List.map_append, List.nodup_append] at hdistinct
  exact hdistinct.2.2 _ (List.mem_map_of_mem hf) _ (by simp)

theorem findIdx_field {p : Field → Bool} (hfront : ∀ f ∈ front, p f = false) (hfield : p field) :
    (front ++ field :: todo).findIdx p = front.length := by
  rw [List.findIdx_append, List.findIdx_eq_length_of_false hfront, if_neg (Nat.lt_irrefl _),
    List.findIdx_cons, hfield]
  exact Nat.zero_add _

theorem exists_field {fields : List (String × Value)}
    (hnames : fields.map Prod.fst = (field :: todo).map Field.name) :
    ∃ item tail, fields = (field.name, item) :: tail ∧ tail.map Prod.fst = todo.map Field.name := by
  cases fields with
  | nil => simp at hnames
  | cons head tail =>
      obtain ⟨name, item⟩ := head
      obtain ⟨rfl, htail⟩ := List.cons.inj hnames
      exact ⟨item, tail, rfl, htail⟩

theorem close?_map_restored {schema : Schema} {fields : List (String × Value)}
    (hnames : fields.map Prod.fst = schema.map Field.name) :
    schema.close? (fields.map (some ·.2.restored)) = some (Value.restoredFields fields) := by
  induction schema generalizing fields with
  | nil =>
      obtain rfl : fields = [] := by
        simpa using hnames
      rfl
  | cons field schema ih =>
      obtain ⟨item, fields, rfl, htail⟩ := exists_field hnames
      rw [List.map_cons, Schema.close?, ih htail]
      rfl

end Schema

section Places

variable {front todo : Schema} {items : List Value}

/-- When the fields in front have got their values, the place of the next one is empty. -/
theorem getElem?_places (hitems : items.length = front.length) :
    (items.map some ++ none :: todo.map fun _ => none)[front.length]? =
      some (none : Option Value) := by
  rw [List.getElem?_append_right (by simp [hitems])]
  simp [hitems]

theorem set_places (hitems : items.length = front.length) (item : Value) :
    (items.map some ++ none :: todo.map fun _ => none).set front.length (some item) =
      (items ++ [item]).map some ++ todo.map fun _ => none := by
  rw [List.set_append_right _ _ (by simp [hitems])]
  simp [hitems]

end Places

end MessageChannel
