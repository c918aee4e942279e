import MessageChannel.Proofs.JsonValues

namespace MessageChannel.Json

section Arrays

variable {read : Reader}

/-- What is left to do in an array behind one of its items. -/
def readBehindItem (read : Reader) (steps : Nat) (acc : List Value) (bytes : List UInt8) :
    Option (List Value × List UInt8) :=
  match skipBlanks bytes with
  | 0x2c :: rest => readItems read steps acc rest
  | 0x5d :: rest => some (acc.reverse, rest)
  | _ => none

theorem readBehindItem_comma (steps : Nat) (acc : List Value) (rest : List UInt8) :
    readBehindItem read steps acc (0x2c :: rest) = readItems read steps acc rest :=
  rfl

theorem readBehindItem_close (steps : Nat) (acc : List Value) (rest : List UInt8) :
    readBehindItem read steps acc (0x5d :: rest) = some (acc.reverse, rest) :=
  rfl

theorem readArray_close (rest : List UInt8) : readArray read (0x5d :: rest) = some ([], rest) :=
  rfl

theorem readItems_succ {item : Value} {bytes rest : List UInt8}
    (h : read bytes = some (item, rest)) (steps : Nat) (acc : List Value) :
    readItems read (steps + 1) acc bytes = readBehindItem read steps (item :: acc) rest := by
  rw [readItems, h]
  rfl

theorem endsNumber_encodeItems? {items : List Value} {inner : List UInt8}
    (h : encodeItems? items = some inner) (rest : List UInt8) :
    EndsNumber (inner ++ 0x5d :: rest) := by
  cases items with
  | nil =>
      obtain rfl := Option.some.inj h
      exact endsNumber_cons (by decide)
  | cons item items =>
      simp only [encodeItems?, Option.bind_eq_bind, Option.bind_eq_some_iff, Option.pure_def,
        Option.some.injEq] at h
      obtain ⟨first, -, others, -, rfl⟩ := h
      exact endsNumber_cons (by decide)

/-- The items, each with a comma in front, are read one after another. -/
theorem readBehindItem_encodeItems? {items : List Value}
    (h : ∀ v ∈ items, ∃ form, Legible read v form) :
    ∃ inner, encodeItems? items = some inner ∧
      ∀ steps acc rest, inner.length ≤ steps →
        readBehindItem read steps acc (inner ++ 0x5d :: rest) =
          some (acc.reverse ++ items.map Value.restored, rest) := by
  induction items with
  | nil =>
      refine ⟨[], rfl, fun steps acc rest _ => ?_⟩
      rw [List.nil_append, readBehindItem_close, List.map_nil, List.append_nil]
  | cons item items ih =>
      obtain ⟨first, hfirst⟩ := h item List.mem_cons_self
      obtain ⟨others, hothers, hread⟩ := ih fun v hv => h v (List.mem_cons_of_mem _ hv)
      refine ⟨0x2c :: first ++ others, ?_, fun steps acc rest hsteps => ?_⟩
      · simp [encodeItems?, hfirst.encode, hothers]
      · obtain ⟨steps, rfl⟩ : ∃ k, steps = k + 1 :=
          Nat.exists_eq_succ_of_ne_zero (by rintro rfl; simp at hsteps)
        have hitem := hfirst.read (others ++ 0x5d :: rest)
          ((endsNumber_encodeItems? hothers rest).stops item)
        rw [List.append_assoc, List.cons_append, readBehindItem_comma, readItems_succ hitem,
          hread steps (item.restored :: acc) rest (by simp at hsteps; omega)]
        simp

theorem readArray_encodeItems? {items : List Value}
    (h : ∀ v ∈ items, ∃ form, Legible read v form) :
    ∃ inner, encodeItems? items = some inner ∧ ∀ rest,
      readArray read (inner.drop 1 ++ 0x5d :: rest) = some (items.map Value.restored, rest) := by
  cases items with
  | nil => exact ⟨[], rfl, readArray_close⟩
  | cons item items =>
      obtain ⟨first, hfirst⟩ := h item List.mem_cons_self
      obtain ⟨others, hothers, hread⟩ :=
        readBehindItem_encodeItems? fun v hv => h v (List.mem_cons_of_mem _ hv)
      refine ⟨0x2c :: first ++ others, ?_, fun rest => ?_⟩
      · simp [encodeItems?, hfirst.encode, hothers]
      · have hitem := hfirst.read (others ++ 0x5d :: rest)
          ((endsNumber_encodeItems? hothers rest).stops item)
        obtain ⟨b, tail, rfl, hblank, hclose, -⟩ := exists_head_of_encode? hfirst.encode
        have hbytes : (0x2c :: (b :: tail) ++ others).drop 1 ++ 0x5d :: rest =
            b :: (tail ++ (others ++ 0x5d :: rest)) := by simp
        rw [List.cons_append] at hitem
        rw [hbytes, readArray, skipBlanks_cons hblank]
        split
        · next heq => exact absurd (List.cons.inj heq).1 hclose
        · rw [List.length_cons, readItems_succ hitem, hread _ _ _ (by simp; omega)]
          simp

end Arrays

section Objects

variable {σ : Type} {member : σ → List UInt8 → Option (σ × List UInt8)} {state last : σ}
  {inner : List UInt8}

/-- Some bytes take a reader of members from one state to another, each member behind a comma. -/
inductive Members (member : σ → List UInt8 → Option (σ × List UInt8)) : σ → List UInt8 → σ → Prop
  | nil {state : σ} : Members member state [] state
  | cons {state next last : σ} {form others : List UInt8}
      (hread : ∀ rest, EndsNumber rest →
        member state (quoteMark :: form ++ rest) = some (next, rest))
      (hothers : Members member next others last) :
      Members member state (0x2c :: quoteMark :: form ++ others) last

/-- What is left to do in an object behind one of its members. -/
def readBehindMember (member : σ → List UInt8 → Option (σ × List UInt8)) (steps : Nat) (state : σ)
    (bytes : List UInt8) : Option (σ × List UInt8) :=
  match skipBlanks bytes with
  | 0x2c :: rest => readMembers member steps state rest
  | 0x7d :: rest => some (state, rest)
  | _ => none

theorem readBehindMember_comma (steps : Nat) (rest : List UInt8) :
    readBehindMember member steps state (0x2c :: rest) = readMembers member steps state rest :=
  rfl

theorem readBehindMember_close (steps : Nat) (rest : List UInt8) :
    readBehindMember member steps state (0x7d :: rest) = some (state, rest) :=
  rfl

theorem readObject_close (rest : List UInt8) :
    readObject member state (0x7d :: rest) = some (state, rest) :=
  rfl

theorem readMembers_succ {next : σ} {form rest : List UInt8}
    (h : member state (quoteMark :: form) = some (next, rest)) (steps : Nat) :
    readMembers member (steps + 1) state (quoteMark :: form) =
      readBehindMember member steps next rest := by
  have hskip : skipBlanks (quoteMark :: form) = quoteMark :: form := skipBlanks_cons (by decide)
  rw [readMembers, hskip, h]
  rfl

theorem Members.endsNumber (h : Members member state inner last) (rest : List UInt8) :
    EndsNumber (inner ++ 0x7d :: rest) := by
  cases h with
  | nil | cons => exact endsNumber_cons (by decide)

theorem Members.readBehindMember (h : Members member state inner last) {steps : Nat}
    (hsteps : inner.length ≤ steps) (rest : List UInt8) :
    readBehindMember member steps state (inner ++ 0x7d :: rest) = some (last, rest) := by
  induction h generalizing steps with
  | nil => exact readBehindMember_close steps rest
  | @cons state next last form others hread hothers ih =>
      obtain ⟨steps, rfl⟩ : ∃ k, steps = k + 1 :=
        Nat.exists_eq_succ_of_ne_zero (by rintro rfl; simp at hsteps)
      have hmember := hread (others ++ 0x7d :: rest) (hothers.endsNumber rest)
      rw [List.cons_append] at hmember
      rw [List.append_assoc, List.cons_append, List.cons_append, readBehindMember_comma,
        readMembers_succ hmember]
      exact ih (by simp at hsteps; omega)

theorem Members.readObject (h : Members member state inner last) (rest : List UInt8) :
    readObject member state (inner.drop 1 ++ 0x7d :: rest) = some (last, rest) := by
  cases h with
  | nil => exact readObject_close rest
  | @cons _ next _ form others hread hothers =>
      have hmember := hread (others ++ 0x7d :: rest) (hothers.endsNumber rest)
      rw [List.cons_append] at hmember
      have hbytes : (0x2c :: quoteMark :: form ++ others).drop 1 ++ 0x7d :: rest =
          quoteMark :: (form ++ (others ++ 0x7d :: rest)) := by simp
      have hskip : skipBlanks (quoteMark :: (form ++ (others ++ 0x7d :: rest))) =
          quoteMark :: (form ++ (others ++ 0x7d :: rest)) := skipBlanks_cons (by decide)
      rw [hbytes, Json.readObject, hskip]
      split
      · next heq => exact absurd (List.cons.inj heq).1 (by decide)
      · rw [List.length_cons, readMembers_succ hmember]
        exact hothers.readBehindMember (by simp; omega) rest

theorem readColon?_cons (rest : List UInt8) : readColon? (0x3a :: rest) = some rest := rfl

theorem readKey?_encodeKey? {key : KeyShape} {value : Value} (h : KeyFits key value) :
    ∃ content, encodeKey? value = some (quoteMark :: content) ∧
      ∀ rest, readKey? key (quoteMark :: content ++ rest) = some (value, rest) := by
  cases h with
  | @int kind n hholds =>
      refine ⟨writeInt n ++ [quoteMark], ?_, fun rest => ?_⟩
      · rw [encodeKey?, quote_writeInt]
        rfl
      · have hopen : quoteMark :: (writeInt n ++ [quoteMark]) ++ rest =
            [quoteMark] ++ (writeInt n ++ ([quoteMark] ++ rest)) := by simp
        have hnumber : readIntOf? kind (writeInt n ++ ([quoteMark] ++ rest)) =
            some (.int n, [quoteMark] ++ rest) :=
          readIntOf?_writeInt hholds (endsNumber_cons (by decide))
        simp only [readKey?, hopen, after?_append, hnumber, Option.bind_eq_bind, Option.bind_some,
          Option.pure_def]
  | @text s =>
      refine ⟨(textBytes s).flatMap escape ++ [quoteMark], rfl, fun rest => ?_⟩
      have hquote : quoteMark :: ((textBytes s).flatMap escape ++ [quoteMark]) ++ rest =
          quote (textBytes s) ++ rest := rfl
      simp only [readKey?, hquote, readText?_quote, Option.bind_eq_bind, Option.bind_some,
        Option.pure_def]

theorem members_encodeEntries? {key : KeyShape} {read : Reader} {entries : List (Value × Value)}
    (hkeys : ∀ e ∈ entries, KeyFits key e.1) (hitems : ∀ e ∈ entries, ∃ form, Legible read e.2 form)
    (front : List (Value × Value)) (hordered : OrderedEntries Value.keyLt (front ++ entries)) :
    ∃ inner, encodeEntries? entries = some inner ∧
      Members (readEntry key read) front inner
        (front ++ entries.map fun e => (e.1, e.2.restored)) := by
  induction entries generalizing front with
  | nil => exact ⟨[], rfl, by rw [List.map_nil, List.append_nil]; exact .nil⟩
  | cons entry entries ih =>
      obtain ⟨k, item⟩ := entry
      have hlast : insertEntry Value.keyLt k item.restored front = front ++ [(k, item.restored)] :=
        insertEntry_last Value.keyLt_asymm fun e he =>
          (List.pairwise_append.1 hordered).2.2 e he (k, item) List.mem_cons_self
      obtain ⟨content, hcontent, hkey⟩ := readKey?_encodeKey? (hkeys (k, item) List.mem_cons_self)
      obtain ⟨first, hfirst⟩ := hitems (k, item) List.mem_cons_self
      obtain ⟨others, hothers, hmembers⟩ := ih (fun e he => hkeys e (List.mem_cons_of_mem _ he))
        (fun e he => hitems e (List.mem_cons_of_mem _ he)) (front ++ [(k, item.restored)])
        (orderedEntries_replace hordered _)
      refine ⟨0x2c :: quoteMark :: (content ++ 0x3a :: first) ++ others, ?_, ?_⟩
      · simp [encodeEntries?, hcontent, hfirst.encode, hothers]
      · rw [List.map_cons, List.append_cons front]
        refine .cons (fun rest hrest => ?_) hmembers
        have hbytes : quoteMark :: (content ++ 0x3a :: first) ++ rest =
            quoteMark :: content ++ 0x3a :: (first ++ rest) := by simp
        simp only [readEntry, hbytes, hkey, readColon?_cons, hfirst.read rest (hrest.stops item),
          hlast, Option.bind_eq_bind, Option.bind_some, Option.pure_def]

theorem members_encodeFields? {read : Shape → Reader} {front todo : Schema}
    {fields : List (String × Value)} {items : List Value}
    (hnames : fields.map Prod.fst = todo.map Field.name)
    (hdistinct : ((front ++ todo).map Field.name).Nodup)
    (hread : ∀ p ∈ todo.zip fields, ∃ form, Legible (read p.1.shape) p.2.2 form)
    (hitems : items.length = front.length) :
    ∃ inner, encodeFields? fields = some inner ∧
      Members (readField (front ++ todo) read) (items.map some ++ todo.map fun _ => none) inner
        (items.map some ++ fields.map (some ·.2.restored)) := by
  induction todo generalizing front fields items with
  | nil =>
      obtain rfl : fields = [] := by
        simpa using hnames
      exact ⟨[], rfl, .nil⟩
  | cons field todo ih =>
      obtain ⟨item, fields, rfl, htail⟩ := Schema.exists_field hnames
      obtain ⟨first, hfirst⟩ := hread (field, (field.name, item)) (by simp)
      obtain ⟨others, hothers, hmembers⟩ := @ih (front ++ [field]) fields
        (items ++ [item.restored]) htail (by simpa using hdistinct)
        (fun p hp => hread p (List.mem_cons_of_mem _ hp)) (by simp [hitems])
      have hindex : (front ++ field :: todo).findIdx (fun f => f.name == field.name) =
          front.length :=
        Schema.findIdx_field (fun f hf => beq_eq_false_iff_ne.2 (Schema.name_ne hdistinct f hf))
          (beq_self_eq_true _)
      rw [List.map_cons, List.map_cons]
      refine ⟨0x2c :: quote (textBytes field.name) ++ 0x3a :: first ++ others, ?_, ?_⟩
      · simp [encodeFields?, hfirst.encode, hothers]
      · have hform : 0x2c :: quote (textBytes field.name) ++ 0x3a :: first ++ others =
            0x2c :: quoteMark :: ((textBytes field.name).flatMap escape ++
              quoteMark :: 0x3a :: first) ++ others := by simp [quote]
        have hbehind : Members (readField (front ++ field :: todo) read)
            ((items ++ [item.restored]).map some ++ todo.map fun _ => none) others
            (items.map some ++ some item.restored :: fields.map (some ·.2.restored)) := by
          simpa using hmembers
        rw [hform]
        refine .cons (fun rest hrest => ?_) hbehind
        have hbytes : quoteMark :: ((textBytes field.name).flatMap escape ++
            quoteMark :: 0x3a :: first) ++ rest =
              quote (textBytes field.name) ++ 0x3a :: (first ++ rest) := by simp [quote]
        simp only [readField, hbytes, readText?_quote, readColon?_cons, hindex,
          getElem?_places hitems, set_places hitems, hfirst.read rest (hrest.stops item),
          List.getElem?_append_right (Nat.le_refl _), Nat.sub_self, List.getElem?_cons_zero,
          Option.bind_eq_bind, Option.bind_some, Option.pure_def]

end Objects

end MessageChannel.Json
