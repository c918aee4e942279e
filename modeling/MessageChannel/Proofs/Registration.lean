import Mathlib.Algebra.Group.Nat.Defs
import Mathlib.Data.List.Nodup
import Mathlib.Data.List.Perm.Subperm
import MessageChannel.Registry

namespace MessageChannel

section Keyed

variable {α κ ν : Type}

/-- Where no two items have the same key, a search by key finds the item that has it. -/
theorem find?_key_eq_some_iff [BEq κ] [LawfulBEq κ] {key : α → κ} {items : List α}
    (h : (items.map key).Nodup) {k : κ} {a : α} :
    items.find? (key · == k) = some a ↔ a ∈ items ∧ key a = k := by
  constructor
  · intro hfind
    exact ⟨List.mem_of_find?_eq_some hfind, by simpa using List.find?_some hfind⟩
  · rintro ⟨ha, rfl⟩
    induction items with
    | nil => cases ha
    | cons b items ih =>
        obtain ⟨hb, hitems⟩ := List.nodup_cons.1 h
        rcases List.mem_cons.1 ha with rfl | ha
        · simp
        · have hne : key b ≠ key a := fun heq => hb (heq ▸ List.mem_map_of_mem ha)
          rw [List.find?_cons_of_neg (by simpa using hne)]
          exact ih hitems ha

theorem lookup_eq_map_find? [BEq κ] [LawfulBEq κ] (entries : List (κ × ν)) (k : κ) :
    entries.lookup k = (entries.find? (·.1 == k)).map (·.2) := by
  induction entries with
  | nil => rfl
  | cons entry entries ih =>
      obtain ⟨id, item⟩ := entry
      rw [List.lookup_cons, List.find?_cons, BEq.comm]
      cases id == k with
      | true => rfl
      | false => exact ih

theorem OrderedEntries.nodup {lt : κ → κ → Bool} (irrefl : ∀ a : κ, ¬lt a a)
    {entries : List (κ × ν)} (h : OrderedEntries lt entries) : (entries.map (·.1)).Nodup := by
  refine List.pairwise_map.2 (h.imp fun hlt heq => ?_)
  rw [heq] at hlt
  exact irrefl _ hlt

/-- What is in the list after an insertion: the new entry, and the old ones of other keys. -/
theorem OrderedEntries.mem_insertEntry_iff {lt : κ → κ → Bool} (irrefl : ∀ a : κ, ¬lt a a)
    (trans : ∀ a b c : κ, lt a b → lt b c → lt a c)
    (total : ∀ a b : κ, ¬lt a b → ¬lt b a → a = b) {key : κ} {item : ν} {entries : List (κ × ν)}
    (h : OrderedEntries lt entries) {e : κ × ν} :
    e ∈ MessageChannel.insertEntry lt key item entries ↔
      e = (key, item) ∨ e ∈ entries ∧ e.1 ≠ key := by
  have hne : ∀ {a b : κ}, lt a b → b ≠ a := fun hlt heq => irrefl _ (heq ▸ hlt)
  induction entries with
  | nil => simp [MessageChannel.insertEntry]
  | cons head entries ih =>
      obtain ⟨k, v⟩ := head
      obtain ⟨hk, hrest⟩ := List.pairwise_cons.1 h
      simp only [MessageChannel.insertEntry]
      split
      · next hlt =>
        have hothers : ∀ e ∈ (k, v) :: entries, e.1 ≠ key := by
          intro e he
          rcases List.mem_cons.1 he with rfl | he
          · exact hne hlt
          · exact hne (trans _ _ _ hlt (hk e he))
        rw [List.mem_cons]
        exact or_congr_right ⟨fun he => ⟨he, hothers e he⟩, And.left⟩
      · next hnot =>
        split
        · next hlt =>
          rw [List.mem_cons, List.mem_cons]
          refine (or_congr_right (ih hrest)).trans ?_
          constructor
          · rintro (rfl | rfl | ⟨he, hkey⟩)
            · exact .inr ⟨.inl rfl, fun heq => hne hlt heq.symm⟩
            · exact .inl rfl
            · exact .inr ⟨.inr he, hkey⟩
          · rintro (rfl | ⟨rfl | he, hkey⟩)
            · exact .inr (.inl rfl)
            · exact .inl rfl
            · exact .inr (.inr ⟨he, hkey⟩)
        · next hnot' =>
          obtain rfl := total _ _ hnot hnot'
          rw [List.mem_cons, List.mem_cons]
          constructor
          · rintro (rfl | he)
            · exact .inl rfl
            · exact .inr ⟨.inr he, hne (hk e he)⟩
          · rintro (rfl | ⟨rfl | he, hkey⟩)
            · exact .inl rfl
            · exact absurd rfl hkey
            · exact .inr he

end Keyed

namespace PeerTable

theorem idLt_irrefl (a : UInt32) : ¬idLt a a := by simp [idLt]

theorem mem_insert {t : PeerTable} {id : UInt32} {name : String} {e : UInt32 × String} :
    e ∈ (t.insert id name).entries ↔ e = (id, name) ∨ e ∈ t.entries ∧ e.1 ≠ id := by
  refine t.ordered.mem_insertEntry_iff idLt_irrefl (fun a b c => ?_) (fun a b => ?_)
  · simp only [idLt, decide_eq_true_eq]
    exact UInt32.lt_trans
  · simp only [idLt, decide_eq_true_eq, UInt32.not_lt]
    exact fun hba hab => UInt32.le_antisymm hab hba

theorem mem_foldl_insert {entries : List (UInt32 × String)} (h : (entries.map (·.1)).Nodup)
    {t : PeerTable} {e : UInt32 × String} :
    e ∈ (entries.foldl (fun t (id, name) => t.insert id name) t).entries ↔
      e ∈ entries ∨ e ∈ t.entries ∧ e.1 ∉ entries.map (·.1) := by
  induction entries generalizing t with
  | nil => simp
  | cons entry entries ih =>
      obtain ⟨hnew, hentries⟩ := List.nodup_cons.1 h
      rw [List.foldl_cons, ih hentries, mem_insert, List.map_cons, List.mem_cons, List.mem_cons,
        not_or]
      constructor
      · rintro (he | ⟨rfl | ⟨he, hkey⟩, hrest⟩)
        · exact .inl (.inr he)
        · exact .inl (.inl rfl)
        · exact .inr ⟨he, hkey, hrest⟩
      · rintro ((rfl | he) | ⟨he, hkey, hrest⟩)
        · exact .inr ⟨.inl rfl, hnew⟩
        · exact .inl he
        · exact .inr ⟨.inr ⟨he, hkey⟩, hrest⟩

/-- A table of entries of different ids has just these. -/
theorem mem_ofEntries {version : UInt32} {entries : List (UInt32 × String)}
    (h : (entries.map (·.1)).Nodup) {e : UInt32 × String} :
    e ∈ (ofEntries version entries).entries ↔ e ∈ entries := by
  rw [ofEntries, mem_foldl_insert h]
  simp

/-- A table holds nothing but what it is made of. -/
theorem entries_ofEntries_subset (version : UInt32) (entries : List (UInt32 × String)) :
    (ofEntries version entries).entries ⊆ entries := by
  have hfold : ∀ (t : PeerTable) e,
      e ∈ (entries.foldl (fun t (id, name) => t.insert id name) t).entries →
        e ∈ entries ∨ e ∈ t.entries := by
    induction entries with
    | nil => exact fun _ _ he => .inr he
    | cons entry entries ih =>
        intro t e he
        rcases ih _ e he with hlater | hnow
        · exact .inl (List.mem_cons_of_mem _ hlater)
        · rcases mem_insert.1 hnow with rfl | ⟨hbefore, -⟩
          · exact .inl List.mem_cons_self
          · exact .inr hbefore
  exact fun e he => (hfold _ e he).resolve_right (List.not_mem_nil)

/-- A table of ids below a bound has no more entries than there are such ids. -/
theorem size_le_of_ids {t : PeerTable} {bound : Nat} (h : ∀ e ∈ t.entries, e.1.toNat < bound) :
    t.size ≤ bound := by
  have hnodup : (t.entries.map fun e => e.1.toNat).Nodup := by
    have hids := (t.ordered.nodup idLt_irrefl).map fun _ _ => UInt32.toNat_inj.1
    rwa [List.map_map] at hids
  have hsubset : (t.entries.map fun e => e.1.toNat) ⊆ List.range bound := by
    intro id hid
    obtain ⟨e, he, rfl⟩ := List.mem_map.1 hid
    exact List.mem_range.2 (h e he)
  have hle := (List.subperm_of_subset hnodup hsubset).length_le
  rwa [List.length_map, List.length_range] at hle

theorem version_ofEntries (version : UInt32) (entries : List (UInt32 × String)) :
    (ofEntries version entries).version = version := by
  have hfold : ∀ t : PeerTable, (entries.foldl (fun t (id, name) => t.insert id name) t).version =
      t.version := by
    induction entries with
    | nil => exact fun _ => rfl
    | cons entry entries ih => exact fun t => ih _
  exact hfold _

/-- The table names the ids of its entries. -/
theorem nameOf?_eq_some_iff {t : PeerTable} {typeId : Int32} {name : String} :
    t.nameOf? typeId = some name ↔ 0 ≤ typeId ∧ (typeId.toUInt32, name) ∈ t.entries := by
  have hnodup := t.ordered.nodup idLt_irrefl
  rw [nameOf?]
  split
  · next hpos =>
    simp only [lookup_eq_map_find?, Option.map_eq_some_iff, find?_key_eq_some_iff hnodup, hpos,
      true_and]
    constructor
    · rintro ⟨e, ⟨he, hid⟩, rfl⟩
      rwa [← hid]
    · exact fun he => ⟨_, ⟨he, rfl⟩, rfl⟩
  · next hneg => simp [hneg]

end PeerTable

/-- A type is the one that an id of the peer's stands for: it has the name that the peer's table has
for the id, or the id itself if that is reserved or has no name in the table. -/
def Registration.StandsFor {μ : Type} (entry : Registration μ) (typeId : Int32)
    (told : PeerTable) : Prop :=
  if isReserved typeId then entry.typeId = typeId
  else match told.nameOf? typeId with
    | some name => entry.name = name
    | none => entry.typeId = typeId

namespace Registry

variable {μ : Type}

/-- No two entries have the same id or the same name, and a name leads to the id of its entry. -/
structure Distinct (r : Registry μ) : Prop where
  ids : (r.entries.map (·.typeId)).Nodup
  names : (r.entries.map (·.name)).Nodup
  named : ∀ {name typeId}, r.idOfName? name = some typeId ↔
    ∃ entry ∈ r.entries, entry.name = name ∧ entry.typeId = typeId

section Lookup

variable {r : Registry μ} {typeId : Int32} {name : String} {entry : Registration μ} {m : μ}

theorem Distinct.find?_eq_some_iff (h : r.Distinct) :
    r.find? typeId = some entry ↔ entry ∈ r.entries ∧ entry.typeId = typeId :=
  find?_key_eq_some_iff h.ids

theorem Distinct.nameOf?_eq_some_iff (h : r.Distinct) :
    r.nameOf? typeId = some name ↔
      ∃ entry ∈ r.entries, entry.typeId = typeId ∧ entry.name = name := by
  simp [nameOf?, Option.map_eq_some_iff, h.find?_eq_some_iff, and_assoc]

theorem Distinct.create?_eq_some_iff (h : r.Distinct) :
    r.create? typeId = some m ↔
      ∃ entry ∈ r.entries, entry.typeId = typeId ∧ entry.create entry.typeId = m := by
  simp only [create?, Option.map_eq_some_iff, h.find?_eq_some_iff, and_assoc]
  refine exists_congr fun entry => and_congr_right fun _ => and_congr_right ?_
  rintro rfl
  rfl

/-- A message by name comes from the entry of that name, and is of that entry's id. -/
theorem Distinct.createByName?_eq_some_iff (h : r.Distinct) :
    r.createByName? name = some m ↔
      ∃ entry ∈ r.entries, entry.name = name ∧ entry.create entry.typeId = m := by
  simp only [createByName?, create?, Option.bind_eq_some_iff, Option.map_eq_some_iff, h.named,
    h.find?_eq_some_iff]
  constructor
  · rintro ⟨_, ⟨entry, hentry, hname, rfl⟩, entry', ⟨hentry', hid⟩, rfl⟩
    obtain rfl := List.inj_on_of_nodup_map h.ids hentry' hentry hid
    exact ⟨entry', hentry, hname, rfl⟩
  · rintro ⟨entry, hentry, hname, rfl⟩
    exact ⟨entry.typeId, ⟨entry, hentry, hname, rfl⟩, entry, ⟨hentry, rfl⟩, rfl⟩

theorem contains_iff : r.contains typeId = true ↔ typeId ∈ r.entries.map (·.typeId) := by
  simp [contains, find?, List.find?_isSome]

theorem Distinct.idOfName?_eq_none_iff (h : r.Distinct) :
    r.idOfName? name = none ↔ name ∉ r.entries.map (·.name) := by
  rw [Option.eq_none_iff_forall_ne_some, List.mem_map]
  constructor
  · rintro hnone ⟨entry, hentry, hname⟩
    exact hnone entry.typeId (h.named.2 ⟨entry, hentry, hname, rfl⟩)
  · rintro hnone typeId hsome
    obtain ⟨entry, hentry, hname, -⟩ := h.named.1 hsome
    exact hnone ⟨entry, hentry, hname⟩

end Lookup

section Free

theorem taken_of_firstFree {taken : Int32 → Bool} {steps : Nat} {typeId : Int32}
    (h : taken (firstFree taken steps typeId) = true) :
    ∀ k ≤ steps, taken (typeId + .ofNat k) = true := by
  induction steps generalizing typeId with
  | zero =>
      intro k hk
      obtain rfl := Nat.le_zero.1 hk
      simpa [firstFree] using h
  | succ steps ih =>
      rw [firstFree] at h
      split at h
      · next htaken =>
        intro k hk
        cases k with
        | zero => simpa using htaken
        | succ k =>
            have hstep := ih h k (Nat.le_of_succ_le_succ hk)
            rw [Int32.ofNat_add]
            rwa [Int32.add_assoc, Int32.add_comm 1] at hstep
      · next hfree => exact absurd h hfree

theorem ofNat_inj {a b : Nat} (ha : a < Int32.size) (hb : b < Int32.size)
    (h : Int32.ofNat a = Int32.ofNat b) : a = b := by
  have hbits := congrArg (fun typeId : Int32 => typeId.toBitVec.toNat) h
  simp only [Int32.toBitVec_ofNat', BitVec.toNat_ofNat] at hbits
  rwa [Nat.mod_eq_of_lt ha, Nat.mod_eq_of_lt hb] at hbits

/-- From any id on, one of the next ids is not among those listed, as there are too few of them. -/
theorem exists_unlisted {ids : List Int32} (hroom : ids.length < Int32.size) (start : Int32) :
    ∃ k ≤ ids.length, start + Int32.ofNat k ∉ ids := by
  by_contra hall
  have hnodup : ((List.range (ids.length + 1)).map fun k => start + Int32.ofNat k).Nodup := by
    refine List.Nodup.map_on ?_ List.nodup_range
    intro a ha b hb heq
    rw [List.mem_range] at ha hb
    exact ofNat_inj (by omega) (by omega) ((Int32.add_right_inj _).1 heq)
  have hsubset : ((List.range (ids.length + 1)).map fun k => start + Int32.ofNat k) ⊆ ids := by
    intro id hid
    obtain ⟨k, hk, rfl⟩ := List.mem_map.1 hid
    by_contra hunlisted
    exact hall ⟨k, Nat.le_of_lt_succ (List.mem_range.1 hk), hunlisted⟩
  have hle := (List.subperm_of_subset hnodup hsubset).length_le
  rw [List.length_map, List.length_range] at hle
  exact absurd hle (Nat.not_succ_le_self _)

/-- As long as not all ids are taken, the search for a free one finds one. -/
theorem contains_freeId {r : Registry μ} (hroom : r.size < Int32.size) :
    r.contains r.freeId = false := by
  by_contra htaken
  have hall := taken_of_firstFree (Bool.not_eq_false _ ▸ htaken)
  have hlength : (r.entries.map (·.typeId)).length = r.size := List.length_map _
  rw [← hlength] at hroom
  obtain ⟨k, hk, hfree⟩ := exists_unlisted hroom r.nextId
  rw [hlength] at hk
  exact hfree (contains_iff.1 (hall k hk))

end Free

variable {r : Registry μ}

theorem not_contains_iff {typeId : Int32} :
    r.contains typeId = false ↔ typeId ∉ r.entries.map (·.typeId) := by
  rw [← contains_iff, Bool.not_eq_true]

/-- Under an id that is free, no entry gives way. -/
theorem entries_add {typeId : Int32} (name : String) (create : Int32 → μ)
    (hid : r.contains typeId = false) :
    (r.add typeId name create).entries = r.entries ++ [⟨typeId, name, create⟩] := by
  have hkept : r.entries.filter (·.typeId != typeId) = r.entries := by
    refine List.filter_eq_self.2 fun entry hentry => bne_iff_ne.2 fun heq => ?_
    exact not_contains_iff.1 hid (heq ▸ List.mem_map_of_mem hentry)
  rw [add, hkept]

theorem idOfName?_add (typeId : Int32) (name : String) (create : Int32 → μ) (other : String) :
    (r.add typeId name create).idOfName? other =
      if other = name then some typeId else r.idOfName? other := by
  simp only [idOfName?, add, List.lookup_cons]
  split <;> simp_all

theorem Distinct.add (h : r.Distinct) {typeId : Int32} {name : String} (create : Int32 → μ)
    (hid : r.contains typeId = false) (hname : r.idOfName? name = none) :
    (r.add typeId name create).Distinct := by
  have hid' := not_contains_iff.1 hid
  have hname' := h.idOfName?_eq_none_iff.1 hname
  constructor
  · rw [entries_add name create hid, List.map_append]
    exact List.nodup_append.2 ⟨h.ids, List.nodup_singleton _, by simpa using hid'⟩
  · rw [entries_add name create hid, List.map_append]
    exact List.nodup_append.2 ⟨h.names, List.nodup_singleton _, by simpa using hname'⟩
  · intro other typeId'
    rw [idOfName?_add, entries_add name create hid]
    by_cases hother : other = name
    · subst hother
      have hnone : ∀ entry ∈ r.entries, entry.name ≠ other := by simpa using hname'
      rw [if_pos rfl, Option.some.injEq]
      constructor
      · rintro rfl
        exact ⟨_, List.mem_append_right _ List.mem_cons_self, rfl, rfl⟩
      · rintro ⟨entry, hentry, hsame, rfl⟩
        rcases List.mem_append.1 hentry with hentry | hentry
        · exact absurd hsame (hnone entry hentry)
        · rw [List.mem_singleton.1 hentry]
    · rw [if_neg hother, h.named]
      constructor
      · rintro ⟨entry, hentry, hsame⟩
        exact ⟨entry, List.mem_append_left _ hentry, hsame⟩
      · rintro ⟨entry, hentry, hsame⟩
        rcases List.mem_append.1 hentry with hentry | hentry
        · exact ⟨entry, hentry, hsame⟩
        · rw [List.mem_singleton.1 hentry] at hsame
          exact absurd hsame.1.symm hother

theorem Distinct.congr {r' : Registry μ} (h : r.Distinct) (hentries : r'.entries = r.entries)
    (hnames : r'.nameIds = r.nameIds) : r'.Distinct := by
  refine ⟨hentries ▸ h.ids, hentries ▸ h.names, fun {name typeId} => ?_⟩
  rw [idOfName?, hnames, hentries]
  exact h.named

theorem Distinct.addType (h : r.Distinct) (ident : String) (typeId : Int32) :
    (r.addType ident typeId).Distinct := h.congr rfl rfl

theorem Distinct.addFree (h : r.Distinct) (name : String) (create : Int32 → μ)
    (hname : r.idOfName? name = none) (hroom : r.size < Int32.size) :
    (r.addFree name create).2.Distinct := by
  exact (h.add create (contains_freeId hroom) hname).congr rfl rfl

/-- The registries that come about by registrations. A name that is new needs an id, and the search
for one ends unless all are taken. -/
inductive Built [Message μ] : Registry μ → Prop
  | ofVersion (version : UInt32) : Built (.ofVersion version)
  | register {r : Registry μ} (hr : Built r) (c : Candidate μ)
      (hroom : r.idOfName? c.name = none → r.size < Int32.size) : Built (r.register c).2.2
  | registerWith {r : Registry μ} (hr : Built r) (name : String) (create : Int32 → μ)
      (hroom : r.idOfName? name = none → r.size < Int32.size) :
      Built (r.registerWith name create).2

theorem Distinct.register (h : r.Distinct) (c : Candidate μ)
    (hroom : r.idOfName? c.name = none → r.size < Int32.size) : (r.register c).2.2.Distinct := by
  cases hname : r.idOfName? c.name with
  | some typeId =>
      simp only [Registry.register, hname]
      split
      · exact h
      · exact h.addType c.ident typeId
  | none =>
      have hautomatic := h.addFree c.name c.create hname (hroom hname)
      cases hfixed : c.fixedId with
      | none =>
          simp only [Registry.register, hname, hfixed]
          exact hautomatic.addType c.ident _
      | some fixed =>
          cases hholder : r.nameOf? fixed with
          | some holder =>
              simp only [Registry.register, hname, hfixed, hholder]
              exact hautomatic.addType c.ident _
          | none =>
              have hfree : r.contains fixed = false := by
                simpa [nameOf?, contains] using hholder
              simp only [Registry.register, hname, hfixed, hholder]
              exact (h.add c.create hfree hname).addType c.ident fixed

theorem Distinct.registerWith (h : r.Distinct) (name : String) (create : Int32 → μ)
    (hroom : r.idOfName? name = none → r.size < Int32.size) :
    (r.registerWith name create).2.Distinct := by
  cases hname : r.idOfName? name with
  | some typeId => simpa only [Registry.registerWith, hname] using h
  | none =>
      simp only [Registry.registerWith, hname]
      exact h.addFree name create hname (hroom hname)

theorem distinct_ofVersion [Message μ] (version : UInt32) :
    (ofVersion version : Registry μ).Distinct := by
  have hempty : ({ version } : Registry μ).Distinct := ⟨.nil, .nil, by simp [idOfName?]⟩
  have htable := @Distinct.add _ _ hempty tableTypeId PeerTable.messageType.name
    (fun id => Message.ofTable id .empty) rfl rfl
  exact (htable.addType PeerTable.messageType.ident tableTypeId).add (fun _ => Message.ofRaw {})
    rfl rfl

theorem Built.distinct [Message μ] (h : r.Built) : r.Distinct := by
  induction h with
  | ofVersion version => exact distinct_ofVersion version
  | register hr c hroom ih => exact ih.register c hroom
  | registerWith hr name create hroom ih => exact ih.registerWith name create hroom

section Table

variable {typeId : Int32} {name : String}

theorem version_table (r : Registry μ) : r.table.version = r.version :=
  PeerTable.version_ofEntries _ _

theorem toUInt32_inj {a b : Int32} (h : a.toUInt32 = b.toUInt32) : a = b := by
  cases a
  cases b
  exact congrArg _ h

theorem toNat_toUInt32_lt {a : Int32} (h : 0 ≤ a.toInt) : a.toUInt32.toNat < 2 ^ 31 := by
  have hbits : a.toInt = a.toBitVec.toInt := rfl
  have hnat : a.toUInt32.toNat = a.toBitVec.toNat := rfl
  have hcases := a.toBitVec.toInt_eq_toNat_cond
  split at hcases <;> omega

/-- A table is never too large for its form: user ids are not negative. -/
theorem size_table_lt (r : Registry μ) : r.table.size < 2 ^ 32 := by
  refine Nat.lt_of_le_of_lt (@PeerTable.size_le_of_ids _ (2 ^ 31) fun e he => ?_) (by decide)
  obtain ⟨entry, -, hentry⟩ :=
    List.mem_filterMap.1 (PeerTable.entries_ofEntries_subset _ _ he)
  obtain ⟨huser, heq⟩ := Option.ite_none_right_eq_some.1 hentry
  obtain rfl := Option.some.inj heq
  have hpos : 0 ≤ entry.typeId.toInt :=
    Int32.le_iff_toInt_le.1 (Int32.le_trans (by decide : 0 ≤ firstUserTypeId) huser)
  exact toNat_toUInt32_lt hpos

theorem Distinct.ids_tabled (h : r.Distinct) :
    ((r.entries.filterMap fun entry =>
      if firstUserTypeId ≤ entry.typeId then some (entry.typeId.toUInt32, entry.name)
        else none).map (·.1)).Nodup := by
  rw [List.map_filterMap]
  refine List.pairwise_filterMap.2 ((List.pairwise_map.1 h.ids).imp ?_)
  intro a b hne id hid id' hid' heq
  simp only [Option.map_if, Option.ite_none_right_eq_some, Option.some.injEq] at hid hid'
  exact hne (toUInt32_inj (hid.2.trans (heq.trans hid'.2.symm)))

/-- The table that a peer is sent lists the ids from the first user id on, with their names. -/
theorem Distinct.mem_table_iff (h : r.Distinct) {id : UInt32} :
    (id, name) ∈ r.table.entries ↔
      ∃ typeId, firstUserTypeId ≤ typeId ∧ typeId.toUInt32 = id ∧ r.nameOf? typeId = some name := by
  rw [table, PeerTable.mem_ofEntries (h.ids_tabled), List.mem_filterMap]
  simp only [h.nameOf?_eq_some_iff, Option.ite_none_right_eq_some, Option.some.injEq,
    Prod.mk.injEq]
  constructor
  · rintro ⟨entry, hentry, huser, hid, hname⟩
    exact ⟨entry.typeId, huser, hid, entry, hentry, rfl, hname⟩
  · rintro ⟨_, huser, hid, entry, hentry, rfl, hname⟩
    exact ⟨entry, hentry, huser, hid, hname⟩

theorem Distinct.nameOf?_table (h : r.Distinct) (typeId : Int32) :
    r.table.nameOf? typeId = if firstUserTypeId ≤ typeId then r.nameOf? typeId else none := by
  ext name
  rw [PeerTable.nameOf?_eq_some_iff, h.mem_table_iff, Option.ite_none_right_eq_some]
  constructor
  · rintro ⟨-, typeId', huser, hid, hname⟩
    obtain rfl := toUInt32_inj hid
    exact ⟨huser, hname⟩
  · rintro ⟨huser, hname⟩
    exact ⟨Int32.le_trans (by decide) huser, typeId, huser, rfl, hname⟩

theorem Distinct.nameOf?_table_of_user (h : r.Distinct) (huser : firstUserTypeId ≤ typeId)
    (hname : r.nameOf? typeId = some name) : r.table.nameOf? typeId = some name := by
  rw [h.nameOf?_table, if_pos huser, hname]

end Table

section Resolution

variable {typeId : Int32} {name : String} {told : PeerTable}

theorem resolve?_of_reserved (hfrom : 1 ≤ typeId) (hto : typeId < firstUserTypeId) :
    r.resolve? typeId told = r.create? typeId := by
  simp [resolve?, isReserved, hfrom, hto]

theorem resolve?_of_nameOf? (huser : firstUserTypeId ≤ typeId)
    (hname : told.nameOf? typeId = some name) : r.resolve? typeId told = r.createByName? name := by
  simp [resolve?, isReserved, Int32.not_lt.2 huser, hname]

/-- An id that the peer's table does not name is one's own. -/
theorem resolve?_of_unnamed (hnone : told.nameOf? typeId = none) :
    r.resolve? typeId told = r.create? typeId := by
  simp [resolve?, hnone]

/-- An id of the peer's resolves if it stands for a registered type, and to that. -/
theorem Distinct.resolve?_eq_some_iff (h : r.Distinct) {m : μ} :
    r.resolve? typeId told = some m ↔
      ∃ entry ∈ r.entries, entry.StandsFor typeId told ∧ entry.create entry.typeId = m := by
  rw [resolve?]
  simp only [Registration.StandsFor]
  split
  · exact h.create?_eq_some_iff
  · cases told.nameOf? typeId with
    | none => exact h.create?_eq_some_iff
    | some name => exact h.createByName?_eq_some_iff

/-- By the table of a peer, an id of the peer's stands for the type that has its name. -/
theorem Distinct.standsFor_table (h : r.Distinct) {entry : Registration μ}
    (huser : firstUserTypeId ≤ typeId) (hname : r.nameOf? typeId = some entry.name) :
    entry.StandsFor typeId r.table := by
  have hnamed := h.nameOf?_table_of_user huser hname
  simp [Registration.StandsFor, isReserved, Int32.not_lt.2 huser, hnamed]

end Resolution

end Registry

end MessageChannel
