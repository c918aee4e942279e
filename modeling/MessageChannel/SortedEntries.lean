namespace MessageChannel

variable {κ ν : Type} {lt : κ → κ → Bool}

/-- Puts an entry where the order of keys wants it. An entry of the same key gives way. -/
def insertEntry (lt : κ → κ → Bool) (key : κ) (item : ν) : List (κ × ν) → List (κ × ν)
  | [] => [(key, item)]
  | (k, v) :: entries =>
      if lt key k then (key, item) :: (k, v) :: entries
      else if lt k key then (k, v) :: insertEntry lt key item entries
      else (key, item) :: entries

abbrev OrderedEntries (lt : κ → κ → Bool) (entries : List (κ × ν)) : Prop :=
  entries.Pairwise (fun a b => lt a.1 b.1)

theorem fst_mem_of_mem_insertEntry {key : κ} {item : ν} {entries : List (κ × ν)} {e : κ × ν}
    (h : e ∈ insertEntry lt key item entries) : e.1 = key ∨ e ∈ entries := by
  induction entries with
  | nil => exact .inl (by simp_all [insertEntry])
  | cons head entries ih =>
      obtain ⟨k, v⟩ := head
      simp only [insertEntry] at h
      split at h
      · rcases List.mem_cons.1 h with rfl | h
        · exact .inl rfl
        · exact .inr h
      · split at h
        · rcases List.mem_cons.1 h with rfl | h
          · exact .inr List.mem_cons_self
          · exact (ih h).imp_right (List.mem_cons_of_mem _)
        · rcases List.mem_cons.1 h with rfl | h
          · exact .inl rfl
          · exact .inr (List.mem_cons_of_mem _ h)

/-- Insertion keeps the order, if the order of keys is transitive and two keys neither of which
comes first are one key. -/
theorem OrderedEntries.insertEntry (trans : ∀ a b c : κ, lt a b → lt b c → lt a c)
    (total : ∀ a b : κ, ¬lt a b → ¬lt b a → a = b) {key : κ} {item : ν} {entries : List (κ × ν)}
    (h : OrderedEntries lt entries) : OrderedEntries lt (insertEntry lt key item entries) := by
  induction entries with
  | nil => simp [MessageChannel.insertEntry]
  | cons head entries ih =>
      obtain ⟨k, v⟩ := head
      obtain ⟨hk, hrest⟩ := List.pairwise_cons.1 h
      simp only [MessageChannel.insertEntry]
      split
      · next hlt =>
        refine List.pairwise_cons.2 ⟨fun e he => ?_, h⟩
        rcases List.mem_cons.1 he with rfl | he
        · exact hlt
        · exact trans _ _ _ hlt (hk e he)
      · next hnot =>
        split
        · next hlt =>
          refine List.pairwise_cons.2 ⟨fun e he => ?_, ih hrest⟩
          rcases fst_mem_of_mem_insertEntry he with he | he
          · rw [he]; exact hlt
          · exact hk e he
        · next hnot' =>
          obtain rfl := total _ _ hnot hnot'
          exact List.pairwise_cons.2 ⟨hk, hrest⟩

end MessageChannel
