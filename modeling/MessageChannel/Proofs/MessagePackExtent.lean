import MessageChannel.Proofs.MessagePackCodec
import Mathlib.Tactic.SplitIfs

namespace MessageChannel.MessagePack

/-- Bytes that follow change nothing of what a reader makes of the bytes before them. -/
def SelfDelimiting {α : Type} (read : List UInt8 → Option (α × List UInt8)) : Prop :=
  ∀ ⦃bytes a rest⦄, read bytes = some (a, rest) → ∀ more, read (bytes ++ more) = some (a, rest ++ more)

section Readers

variable {α β : Type} {first : List UInt8 → Option (α × List UInt8)}

theorem SelfDelimiting.map (h : SelfDelimiting first) (f : α → β) :
    SelfDelimiting fun bytes => (first bytes).map fun (a, rest) => (f a, rest) := by
  intro bytes b rest hread more
  obtain ⟨⟨a, tail⟩, hfirst, heq⟩ := Option.map_eq_some_iff.1 hread
  simp only [Prod.mk.injEq] at heq
  obtain ⟨rfl, rfl⟩ := heq
  simp only [h hfirst more, Option.map_some]

theorem SelfDelimiting.bind {next : α → List UInt8 → Option (β × List UInt8)}
    (h : SelfDelimiting first) (hnext : ∀ a, SelfDelimiting (next a)) :
    SelfDelimiting fun bytes => (first bytes).bind fun (a, rest) => next a rest := by
  intro bytes b rest hread more
  obtain ⟨⟨a, tail⟩, hfirst, hrest⟩ := Option.bind_eq_some_iff.1 hread
  simp only [h hfirst more, Option.bind_some, hnext a hrest more]

theorem selfDelimiting_splitExactly? (n : Nat) : SelfDelimiting (splitExactly? n) := by
  intro bytes front rest h more
  obtain ⟨rfl, hlength⟩ := splitExactly?_eq_some_iff.1 h
  exact splitExactly?_eq_some_iff.2 ⟨List.append_assoc .., hlength⟩

theorem selfDelimiting_readNat? (width : Nat) : SelfDelimiting (readNat? width) :=
  (selfDelimiting_splitExactly? width).map ofBigEndian

theorem selfDelimiting_readSized? (width : Nat) : SelfDelimiting (readSized? width) :=
  (selfDelimiting_readNat? width).bind selfDelimiting_splitExactly?

theorem selfDelimiting_done (a : α) : SelfDelimiting fun bytes => some (a, bytes) := by
  intro bytes b rest h more
  simp only [Option.some.injEq, Prod.mk.injEq] at h
  obtain ⟨rfl, rfl⟩ := h
  rfl

theorem selfDelimiting_made (made : Option α) (f : α → β) :
    SelfDelimiting fun bytes => made.bind fun a => some (f a, bytes) := by
  cases made with
  | none =>
      intro bytes b rest h
      cases h
  | some a => exact selfDelimiting_done (f a)

theorem selfDelimiting_extended (width : Nat) : SelfDelimiting (Token.read?.extended width) :=
  (selfDelimiting_readNat? width).bind fun size =>
    (selfDelimiting_splitExactly? (size + 1)).bind fun _ => selfDelimiting_done Token.extension

theorem selfDelimiting_marked (marker : UInt8) :
    SelfDelimiting fun bytes => Token.read? (marker :: bytes) := by
  simp only [Token.read?]
  generalize marker.toNat = code
  split_ifs
  · exact selfDelimiting_done _
  · exact selfDelimiting_done _
  · exact selfDelimiting_done _
  · exact (selfDelimiting_splitExactly? _).map _
  · exact selfDelimiting_done _
  · -- A marker alone, or one with a number, a sized run of bytes or a fixed number of bytes.
    intro bytes token rest
    split
    all_goals intro h more
    all_goals first
      | exact selfDelimiting_done _ h more
      | exact (selfDelimiting_readNat? _).map _ h more
      | exact (selfDelimiting_readSized? _).map _ h more
      | exact (selfDelimiting_readNat? _).map (fun n => Token.int (ofTwosComplement _ n)) h more
      | exact (selfDelimiting_splitExactly? _).map (fun _ => Token.float) h more
      | exact (selfDelimiting_splitExactly? _).map (fun _ => Token.extension) h more
      | exact selfDelimiting_extended _ h more
      | cases h

theorem selfDelimiting_token : SelfDelimiting Token.read? := by
  intro bytes token rest h more
  cases bytes with
  | nil => cases h
  | cons marker bytes => exact selfDelimiting_marked marker h more

end Readers

section Items

variable {records : List Schema} {schema : Schema} {read : Shape → Reader}
  {skip : List UInt8 → Option (List UInt8)}

theorem selfDelimiting_readItems {read : Reader} (h : SelfDelimiting read) (n : Nat)
    (acc : List Value) : SelfDelimiting (readItems read n acc) := by
  induction n generalizing acc with
  | zero => exact selfDelimiting_done acc.reverse
  | succ n ih =>
      intro bytes items rest hitems more
      rw [readItems] at hitems ⊢
      cases hitem : read bytes with
      | none => simp [hitem] at hitems
      | some head =>
          rw [hitem] at hitems
          rw [h hitem more]
          exact ih _ hitems more

theorem selfDelimiting_readEntries {readKey readItem : Reader} (hkey : SelfDelimiting readKey)
    (hitem : SelfDelimiting readItem) (n : Nat) (acc : List (Value × Value)) :
    SelfDelimiting (readEntries readKey readItem n acc) := by
  induction n generalizing acc with
  | zero => exact selfDelimiting_done acc
  | succ n ih =>
      intro bytes entries rest hentries more
      rw [readEntries] at hentries ⊢
      cases hk : readKey bytes with
      | none => simp [hk] at hentries
      | some key =>
          obtain ⟨key, tail⟩ := key
          simp only [hk] at hentries
          simp only [hkey hk more]
          cases hi : readItem tail with
          | none => simp [hi] at hentries
          | some item =>
              simp only [hi] at hentries
              simp only [hitem hi more]
              exact ih _ hentries more

theorem selfDelimiting_readRow (hread : ∀ shape, SelfDelimiting (read shape)) (schema : Schema) :
    SelfDelimiting (readRow read schema) := by
  induction schema with
  | nil => exact selfDelimiting_done []
  | cons field schema ih =>
      exact (hread field.shape).bind fun item => ih.bind fun items =>
        selfDelimiting_done ((field.name, item) :: items)

/-- The same for what only passes over bytes. -/
def Passing (skip : List UInt8 → Option (List UInt8)) : Prop :=
  ∀ ⦃bytes rest⦄, skip bytes = some rest → ∀ more, skip (bytes ++ more) = some (rest ++ more)

theorem passing_skipItems (h : Passing skip) (n : Nat) : Passing (skipItems skip n) := by
  induction n with
  | zero =>
      intro bytes rest hrest more
      cases hrest
      rfl
  | succ n ih =>
      intro bytes rest hrest more
      rw [skipItems] at hrest ⊢
      cases hskip : skip bytes with
      | none => simp [hskip] at hrest
      | some tail =>
          simp only [hskip] at hrest
          simp only [h hskip more]
          exact ih hrest more

/-- What is passed over behind a token. -/
def skipBehind : Nat → Token → List UInt8 → Option (List UInt8)
  | depth + 1, .array n, bytes => skipItems (MessagePack.skip depth) n bytes
  | depth + 1, .map n, bytes => skipItems (MessagePack.skip depth) (2 * n) bytes
  | 0, .array _, _ | 0, .map _, _ | 0, .extension, _ => none
  | _, _, bytes => some bytes

theorem skip_eq (depth : Nat) (bytes : List UInt8) :
    MessagePack.skip depth bytes =
      (Token.read? bytes).bind fun (token, rest) => skipBehind depth token rest := by
  rw [MessagePack.skip.eq_def]
  dsimp only
  cases Token.read? bytes with
  | none => rfl
  | some head =>
      obtain ⟨token, rest⟩ := head
      cases depth <;> cases token <;> rfl

theorem passing_some : Passing some := by
  intro bytes rest h more
  cases h
  rfl

theorem passing_none : Passing fun _ => none := by
  intro bytes rest h
  cases h

theorem passing_of_behind {depth : Nat} (h : ∀ token, Passing (skipBehind depth token)) :
    Passing (MessagePack.skip depth) := by
  intro bytes rest hskip more
  rw [skip_eq] at hskip ⊢
  obtain ⟨⟨token, tail⟩, htoken, hrest⟩ := Option.bind_eq_some_iff.1 hskip
  rw [selfDelimiting_token htoken more]
  exact h token hrest more

theorem passing_skip (depth : Nat) : Passing (MessagePack.skip depth) := by
  induction depth with
  | zero =>
      refine passing_of_behind fun token => ?_
      cases token with
      | array | map | extension => exact passing_none
      | nil | bool | nat | int | float | text | blob => exact passing_some
  | succ depth ih =>
      refine passing_of_behind fun token => ?_
      cases token with
      | array n => exact passing_skipItems ih n
      | map n => exact passing_skipItems ih (2 * n)
      | nil | bool | nat | int | float | text | blob | extension => exact passing_some

theorem selfDelimiting_readFields (hread : ∀ shape, SelfDelimiting (read shape))
    (hskip : Passing skip) (n : Nat) (places : List (Option Value)) :
    SelfDelimiting (readFields schema read skip n places) := by
  induction n generalizing places with
  | zero => exact selfDelimiting_done places
  | succ n ih =>
      intro bytes filled rest h more
      rw [readFields] at h ⊢
      obtain ⟨⟨key, tail⟩, hkey, h⟩ := Option.bind_eq_some_iff.1 h
      obtain ⟨i, hi, h⟩ := Option.bind_eq_some_iff.1 h
      rw [selfDelimiting_token hkey more]
      simp only [Option.bind_eq_bind, Option.bind_some, hi]
      split at h
      · next hfield =>
        obtain ⟨behind, hbehind, h⟩ := Option.bind_eq_some_iff.1 h
        rw [hskip hbehind more]
        exact ih places h more
      · next field _ _ =>
        obtain ⟨⟨item, behind⟩, hitem, h⟩ := Option.bind_eq_some_iff.1 h
        rw [hread field.shape hitem more]
        exact ih _ h more
      · cases h

theorem selfDelimiting_container? (hread : ∀ shape, SelfDelimiting (read shape))
    (hskip : Passing skip) (shape : Shape) (token : Token) :
    SelfDelimiting (container? records read skip shape token) := by
  intro bytes value rest h more
  fun_cases container? records read skip shape token bytes with
  | case1 n =>
      exact ((selfDelimiting_readItems (hread _) n []).bind fun items =>
        selfDelimiting_done (Value.blob (items.filterMap Value.byte?))) h more
  | case2 item n =>
      exact ((selfDelimiting_readItems (hread item) n []).bind fun items =>
        selfDelimiting_done (Value.list items)) h more
  | case3 key item n =>
      rw [container?_map] at h ⊢
      exact ((selfDelimiting_readEntries (hread _) (hread item) n []).map Value.map) h more
  | case4 index n =>
      rw [container?] at h ⊢
      cases hschema : records[index]? with
      | none => simp [hschema] at h
      | some schema =>
          simp only [hschema] at h ⊢
          exact ((selfDelimiting_readFields hread hskip n _).bind fun places =>
            selfDelimiting_made (schema.close? places) Value.record) h more
  | case5 index n =>
      rw [container?] at h ⊢
      cases hschema : records[index]? with
      | none => simp [hschema] at h
      | some schema =>
          simp only [hschema, Option.bind_eq_bind, Option.bind_some] at h ⊢
          by_cases hn : n = schema.length
          · simp only [guard, if_pos hn] at h ⊢
            exact ((selfDelimiting_readRow hread schema).bind fun fields =>
              selfDelimiting_done (Value.record fields)) h more
          · simp only [guard, if_neg hn] at h
            cases h
  | case6 hblob hlist hmap hfields hrow =>
      rw [container?] at h
      · cases h
      all_goals assumption

end Items

section Values

variable {records : List Schema} {depth : Nat} {shape : Shape}

theorem selfDelimiting_readOptional {read : Shape → Token → Reader}
    (h : ∀ shape token, SelfDelimiting (read shape token)) (shape : Shape) (token : Token) :
    SelfDelimiting (readOptional read shape token) := by
  induction shape with
  | optional item ih =>
      simp only [readOptional]
      split_ifs
      · exact selfDelimiting_done Value.absent
      · exact ih.map Value.present
  | int | bool | text | blob | list | map | record => exact h _ token

theorem selfDelimiting_readPlain {container : Shape → Token → Reader}
    (h : ∀ shape token, SelfDelimiting (container shape token)) (shape : Shape) (token : Token) :
    SelfDelimiting (readPlain records container shape token) := by
  unfold readPlain
  cases scalar? records shape token with
  | some value => exact selfDelimiting_done value
  | none => exact h shape token

theorem selfDelimiting_readBehindToken {read : Shape → Token → Reader}
    (h : ∀ shape token, SelfDelimiting (read shape token)) (shape : Shape) :
    SelfDelimiting (readBehindToken read shape) := by
  intro bytes value rest hread more
  rw [readBehindToken] at hread ⊢
  cases htoken : Token.read? bytes with
  | none => simp [htoken] at hread
  | some head =>
      rw [htoken] at hread
      rw [selfDelimiting_token htoken more]
      exact selfDelimiting_readOptional h shape head.1 hread more

theorem selfDelimiting_read (records : List Schema) (depth : Nat) (shape : Shape) :
    SelfDelimiting (read records depth shape) := by
  induction depth generalizing shape with
  | zero =>
      refine selfDelimiting_readBehindToken (selfDelimiting_readPlain fun _ _ => ?_) shape
      intro bytes value rest hnone
      cases hnone
  | succ depth ih =>
      exact selfDelimiting_readBehindToken (selfDelimiting_readPlain
        (selfDelimiting_container? ih (passing_skip depth))) shape

/-- A value ends where it ends: no proper prefix of its written form is a value of its shape. -/
theorem read_of_proper_prefix {value : Value} (h : Fits records depth shape value)
    {front : List UInt8} (hfront : front <+: encode value) (hne : front ≠ encode value) :
    read records depth shape front = none := by
  obtain ⟨behind, hbehind⟩ := hfront
  cases hread : read records depth shape front with
  | none => rfl
  | some head =>
      obtain ⟨early, rest⟩ := head
      have hwhole := selfDelimiting_read records depth shape hread behind
      have hvalue := h.reads []
      rw [List.append_nil, ← hbehind, hwhole] at hvalue
      have hrest : rest ++ behind = [] := (Prod.mk.inj (Option.some.inj hvalue)).2
      rw [(List.append_eq_nil_iff.1 hrest).2, List.append_nil] at hbehind
      exact absurd hbehind hne

theorem decode?_of_proper_prefix {value : Value} (h : Fits records maxDepth shape value)
    {front : List UInt8} (hfront : front <+: encode value) (hne : front ≠ encode value) :
    decode? records shape front = none := by
  rw [decode?, read_of_proper_prefix h hfront hne, Option.map_none]

end Values

theorem writeInt_ne_nil (n : Int) : writeInt n ≠ [] := by
  rw [writeInt]
  split_ifs <;> simp [bigEndian]

theorem SizeMarkers.write_ne_nil (m : SizeMarkers) (size : Nat) : m.write size ≠ [] := by
  have hlong : SizeMarkers.write.long m size ≠ [] := by
    rw [SizeMarkers.write.long]
    split_ifs <;> simp
  rw [SizeMarkers.write]
  split
  · simp
  · split
    · split
      · simp
      · exact hlong
    · exact hlong

/-- There is no value without a form of at least one byte. -/
theorem encode_ne_nil : ∀ value : Value, encode value ≠ []
  | .int n => writeInt_ne_nil n
  | .bool b => by cases b <;> simp [encode, writeBool]
  | .absent => by simp [encode]
  | .present item => by
      rw [encode]
      exact encode_ne_nil item
  | .text _ | .blob _ | .list _ | .map _ | .record _ => by
      simp only [encode, writeText, writeBlob]
      exact List.append_ne_nil_of_left_ne_nil (SizeMarkers.write_ne_nil _ _) _

end MessageChannel.MessagePack
