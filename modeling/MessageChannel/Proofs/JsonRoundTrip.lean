import MessageChannel.Proofs.BodyRoundTrip
import MessageChannel.Proofs.JsonCodec

namespace MessageChannel.AnyMessage

open Json

section RoundTrip

variable {type : MessageType} {value : Value} {body before after rest : List UInt8}

theorem run_load_json (hformat : type.format = .json) (typeId : Int32) (old : Value)
    (bytes : List UInt8) :
    (load bytes).run (typed typeId type old) =
      match decode? type.records type.shape bytes with
      | some other => (.ok (), typed typeId type other)
      | none => (.error (.refused (.invalidData (.malformed .json))), typed typeId type old) := by
  rw [run_load_typed, hformat, Format.decode, Format.decode?]
  cases decode? type.records type.shape bytes <;> rfl

theorem encode_json (hformat : type.format = .json) (hform : encode? value = some body)
    (typeId : Int32) : Message.encode (typed typeId type value) = .ok body := by
  simp only [Message.encode, encode, hformat, Format.encode, hform]
  rfl

/-- The value is a number, and a digit behind it makes it the number of another value. -/
def GoesOn (type : MessageType) (value : Value) (b : UInt8) : Prop :=
  value.isNumber ∧ isDigit b ∧ ∃ form longer, encode? value = some form ∧
    Json.Fits type.records maxDepth type.shape longer ∧ encode? longer = some (form ++ [b])

/-- Nothing is read from a form with more behind it, unless a number goes on there. -/
theorem decode?_of_more {b : UInt8} (hfits : Json.Fits type.records maxDepth type.shape value)
    (hbody : Legible (Json.read type.records maxDepth type.shape) value body)
    (hbefore : ∀ b ∈ before, isBlank b) (hafter : ∀ b ∈ after, isBlank b) (hb : ¬isBlank b)
    (hends : ¬(after = [] ∧ GoesOn type value b)) :
    decode? type.records type.shape (before ++ (body ++ (after ++ b :: rest))) = none := by
  have hmore : skipBlanks (after ++ b :: rest) ≠ [] := by
    rw [skipBlanks_append hafter, skipBlanks_cons hb]
    exact List.cons_ne_nil _ _
  by_cases hstops : Stops value (after ++ b :: rest)
  · rw [hbody.decode? hbefore hstops, if_neg hmore]
  · cases after with
    | cons c after =>
        exact absurd ((endsNumber_blank (hafter c List.mem_cons_self) _).stops value) hstops
    | nil =>
        rw [decode?, read_blanks hbefore, List.nil_append]
        cases hread : Json.read type.records maxDepth type.shape (body ++ b :: rest) with
        | none => rfl
        | some other =>
            obtain ⟨hnumber, hdigit, longer, hlonger, hencode⟩ :=
              exists_longer_value hfits hbody.encode hstops hread
            exact absurd ⟨rfl, hnumber, hdigit, body, longer, hbody.encode, hlonger, hencode⟩ hends

/-- A message with a JSON body: its body is there, and any message of the type that takes it in
gets the value, but for options that hold nothing, with blanks around the body or without. With
anything else behind it, it is refused, but for a digit with which a number goes on. -/
theorem json_roundTrip (type : MessageType) (hformat : type.format = .json) (value : Value)
    (hfits : Json.Fits type.records Json.maxDepth type.shape value) (typeId : Int32) :
    ∃ body, Message.encode (typed typeId type value) = .ok body ∧ body ≠ [] ∧
      (∀ before after, (∀ b ∈ before, isBlank b) → (∀ b ∈ after, isBlank b) → ∀ typeId' old,
        (load (before ++ (body ++ after))).run (typed typeId' type old) =
            (.ok (), typed typeId' type value.restored) ∧
          ∀ b rest, ¬isBlank b → ¬(after = [] ∧ GoesOn type value b) →
            (load (before ++ (body ++ (after ++ b :: rest)))).run (typed typeId' type old) =
              (.error (.refused (.invalidData (.malformed .json))), typed typeId' type old)) ∧
      (value.restored = value ↔ value.hasHollow = false) := by
  obtain ⟨body, hbody⟩ := exists_legible hfits
  obtain ⟨b, tail, hhead, -⟩ := exists_head_of_encode? hbody.encode
  refine ⟨body, encode_json hformat hbody.encode typeId, hhead ▸ List.cons_ne_nil _ _,
    fun before after hbefore hafter typeId' old => ⟨?_, fun b rest hb hends => ?_⟩,
    value.restored_eq_self_iff⟩
  · have hstops : Stops value after := by
      cases after with
      | nil => exact endsNumber_nil.stops value
      | cons c after => exact (endsNumber_blank (hafter c List.mem_cons_self) after).stops value
    rw [run_load_json hformat, hbody.decode? hbefore hstops, if_pos (skipBlanks_blanks hafter)]
  · rw [run_load_json hformat, decode?_of_more hfits hbody hbefore hafter hb hends]

end RoundTrip

/-- Pages with words that need escapes, and bytes of more than one, two and three at a time. -/
def pageType : MessageType where
  ident := "Page"
  name := "Page"
  format := .json
  records := [[⟨"words", .map .text (.list .text)⟩, ⟨"size", .int .i64⟩,
    ⟨"next", .optional (.record 0)⟩]]

def page (next : Value) : Value :=
  .record [("words", .map [(.text "\"", .list [.text "\\/\n\x01\x7f", .text "é€😀"])]),
    ("size", .int (-0x8000000000000000)), ("next", next)]

def pages : Nat → Value
  | 0 => page .absent
  | n + 1 => page (.present (pages n))

theorem page_fits {depth : Nat} {next : Value}
    (hnext : Json.Fits pageType.records (depth + 2) (.optional (.record 0)) next) :
    Json.Fits pageType.records (depth + 3) (.record 0) (page next) := by
  refine .record rfl rfl (by decide) ?_
  intro p hp
  simp only [List.zip_cons_cons, List.zip_nil_left, List.mem_cons, List.not_mem_nil, or_false] at hp
  rcases hp with rfl | rfl | rfl
  · refine .map (List.pairwise_singleton _ _) ?_ ?_
    · intro e he
      obtain rfl := List.mem_singleton.1 he
      exact .text
    · intro e he
      obtain rfl := List.mem_singleton.1 he
      refine .list fun v hv => ?_
      simp only [List.mem_cons, List.not_mem_nil, or_false] at hv
      rcases hv with rfl | rfl <;> exact .text
  · exact .int (by decide)
  · exact hnext

theorem pages_fit (n : Nat) : Json.Fits pageType.records (n + 3) (.record 0) (pages n) := by
  induction n with
  | zero => exact page_fits .absent
  | succ n ih => exact page_fits (.present ih)

theorem hasHollow_pages (n : Nat) : (pages n).hasHollow = false := by
  induction n with
  | zero => rfl
  | succ n ih =>
      have hhollow : (pages n).isHollow = false := by cases n <;> rfl
      simp [pages, page, Value.hasHollow, Value.fieldsHaveHollow, Value.entriesHaveHollow,
        Value.itemsHaveHollow, hhollow, ih]

/-- As deep as it goes: 125 pages, with a map and a list in the last of them. -/
theorem json_roundTrip_pages :
    pageType.format = .json ∧
      Json.Fits pageType.records Json.maxDepth pageType.shape (pages 124) ∧
      ∃ body, Message.encode (typed 17 pageType (pages 124)) = .ok body ∧ body ≠ [] ∧
        (load ([0x20, 0x0d, 0x0a] ++ (body ++ [0x09]))).run (blank pageType 18) =
          (.ok (), typed 18 pageType (pages 124)) ∧
        (load ([] ++ (body ++ ([] ++ [0x37])))).run (blank pageType 18) =
          (.error (.refused (.invalidData (.malformed .json))), blank pageType 18) := by
  have hfits : Json.Fits pageType.records Json.maxDepth pageType.shape (pages 124) := pages_fit 124
  obtain ⟨body, hbody, hne, hload, hsame⟩ := json_roundTrip pageType rfl (pages 124) hfits 17
  obtain ⟨hwhole, -⟩ := hload [0x20, 0x0d, 0x0a] [0x09] (by simp [isBlank]) (by simp [isBlank]) 18
    pageType.default
  obtain ⟨-, hmore⟩ := hload [] [] (by simp) (by simp) 18 pageType.default
  rw [hsame.2 (hasHollow_pages 124)] at hwhole
  exact ⟨rfl, hfits, body, hbody, hne, hwhole,
    hmore 0x37 [] (by decide) fun hgoes => Bool.false_ne_true hgoes.2.1⟩

/-- A message that is nothing but a number. -/
def countType : MessageType where
  ident := "Count"
  name := "Count"
  format := .json
  shape := .int .u64

/-- A digit behind a number is one more digit of it, and nothing inside an option that is there is
read as an option that is not. -/
theorem json_ambiguous :
    (Json.Fits countType.records Json.maxDepth countType.shape (.int 12) ∧
      Message.encode (typed 17 countType (.int 12)) = .ok [0x31, 0x32] ∧ ¬isBlank 0x33 ∧
      (load ([0x31, 0x32] ++ [0x33])).run (blank countType 18) =
        (.ok (), typed 18 countType (.int 123))) ∧
    ∃ body, Message.encode (typed 17 (levelType .json) (level (.present .absent))) = .ok body ∧
      (load body).run (blank (levelType .json) 18) =
        (.ok (), typed 18 (levelType .json) (level .absent)) ∧
      level .absent ≠ level (.present .absent) := by
  have hlevel : Json.Fits (levelType .json).records Json.maxDepth (levelType .json).shape
      (level (.present .absent)) := by
    refine .record rfl rfl (by decide) ?_
    intro p hp
    obtain rfl := List.mem_singleton.1 hp
    exact .present .absent
  obtain ⟨body, hbody⟩ := exists_legible hlevel
  have hrestored : decode? (levelType .json).records (levelType .json).shape body =
      some (level .absent) := by
    have hwhole := hbody.decode? (List.forall_mem_nil _) (endsNumber_nil.stops _)
    rwa [List.nil_append, List.append_nil] at hwhole
  refine ⟨⟨.int (by decide), ?_, by decide, ?_⟩, body, encode_json rfl hbody.encode 17, ?_,
    by simp [level]⟩
  · exact encode_json rfl (by decide +kernel) 17
  · rw [blank, run_load_json rfl]
    rfl
  · rw [blank, run_load_json rfl, hrestored]

end MessageChannel.AnyMessage
