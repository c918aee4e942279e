import MessageChannel.Body.Json.Writer
import MessageChannel.Proofs.JsonText

namespace MessageChannel.Json

inductive KeyFits : KeyShape → Value → Prop where
  | int {kind : IntKind} {n : Int} (hholds : kind.Holds n) : KeyFits (.int kind) (.int n)
  | text {s : String} : KeyFits .text (.text s)

/-- A value of the given shape that has a form: its numbers in range, its map keys in order, and at
most `depth` containers one inside another. -/
inductive Fits (records : List Schema) : Nat → Shape → Value → Prop where
  | absent {depth : Nat} {item : Shape} : Fits records depth (.optional item) .absent
  | present {depth : Nat} {item : Shape} {value : Value} (hitem : Fits records depth item value) :
      Fits records depth (.optional item) (.present value)
  | int {depth : Nat} {kind : IntKind} {n : Int} (hholds : kind.Holds n) :
      Fits records depth (.int kind) (.int n)
  | bool {depth : Nat} {b : Bool} : Fits records depth .bool (.bool b)
  | text {depth : Nat} {s : String} : Fits records depth .text (.text s)
  /-- Bytes are written as an array of numbers. -/
  | blob {depth : Nat} {bytes : List UInt8} : Fits records (depth + 1) .blob (.blob bytes)
  | list {depth : Nat} {item : Shape} {items : List Value}
      (hitems : ∀ v ∈ items, Fits records depth item v) :
      Fits records (depth + 1) (.list item) (.list items)
  | map {depth : Nat} {item : Shape} {key : KeyShape} {entries : List (Value × Value)}
      (hordered : OrderedEntries Value.keyLt entries) (hkeys : ∀ e ∈ entries, KeyFits key e.1)
      (hitems : ∀ e ∈ entries, Fits records depth item e.2) :
      Fits records (depth + 1) (.map key item) (.map entries)
  | record {depth index : Nat} {schema : Schema} {fields : List (String × Value)}
      (hschema : records[index]? = some schema)
      (hnames : fields.map Prod.fst = schema.map Field.name)
      (hdistinct : (schema.map Field.name).Nodup)
      (hfields : ∀ p ∈ schema.zip fields, Fits records depth p.1.shape p.2.2) :
      Fits records (depth + 1) (.record index) (.record fields)

/-- What may stand behind a value and not be taken for a part of it: only a number can go on. -/
def Stops (value : Value) (rest : List UInt8) : Prop := value.isNumber → EndsNumber rest

theorem EndsNumber.stops {rest : List UInt8} (h : EndsNumber rest) (value : Value) :
    Stops value rest :=
  fun _ => h

/-- The value has this form, and a reader takes in the form and nothing behind it. -/
structure Legible (read : Reader) (value : Value) (form : List UInt8) : Prop where
  encode : encode? value = some form
  read : ∀ rest, Stops value rest → read (form ++ rest) = some (value.restored, rest)

theorem encode?_of_isHollow : ∀ {value : Value}, value.isHollow → encode? value = some nullWord
  | .absent, _ => by rw [encode?]
  | .present item, h => by
      rw [encode?]
      exact @encode?_of_isHollow item h
  | .int _, h | .bool _, h | .text _, h | .blob _, h | .list _, h | .map _, h | .record _, h => by
      cases h

/-- The first byte of a value: no blank, not the end of an array, and the first of `null` only
where nothing is. -/
theorem exists_head_of_encode? : ∀ {value : Value} {form : List UInt8}, encode? value = some form →
    ∃ b tail, form = b :: tail ∧ ¬isBlank b ∧ b ≠ 0x5d ∧ (¬value.isHollow → b ≠ 0x6e)
  | .int n, form, h => by
      obtain rfl := Option.some.inj h
      rw [writeInt]
      split
      · obtain ⟨d, ds, hdecimal, hd, -⟩ := decimal_eq_cons n.toNat
        refine ⟨d, ds, hdecimal, not_isBlank_of_isDigit hd, ?_, fun _ => ?_⟩ <;> rintro rfl <;>
          cases hd
      · exact ⟨0x2d, _, rfl, by decide, by decide, fun _ => by decide⟩
  | .bool b, form, h => by
      obtain rfl := Option.some.inj h
      cases b <;> exact ⟨_, _, rfl, by decide, by decide, fun _ => by decide⟩
  | .text _, form, h | .blob _, form, h => by
      obtain rfl := Option.some.inj h
      exact ⟨_, _, rfl, by decide, by decide, fun _ => by decide⟩
  | .absent, form, h => by
      obtain rfl := Option.some.inj h
      exact ⟨_, _, rfl, by decide, by decide, fun hthere => absurd rfl hthere⟩
  | .present item, form, h => @exists_head_of_encode? item form h
  | .list _, form, h | .map _, form, h | .record _, form, h => by
      obtain ⟨inner, -, rfl⟩ := Option.map_eq_some_iff.1 h
      exact ⟨_, _, rfl, by decide, by decide, fun _ => by decide⟩

section Values

variable {records : List Schema} {depth : Nat} {shape item : Shape} {b : UInt8}
  {bytes form rest : List UInt8} {value : Value}

/-- What reads a container that stands at this depth. -/
def readDeeper (records : List Schema) : Nat → Shape → Reader
  | 0, _, _ => none
  | depth + 1, shape, bytes => container? records (read records depth) shape bytes

theorem read_eq (records : List Schema) (depth : Nat) (shape : Shape) (bytes : List UInt8) :
    read records depth shape bytes =
      readOptional (readPlain (readDeeper records depth)) shape (skipBlanks bytes) := by
  cases depth <;> rfl

theorem readOptional_plain (read : Shape → Reader) (hplain : shape.isOptional = false) :
    readOptional read shape = read shape := by
  cases shape with
  | optional => cases hplain
  | int | bool | text | blob | list | map | record => rfl

theorem read_scalar (hplain : shape.isOptional = false) (hblank : ¬isBlank b)
    (hvalue : readScalar? shape (b :: bytes) = some (value, rest)) :
    read records depth shape (b :: bytes) = some (value, rest) := by
  rw [read_eq, skipBlanks_cons hblank, readOptional_plain _ hplain]
  simp only [readPlain, hvalue]

theorem read_container (hplain : shape.isOptional = false) (hblank : ¬isBlank b)
    (hvalue : readScalar? shape (b :: bytes) = none) :
    read records (depth + 1) shape (b :: bytes) =
      container? records (read records depth) shape (b :: bytes) := by
  rw [read_eq, skipBlanks_cons hblank, readOptional_plain _ hplain]
  simp only [readPlain, hvalue, readDeeper]

theorem read_null (item : Shape) (rest : List UInt8) :
    read records depth (.optional item) (nullWord ++ rest) = some (.absent, rest) := by
  have hskip : skipBlanks (nullWord ++ rest) = nullWord ++ rest := skipBlanks_cons (by decide)
  rw [read_eq, hskip, readOptional, after?_append]

theorem read_present (hblank : ¬isBlank b) (hnull : b ≠ 0x6e) (item : Shape)
    (bytes : List UInt8) :
    read records depth (.optional item) (b :: bytes) =
      (read records depth item (b :: bytes)).map fun (value, rest) => (.present value, rest) := by
  have hword : after? nullWord (b :: bytes) = none := after?_cons_ne hnull
  rw [read_eq, read_eq, skipBlanks_cons hblank, readOptional, hword]

theorem legible_absent : Legible (read records depth (.optional item)) .absent nullWord :=
  ⟨rfl, fun rest _ => read_null item rest⟩

theorem legible_present (h : Legible (read records depth item) value form) :
    Legible (read records depth (.optional item)) (.present value) form := by
  refine ⟨h.encode, fun rest hstops => ?_⟩
  rw [Value.restored]
  by_cases hhollow : value.isHollow
  · obtain rfl := Option.some.inj ((encode?_of_isHollow hhollow).symm.trans h.encode)
    rw [if_pos hhollow, read_null]
  · obtain ⟨b, tail, rfl, hblank, -, hnull⟩ := exists_head_of_encode? h.encode
    have hitem := h.read rest hstops
    rw [List.cons_append] at hitem ⊢
    rw [if_neg hhollow, read_present hblank (hnull hhollow), hitem]
    rfl

/-- A value whose reader needs to see no other value. -/
theorem legible_scalar (hplain : shape.isOptional = false) (hform : encode? value = some form)
    (hread : ∀ rest, Stops value rest →
      readScalar? shape (form ++ rest) = some (value.restored, rest)) :
    Legible (read records depth shape) value form := by
  refine ⟨hform, fun rest hstops => ?_⟩
  obtain ⟨b, tail, rfl, hblank, -⟩ := exists_head_of_encode? hform
  exact read_scalar hplain hblank (hread rest hstops)

theorem legible_int {kind : IntKind} {n : Int} (hholds : kind.Holds n) :
    Legible (read records depth (.int kind)) (.int n) (writeInt n) := by
  refine legible_scalar rfl rfl fun rest hstops => ?_
  rw [readScalar?, readIntOf?_writeInt hholds (hstops rfl)]
  rfl

theorem legible_bool (b : Bool) :
    Legible (read records depth .bool) (.bool b) (if b then trueWord else falseWord) := by
  refine legible_scalar rfl rfl fun rest _ => ?_
  rw [readScalar?]
  cases b with
  | true => simp only [if_true, after?_append, Value.restored]
  | false =>
      have htrue : after? trueWord (falseWord ++ rest) = none := after?_cons_ne (by decide)
      simp only [Bool.false_eq_true, if_false, htrue, after?_append, Option.map_some,
        Value.restored]

theorem legible_text (s : String) :
    Legible (read records depth .text) (.text s) (quote (textBytes s)) := by
  refine legible_scalar rfl rfl fun rest _ => ?_
  simp only [readScalar?, readText?_quote, Option.bind_eq_bind, Option.bind_some, Option.pure_def,
    Value.restored]

end Values

end MessageChannel.Json
