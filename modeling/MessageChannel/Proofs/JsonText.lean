import MessageChannel.Body.Json.Reader
import MessageChannel.Proofs.BodyValues
import Mathlib.Data.Option.Basic

namespace MessageChannel.Json

section Words

variable {b c : UInt8} {front bytes rest : List UInt8}

theorem after?_append (front rest : List UInt8) : after? front (front ++ rest) = some rest := by
  simp [after?, splitExactly?_append]

theorem after?_cons_ne (h : b ≠ c) : after? (c :: front) (b :: bytes) = none := by
  rw [after?]
  cases hsplit : splitExactly? (c :: front).length (b :: bytes) with
  | none => rfl
  | some head =>
      obtain ⟨taken, rest⟩ := head
      obtain ⟨happend, hlength⟩ := splitExactly?_eq_some_iff.1 hsplit
      cases taken with
      | nil => simp at hlength
      | cons d taken =>
          obtain ⟨rfl, -⟩ := List.cons.inj happend
          simp [h]

theorem skipBlanks_cons (h : ¬isBlank b) : skipBlanks (b :: bytes) = b :: bytes := by
  simp [skipBlanks, h]

theorem skipBlanks_append (h : ∀ b ∈ front, isBlank b) :
    skipBlanks (front ++ bytes) = skipBlanks bytes :=
  List.dropWhile_append_of_pos h

end Words

section Quoted

theorem hexValue?_hexDigit {n : Nat} (h : n < 16) : hexValue? (hexDigit n) = some n := by
  have hall : ∀ n < 16, hexValue? (hexDigit n) = some n := by decide
  exact hall n h

theorem shortEscaped?_of_shortEscape? {b letter : UInt8} (h : shortEscape? b = some letter) :
    shortEscaped? letter = some b ∧ letter ≠ 0x75 := by
  simp only [shortEscape?] at h
  split at h <;> cases h <;> exact ⟨rfl, by decide⟩

theorem ne_of_shortEscape?_eq_none {b : UInt8} (h : shortEscape? b = none) :
    b ≠ backslash ∧ b ≠ quoteMark := by
  constructor <;> rintro rfl <;> cases h

/-- A byte is read back from the form in which it stands between quotes. -/
theorem unquoteFrom_escape (rule : QuoteRule) (b : UInt8) (acc rest : List UInt8) :
    unquoteFrom rule .plain none acc (escape b ++ rest) =
      unquoteFrom rule .plain none (b :: acc) rest := by
  rw [escape]
  cases hshort : shortEscape? b with
  | some letter =>
      obtain ⟨hback, hletter⟩ := shortEscaped?_of_shortEscape? hshort
      simp [unquoteFrom, unquoteFrom.flush, hback, hletter]
  | none =>
      obtain ⟨hbackslash, hquote⟩ := ne_of_shortEscape?_eq_none hshort
      dsimp only
      split
      · next hcontrol =>
        have hlt : b.toNat < 32 := by simpa [UInt8.lt_iff_toNat_lt] using hcontrol
        have hhigh := @hexValue?_hexDigit (b.toNat / 16) (by omega)
        have hlow := @hexValue?_hexDigit (b.toNat % 16) (by omega)
        have hzero : hexValue? 0x30 = some 0 := rfl
        have hvalue : 16 * (b.toNat / 16) + b.toNat % 16 = b.toNat := by omega
        have hbytes : codePointBytes b.toNat = [b] := by
          rw [codePointBytes, if_pos (by omega), UInt8.ofNat_toNat]
        have hhighSurrogate : isHighSurrogate b.toNat = false := by
          simp only [isHighSurrogate, Bool.and_eq_false_iff, decide_eq_false_iff_not]
          omega
        have hlowSurrogate : isLowSurrogate b.toNat = false := by
          simp only [isLowSurrogate, Bool.and_eq_false_iff, decide_eq_false_iff_not]
          omega
        simp [unquoteFrom, unquoteFrom.flush, hhigh, hlow, hzero, hvalue, hbytes, hhighSurrogate,
          hlowSurrogate]
      · next hplain => simp [unquoteFrom, unquoteFrom.flush, hbackslash, hquote, hplain]

theorem unquoteFrom_flatMap_escape (rule : QuoteRule) (bytes acc rest : List UInt8) :
    unquoteFrom rule .plain none acc (bytes.flatMap escape ++ quoteMark :: rest) =
      some (acc.reverse ++ bytes, rest) := by
  induction bytes generalizing acc with
  | nil => simp [unquoteFrom, unquoteFrom.flush, quoteMark, backslash]
  | cons b bytes ih =>
      rw [List.flatMap_cons, List.append_assoc, unquoteFrom_escape, ih]
      simp

theorem unquote?_escaped (rule : QuoteRule) (bytes rest : List UInt8) :
    unquote? rule (bytes.flatMap escape ++ quoteMark :: rest) = some (bytes, rest) :=
  unquoteFrom_flatMap_escape rule bytes [] rest

theorem quote_append (bytes rest : List UInt8) :
    quote bytes ++ rest = [quoteMark] ++ (bytes.flatMap escape ++ quoteMark :: rest) := by
  simp [quote]

theorem readText?_quote (s : String) (rest : List UInt8) :
    readText? (quote (textBytes s) ++ rest) = some (s, rest) := by
  simp only [readText?, quote_append, after?_append, unquote?_escaped, textOfBytes?_textBytes,
    Option.bind_eq_bind, Option.bind_some, Option.pure_def]

end Quoted

section Numbers

variable {n : Nat} {rest : List UInt8}

theorem decimal_of_lt (h : n < 10) : decimal n = [.ofNat (0x30 + n)] := by
  rw [decimal, if_pos h]

theorem toNat_digit (h : n < 10) : (UInt8.ofNat (0x30 + n)).toNat = 0x30 + n := by
  rw [UInt8.toNat_ofNat']
  omega

theorem isDigit_iff {b : UInt8} : isDigit b ↔ 0x30 ≤ b.toNat ∧ b.toNat ≤ 0x39 := by
  simp [isDigit, UInt8.le_iff_toNat_le]

theorem not_isBlank_of_isDigit {b : UInt8} (h : isDigit b) : ¬isBlank b := by
  intro hblank
  simp only [isBlank, Bool.or_eq_true, decide_eq_true_eq] at hblank
  rcases hblank with ((rfl | rfl) | rfl) | rfl <;> cases h

theorem escape_digit {b : UInt8} (h : isDigit b) : escape b = [b] := by
  have hshort : shortEscape? b = none := by
    rw [shortEscape?]
    all_goals
      rintro rfl
      cases h
  have hplain : ¬b < 0x20 := by
    have hcode := (isDigit_iff.1 h).1
    have hspace : (0x20 : UInt8).toNat = 0x20 := rfl
    rw [UInt8.lt_iff_toNat_lt]
    omega
  rw [escape, hshort]
  exact if_neg hplain

theorem flatMap_escape_digits {digits : List UInt8} (h : ∀ b ∈ digits, isDigit b) :
    digits.flatMap escape = digits := by
  induction digits with
  | nil => rfl
  | cons b digits ih =>
      rw [List.flatMap_cons, escape_digit (h b List.mem_cons_self),
        ih fun c hc => h c (List.mem_cons_of_mem _ hc), List.singleton_append]

theorem isDigit_decimal (n : Nat) : ∀ b ∈ decimal n, isDigit b := by
  have hdigit : ∀ k < 10, isDigit (.ofNat (0x30 + k)) := fun k hk => by
    rw [isDigit_iff, toNat_digit hk]
    omega
  fun_induction decimal n with
  | case1 n hlt =>
      intro b hb
      obtain rfl := List.mem_singleton.1 hb
      exact hdigit n hlt
  | case2 n hge ih =>
      intro b hb
      rcases List.mem_append.1 hb with hb | hb
      · exact ih b hb
      · obtain rfl := List.mem_singleton.1 hb
        exact hdigit (n % 10) (Nat.mod_lt n (by omega))

theorem ofDecimal_decimal (n : Nat) : ofDecimal (decimal n) = n := by
  fun_induction decimal n with
  | case1 n hlt =>
      rw [ofDecimal, List.foldl_cons, List.foldl_nil, toNat_digit hlt]
      omega
  | case2 n hge ih =>
      rw [ofDecimal] at ih ⊢
      rw [List.foldl_append, ih, List.foldl_cons, List.foldl_nil,
        toNat_digit (Nat.mod_lt n (by omega))]
      omega

theorem decimal_ne_nil (n : Nat) : decimal n ≠ [] := by
  rw [decimal]
  split <;> simp

/-- No digits but those of zero start with a zero. -/
theorem head?_decimal (h : 0 < n) : (decimal n).head? ≠ some 0x30 := by
  fun_induction decimal n with
  | case1 n hlt =>
      rw [List.head?_cons]
      intro heq
      have hcode := congrArg UInt8.toNat (Option.some.inj heq)
      rw [toNat_digit hlt] at hcode
      have hzero : (0x30 : UInt8).toNat = 0x30 := rfl
      omega
  | case2 n hge ih =>
      obtain ⟨d, ds, hdecimal⟩ := List.exists_cons_of_ne_nil (decimal_ne_nil (n / 10))
      rw [hdecimal] at ih ⊢
      exact ih (by omega)

theorem decimal_eq_cons (n : Nat) :
    ∃ d ds, decimal n = d :: ds ∧ isDigit d ∧ ¬(d = 0x30 ∧ ds ≠ []) := by
  obtain ⟨d, ds, hdecimal⟩ := List.exists_cons_of_ne_nil (decimal_ne_nil n)
  refine ⟨d, ds, hdecimal, isDigit_decimal n d (by simp [hdecimal]), ?_⟩
  rintro ⟨rfl, hds⟩
  by_cases hlt : n < 10
  · rw [decimal_of_lt hlt] at hdecimal
    exact hds (List.cons.inj hdecimal).2.symm
  · have hpos : 0 < n := by omega
    exact head?_decimal hpos (by rw [hdecimal]; rfl)

/-- Nothing that could go on with a number comes first. -/
def EndsNumber (rest : List UInt8) : Prop :=
  ∀ b ∈ rest.head?, ¬isDigit b ∧ b ≠ 0x2e ∧ b ≠ 0x65 ∧ b ≠ 0x45

theorem endsNumber_cons {b : UInt8} (h : ¬isDigit b ∧ b ≠ 0x2e ∧ b ≠ 0x65 ∧ b ≠ 0x45) :
    EndsNumber (b :: rest) := by
  intro c hc
  obtain rfl := Option.some.inj hc
  exact h

theorem endsNumber_nil : EndsNumber [] := by
  intro b hb
  cases hb

/-- No digit comes first. -/
def NoDigit (rest : List UInt8) : Prop := ∀ b ∈ rest.head?, ¬isDigit b

theorem EndsNumber.noDigit (h : EndsNumber rest) : NoDigit rest := fun b hb => (h b hb).1

theorem span_digits {digits : List UInt8} (hdigits : ∀ b ∈ digits, isDigit b)
    (h : NoDigit rest) :
    (digits ++ rest).takeWhile isDigit = digits ∧ (digits ++ rest).dropWhile isDigit = rest := by
  rw [List.takeWhile_append_of_pos hdigits, List.dropWhile_append_of_pos hdigits]
  cases rest with
  | nil => simp
  | cons b rest =>
      have hb := h b rfl
      rw [List.takeWhile_cons_of_neg hb, List.dropWhile_cons_of_neg hb]
      simp

theorem wholePart?_decimal (h : NoDigit rest) (n : Nat) :
    wholePart? (decimal n ++ rest) = some (decimal n, rest) := by
  obtain ⟨d, ds, hdecimal, -, hlead⟩ := decimal_eq_cons n
  obtain ⟨htake, hdrop⟩ := span_digits (isDigit_decimal n) h
  rw [wholePart?, htake, hdrop, hdecimal]
  exact if_neg hlead

theorem splitSign_digit {d : UInt8} (h : isDigit d) (rest : List UInt8) :
    splitSign (d :: rest) = (false, d :: rest) := by
  rw [splitSign]
  rintro tail heq
  obtain ⟨rfl, -⟩ := List.cons.inj heq
  cases h

theorem parts_writeInt (h : NoDigit rest) (n : Int) :
    ∃ tail, splitSign (writeInt n ++ rest) = (decide (n < 0), tail) ∧
      wholePart? tail = some (decimal n.natAbs, rest) := by
  rw [writeInt]
  split
  · next hsign =>
    have habs : n.toNat = n.natAbs := by omega
    obtain ⟨d, ds, hdecimal, hd, -⟩ := decimal_eq_cons n.natAbs
    refine ⟨decimal n.natAbs ++ rest, ?_, wholePart?_decimal h _⟩
    rw [habs, decide_eq_false (by omega), hdecimal]
    exact splitSign_digit hd _
  · next hsign =>
    have habs : (-n).toNat = n.natAbs := by omega
    refine ⟨decimal n.natAbs ++ rest, ?_, wholePart?_decimal h _⟩
    rw [habs, decide_eq_true (by omega)]
    rfl

/-- Behind the digits neither a fraction nor an exponent begins. -/
theorem readInt?_of_parts {bytes tail digits : List UInt8} {negative : Bool}
    (hsign : splitSign bytes = (negative, tail)) (hwhole : wholePart? tail = some (digits, rest))
    (h : EndsNumber rest) :
    readInt? bytes =
      if negative then
        if ofDecimal digits = 0 then none else some (-(ofDecimal digits : Int), rest)
      else some ((ofDecimal digits : Int), rest) := by
  simp only [readInt?, hsign, hwhole, Option.bind_eq_bind, Option.bind_some, Option.pure_def]
  split
  · exact absurd rfl (h _ rfl).2.1
  · exact absurd rfl (h _ rfl).2.2.1
  · exact absurd rfl (h _ rfl).2.2.2
  · rfl

theorem readInt?_writeInt (h : EndsNumber rest) (n : Int) :
    readInt? (writeInt n ++ rest) = some (n, rest) := by
  obtain ⟨tail, hsign, hwhole⟩ := parts_writeInt h.noDigit n
  rw [readInt?_of_parts hsign hwhole h, ofDecimal_decimal]
  by_cases hneg : n < 0
  · have hvalue : -(n.natAbs : Int) = n := by omega
    rw [if_pos (decide_eq_true hneg), if_neg (by omega), hvalue]
  · have hvalue : (n.natAbs : Int) = n := by omega
    rw [if_neg (by simpa using hneg), hvalue]

/-- Between quotes a number stands as it is. -/
theorem quote_writeInt (n : Int) : quote (writeInt n) = quoteMark :: writeInt n ++ [quoteMark] := by
  have hdigits : ∀ k, (decimal k).flatMap escape = decimal k := fun k =>
    flatMap_escape_digits (isDigit_decimal k)
  have hwhole : (writeInt n).flatMap escape = writeInt n := by
    rw [writeInt]
    split
    · exact hdigits _
    · rw [List.flatMap_cons, hdigits]
      rfl
  rw [quote, hwhole]

theorem readIntOf?_writeInt {kind : IntKind} {n : Int} (hholds : kind.Holds n)
    (h : EndsNumber rest) : readIntOf? kind (writeInt n ++ rest) = some (.int n, rest) := by
  have hguard : (guard (kind.Holds n) : Option Unit) = some () := if_pos hholds
  simp only [readIntOf?, readInt?_writeInt h, hguard, Option.bind_eq_bind, Option.bind_some,
    Option.pure_def]

end Numbers

end MessageChannel.Json
