import MessageChannel.Proofs.JsonText
import Mathlib.Data.List.Induction
import Mathlib.Data.List.TakeWhile

namespace MessageChannel.Json

section Digits

variable {n : Nat} {digits bytes rest : List UInt8}

theorem ofDecimal_snoc (digits : List UInt8) (b : UInt8) :
    ofDecimal (digits ++ [b]) = 10 * ofDecimal digits + (b.toNat - 0x30) := by
  rw [ofDecimal, List.foldl_append, List.foldl_cons, List.foldl_nil]
  rfl

theorem digit_of_isDigit {b : UInt8} (h : isDigit b) :
    UInt8.ofNat (0x30 + (b.toNat - 0x30)) = b := by
  have hcode := (isDigit_iff.1 h).1
  rw [Nat.add_sub_cancel' hcode, UInt8.ofNat_toNat]

/-- A number has only one form in digits, for it starts with no zero. -/
theorem decimal_ofDecimal (hne : digits ≠ []) (hdigits : ∀ b ∈ digits, isDigit b)
    (hlead : digits.head? = some 0x30 → digits = [0x30]) : decimal (ofDecimal digits) = digits := by
  induction digits using List.reverseRecOn with
  | nil => exact absurd rfl hne
  | append_singleton front b ih =>
      have hb : isDigit b := hdigits b (by simp)
      have hcode := isDigit_iff.1 hb
      rw [ofDecimal_snoc]
      cases front with
      | nil =>
          rw [ofDecimal, List.foldl_nil, Nat.mul_zero, Nat.zero_add, decimal_of_lt (by omega),
            digit_of_isDigit hb, List.nil_append]
      | cons d ds =>
          have hd : d ≠ 0x30 := by
            rintro rfl
            simpa using hlead rfl
          have hfront : decimal (ofDecimal (d :: ds)) = d :: ds :=
            ih (List.cons_ne_nil _ _) (fun c hc => hdigits c (List.mem_append_left _ hc))
              fun heq => absurd (Option.some.inj heq) hd
          have hpos : ofDecimal (d :: ds) ≠ 0 := by
            intro hzero
            rw [hzero, decimal_of_lt (by omega)] at hfront
            exact hd (List.cons.inj hfront).1.symm
          rw [decimal, if_neg (by omega)]
          have hdiv : (10 * ofDecimal (d :: ds) + (b.toNat - 0x30)) / 10 = ofDecimal (d :: ds) := by
            omega
          have hmod : (10 * ofDecimal (d :: ds) + (b.toNat - 0x30)) % 10 = b.toNat - 0x30 := by
            omega
          rw [hdiv, hmod, hfront, digit_of_isDigit hb]

theorem wholePart?_eq_some (h : wholePart? bytes = some (digits, rest)) :
    bytes = decimal (ofDecimal digits) ++ rest ∧ NoDigit rest := by
  have htake : ∀ b ∈ bytes.takeWhile isDigit, isDigit b := fun b hb => List.mem_takeWhile_imp hb
  rw [wholePart?] at h
  split at h
  · cases h
  · next d ds hdigits =>
    split at h
    · cases h
    · next hlead =>
      obtain ⟨rfl, rfl⟩ := Prod.mk.inj (Option.some.inj h)
      rw [hdigits] at htake
      have hform : decimal (ofDecimal (d :: ds)) = d :: ds := by
        refine decimal_ofDecimal (List.cons_ne_nil _ _) htake fun heq => ?_
        obtain rfl := Option.some.inj heq
        have hnil : ds = [] := by
          simpa using hlead
        rw [hnil]
      refine ⟨?_, fun b hb => ?_⟩
      · rw [hform, ← hdigits, List.takeWhile_append_dropWhile]
      · have hhead := List.head?_dropWhile_not isDigit bytes
        rw [Option.mem_def.1 hb] at hhead
        simpa using hhead

/-- The digits in front of others make a number too, and no larger one. -/
theorem exists_decimal_of_prefix (h : digits <+: decimal n) (hne : digits ≠ []) :
    ∃ m ≤ n, digits = decimal m := by
  fun_induction decimal n with
  | case1 n hlt =>
      refine ⟨n, Nat.le_refl n, ?_⟩
      rcases List.prefix_cons_iff.1 h with hnil | ⟨front, rfl, hfront⟩
      · exact absurd hnil hne
      · rw [List.prefix_nil.1 hfront, decimal_of_lt hlt]
  | case2 n hge ih =>
      rcases List.prefix_concat_iff.1 h with rfl | hfront
      · refine ⟨n, Nat.le_refl n, ?_⟩
        rw [decimal.eq_def n, if_neg hge]
      · obtain ⟨m, hm, rfl⟩ := ih hfront
        exact ⟨m, by omega, rfl⟩

end Digits

section Integers

variable {n k : Int} {b : UInt8} {bytes tail rest : List UInt8}

theorem writeInt_natCast (n : Nat) : writeInt n = decimal n := by
  rw [writeInt, if_pos (Int.natCast_nonneg n), Int.toNat_natCast]

theorem writeInt_neg {n : Nat} (h : 0 < n) : writeInt (-n) = 0x2d :: decimal n := by
  rw [writeInt, if_neg (by omega), Int.neg_neg, Int.toNat_natCast]

theorem splitSign_eq {negative : Bool} (h : splitSign bytes = (negative, tail)) :
    bytes = if negative then 0x2d :: tail else tail := by
  rw [splitSign.eq_def] at h
  split at h <;> obtain ⟨rfl, rfl⟩ := Prod.mk.inj h <;> rfl

/-- An integer is read from its one form, and from nothing else. -/
theorem readInt?_eq_some (h : readInt? bytes = some (n, rest)) :
    bytes = writeInt n ++ rest ∧ EndsNumber rest := by
  rw [readInt?] at h
  cases hsign : splitSign bytes with
  | mk negative tail =>
      cases hwhole : wholePart? tail with
      | none => simp [hsign, hwhole] at h
      | some head =>
          obtain ⟨digits, behind⟩ := head
          obtain ⟨htail, hdigit⟩ := wholePart?_eq_some hwhole
          simp only [hsign, hwhole, Option.bind_eq_bind, Option.bind_some, Option.pure_def] at h
          split at h
          · cases h
          · cases h
          · cases h
          · next hdot he hE =>
            have hends : EndsNumber behind := by
              intro c hc
              obtain ⟨after, rfl⟩ : ∃ after, behind = c :: after := List.head?_eq_some_iff.1 hc
              refine ⟨hdigit c hc, ?_, ?_, ?_⟩ <;> rintro rfl
              · exact hdot after rfl
              · exact he after rfl
              · exact hE after rfl
            rw [splitSign_eq hsign, htail]
            cases negative with
            | false =>
                obtain ⟨rfl, rfl⟩ := Prod.mk.inj (Option.some.inj h)
                exact ⟨by rw [writeInt_natCast]; rfl, hends⟩
            | true =>
                simp only [if_true] at h
                split at h
                · cases h
                · next hzero =>
                  obtain ⟨rfl, rfl⟩ := Prod.mk.inj (Option.some.inj h)
                  exact ⟨by rw [writeInt_neg (by omega)]; rfl, hends⟩

theorem writeInt_cases (n : Int) :
    (∃ i : Nat, n = i ∧ writeInt n = decimal i) ∨
      ∃ i : Nat, 0 < i ∧ n = -i ∧ writeInt n = 0x2d :: decimal i := by
  obtain ⟨i, rfl | rfl⟩ := n.eq_nat_or_neg
  · exact .inl ⟨i, rfl, writeInt_natCast i⟩
  · rcases Nat.eq_zero_or_pos i with rfl | hpos
    · exact .inl ⟨0, rfl, rfl⟩
    · exact .inr ⟨i, hpos, rfl, writeInt_neg hpos⟩

theorem decimal_append_ne_sign (i : Nat) (bytes tail : List UInt8) :
    decimal i ++ bytes ≠ 0x2d :: tail := by
  obtain ⟨d, ds, hdecimal, hd, -⟩ := decimal_eq_cons i
  rw [hdecimal]
  rintro heq
  obtain ⟨rfl, -⟩ := List.cons.inj heq
  cases hd

theorem exists_longer_decimal {i j : Nat} (h : decimal i ++ b :: rest = decimal j ++ tail)
    (hmore : ¬EndsNumber (b :: rest)) (hends : EndsNumber tail) :
    isDigit b ∧ ∃ m ≤ j, decimal m = decimal i ++ [b] := by
  rcases List.append_eq_append_iff.1 h with ⟨c, hj, hbytes⟩ | ⟨c, hi, htail⟩
  · cases c with
    | nil => exact absurd (hbytes ▸ hends) hmore
    | cons d c =>
        obtain ⟨rfl, -⟩ := List.cons.inj hbytes
        have hprefix : decimal i ++ [b] <+: decimal j := ⟨c, by rw [hj]; simp⟩
        obtain ⟨m, hm, hdecimal⟩ := exists_decimal_of_prefix hprefix (by simp)
        exact ⟨isDigit_decimal j b (by simp [hj]), m, hm, hdecimal.symm⟩
  · cases c with
    | nil =>
        rw [htail, List.nil_append] at hends
        exact absurd hends hmore
    | cons d c => exact absurd (isDigit_decimal i d (by simp [hi])) (hends d (by simp [htail])).1

/-- What goes on behind an integer and makes another of it is a digit, and the integer with that
digit lies between zero and the other. -/
theorem exists_longer (h : readInt? (writeInt n ++ b :: rest) = some (k, tail))
    (hmore : ¬EndsNumber (b :: rest)) :
    isDigit b ∧ ∃ m, writeInt m = writeInt n ++ [b] ∧ (0 ≤ m ∧ m ≤ k ∨ k ≤ m ∧ m ≤ 0) := by
  obtain ⟨hbytes, hends⟩ := readInt?_eq_some h
  rcases writeInt_cases n with ⟨i, rfl, hn⟩ | ⟨i, hi, rfl, hn⟩ <;>
    rcases writeInt_cases k with ⟨j, rfl, hk⟩ | ⟨j, hj, rfl, hk⟩ <;> rw [hn, hk] at hbytes
  · obtain ⟨hdigit, m, hm, hdecimal⟩ := exists_longer_decimal hbytes hmore hends
    exact ⟨hdigit, m, by rw [writeInt_natCast, hdecimal, hn], .inl ⟨by omega, by omega⟩⟩
  · exact absurd hbytes (decimal_append_ne_sign i _ _)
  · exact absurd hbytes.symm (decimal_append_ne_sign j _ _)
  · obtain ⟨hdigit, m, hm, hdecimal⟩ :=
      exists_longer_decimal (List.cons.inj hbytes).2 hmore hends
    have hpos : 0 < m := by
      refine Nat.pos_of_ne_zero fun hzero => ?_
      have hlength := congrArg List.length hdecimal
      have hlong := List.length_pos_iff.2 (decimal_ne_nil i)
      rw [hzero, decimal_of_lt (by omega), List.length_append, List.length_singleton,
        List.length_singleton] at hlength
      omega
    exact ⟨hdigit, -m, by rw [writeInt_neg hpos, hdecimal, hn, List.cons_append],
      .inr ⟨by omega, by omega⟩⟩

theorem holds_zero (kind : IntKind) : kind.Holds 0 := by
  cases kind <;> decide

theorem readIntOf?_longer {kind : IntKind} {other : Value}
    (h : readIntOf? kind (writeInt n ++ b :: rest) = some (other, tail))
    (hmore : ¬EndsNumber (b :: rest)) :
    isDigit b ∧ ∃ m, kind.Holds m ∧ writeInt m = writeInt n ++ [b] := by
  obtain ⟨⟨k, behind⟩, hread, hrest⟩ := Option.bind_eq_some_iff.1 h
  have hholds : kind.Holds k := by
    by_contra hout
    have hguard : (guard (kind.Holds k) : Option Unit) = none := if_neg hout
    simp [hguard] at hrest
  obtain ⟨hdigit, m, hform, hbetween⟩ := exists_longer hread hmore
  obtain ⟨hlo, hhi⟩ := hholds
  obtain ⟨hnonpos, hpos⟩ := holds_zero kind
  exact ⟨hdigit, m, ⟨by omega, by omega⟩, hform⟩

end Integers

end MessageChannel.Json
