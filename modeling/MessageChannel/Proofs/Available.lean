import MessageChannel.Transport.Inbound

namespace MessageChannel

namespace Inbound

/-- The bytes that reads give before the first lasting error, however they are cut and whatever
is waited out between them. -/
def readable : List Arrival → List UInt8
  | [] | .closed :: _ => []
  | .bytes data :: rest => data ++ readable rest
  | .fault error :: rest =>
      match error.retry with
      | .never _ => []
      | _ => readable rest
  | .pause _ :: rest | .silentUntil _ :: rest => readable rest

/-- What a read meets behind the readable bytes. -/
def endOf (staysOpen : Bool) : List Arrival → FillEnd
  | [] => if staysOpen then .stalled else .failed .connectionReset
  | .closed :: _ => .failed .connectionReset
  | .fault error :: rest =>
      match error.retry with
      | .never error => .failed error
      | _ => endOf staysOpen rest
  | .bytes _ :: rest | .pause _ :: rest | .silentUntil _ :: rest => endOf staysOpen rest

def available (i : Inbound) : List UInt8 := readable i.arrivals

def ending (i : Inbound) : FillEnd := endOf i.staysOpen i.arrivals

/-- A reader gets from one inbound side to the other over these bytes. -/
structure Leads (i : Inbound) (bytes : List UInt8) (j : Inbound) : Prop where
  available : i.available = bytes ++ j.available
  ending : j.ending = i.ending

theorem Leads.refl (i : Inbound) : i.Leads [] i := ⟨rfl, rfl⟩

theorem Leads.trans {i j k : Inbound} {front back : List UInt8} (hij : i.Leads front j)
    (hjk : j.Leads back k) : i.Leads (front ++ back) k := by
  refine ⟨?_, hjk.ending.trans hij.ending⟩
  rw [hij.available, hjk.available, List.append_assoc]

theorem Leads.congr {i j k : Inbound} {bytes : List UInt8} (h : j.Leads bytes k)
    (havailable : i.available = j.available) (hending : i.ending = j.ending) :
    i.Leads bytes k :=
  ⟨havailable.trans h.available, h.ending.trans hending.symm⟩

theorem Leads.cons_bytes {staysOpen : Bool} {rest : List Arrival} {j : Inbound}
    {bytes : List UInt8} (data : List UInt8) (h : Leads ⟨rest, staysOpen⟩ bytes j) :
    Leads ⟨.bytes data :: rest, staysOpen⟩ (data ++ bytes) j := by
  refine ⟨?_, h.ending⟩
  have havailable : readable rest = bytes ++ j.available := h.available
  calc data ++ readable rest = data ++ (bytes ++ j.available) := by rw [havailable]
    _ = data ++ bytes ++ j.available := (List.append_assoc _ _ _).symm

theorem endOf_ne_full (staysOpen : Bool) (arrivals : List Arrival) :
    endOf staysOpen arrivals ≠ .full := by
  fun_induction endOf staysOpen arrivals <;> simp_all

theorem endOf_ne_expired (staysOpen : Bool) (arrivals : List Arrival) :
    endOf staysOpen arrivals ≠ .expired := by
  fun_induction endOf staysOpen arrivals <;> simp_all

theorem endOf_ne_timeout (staysOpen : Bool) (arrivals : List Arrival) :
    endOf staysOpen arrivals ≠ .failed .timeout := by
  fun_induction endOf staysOpen arrivals with
  | case4 error rest error' hretry =>
      rintro ⟨⟩
      rcases IoError.eq_of_retry_eq_never hretry with htimeout | htimeout <;> cases htimeout
  | _ => simp_all

theorem fillFrom_ne_expired (staysOpen : Bool) (backoff : Nat) (arrivals : List Arrival)
    (now n : Nat) : (fillFrom staysOpen backoff none arrivals now n).outcome ≠ .expired := by
  generalize hdeadline : (none : Option Nat) = deadline
  fun_induction fillFrom staysOpen backoff deadline arrivals now n with
  | case6 data rest now n hsplit filled ih => exact ih
  | _ => subst hdeadline; simp_all [inTime]

/-- How a wait for `n` bytes goes, unless the deadline ends it. -/
def Waits (i : Inbound) (n : Nat) (filled : Filled) : Prop :=
  (filled.outcome = .full ∧ i.Leads filled.bytes filled.inbound) ∨
    (filled.outcome = i.ending ∧ i.available.length < n)

theorem Waits.congr {i j : Inbound} {n : Nat} {filled : Filled} (h : j.Waits n filled)
    (havailable : i.available = j.available) (hending : i.ending = j.ending) :
    i.Waits n filled := by
  rcases h with ⟨hfull, hleads⟩ | ⟨hend, hshort⟩
  · exact .inl ⟨hfull, hleads.congr havailable hending⟩
  · exact .inr ⟨hend.trans hending.symm, havailable ▸ hshort⟩

theorem fillFrom_waits (staysOpen : Bool) (backoff : Nat) (deadline : Option Nat)
    (arrivals : List Arrival) (now n : Nat)
    (h : (fillFrom staysOpen backoff deadline arrivals now n).outcome ≠ .expired) :
    Waits ⟨arrivals, staysOpen⟩ n (fillFrom staysOpen backoff deadline arrivals now n) := by
  -- The last line is for the cases that end with the deadline, which `h` rules out.
  fun_induction fillFrom staysOpen backoff deadline arrivals now n with
  | case1 arrivals now => exact .inl ⟨rfl, .refl _⟩
  | case2 now n hopen limit => simp at h
  | case3 now n hopen => exact .inr (by simp [ending, endOf, hopen, available, readable])
  | case4 now n hclosed => exact .inr (by simp [ending, endOf, hclosed, available, readable])
  | case5 data rest now n front left hsplit =>
      obtain ⟨rfl, -⟩ := splitExactly?_eq_some_iff.1 hsplit
      exact .inl ⟨rfl, by simp [available, readable], rfl⟩
  | case6 data rest now n hsplit filled ih =>
      have hlt := splitExactly?_eq_none_iff.1 hsplit
      rcases ih h with ⟨hfull, hleads⟩ | ⟨hend, hshort⟩
      · exact .inl ⟨hfull, hleads.cons_bytes data⟩
      · refine .inr ⟨hend, ?_⟩
        simp only [available, readable, List.length_append] at hshort ⊢
        omega
  | case7 duration rest now n wake htime ih => exact (ih h).congr rfl rfl
  | case9 wake rest now n htime ih => exact (ih h).congr rfl rfl
  | case11 error rest now n hretry ih | case12 error rest now n hretry htime ih =>
      exact (ih h).congr (by simp [available, readable, hretry]) (by simp [ending, endOf, hretry])
  | case14 error rest now n error' hretry =>
      exact .inr (by simp [ending, endOf, available, readable, hretry])
  | case15 rest now n => exact .inr (by simp [ending, endOf, available, readable])
  | _ => simp [fillFrom.expire] at h

/-- A read that gives up keeps its place in the stream. -/
theorem fillFrom_expired (staysOpen : Bool) (backoff : Nat) (deadline : Option Nat)
    (arrivals : List Arrival) (now n : Nat)
    (h : (fillFrom staysOpen backoff deadline arrivals now n).outcome = .expired) :
    let filled := fillFrom staysOpen backoff deadline arrivals now n
    Leads ⟨arrivals, staysOpen⟩ filled.bytes filled.inbound ∧ filled.bytes.length < n := by
  fun_induction fillFrom staysOpen backoff deadline arrivals now n with
  | case2 now n hopen limit => exact ⟨.refl _, by simp⟩
  | case6 data rest now n hsplit filled ih =>
      have hlt := splitExactly?_eq_none_iff.1 hsplit
      obtain ⟨hleads, hshort⟩ := ih h
      refine ⟨hleads.cons_bytes data, ?_⟩
      change filled.bytes.length < _ at hshort
      simp only [List.length_append]
      omega
  | case7 duration rest now n wake htime ih | case9 wake rest now n htime ih =>
      obtain ⟨hleads, hshort⟩ := ih h
      exact ⟨hleads.congr rfl rfl, hshort⟩
  | case8 | case10 => exact ⟨⟨rfl, rfl⟩, Nat.succ_pos _⟩
  | case11 error rest now n hretry ih | case12 error rest now n hretry htime ih =>
      obtain ⟨hleads, hshort⟩ := ih h
      refine ⟨hleads.congr ?_ ?_, hshort⟩
      · simp [available, readable, hretry]
      · simp [ending, endOf, hretry]
  | case13 error rest now n hretry htime =>
      refine ⟨⟨?_, ?_⟩, Nat.succ_pos _⟩
      · simp [available, readable, hretry]
      · simp [ending, endOf, hretry]
  | _ => simp at h

/-- A read has all the bytes, or meets the end of those there are, or a deadline passes. -/
theorem fill_cases (i : Inbound) (backoff : Nat) (deadline : Option Nat) (now n : Nat) :
    let filled := i.fill backoff deadline now n
    (filled.outcome = .full ∧ filled.bytes.length = n ∧ i.Leads filled.bytes filled.inbound) ∨
    (filled.outcome = i.ending ∧ i.available.length < n) ∨
    (filled.outcome = .expired ∧ deadline ≠ none ∧ filled.bytes.length < n ∧
      i.Leads filled.bytes filled.inbound) := by
  by_cases hexpired : (i.fill backoff deadline now n).outcome = .expired
  · obtain ⟨hleads, hshort⟩ := fillFrom_expired _ _ _ _ _ _ hexpired
    refine .inr (.inr ⟨hexpired, ?_, hshort, hleads⟩)
    rintro rfl
    exact fillFrom_ne_expired _ _ _ _ _ hexpired
  · rcases fillFrom_waits _ _ _ _ _ _ hexpired with ⟨hfull, hleads⟩ | hshort
    · exact .inl ⟨hfull, length_bytes_fill hfull, hleads⟩
    · exact .inr (.inl hshort)

end Inbound

end MessageChannel
