import MessageChannel.Transport.Outbound

namespace MessageChannel

/-- The part of some pieces that a write call takes. -/
def Written.front (w : Written) (pieces : List (List UInt8)) : List UInt8 :=
  match w.outcome with
  | .ok n => pieces.flatten.take n
  | .error _ => []

/-- An event that does not break the transport. -/
def WriteEvent.Passes (e : WriteEvent) : Prop :=
  match e.action with
  | .refuse => False
  | .fault error => ∀ error', error.retry ≠ .never error'
  | .cancel | .pause _ => True

/-- A script that has asked the sender to stop when so many bytes are accepted. -/
def Asks (count : Nat) (script : List WriteEvent) : Prop :=
  ∃ before request after, script = before ++ request :: after ∧ request.action = .cancel ∧
    request.after ≤ count ∧ ∀ e ∈ before, e.after < count

theorem Asks.mono {count count' : Nat} {script : List WriteEvent} (h : Asks count script)
    (hle : count ≤ count') : Asks count' script := by
  obtain ⟨before, request, after, hscript, haction, hdue, hbefore⟩ := h
  exact ⟨before, request, after, hscript, haction, by omega, fun e he => by
    have := hbefore e he
    omega⟩

namespace Outbound

/-- The writer gets from one outbound side to the other over these bytes. -/
structure Accepts (o : Outbound) (bytes : List UInt8) (o' : Outbound) : Prop where
  written : o'.written.toList = o.written.toList ++ bytes
  limit : o'.limit = o.limit
  script : o'.script <:+ o.script
  flushFaults : o'.flushFaults <:+ o.flushFaults

theorem Accepts.refl (o : Outbound) : o.Accepts [] o :=
  ⟨(List.append_nil _).symm, rfl, List.suffix_refl _, List.suffix_refl _⟩

theorem Accepts.trans {o o' o'' : Outbound} {front back : List UInt8} (h : o.Accepts front o')
    (h' : o'.Accepts back o'') : o.Accepts (front ++ back) o'' := by
  refine ⟨?_, h'.limit.trans h.limit, h'.script.trans h.script, h'.flushFaults.trans h.flushFaults⟩
  rw [h'.written, h.written, List.append_assoc]

theorem Accepts.size {o o' : Outbound} {bytes : List UInt8} (h : o.Accepts bytes o') :
    o'.written.size = o.written.size + bytes.length := by
  have hlength := congrArg List.length h.written
  simpa using hlength

theorem script_settle_suffix (count : Nat) (script : List WriteEvent) (now : Nat) :
    (settle count script now).script <:+ script := by
  fun_induction settle count script now with
  | case1 now => exact List.suffix_refl _
  | case2 event script now hdue haction ih | case3 event script now hdue duration haction ih =>
      exact ih.trans (List.suffix_cons _ _)
  | case4 event script now hdue error haction | case5 event script now hdue haction =>
      exact List.suffix_cons _ _
  | case6 event script now hdue => exact List.suffix_refl _

theorem eq_zero_of_answer {count now n : Nat} {script : List WriteEvent}
    (h : (settle count script now).answer = some (.ok n)) : n = 0 := by
  fun_induction settle count script now with
  | case1 now => simp at h
  | case2 event script now hdue haction ih | case3 event script now hdue duration haction ih =>
      exact ih h
  | case4 event script now hdue error haction => simp at h
  | case5 event script now hdue haction =>
      simp only [Option.some.injEq, Except.ok.injEq] at h
      exact h.symm
  | case6 event script now hdue => simp at h

theorem accept_accepts (o : Outbound) (pieces : List (List UInt8)) (now : Nat) (canceled : Bool) :
    let w := o.accept pieces now canceled
    o.Accepts (w.front pieces) w.outbound ∧ w.outcome = .ok (w.front pieces).length := by
  have hfront : ∀ n,
      pieces.flatten.take (pieces.flatten.take n).length = pieces.flatten.take n := by
    intro n
    rw [List.length_take, List.take_eq_take_min, Nat.min_assoc, Nat.min_self,
      ← List.take_eq_take_min]
  cases hroom : o.room with
  | none =>
      simp only [accept, hroom, Written.front, List.take_length]
      exact ⟨⟨by simp, rfl, List.dropWhile_suffix _, List.suffix_refl _⟩, trivial⟩
  | some n =>
      simp only [accept, hroom, Written.front, takeFront_eq, hfront]
      exact ⟨⟨by simp, rfl, List.dropWhile_suffix _, List.suffix_refl _⟩, trivial⟩

theorem write_accepts (o : Outbound) (pieces : List (List UInt8)) (now : Nat) :
    o.Accepts ((o.write pieces now).front pieces) (o.write pieces now).outbound := by
  have hscript := script_settle_suffix o.written.size o.script now
  cases hanswer : (settle o.written.size o.script now).answer with
  | none =>
      simp only [write, hanswer]
      have haccepts := (accept_accepts
        { o with
          script := (settle o.written.size o.script now).script
          offers := pieces :: o.offers }
        pieces (settle o.written.size o.script now).now
        (settle o.written.size o.script now).canceled).1
      exact ⟨haccepts.written, haccepts.limit, haccepts.script.trans hscript, haccepts.flushFaults⟩
  | some answer =>
      have hfront : (o.write pieces now).front pieces = [] := by
        simp only [write, hanswer, Written.front]
        cases answer with
        | error error => rfl
        | ok n =>
            obtain rfl := eq_zero_of_answer hanswer
            rfl
      rw [hfront]
      simp only [write, hanswer]
      exact ⟨(List.append_nil _).symm, rfl, hscript, List.suffix_refl _⟩

theorem flushed_cases (o : Outbound) (now : Nat) :
    o.flushed now = ⟨.ok (), o, now, false⟩ ∨
      ∃ after error faults, o.flushFaults = (after, error) :: faults ∧
        o.flushed now = ⟨.error (.io error), { o with flushFaults := faults }, now, false⟩ := by
  cases hfaults : o.flushFaults with
  | nil => exact .inl (by simp [flushed, flush, hfaults])
  | cons fault faults =>
      obtain ⟨after, error⟩ := fault
      by_cases hdue : after ≤ o.written.size
      · exact .inr ⟨after, error, faults, rfl, by simp [flushed, flush, hfaults, hdue]⟩
      · exact .inl (by simp [flushed, flush, hfaults, hdue])

/-- A delivery writes some of the bytes from the front on, and all of them if it succeeds. -/
theorem deliver_accepts (backoff : Nat) (pieces : List (List UInt8)) (o : Outbound) (now : Nat) :
    ∃ front back, pieces.flatten = front ++ back ∧
      o.Accepts front (deliver backoff pieces o now).outbound ∧
      ((deliver backoff pieces o now).outcome = .ok () → back = []) ∧
      (deliver backoff pieces o now).outcome ≠ .error .canceled := by
  fun_induction deliver backoff pieces o now with
  | case1 pieces o now hnone =>
      refine ⟨[], [], by simpa using hnone, ?_⟩
      rcases flushed_cases o now with hflushed | ⟨after, error, faults, hfaults, hflushed⟩
      · rw [hflushed]
        exact ⟨.refl o, fun _ => rfl, nofun⟩
      · rw [hflushed]
        refine ⟨⟨(List.append_nil _).symm, rfl, List.suffix_refl _, ?_⟩, fun _ => rfl, by simp⟩
        rw [hfaults]
        exact List.suffix_cons _ _
  | case2 pieces o now hnone w hzero =>
      have haccepts := write_accepts o pieces now
      have hfront : w.front pieces = [] := by simp [Written.front, hzero]
      exact ⟨[], pieces.flatten, rfl, hfront ▸ haccepts, nofun, by simp⟩
  | case3 pieces o now hnone w n hwritten ih =>
      have haccepts := write_accepts o pieces now
      have hfront : w.front pieces = pieces.flatten.take (n + 1) := by
        simp [Written.front, hwritten]
      obtain ⟨front, back, hflatten, haccepts', hdone, hne⟩ := ih
      rw [flatten_dropFront] at hflatten
      refine ⟨pieces.flatten.take (n + 1) ++ front, back, ?_, ?_, hdone, hne⟩
      · rw [List.append_assoc, ← hflatten, List.take_append_drop]
      · exact (hfront ▸ haccepts).trans haccepts'
  | case4 pieces o now hnone w error hfault hretry ih
  | case5 pieces o now hnone w error hfault hretry ih =>
      have haccepts := write_accepts o pieces now
      have hfront : w.front pieces = [] := by simp [Written.front, hfault]
      obtain ⟨front, back, hflatten, haccepts', hdone, hne⟩ := ih
      exact ⟨front, back, hflatten, (hfront ▸ haccepts).trans haccepts', hdone, hne⟩
  | case6 pieces o now hnone w error hfault error' hretry =>
      have haccepts := write_accepts o pieces now
      have hfront : w.front pieces = [] := by simp [Written.front, hfault]
      refine ⟨[], pieces.flatten, rfl, hfront ▸ haccepts, nofun, ?_⟩
      intro hcanceled
      obtain rfl := Except.error.inj hcanceled
      rcases IoError.eq_of_retry_eq_never hretry with hcanceled | hcanceled <;> cases hcanceled

/-- No write call fails for good, and none accepts nothing. -/
structure Unfailing (o : Outbound) : Prop where
  script : ∀ e ∈ o.script, e.Passes
  limit : o.limit ≠ some 0
  flushFaults : o.flushFaults = []

theorem Accepts.unfailing {o o' : Outbound} {bytes : List UInt8} (h : o.Accepts bytes o')
    (ho : o.Unfailing) : o'.Unfailing := by
  refine ⟨fun e he => ho.script e (h.script.subset he), ?_, ?_⟩
  · rw [h.limit]
    exact ho.limit
  · have hfaults := h.flushFaults
    rw [ho.flushFaults] at hfaults
    exact List.suffix_nil.1 hfaults

/-- The script after a call that goes on to take bytes has nothing that is due. -/
theorem lt_after_of_settle {count now : Nat} {script : List WriteEvent}
    (h : (settle count script now).answer = none) :
    ∀ e ∈ (settle count script now).script.head?, count < e.after := by
  fun_induction settle count script now with
  | case1 now => simp
  | case2 event script now hdue haction ih | case3 event script now hdue duration haction ih =>
      exact ih h
  | case4 event script now hdue error haction | case5 event script now hdue haction => simp at h
  | case6 event script now hdue => simpa using hdue

theorem passes_of_settle {count now : Nat} {script : List WriteEvent} {answer : Except IoError Nat}
    (hscript : ∀ e ∈ script, e.Passes) (h : (settle count script now).answer = some answer) :
    ∃ error, answer = .error error ∧ ∀ error', error.retry ≠ .never error' := by
  fun_induction settle count script now with
  | case1 now => simp at h
  | case2 event script now hdue haction ih | case3 event script now hdue duration haction ih =>
      exact ih (fun e he => hscript e (List.mem_cons_of_mem _ he)) h
  | case4 event script now hdue error haction =>
      have hpasses := hscript event List.mem_cons_self
      simp only [WriteEvent.Passes, haction] at hpasses
      obtain rfl := Option.some.inj h
      exact ⟨error, rfl, hpasses⟩
  | case5 event script now hdue haction =>
      have hpasses := hscript event List.mem_cons_self
      simp [WriteEvent.Passes, haction] at hpasses
  | case6 event script now hdue => simp at h

theorem room_pos {o : Outbound} (hlimit : o.limit ≠ some 0)
    (hdue : ∀ e ∈ o.script.head?, o.written.size < e.after) {n : Nat} (hroom : o.room = some n) :
    0 < n := by
  rw [room] at hroom
  split at hroom
  · apply Nat.pos_of_ne_zero
    rintro rfl
    exact hlimit hroom
  · next event script hscript hnone =>
    have hlt := hdue event (by simp [hscript])
    obtain rfl := Option.some.inj hroom
    omega
  · next event script limit hscript hsome =>
    have hlt := hdue event (by simp [hscript])
    obtain rfl := Option.some.inj hroom
    have hpos : limit ≠ 0 := by
      rintro rfl
      exact hlimit hsome
    omega

theorem accept_pos {o : Outbound} (hlimit : o.limit ≠ some 0)
    (hdue : ∀ e ∈ o.script.head?, o.written.size < e.after) {pieces : List (List UInt8)}
    (hpieces : pieces.flatten ≠ []) (now : Nat) (canceled : Bool) :
    ∃ n, (o.accept pieces now canceled).outcome = .ok (n + 1) := by
  have hlength := List.length_pos_iff.2 hpieces
  obtain ⟨n, hn⟩ : ∃ n, (o.accept pieces now canceled).outcome = .ok n ∧ n ≠ 0 := by
    cases hroom : o.room with
    | none => exact ⟨pieces.flatten.length, by simp [accept, hroom], by omega⟩
    | some k =>
        have hpos := room_pos hlimit hdue hroom
        refine ⟨(pieces.flatten.take k).length, by simp [accept, hroom, takeFront_eq], ?_⟩
        rw [List.length_take]
        omega
  obtain ⟨k, rfl⟩ := Nat.exists_eq_succ_of_ne_zero hn.2
  exact ⟨k, hn.1⟩

/-- A call on an unfailing transport takes bytes, or fails in a way that is waited out. -/
theorem write_unfailing {o : Outbound} (ho : o.Unfailing) {pieces : List (List UInt8)}
    (hpieces : pieces.flatten ≠ []) (now : Nat) :
    (∃ n, (o.write pieces now).outcome = .ok (n + 1)) ∨
      ∃ error, (o.write pieces now).outcome = .error error ∧
        ∀ error', error.retry ≠ .never error' := by
  cases hanswer : (settle o.written.size o.script now).answer with
  | some answer =>
      obtain ⟨error, rfl, herror⟩ := passes_of_settle ho.script hanswer
      exact .inr ⟨error, by simp [write, hanswer], herror⟩
  | none =>
      simp only [write, hanswer]
      refine .inl (accept_pos ?_ ?_ hpieces _ _)
      · exact ho.limit
      · exact lt_after_of_settle hanswer

theorem deliver_unfailing (backoff : Nat) (pieces : List (List UInt8)) {o : Outbound}
    (ho : o.Unfailing) (now : Nat) : (deliver backoff pieces o now).outcome = .ok () := by
  fun_induction deliver backoff pieces o now with
  | case1 pieces o now hnone => simp [flushed, flush, ho.flushFaults]
  | case2 pieces o now hnone w hzero =>
      have hpieces : pieces.flatten ≠ [] := by simpa using hnone
      rcases write_unfailing ho hpieces now with ⟨n, hwritten⟩ | ⟨error, hfault, -⟩
      · exact absurd (hzero.symm.trans hwritten) (by simp)
      · exact absurd (hzero.symm.trans hfault) (by simp)
  | case3 pieces o now hnone w n hwritten ih => exact ih ((write_accepts o pieces now).unfailing ho)
  | case4 pieces o now hnone w error hfault hretry ih
  | case5 pieces o now hnone w error hfault hretry ih =>
      exact ih ((write_accepts o pieces now).unfailing ho)
  | case6 pieces o now hnone w error hfault error' hretry =>
      have hpieces : pieces.flatten ≠ [] := by simpa using hnone
      rcases write_unfailing ho hpieces now with ⟨n, hwritten⟩ | ⟨error'', hfault', hpasses⟩
      · exact absurd (hfault.symm.trans hwritten) (by simp)
      · obtain rfl := Except.error.inj (hfault.symm.trans hfault')
        exact absurd hretry (hpasses error')

theorem asks_cons_iff {count : Nat} {event : WriteEvent} {script : List WriteEvent} :
    Asks count (event :: script) ↔
      (event.action = .cancel ∧ event.after ≤ count) ∨
        (event.after < count ∧ Asks count script) := by
  constructor
  · rintro ⟨before, request, after, hscript, haction, hdue, hbefore⟩
    cases before with
    | nil =>
        obtain ⟨rfl, rfl⟩ := List.cons.inj hscript
        exact .inl ⟨haction, hdue⟩
    | cons first before =>
        obtain ⟨rfl, rfl⟩ := List.cons.inj hscript
        exact .inr ⟨hbefore _ List.mem_cons_self, before, request, after, rfl, haction, hdue,
          fun e he => hbefore e (List.mem_cons_of_mem _ he)⟩
  · rintro (⟨haction, hdue⟩ | ⟨hlt, before, request, after, rfl, haction, hdue, hbefore⟩)
    · exact ⟨[], event, script, rfl, haction, hdue, by simp⟩
    · refine ⟨event :: before, request, after, rfl, haction, hdue, fun e he => ?_⟩
      rcases List.mem_cons.1 he with rfl | he
      · exact hlt
      · exact hbefore e he

theorem settle_asks {bound : Nat} {script : List WriteEvent} (h : Asks bound script)
    (count now : Nat) :
    (settle count script now).canceled = true ∨ Asks bound (settle count script now).script := by
  fun_induction settle count script now with
  | case1 now => exact .inr h
  | case2 event script now hdue haction ih => exact .inl rfl
  | case3 event script now hdue duration haction ih =>
      rcases asks_cons_iff.1 h with ⟨hcancel, -⟩ | ⟨-, h⟩
      · simp [haction] at hcancel
      · exact ih h
  | case4 event script now hdue error haction | case5 event script now hdue haction =>
      rcases asks_cons_iff.1 h with ⟨hcancel, -⟩ | ⟨-, h⟩
      · simp [haction] at hcancel
      · exact .inr h
  | case6 event script now hdue => exact .inr h

/-- A call takes no byte behind the one with which the sender is asked to stop. -/
theorem accept_asks {bound : Nat} {o : Outbound} (h : Asks bound o.script)
    (hdue : ∀ e ∈ o.script.head?, o.written.size < e.after) (pieces : List (List UInt8))
    (now : Nat) (canceled : Bool) :
    let w := o.accept pieces now canceled
    w.canceled = true ∨ (Asks bound w.outbound.script ∧ w.outbound.written.size < bound) := by
  cases hscript : o.script with
  | nil =>
      obtain ⟨before, request, after, hnil, -⟩ := h
      simp [hscript] at hnil
  | cons event script =>
      have hlt := hdue event (by simp [hscript])
      have hsize : (o.accept pieces now canceled).outbound.written.size ≤ event.after := by
        have htaken := (accept_accepts o pieces now canceled).1.size
        cases hlimit : o.limit with
        | none =>
            simp only [Written.front, accept, room, hscript, hlimit, takeFront_eq,
              List.length_take] at htaken ⊢
            omega
        | some limit =>
            simp only [Written.front, accept, room, hscript, hlimit, takeFront_eq,
              List.length_take] at htaken ⊢
            omega
      let size := (o.accept pieces now canceled).outbound.written.size
      have hcanceled : (o.accept pieces now canceled).canceled =
          (canceled || o.script.head?.any (isDueCancel size)) := rfl
      have hleft : (o.accept pieces now canceled).outbound.script =
          o.script.dropWhile (isDueCancel size) := rfl
      rw [hscript] at h hcanceled hleft
      by_cases hfires : isDueCancel size event = true
      · exact .inl (by simp [hcanceled, hfires])
      · rw [List.dropWhile_cons_of_neg hfires] at hleft
        refine .inr ⟨hleft ▸ h, ?_⟩
        rcases asks_cons_iff.1 h with ⟨hcancel, hbound⟩ | ⟨hbefore, -⟩
        · simp only [isDueCancel, hcancel, Bool.and_eq_true, decide_eq_true_eq, beq_self_eq_true,
            and_true, Nat.not_le] at hfires
          omega
        · omega

/-- Before a script asks the sender to stop, not all the bytes have been taken that it waits for. -/
theorem write_asks {bound : Nat} {o : Outbound} (h : Asks bound o.script)
    (hsize : o.written.size < bound) (pieces : List (List UInt8)) (now : Nat) :
    let w := o.write pieces now
    w.canceled = true ∨ (Asks bound w.outbound.script ∧ w.outbound.written.size < bound) := by
  have hsettled := settle_asks h o.written.size now
  cases hanswer : (settle o.written.size o.script now).answer with
  | some answer =>
      simp only [write, hanswer]
      exact hsettled.imp_right fun hasks => ⟨hasks, hsize⟩
  | none =>
      simp only [write, hanswer]
      rcases hsettled with hcanceled | hasks
      · exact .inl (by simp [accept, hcanceled])
      · exact accept_asks (by exact hasks) (by exact lt_after_of_settle hanswer) _ _ _

theorem deliver_asks {bound : Nat} (backoff : Nat) (pieces : List (List UInt8)) {o : Outbound}
    (h : Asks bound o.script) (hsize : o.written.size < bound) (now : Nat) :
    let d := deliver backoff pieces o now
    d.canceled = true ∨ (Asks bound d.outbound.script ∧ d.outbound.written.size < bound) := by
  fun_induction deliver backoff pieces o now with
  | case1 pieces o now hnone =>
      refine .inr ?_
      rcases flushed_cases o now with hflushed | ⟨after, error, faults, hfaults, hflushed⟩
      · rw [hflushed]
        exact ⟨h, hsize⟩
      · rw [hflushed]
        exact ⟨h, hsize⟩
  | case2 pieces o now hnone w hzero => exact write_asks h hsize pieces now
  | case3 pieces o now hnone w n hwritten ih =>
      rcases write_asks h hsize pieces now with hcanceled | ⟨hasks, hsize'⟩
      · have hcanceled : w.canceled = true := hcanceled
        exact .inl (by simp [Delivered.orCanceled, hcanceled])
      · rcases ih hasks hsize' with hcanceled | hrest
        · exact .inl (by simp [Delivered.orCanceled, hcanceled])
        · exact .inr hrest
  | case4 pieces o now hnone w error hfault hretry ih
  | case5 pieces o now hnone w error hfault hretry ih =>
      rcases write_asks h hsize pieces now with hcanceled | ⟨hasks, hsize'⟩
      · have hcanceled : w.canceled = true := hcanceled
        exact .inl (by simp [Delivered.orCanceled, hcanceled])
      · rcases ih hasks hsize' with hcanceled | hrest
        · exact .inl (by simp [Delivered.orCanceled, hcanceled])
        · exact .inr hrest
  | case6 pieces o now hnone w error hfault error' hretry => exact write_asks h hsize pieces now

end Outbound

end MessageChannel
