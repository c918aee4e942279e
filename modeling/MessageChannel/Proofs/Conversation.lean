import MessageChannel.Proofs.FailureCodes
import MessageChannel.Proofs.Recognition

namespace MessageChannel

variable {μ : Type} [Message μ]

/-- Slices of a payload that its sender has given up before the last of them. -/
structure Unfinished (total : Nat) (fs : List Frame) : Prop where
  within : ∀ f ∈ fs, f.Carries .slice ∧ f.header.offset + f.header.length.toNat ≤ total
  short : sliceBytes fs < total

/-- What a peer says, with what each call of a receiver has to return for it, whatever the flags of
the call. The receiver goes by the last table that it was told. -/
inductive Conversation (registry : Registry μ) (limit : UInt32) :
    PeerTable → List Frame → List (Flags → Except Halt μ) → Prop
  | silence (table) : Conversation registry limit table [] []
  | table {table told f fs replies} (hf : f.Carries .versionVerification)
      (htable : f.header.data = tableTypeId) (hfits : f.header.length ≤ limit)
      (hdecode : PeerTable.decode f.payload = .ok told)
      (hrest : Conversation registry limit told fs replies) :
      Conversation registry limit table (f :: fs) replies
  | body {table body typeId sliced payload fs replies}
      (hbody : Body limit body typeId sliced payload)
      (hrest : Conversation registry limit table fs replies) :
      Conversation registry limit table (body ++ fs)
        ((fun flags => Receiver.handOut flags (registry.resolve? typeId table) table typeId sliced
          payload) :: replies)
  | canceled {table f slices cancel fs replies} (hkind : f.header.kind = .ok .sliceHeader)
      (hempty : f.payload = []) (hfits : f.header.length ≤ limit)
      (hslices : Unfinished f.header.length.toNat slices)
      (hcancel : cancel.header.kind = .ok .cancel) (hbare : cancel.payload = [])
      (hrest : Conversation registry limit table fs replies) :
      Conversation registry limit table (f :: slices ++ cancel :: fs)
        ((fun _ => .error (.failed .canceled)) :: replies)

namespace Receiver

variable {r : Receiver μ} {limit : UInt32} {table : PeerTable} {registry : Registry μ}
  {flags : Flags} {bytes more : List UInt8}

theorem message?_none_of_append
    (h : r.message? registry flags (bytes ++ more) = none) :
    r.message? registry flags bytes = none := by
  cases htaken : r.message? registry flags bytes with
  | none => rfl
  | some taken =>
      rw [message?_append htaken more] at h
      cases h

theorem message?_none_of_short {taken : Intake μ μ}
    (h : r.message? registry flags (bytes ++ more) = some taken)
    (hshort : taken.rest.length < more.length) : r.message? registry flags bytes = none := by
  cases hfront : r.message? registry flags bytes with
  | none => rfl
  | some front =>
      rw [message?_append hfront more] at h
      obtain rfl := Option.some.inj h
      simp only [List.length_append] at hshort
      omega

theorem message?_nil (registry : Registry μ) (flags : Flags) (r : Receiver μ) :
    r.message? registry flags [] = none := by
  rw [message?_eq]
  rfl

theorem Gathers.message?_canceled (registry : Registry μ) (flags : Flags) {blank? : Option μ}
    {announced : Announced} {received : Nat} {payload : Array UInt8} {fs : List Frame}
    {cancel : Frame} (hg : r.Gathers limit table blank? announced received payload)
    (hwithin : ∀ f ∈ fs, f.Carries .slice ∧
      f.header.offset + f.header.length.toNat ≤ announced.total)
    (hshort : received + sliceBytes fs < announced.total)
    (hcancel : cancel.header.kind = .ok .cancel) (hbare : cancel.payload = []) (rest : List UInt8) :
    ∃ r', r.message? registry flags (wire (fs ++ [cancel]) ++ rest) =
      some ⟨.error (.failed .canceled), r', rest⟩ ∧ r'.Rests limit table := by
  induction fs generalizing r received payload with
  | nil =>
      obtain ⟨r', hnext, hr'⟩ :=
        intake_cancel registry flags hcancel hbare hg.limit hg.peerTable rest
      rw [List.nil_append, wire_cons, wire_nil, List.append_nil]
      exact ⟨r', message?_of_end hnext, hr'⟩
  | cons f fs ih =>
      obtain ⟨hf, hin⟩ := hwithin f List.mem_cons_self
      simp only [sliceBytes, List.foldr_cons] at hshort
      obtain ⟨r', hnext, hg'⟩ := hg.intake_slice registry flags hf hin (by omega)
        (wire (fs ++ [cancel]) ++ rest)
      rw [List.cons_append, wire_cons, List.append_assoc, message?_of_frame hnext]
      refine ih hg' (fun f hf => hwithin f (List.mem_cons_of_mem _ hf)) ?_
      simp only [sliceBytes]
      omega

/-- A message that is given up is told of, and nothing of it stays. -/
theorem Rests.message?_canceled (registry : Registry μ) (flags : Flags) {f cancel : Frame}
    {slices : List Frame} (hr : r.Rests limit table) (hkind : f.header.kind = .ok .sliceHeader)
    (hempty : f.payload = []) (hfits : f.header.length ≤ limit)
    (hslices : Unfinished f.header.length.toNat slices)
    (hcancel : cancel.header.kind = .ok .cancel) (hbare : cancel.payload = []) (rest : List UInt8) :
    ∃ r', r.message? registry flags (wire (f :: slices ++ [cancel]) ++ rest) =
      some ⟨.error (.failed .canceled), r', rest⟩ ∧ r'.Rests limit table := by
  have hpos : f.header.length ≠ 0 := by
    intro hzero
    have hshort := hslices.short
    simp [hzero] at hshort
  obtain ⟨r', hnext, hg⟩ := hr.intake_announcement registry flags hkind hempty hfits hpos
    (wire (slices ++ [cancel]) ++ rest)
  rw [List.cons_append, wire_cons, List.append_assoc, message?_of_frame hnext]
  refine hg.message?_canceled registry flags hslices.within ?_ hcancel hbare rest
  rw [Nat.zero_add]
  exact hslices.short

end Receiver

namespace Conversation

open Receiver

variable {registry : Registry μ} {limit : UInt32} {table told : PeerTable} {fs gs : List Frame}
  {reply : Flags → Except Halt μ} {replies : List (Flags → Except Halt μ)}

theorem ne_stalled (h : Conversation registry limit table fs replies)
    {reply : Flags → Except Halt μ} (hreply : reply ∈ replies) (flags : Flags) :
    reply flags ≠ .error .stalled := by
  induction h with
  | silence table => cases hreply
  | table hf htable hfits hdecode hrest ih => exact ih hreply
  | body hbody hrest ih =>
      rcases List.mem_cons.1 hreply with rfl | hreply
      · exact handOut_ne_stalled flags _ _ _ _ _
      · exact ih hreply
  | canceled hkind hempty hfits hslices hcancel hbare hrest ih =>
      rcases List.mem_cons.1 hreply with rfl | hreply
      · simp
      · exact ih hreply

/-- The frames for the first reply, and the rest of the conversation. -/
theorem message?_reply (h : Conversation registry limit table fs (reply :: replies)) :
    ∃ front back told, fs = front ++ back ∧ Conversation registry limit told back replies ∧
      ∀ {r : Receiver μ}, r.Rests limit table → ∀ flags rest,
        ∃ r', r.message? registry flags (wire front ++ rest) = some ⟨reply flags, r', rest⟩ ∧
          r'.Rests limit told := by
  -- Tables give no reply, so the first reply may be any number of frames away.
  generalize hreplies : reply :: replies = all at h
  induction h with
  | silence table => cases hreplies
  | @table table told f fs all hf htable hfits hdecode hrest ih =>
      obtain ⟨front, back, last, rfl, hback, hmessage⟩ := ih hreplies
      refine ⟨f :: front, back, last, rfl, hback, fun hr flags rest => ?_⟩
      obtain ⟨r', hnext, hr'⟩ := hr.intake_table registry flags hf htable hfits hdecode
        (wire front ++ rest)
      rw [wire_cons, List.append_assoc, message?_of_frame hnext]
      exact hmessage hr' flags rest
  | @body table body typeId sliced payload fs all hbody hrest ih =>
      obtain ⟨rfl, rfl⟩ := List.cons.inj hreplies
      exact ⟨body, fs, table, rfl, hrest, fun hr flags rest =>
        hr.message?_body registry flags hbody rest⟩
  | @canceled table f slices cancel fs all hkind hempty hfits hslices hcancel hbare hrest ih =>
      obtain ⟨rfl, rfl⟩ := List.cons.inj hreplies
      refine ⟨f :: slices ++ [cancel], fs, table, by simp, hrest, fun hr flags rest => ?_⟩
      exact hr.message?_canceled registry flags hkind hempty hfits hslices hcancel hbare rest

theorem message?_none (h : Conversation registry limit table fs []) {r : Receiver μ}
    (hr : r.Rests limit table) (flags : Flags) : r.message? registry flags (wire fs) = none := by
  generalize hreplies : ([] : List (Flags → Except Halt μ)) = all at h
  induction h generalizing r with
  | silence table => exact message?_nil registry flags r
  | @table table told f fs all hf htable hfits hdecode hrest ih =>
      obtain ⟨r', hnext, hr'⟩ := hr.intake_table registry flags hf htable hfits hdecode (wire fs)
      rw [wire_cons, message?_of_frame hnext]
      exact ih hr' hreplies
  | body hbody hrest ih => cases hreplies
  | canceled hkind hempty hfits hslices hcancel hbare hrest ih => cases hreplies

theorem of_table (h : Conversation registry limit table fs replies) {g : Frame}
    (hg : g.Carries .versionVerification) (hdecode : PeerTable.decode g.payload = .ok told)
    {more rest : List UInt8} (heq : wire fs ++ more = g.encode ++ rest) :
    (∃ back, fs = g :: back ∧ wire back ++ more = rest ∧
      Conversation registry limit told back replies) ∨ fs = [] ∧ replies = [] := by
  have hclash : ∀ {f : Frame} {tail}, f.encode ++ tail = g.encode ++ rest →
      f.header.kind = .ok .versionVerification := by
    intro f tail hsame
    rw [(Frame.header_of_encode_append hsame).1, hg.kind]
  cases h with
  | silence => exact .inr ⟨rfl, rfl⟩
  | table hf htable hfits hdecode' hrest =>
      rw [wire_cons, List.append_assoc] at heq
      obtain ⟨rfl, hbehind⟩ := hf.encode_append_inj hg heq
      obtain rfl := Except.ok.inj (hdecode.symm.trans hdecode')
      exact .inl ⟨_, rfl, hbehind, hrest⟩
  | body hbody hrest =>
      obtain ⟨f, gs, rfl, hkind⟩ := hbody.head
      rw [List.cons_append, wire_cons, List.append_assoc] at heq
      exact absurd (hclash heq) hkind
  | canceled hkind hempty hfits hslices hcancel hbare hrest =>
      rw [List.cons_append, wire_cons, List.append_assoc] at heq
      exact absurd (hclash heq) (by simp [hkind])

/-- A receiver that has read tables alone goes on with the conversation behind them. -/
theorem behind_tables (h : Conversation registry limit table fs replies)
    (htables : Tables limit table gs told) {more rest : List UInt8}
    (heq : wire fs ++ more = wire gs ++ rest) :
    (∃ back, fs = gs ++ back ∧ Conversation registry limit told back replies) ∨
      replies = [] ∧ (wire fs).length < (wire gs).length := by
  induction htables generalizing fs with
  | none table => exact .inl ⟨fs, rfl, h⟩
  | @next g gs table told last hg htable hfits hdecode hrest ih =>
      rw [wire_cons, List.append_assoc] at heq
      rcases h.of_table hg hdecode heq with ⟨back, rfl, hbehind, hback⟩ | ⟨rfl, rfl⟩
      · rcases ih hback hbehind with ⟨back', rfl, hback'⟩ | ⟨hnone, hlt⟩
        · exact .inl ⟨back', rfl, hback'⟩
        · refine .inr ⟨hnone, ?_⟩
          rw [wire_cons, wire_cons, List.length_append, List.length_append]
          omega
      · refine .inr ⟨rfl, ?_⟩
        simp only [wire_nil, wire_cons, List.length_append, Frame.length_encode, headerSize,
          List.length_nil]
        omega

end Conversation

end MessageChannel
