import MessageChannel.Message.Any
import MessageChannel.Proofs.FrameGrammar
import MessageChannel.Proofs.Receipt

namespace MessageChannel

variable {μ : Type} [Message μ]

namespace Receiver

variable {r r' : Receiver μ} {limit : UInt32} {table : PeerTable} {registry : Registry μ}
  {flags : Flags} {bytes rest : List UInt8} {blank? : Option μ} {announced : Announced}
  {received : Nat} {payload : Array UInt8}

omit [Message μ] in
theorem exists_of_map_some {ended : Except Halt μ} {m? : Option μ}
    (h : ended.map some = .ok m?) : ∃ m, ended = .ok m ∧ m? = some m := by
  cases ended with
  | error halt => simp [Except.map] at h
  | ok m => exact ⟨m, rfl, (Except.ok.inj h).symm⟩

/-- The frame with which a receiver at rest goes on, what it completes, and how it leaves the
receiver. -/
inductive Opens (registry : Registry μ) (flags : Flags) (limit : UInt32) (table : PeerTable)
    (f : Frame) : Option μ → Receiver μ → Prop
  | table {told left} (hf : f.Carries .versionVerification) (htable : f.header.data = tableTypeId)
      (hfits : f.header.length ≤ limit) (hdecode : PeerTable.decode f.payload = .ok told)
      (hrests : left.Rests limit told) : Opens registry flags limit table f none left
  | whole {m left} (hf : f.Carries .complete) (hfits : f.header.length ≤ limit)
      (hm : handOut flags (registry.resolve? f.header.data table) table f.header.data false
        f.payload = .ok m)
      (hrests : left.Rests limit table) : Opens registry flags limit table f (some m) left
  | nothing {m left} (hkind : f.header.kind = .ok .sliceHeader) (hempty : f.payload = [])
      (hzero : f.header.length = 0)
      (hm : handOut flags (registry.resolve? f.header.data table) table f.header.data true
        [] = .ok m)
      (hrests : left.Rests limit table) : Opens registry flags limit table f (some m) left
  | announcement {left} (hkind : f.header.kind = .ok .sliceHeader) (hempty : f.payload = [])
      (hfits : f.header.length ≤ limit)
      (hgathers : left.Gathers limit table (registry.resolve? f.header.data table)
        ⟨f.header.data, f.header.length.toNat⟩ 0 (.replicate f.header.length.toNat 0)) :
      Opens registry flags limit table f none left

theorem Rests.opens_whole (hr : r.Rests limit table) {h : Header} {m? : Option μ}
    (hkind : h.kind = .ok .complete)
    (hin : r.intakeOf? registry flags h bytes = some ⟨.ok m?, r', rest⟩) :
    ∃ f : Frame, h.encode ++ bytes = f.encode ++ rest ∧
      Opens registry flags limit table f m? r' := by
  rw [intakeOf?_complete hkind] at hin
  rcases hprepare : r.assembly.prepare h with ⟨error | _, assembly⟩
  · simp [hprepare] at hin
  · obtain ⟨-, hfits, -⟩ := Assembly.prepare_eq_ok_iff.1 hprepare
    rw [hprepare] at hin
    obtain ⟨⟨payload, rest'⟩, hsplit, htaken⟩ := Option.map_eq_some_iff.1 hin
    obtain ⟨rfl, hlength⟩ := splitExactly?_eq_some_iff.1 hsplit
    simp only [Intake.mk.injEq] at htaken
    obtain ⟨hm, rfl, rfl⟩ := htaken
    obtain ⟨m, hended, rfl⟩ := exists_of_map_some hm
    exact ⟨⟨h, payload⟩, by simp [Frame.encode], .whole ⟨hkind, hlength⟩ (hr.limit ▸ hfits)
      (hr.peerTable ▸ hended) ⟨rfl, hr.limit, hr.peerTable⟩⟩

theorem Rests.opens_table (hr : r.Rests limit table) {h : Header} {m? : Option μ}
    (hkind : h.kind = .ok .versionVerification)
    (hin : r.intakeOf? registry flags h bytes = some ⟨.ok m?, r', rest⟩) :
    ∃ f : Frame, h.encode ++ bytes = f.encode ++ rest ∧
      Opens registry flags limit table f m? r' := by
  rw [intakeOf?_versionVerification hkind] at hin
  by_cases hdata : h.data = tableTypeId
  · rw [if_pos hdata] at hin
    rcases hprepare : r.assembly.prepare h with ⟨error | _, assembly⟩
    · simp [hprepare] at hin
    · obtain ⟨-, hfits, rfl⟩ := Assembly.prepare_eq_ok_iff.1 hprepare
      rw [hprepare] at hin
      obtain ⟨⟨payload, rest'⟩, hsplit, htaken⟩ := Option.map_eq_some_iff.1 hin
      obtain ⟨rfl, hlength⟩ := splitExactly?_eq_some_iff.1 hsplit
      cases hdecode : PeerTable.decode payload with
      | error error => simp [hdecode] at htaken
      | ok told =>
          simp only [hdecode, Intake.mk.injEq, Except.ok.injEq] at htaken
          obtain ⟨rfl, rfl, rfl⟩ := htaken
          exact ⟨⟨h, payload⟩, by simp [Frame.encode], .table ⟨hkind, hlength⟩ hdata
            (hr.limit ▸ hfits) hdecode ⟨rfl, hr.limit, rfl⟩⟩
  · simp [if_neg hdata] at hin

theorem Rests.opens_announcement (hr : r.Rests limit table) {h : Header} {m? : Option μ}
    (hkind : h.kind = .ok .sliceHeader)
    (hin : r.intakeOf? registry flags h bytes = some ⟨.ok m?, r', rest⟩) :
    ∃ f : Frame, h.encode ++ bytes = f.encode ++ rest ∧
      Opens registry flags limit table f m? r' := by
  rw [intakeOf?_sliceHeader hkind] at hin
  rcases hstart : r.assembly.start h with ⟨error | _, assembly⟩
  · simp [hstart] at hin
  · obtain ⟨-, hfits, rfl⟩ := Assembly.start_eq_ok_iff.1 hstart
    simp only [hstart] at hin
    by_cases hzero : h.length = 0
    · simp only [if_pos hzero, Option.some.injEq, Intake.mk.injEq] at hin
      obtain ⟨hm, rfl, rfl⟩ := hin
      obtain ⟨m, hended, rfl⟩ := exists_of_map_some hm
      exact ⟨⟨h, []⟩, by simp [Frame.encode], .nothing hkind rfl hzero (hr.peerTable ▸ hended)
        ⟨rfl, hr.limit, hr.peerTable⟩⟩
    · have hpos : 0 < h.length.toNat := by
        apply Nat.pos_of_ne_zero
        exact fun hnone => hzero (UInt32.toNat_inj.1 hnone)
      simp only [if_neg hzero, Option.some.injEq, Intake.mk.injEq, Except.ok.injEq] at hin
      obtain ⟨rfl, rfl, rfl⟩ := hin
      exact ⟨⟨h, []⟩, by simp [Frame.encode], .announcement hkind rfl (hr.limit ▸ hfits)
        ⟨hpos, rfl, hr.limit, hr.peerTable, by rw [hr.peerTable], rfl, rfl⟩⟩

theorem Rests.opens (hr : r.Rests limit table) {m? : Option μ}
    (hin : r.intake? registry flags bytes = some ⟨.ok m?, r', rest⟩) :
    ∃ f : Frame, bytes = f.encode ++ rest ∧ Opens registry flags limit table f m? r' := by
  obtain ⟨h, hdecode, -⟩ := Option.bind_eq_some_iff.1 hin
  obtain ⟨back, rfl⟩ := Header.decode?_eq_some_iff.1 hdecode
  rw [intake?_encode_append] at hin
  cases hkind : h.kind with
  | error error => simp [intakeOf?_unknown hkind] at hin
  | ok kind =>
      cases kind with
      | cancel => simp [intakeOf?_cancel hkind] at hin
      | slice => simp [intakeOf?_slice hkind, Assembly.slot, hr.inFlight] at hin
      | complete => exact hr.opens_whole hkind hin
      | versionVerification => exact hr.opens_table hkind hin
      | sliceHeader => exact hr.opens_announcement hkind hin

/-- The slice with which a receiver of slices goes on, what it completes, and how it leaves the
receiver. -/
inductive Continues (flags : Flags) (limit : UInt32) (table : PeerTable) (blank? : Option μ)
    (announced : Announced) (received : Nat) (payload : Array UInt8) (f : Frame) :
    Option μ → Receiver μ → Prop
  | slice {left} (hf : f.Carries .slice)
      (hwithin : f.header.offset + f.header.length.toNat ≤ announced.total)
      (hgathers : left.Gathers limit table blank? announced (received + f.header.length.toNat)
        (Assembly.overlay payload f.header.offset f.payload)) :
      Continues flags limit table blank? announced received payload f none left
  | last {m left} (hf : f.Carries .slice)
      (hwithin : f.header.offset + f.header.length.toNat ≤ announced.total)
      (hlast : announced.total ≤ received + f.header.length.toNat)
      (hm : handOut flags blank? table announced.typeId true
        (Assembly.overlay payload f.header.offset f.payload).toList = .ok m)
      (hrests : left.Rests limit table) :
      Continues flags limit table blank? announced received payload f (some m) left

theorem Gathers.continues_slice
    (hg : r.Gathers limit table blank? announced received payload) {h : Header} {m? : Option μ}
    (hkind : h.kind = .ok .slice)
    (hin : r.intakeOf? registry flags h bytes = some ⟨.ok m?, r', rest⟩) :
    ∃ f : Frame, h.encode ++ bytes = f.encode ++ rest ∧
      Continues flags limit table blank? announced received payload f m? r' := by
  have hslice := hin
  rw [intakeOf?_slice hkind, hg.slot_eq] at hslice
  by_cases hwithin : h.offset + h.length.toNat ≤ announced.total
  · rw [if_pos hwithin] at hslice
    obtain ⟨⟨bytes, rest'⟩, hsplit, -⟩ := Option.map_eq_some_iff.1 hslice
    obtain ⟨rfl, hlength⟩ := splitExactly?_eq_some_iff.1 hsplit
    have hf : Frame.Carries .slice ⟨h, bytes⟩ := ⟨hkind, hlength⟩
    have hframe := intake?_frame registry flags r ⟨h, bytes⟩ rest'
    rw [hin] at hframe
    by_cases hmore : received + h.length.toNat < announced.total
    · obtain ⟨r'', hnext, hg'⟩ := hg.intake_slice registry flags hf hwithin hmore rest'
      rw [hframe] at hnext
      simp only [Option.some.injEq, Intake.mk.injEq, Except.ok.injEq] at hnext
      obtain ⟨rfl, rfl, rfl⟩ := hnext
      exact ⟨⟨h, bytes⟩, by simp [Frame.encode], .slice hf hwithin hg'⟩
    · obtain ⟨r'', hnext, hr'⟩ :=
        hg.intake_lastSlice registry flags hf hwithin (Nat.not_lt.1 hmore) rest'
      rw [hframe] at hnext
      simp only [Option.some.injEq, Intake.mk.injEq] at hnext
      obtain ⟨hm, rfl, rfl⟩ := hnext
      obtain ⟨m, hended, rfl⟩ := exists_of_map_some hm.symm
      exact ⟨⟨h, bytes⟩, by simp [Frame.encode],
        .last hf hwithin (Nat.not_lt.1 hmore) hended hr'⟩
  · simp [if_neg hwithin] at hslice

/-- A receiver of slices goes on with slices alone. -/
theorem Gathers.continues (hg : r.Gathers limit table blank? announced received payload)
    {m? : Option μ} (hin : r.intake? registry flags bytes = some ⟨.ok m?, r', rest⟩) :
    ∃ f : Frame, bytes = f.encode ++ rest ∧
      Continues flags limit table blank? announced received payload f m? r' := by
  obtain ⟨h, hdecode, -⟩ := Option.bind_eq_some_iff.1 hin
  obtain ⟨back, rfl⟩ := Header.decode?_eq_some_iff.1 hdecode
  rw [intake?_encode_append] at hin
  cases hkind : h.kind with
  | error error => simp [intakeOf?_unknown hkind] at hin
  | ok kind =>
      cases kind with
      | cancel => simp [intakeOf?_cancel hkind] at hin
      | complete =>
          simp [intakeOf?_complete hkind, Assembly.prepare, Assembly.isAssembling,
            hg.inFlight] at hin
      | versionVerification =>
          rw [intakeOf?_versionVerification hkind] at hin
          by_cases hdata : h.data = tableTypeId
          · simp [if_pos hdata, Assembly.prepare, Assembly.isAssembling, hg.inFlight] at hin
          · simp [if_neg hdata] at hin
      | sliceHeader =>
          simp [intakeOf?_sliceHeader hkind, Assembly.start, Assembly.isAssembling,
            hg.inFlight] at hin
      | slice => exact hg.continues_slice hkind hin

theorem Gathers.message?_slices (registry : Registry μ) (flags : Flags) {fs : List Frame}
    (hg : r.Gathers limit table blank? announced received payload)
    (hslices : Slices received announced.total fs) (rest : List UInt8) :
    ∃ r', r.message? registry flags (wire fs ++ rest) =
      some ⟨handOut flags blank? table announced.typeId true (gather payload fs).toList, r', rest⟩ ∧
      r'.Rests limit table := by
  induction fs generalizing r received payload with
  | nil =>
      have henough := hslices.enough
      have hunfinished := hg.unfinished
      simp [sliceBytes] at henough
      omega
  | cons f fs ih =>
      obtain ⟨-, ⟨hf, hwithin⟩, hslices'⟩ := Slices.cons_iff.1 hslices
      rw [wire_cons, List.append_assoc]
      by_cases hmore : received + f.header.length.toNat < announced.total
      · obtain ⟨r', hnext, hg'⟩ := hg.intake_slice registry flags hf hwithin
          hmore (wire fs ++ rest)
        rw [message?_of_frame hnext]
        exact ih hg' hslices'
      · obtain rfl := hslices'.eq_nil (Nat.not_lt.1 hmore)
        obtain ⟨r', hnext, hr'⟩ := hg.intake_lastSlice registry flags hf
          hwithin (Nat.not_lt.1 hmore) rest
        exact ⟨r', message?_of_end hnext, hr'⟩

theorem Gathers.slices_of_message? (hg : r.Gathers limit table blank? announced received payload)
    {m : μ} (hm : r.message? registry flags bytes = some ⟨.ok m, r', rest⟩) :
    ∃ fs, bytes = wire fs ++ rest ∧ Slices received announced.total fs ∧
      handOut flags blank? table announced.typeId true (gather payload fs).toList = .ok m ∧
      r'.Rests limit table := by
  -- While slices come, `Gathers` says how many bytes have and what the payload looks like so far.
  fun_induction message? registry flags r bytes generalizing received payload with
  | case1 r bytes hnone => simp at hm
  | case2 r bytes halt r'' rest' hin => simp at hm
  | case3 r bytes m' r'' rest' hin =>
      simp only [Option.some.injEq, Intake.mk.injEq, Except.ok.injEq] at hm
      obtain ⟨rfl, rfl, rfl⟩ := hm
      obtain ⟨f, rfl, hcontinues⟩ := hg.continues hin
      cases hcontinues with
      | last hf hwithin hlast hended hr' =>
          exact ⟨[f], by simp, Slices.cons_iff.2 ⟨hg.unfinished, ⟨hf, hwithin⟩, .nil hlast⟩,
            hended, hr'⟩
  | case4 r bytes r'' rest' hin ih =>
      obtain ⟨f, rfl, hcontinues⟩ := hg.continues hin
      cases hcontinues with
      | slice hf hwithin hg' =>
          obtain ⟨fs, rfl, hslices, hended, hr'⟩ := ih hg' hm
          exact ⟨f :: fs, by simp, Slices.cons_iff.2 ⟨hg.unfinished, ⟨hf, hwithin⟩, hslices⟩,
            hended, hr'⟩

theorem Rests.message?_tables (registry : Registry μ) (flags : Flags) {fs : List Frame}
    {told : PeerTable} (hr : r.Rests limit table) (htables : Tables limit table fs told)
    (rest : List UInt8) :
    ∃ r' : Receiver μ, r.message? registry flags (wire fs ++ rest) =
      r'.message? registry flags rest ∧ r'.Rests limit told := by
  induction htables generalizing r with
  | none table => exact ⟨r, rfl, hr⟩
  | @next f fs table told last hf htable hfits hdecode hrest ih =>
      obtain ⟨r', hnext, hr'⟩ := hr.intake_table registry flags hf htable hfits hdecode
        (wire fs ++ rest)
      rw [wire_cons, List.append_assoc, message?_of_frame hnext]
      exact ih hr'

/-- The frames of a payload hand it out, or fail with what its type or its bytes call for. -/
theorem Rests.message?_body (registry : Registry μ) (flags : Flags) {fs : List Frame}
    {typeId : Int32} {sliced : Bool} {data : List UInt8} (hr : r.Rests limit table)
    (hbody : Body limit fs typeId sliced data) (rest : List UInt8) :
    ∃ r', r.message? registry flags (wire fs ++ rest) =
      some ⟨handOut flags (registry.resolve? typeId table) table typeId sliced data, r', rest⟩ ∧
      r'.Rests limit table := by
  cases hbody with
  | @whole f hf hfits =>
      obtain ⟨r', hnext, hr'⟩ := hr.intake_whole registry flags hf hfits rest
      rw [wire_cons, wire_nil, List.append_nil]
      exact ⟨r', message?_of_end hnext, hr'⟩
  | @sliced f fs hkind hempty hfits hslices =>
      rw [wire_cons, List.append_assoc]
      by_cases hzero : f.header.length = 0
      · have hnil := hslices.eq_nil (by simp [hzero])
        obtain ⟨r', hnext, hr'⟩ :=
          hr.intake_emptyAnnouncement registry flags hkind hempty hzero rest
        refine ⟨r', ?_, hr'⟩
        rw [hnil, wire_nil, List.nil_append, message?_of_end hnext, hzero]
        rfl
      · obtain ⟨r', hnext, hg⟩ := hr.intake_announcement registry flags hkind hempty hfits
          hzero (wire fs ++ rest)
        rw [message?_of_frame hnext]
        exact hg.message?_slices registry flags hslices rest

theorem Rests.frames_of_message? (hr : r.Rests limit table) {m : μ}
    (hm : r.message? registry flags bytes = some ⟨.ok m, r', rest⟩) :
    ∃ tables told body typeId sliced data, bytes = wire (tables ++ body) ++ rest ∧
      Tables limit table tables told ∧ Body limit body typeId sliced data ∧
      handOut flags (registry.resolve? typeId told) told typeId sliced data = .ok m := by
  -- Tables leave the receiver at rest, so only the table it goes by changes on the way.
  fun_induction message? registry flags r bytes generalizing table with
  | case1 r bytes hnone => simp at hm
  | case2 r bytes halt r'' rest' hin => simp at hm
  | case3 r bytes m' r'' rest' hin =>
      simp only [Option.some.injEq, Intake.mk.injEq, Except.ok.injEq] at hm
      obtain ⟨rfl, rfl, rfl⟩ := hm
      obtain ⟨f, rfl, hopens⟩ := hr.opens hin
      cases hopens with
      | whole hf hfits hended hrests =>
          exact ⟨[], table, [f], _, _, _, by simp, .none _, .whole hf hfits, hended⟩
      | nothing hkind hempty hzero hended hrests =>
          refine ⟨[], table, [f], _, _, _, by simp, .none _,
            .sliced hkind hempty (by simp [hzero]) (.nil (by simp [hzero])), ?_⟩
          rw [hzero]
          exact hended
  | case4 r bytes r'' rest' hin ih =>
      obtain ⟨f, rfl, hopens⟩ := hr.opens hin
      cases hopens with
      | table hf htable hfits hdecode hrests =>
          obtain ⟨tables, told, body, typeId, sliced, data, rfl, htables, hbody, hended⟩ :=
            ih hrests hm
          exact ⟨f :: tables, told, body, typeId, sliced, data, by simp,
            .next hf htable hfits hdecode htables, hbody, hended⟩
      | announcement hkind hempty hfits hgathers =>
          obtain ⟨fs, rfl, hslices, hended, -⟩ := hgathers.slices_of_message? hm
          exact ⟨[], table, f :: fs, _, _, _, by simp, .none _,
            .sliced hkind hempty hfits hslices, hended⟩

end Receiver

instance {α : Type} (ended : Except Halt α) (halt : Halt) : Decidable (ended = .error halt) :=
  match ended with
  | .ok _ => .isFalse nofun
  | .error halt' => decidable_of_iff (halt' = halt) (by rw [Except.error.injEq])

/-- What makes a message of a payload: a blank message of its type that takes the payload, or for
want of one a message of raw bytes, if those are asked for. -/
inductive Yields (registry : Registry μ) (flags : Flags) (table : PeerTable) (typeId : Int32)
    (payload : List UInt8) : μ → Prop
  | decoded {blank m} (hresolve : registry.resolve? typeId table = some blank)
      (hdecode : Message.decode blank payload = .ok m) :
      Yields registry flags table typeId payload m
  | raw (hresolve : registry.resolve? typeId table = none) (hkeep : flags.keepUnknown = true) :
      Yields registry flags table typeId payload
        (Message.ofRaw (.ofBytes typeId (table.nameOf? typeId) payload))

theorem handOut_eq_ok_iff {registry : Registry μ} {flags : Flags} {table : PeerTable}
    {typeId : Int32} {sliced : Bool} {payload : List UInt8} {m : μ} :
    Receiver.handOut flags (registry.resolve? typeId table) table typeId sliced payload = .ok m ↔
      Yields registry flags table typeId payload m := by
  cases hresolve : registry.resolve? typeId table with
  | some blank =>
      simp only [Receiver.handOut, Worker.decode_eq_ok_iff]
      constructor
      · intro hdecode
        exact .decoded hresolve hdecode
      · rintro (⟨hresolve', hdecode⟩ | ⟨hresolve', -⟩)
        · obtain rfl := Option.some.inj (hresolve.symm.trans hresolve')
          exact hdecode
        · simp [hresolve] at hresolve'
  | none =>
      simp only [Receiver.handOut]
      constructor
      · intro hm
        by_cases hkeep : flags.keepUnknown = true
        · rw [if_pos hkeep] at hm
          obtain rfl := Except.ok.inj hm
          exact .raw hresolve hkeep
        · simp [if_neg hkeep] at hm
      · rintro (⟨hresolve', -⟩ | ⟨-, hkeep⟩)
        · simp [hresolve] at hresolve'
        · rw [if_pos hkeep]

/-- Frames that make up a message for a receiver with a table of its peer's types, and the table
that they leave it with. -/
inductive Accepted (registry : Registry μ) (limit : UInt32) (flags : Flags) (table : PeerTable) :
    List Frame → PeerTable → μ → Prop
  | mk {tables body told typeId sliced payload m} (htables : Tables limit table tables told)
      (hbody : Body limit body typeId sliced payload)
      (hyields : Yields registry flags told typeId payload m) :
      Accepted registry limit flags table (tables ++ body) told m

namespace StreamSession

/-- No message is under way, and the limit is the configured one. -/
structure Idle (s : StreamSession μ) : Prop where
  inFlight : s.receiver.assembly.inFlight = none
  limit : s.receiver.assembly.limit = s.config.maxPayload

omit [Message μ] in
theorem Idle.rests {s : StreamSession μ} (h : s.Idle) :
    s.receiver.Rests s.config.maxPayload s.receiver.peerTable := ⟨h.inFlight, h.limit, rfl⟩

theorem Idle.message?_accepted {s : StreamSession μ} (h : s.Idle) {flags : Flags} {fs : List Frame}
    {told : PeerTable} {m : μ}
    (haccepted : Accepted s.registry s.config.maxPayload flags s.receiver.peerTable fs told m)
    (rest : List UInt8) :
    ∃ r', s.receiver.message? s.registry flags (wire fs ++ rest) = some ⟨.ok m, r', rest⟩ ∧
      r'.Rests s.config.maxPayload told := by
  obtain ⟨htables, hbody, hyields⟩ := haccepted
  obtain ⟨r, hmessage, hr⟩ := h.rests.message?_tables s.registry flags
    htables (wire _ ++ rest)
  obtain ⟨r', hmessage', hr'⟩ := hr.message?_body s.registry flags hbody rest
  refine ⟨r', ?_, hr'⟩
  rw [wire_append, List.append_assoc, hmessage, hmessage', handOut_eq_ok_iff.2 hyields]

/-- A call to receive succeeds on the streams that begin with the frames of a message and on no
others, and it reads those frames and nothing behind them. -/
theorem receive_eq_ok_iff_accepted {flags : Flags} {s t : Scene (StreamSession μ)}
    {ended : Except Halt μ} (hidle : s.session.Idle)
    (hrun : (receive flags).run s = (ended, t)) (hquiet : ended ≠ .error (.failed .timeout))
    (m : μ) :
    (ended = .ok m ↔ ∃ fs told rest, s.session.available = wire fs ++ rest ∧
      Accepted s.session.registry s.session.config.maxPayload flags s.session.receiver.peerTable
        fs told m) ∧
    ∀ fs told rest, s.session.available = wire fs ++ rest →
      Accepted s.session.registry s.session.config.maxPayload flags s.session.receiver.peerTable
        fs told m →
      s.session.Hears (wire fs) t.session ∧ t.session.available = rest ∧
        t.session.receiver.peerTable = told ∧ t.session.Idle := by
  have hmessage := receive_message hrun hquiet
  have haccepted : ∀ fs told rest, s.session.available = wire fs ++ rest →
      Accepted s.session.registry s.session.config.maxPayload flags s.session.receiver.peerTable
        fs told m →
      ended = .ok m ∧ s.session.Hears (wire fs) t.session ∧ t.session.available = rest ∧
        t.session.receiver.peerTable = told ∧ t.session.Idle := by
    intro fs told rest havailable hfs
    obtain ⟨r', htaken, hr'⟩ := hidle.message?_accepted hfs rest
    rw [havailable, htaken] at hmessage
    obtain ⟨rfl, hreceiver, hrest, bytes, hears⟩ := hmessage
    dsimp only [settledIntake] at hreceiver hrest
    obtain rfl := hears.bytes_eq (havailable.trans (by rw [hrest]))
    refine ⟨rfl, hears, hrest, ?_, ?_, ?_⟩
    · rw [hreceiver]
      exact hr'.peerTable
    · rw [hreceiver]
      exact hr'.inFlight
    · rw [hreceiver, hears.config]
      exact hr'.limit
  refine ⟨⟨?_, ?_⟩, fun fs told rest havailable hfs => (haccepted fs told rest havailable hfs).2⟩
  · rintro rfl
    obtain ⟨⟨ended, r', rest⟩, htaken, hsettled⟩ := Option.map_eq_some_iff.1 hmessage.taken.1
    obtain rfl : ended = .ok m := congrArg Receiver.Intake.ended hsettled
    obtain ⟨tables, told, body, typeId, sliced, payload, havailable, htables, hbody, hended⟩ :=
      hidle.rests.frames_of_message? htaken
    exact ⟨_, told, rest, havailable, htables, hbody, handOut_eq_ok_iff.1 hended⟩
  · rintro ⟨fs, told, rest, havailable, hfs⟩
    exact (haccepted fs told rest havailable hfs).1

/-- A payload in two slices, the later part of it first. -/
def slicesOutOfOrder : List Frame :=
  [⟨.sliceHeader 3 rawTypeId, []⟩, ⟨.slice 2 1, [8, 9]⟩, ⟨.slice 1 0, [7]⟩]

/-- They come in two stretches that are not cut at a frame, and more comes behind them. -/
def receivingSlices : Scene (StreamSession AnyMessage) where
  session := .new (.ofVersion 1) {} { inbound :=
    { arrivals := [.bytes ((wire slicesOutOfOrder).take 15), .pause 5,
        .bytes ((wire slicesOutOfOrder).drop 15 ++ [1])], staysOpen := true } }

theorem receive_slicesOutOfOrder : ∃ t, (receive .none).run receivingSlices =
    (.ok (.raw ⟨rawTypeId, 3, none, [7, 8, 9]⟩), t) ∧ t.session.available = [1] := by
  generalize hrun : (receive .none).run receivingSlices = result
  obtain ⟨ended, t⟩ := result
  have hidle : receivingSlices.session.Idle := ⟨rfl, rfl⟩
  have hquiet : ended ≠ .error (.failed .timeout) := by
    have hended : ended = ((receive .none).run receivingSlices).1 := by rw [hrun]
    rw [hended]
    decide +kernel
  have havailable : receivingSlices.session.available = wire slicesOutOfOrder ++ [1] := by
    decide +kernel
  have hslices : Slices 0 3 slicesOutOfOrder.tail := by
    refine Slices.cons_iff.2 ⟨by decide, ⟨⟨rfl, rfl⟩, by decide⟩, ?_⟩
    refine Slices.cons_iff.2 ⟨by decide, ⟨⟨rfl, rfl⟩, by decide⟩, ?_⟩
    exact .nil (by decide)
  have hyields : Yields (.ofVersion 1) .none {} rawTypeId [7, 8, 9]
      (.raw ⟨rawTypeId, 3, none, [7, 8, 9]⟩ : AnyMessage) := .decoded rfl rfl
  have haccepted : Accepted (.ofVersion 1) 4294967295 .none {} ([] ++ slicesOutOfOrder) {}
      (.raw ⟨rawTypeId, 3, none, [7, 8, 9]⟩ : AnyMessage) :=
    .mk (.none _) (.sliced rfl rfl (by decide) hslices) hyields
  obtain ⟨hiff, hread⟩ := receive_eq_ok_iff_accepted hidle hrun hquiet
    (.raw ⟨rawTypeId, 3, none, [7, 8, 9]⟩)
  refine ⟨t, ?_, (hread _ _ _ havailable haccepted).2.1⟩
  rw [hiff.2 ⟨_, _, _, havailable, haccepted⟩]

end StreamSession

end MessageChannel
