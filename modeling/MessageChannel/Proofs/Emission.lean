import MessageChannel.Proofs.Says

namespace MessageChannel

variable {μ : Type}

def tableFrame (registry : Registry μ) : Frame :=
  let payload := registry.table.encode
  ⟨.versionVerification payload.length.toUInt32 tableTypeId, payload⟩

def sliceFrame (payload : List UInt8) (range : SliceRange) : Frame :=
  ⟨.slice range.length.toUInt32 range.offset.toUInt32, range.of payload⟩

def sliceFrames (sliceSize : Nat) (payload : List UInt8) : List Frame :=
  (SlicePlan.ofSizes payload.length sliceSize).ranges.map (sliceFrame payload)

def announcement (typeId : Int32) (payload : List UInt8) : Frame :=
  ⟨.sliceHeader payload.length.toUInt32 typeId, []⟩

/-- The frames of a payload, whole or in slices. -/
def bodyFrames (sliceSize : Nat) (sliced : Bool) (typeId : Int32) (payload : List UInt8) :
    List Frame :=
  if sliced then announcement typeId payload :: sliceFrames sliceSize payload
  else [⟨.complete payload.length.toUInt32 typeId, payload⟩]

def tableFrames (registry : Registry μ) (versioned : Bool) : List Frame :=
  if versioned then [tableFrame registry] else []

namespace StreamSession

/-- A request to stop comes before the frames behind the first `j` are begun. -/
def AskedBy (s : StreamSession μ) (frames : List Frame) (j : Nat) : Prop :=
  ∃ count, Pending count s ∧ count ≤ s.written.length + (wire (frames.take j)).length

theorem length_wire_take_le (frames : List Frame) (j : Nat) :
    (wire (frames.take j)).length ≤ (wire frames).length := by
  have hsplit := congrArg wire (List.take_append_drop j frames)
  rw [wire_append] at hsplit
  rw [← hsplit, List.length_append]
  omega

theorem AskedBy.behind {s t : StreamSession μ} {lead frames : List Frame} {j : Nat}
    (h : s.AskedBy (lead ++ frames) j) (hspoke : s.Says (wire lead) t)
    (hpending : ∀ count, Pending count s → Pending count t) :
    t.AskedBy frames (j - lead.length) := by
  obtain ⟨count, hcount, hle⟩ := h
  refine ⟨count, hpending count hcount, ?_⟩
  have hlead := length_wire_take_le lead j
  rw [List.take_append, wire_append, List.length_append] at hle
  rw [hspoke.written, List.length_append]
  omega

/-- What comes of an attempt to write some frames: all of them, or some of their bytes and then an
error, or whole frames up to a place where a request to stop is looked at. -/
inductive Emission (s : StreamSession μ) (frames : List Frame) (stops : Nat → Prop)
    (ends : StreamSession μ → Prop) : Except Halt Unit → StreamSession μ → Prop
  | done {t} (hspoke : s.Says (wire frames) t) (hends : ends t) :
      Emission s frames stops ends (.ok ()) t
  | broken {t error front} (hrough : ¬s.Smooth) (herror : error ≠ .canceled)
      (hfront : front <+: wire frames) (hspoke : s.Says front t) :
      Emission s frames stops ends (.error (.failed error)) t
  | stopped {t k} (hk : k < frames.length) (hstops : stops k)
      (hspoke : s.Says (wire (frames.take k)) t) :
      Emission s frames stops ends (.error (.failed .canceled)) t

theorem Emission.mono {s t : StreamSession μ} {frames : List Frame} {stops stops' : Nat → Prop}
    {ends ends' : StreamSession μ → Prop} {ended : Except Halt Unit}
    (h : Emission s frames stops ends ended t) (hstops : ∀ k, stops k → stops' k)
    (hends : ∀ t, ends t → ends' t) : Emission s frames stops' ends' ended t := by
  cases h with
  | done hspoke hend => exact .done hspoke (hends _ hend)
  | broken hrough herror hfront hspoke => exact .broken hrough herror hfront hspoke
  | stopped hk hstop hspoke => exact .stopped hk (hstops _ hstop) hspoke

def Emits (s : Scene (StreamSession μ)) (act : Call (StreamSession μ) Unit) (frames : List Frame)
    (stops : Nat → Prop) (ends : StreamSession μ → Prop) : Prop :=
  Emission s.session frames stops ends (act.run s).1 (act.run s).2.session

theorem emits_iff_of_run {s t : Scene (StreamSession μ)} {act : Call (StreamSession μ) Unit}
    {frames : List Frame} {stops : Nat → Prop} {ends : StreamSession μ → Prop}
    {ended : Except Halt Unit} (hrun : act.run s = (ended, t)) :
    Emits s act frames stops ends ↔ Emission s.session frames stops ends ended t.session := by
  rw [Emits, hrun]

theorem Emits.bind {s : Scene (StreamSession μ)} {act next : Call (StreamSession μ) Unit}
    {front back : List Frame} {stops stops' : Nat → Prop} {ends ends' : StreamSession μ → Prop}
    (hact : Emits s act front stops ends)
    (hnext : ∀ t, s.session.Says (wire front) t.session → ends t.session →
      Emits t next back stops' ends') :
    Emits s (act >>= fun _ => next) (front ++ back)
      (fun k => stops k ∨ ∃ j, k = front.length + j ∧ stops' j) ends' := by
  rw [Emits, Call.run_bind]
  cases hrun : act.run s with
  | mk ended t =>
      rw [emits_iff_of_run hrun] at hact
      cases hact with
      | broken hrough herror hfront hspoke =>
          refine .broken hrough herror (hfront.trans ?_) hspoke
          rw [wire_append]
          exact List.prefix_append _ _
      | stopped hk hstop hspoke =>
          refine .stopped ?_ (.inl hstop) ?_
          · rw [List.length_append]
            omega
          · rw [List.take_append_of_le_length (Nat.le_of_lt hk)]
            exact hspoke
      | done hspoke hend =>
          have hmore := hnext t hspoke hend
          dsimp only
          cases hrun' : next.run t with
          | mk ended u =>
              rw [emits_iff_of_run hrun'] at hmore
              cases hmore with
              | done hspoke' hend' =>
                  refine .done ?_ hend'
                  rw [wire_append]
                  exact hspoke.trans hspoke'
              | broken hrough herror hfront hspoke' =>
                  refine .broken (fun hs => hrough (hspoke.smooth hs)) herror ?_
                    (hspoke.trans hspoke')
                  rw [wire_append]
                  exact (List.prefix_append_right_inj _).2 hfront
              | @stopped _ j hk hstop hspoke' =>
                  refine .stopped (k := front.length + j) ?_ (.inr ⟨j, rfl, hstop⟩) ?_
                  · rw [List.length_append]
                    omega
                  · rw [List.take_append, List.take_of_length_le (by omega), wire_append,
                      Nat.add_sub_cancel_left]
                    exact hspoke.trans hspoke'

theorem Emits.before {s : Scene (StreamSession μ)} {act next : Call (StreamSession μ) Unit}
    {frames : List Frame} {stops : Nat → Prop} {ends ends' : StreamSession μ → Prop}
    (hact : Emits s act frames stops ends)
    (hnext : ∀ t, s.session.Says (wire frames) t.session → ends t.session →
      Emits t next [] (fun _ => False) ends') :
    Emits s (act >>= fun _ => next) frames stops ends' := by
  have hboth := Emits.bind hact hnext
  rw [List.append_nil] at hboth
  refine hboth.mono ?_ fun t hend => hend
  rintro k (hstop | ⟨j, rfl, hfalse⟩)
  · exact hstop
  · exact hfalse.elim

theorem Emits.told {s : Scene (StreamSession μ)} {next : Call (StreamSession μ) Unit}
    {event : Event} {frames : List Frame} {stops : Nat → Prop} {ends : StreamSession μ → Prop}
    (hnext : ∀ t : Scene (StreamSession μ), t.session = s.session →
      Emits t next frames stops ends) :
    Emits s (Call.tell event >>= fun _ => next) frames stops ends :=
  hnext ⟨s.session, s.now, s.log.push event⟩ rfl

/-- A frame that is written whole has a request to stop seen that comes with it. -/
theorem emits_sendFrame {s : Scene (StreamSession μ)} (hconnected : s.session.transport.isSome)
    (f : Frame) : Emits s (sendFrame f) [f] (fun _ => False)
      fun t => ∀ count, Pending count s.session → Pending count t := by
  obtain ⟨transport, htransport⟩ := Option.isSome_iff_exists.1 hconnected
  obtain ⟨front, back, hflatten, haccepts, hdone, hne⟩ :=
    Outbound.deliver_accepts s.session.config.retryBackoff f.pieces transport.outbound s.now
  rw [Frame.flatten_pieces] at hflatten
  rw [Emits, run_sendFrame htransport]
  cases houtcome :
    (transport.outbound.deliver s.session.config.retryBackoff f.pieces s.now).outcome with
  | ok _ =>
      obtain rfl := hdone houtcome
      simp only [houtcome]
      refine .done ⟨transport, _, htransport, ?_, rfl⟩ fun count hpending => ?_
      · rw [wire_cons, wire_nil, List.append_nil, hflatten, List.append_nil]
        exact haccepts
      · rcases hpending with hrequested | ⟨transport', htransport', hasks, hsize⟩
        · exact .inl (by simp [hrequested])
        · obtain rfl := Option.some.inj (htransport.symm.trans htransport')
          rcases Outbound.deliver_asks s.session.config.retryBackoff f.pieces hasks hsize s.now with
            hcanceled | hleft
          · exact .inl (by simp [hcanceled])
          · exact .inr ⟨_, rfl, hleft⟩
  | error error =>
      simp only [houtcome]
      refine .broken ?_ (fun hcanceled => hne (hcanceled ▸ houtcome)) ?_
        ⟨transport, _, htransport, haccepts, rfl⟩
      · rintro ⟨transport', htransport', hunfailing⟩
        obtain rfl := Option.some.inj (htransport.symm.trans htransport')
        rw [Outbound.deliver_unfailing _ _ hunfailing] at houtcome
        cases houtcome
      · rw [wire_cons, wire_nil, List.append_nil, hflatten]
        exact List.prefix_append _ _

theorem emits_dropLateCancel {s : Scene (StreamSession μ)}
    (hconnected : s.session.transport.isSome) (typeId : Int32) {stops : Nat → Prop} {done : Prop}
    (hdone : done) : Emits s (dropLateCancel typeId) [] stops fun _ => done := by
  have hspoke := (Says.refl hconnected).withRequest false
  rw [Emits, dropLateCancel, Call.run_bind, run_takeCancel]
  dsimp only
  obtain ⟨log, htell⟩ := Call.run_tellIf (s.session.cancelRequested = true) (.lateCancel typeId)
    { s with session := { s.session with cancelRequested := false } }
  rw [htell]
  exact .done hspoke hdone

/-- Looks at the request to stop, but not before the very first slice. -/
def checkpoint (index count : Nat) : Call (StreamSession μ) Unit := do
  if index ≠ 0 then
    if ← takeCancel then
      Call.tell (.sendCanceled index count)
      Call.fail .canceled

theorem sendSlices_cons (payload : List UInt8) (count : Nat) (range : SliceRange)
    (ranges : List SliceRange) (index : Nat) :
    sendSlices (μ := μ) payload count (range :: ranges) index = (do
      checkpoint index count
      sendFrame (sliceFrame payload range)
      sendSlices payload count ranges (index + 1)) := by
  rw [sendSlices, checkpoint]
  by_cases hindex : index = 0
  · simp only [hindex, ne_eq, not_true, if_false, pure_bind]
    rfl
  · simp only [ne_eq, hindex, not_false_eq_true, if_true, bind_assoc]
    congr 1
    funext requested
    cases requested with
    | true =>
        simp only [if_true, bind_assoc]
        congr 1
    | false => rfl

theorem checkpoint_stops {s : Scene (StreamSession μ)} {index : Nat} (count : Nat)
    (hconnected : s.session.transport.isSome) (hindex : index ≠ 0)
    (hrequested : s.session.cancelRequested = true) :
    ∃ t, (checkpoint index count).run s = (.error (.failed .canceled), t) ∧
      s.session.Says [] t.session := by
  refine ⟨⟨{ s.session with cancelRequested := false }, s.now,
    s.log.push (.sendCanceled index count)⟩, ?_, (Says.refl hconnected).withRequest false⟩
  simp only [checkpoint, ne_eq, hindex, not_false_eq_true, if_true, Call.run_bind, run_takeCancel,
    hrequested]
  rfl

theorem checkpoint_passes {s : Scene (StreamSession μ)} {index : Nat} (count : Nat)
    (hpass : index = 0 ∨ s.session.cancelRequested = false) :
    (checkpoint index count).run s = (.ok (), s) := by
  by_cases hindex : index = 0
  · simp only [checkpoint, hindex, ne_eq, not_true, if_false]
    rfl
  · have hrequested := hpass.resolve_left hindex
    simp only [checkpoint, ne_eq, hindex, not_false_eq_true, if_true, Call.run_bind, run_takeCancel,
      hrequested]
    obtain ⟨⟨registry, config, transport, receiver, requested⟩, now, log⟩ := s
    obtain rfl : requested = false := hrequested
    rfl

/-- The slices are written one by one, up to the place where a request to stop is seen. None is
begun after the request but the very first, and only slices that are all begun by then are all
written. -/
theorem emits_sendSlices {s : Scene (StreamSession μ)} (hconnected : s.session.transport.isSome)
    (payload : List UInt8) (count : Nat) (ranges : List SliceRange) (index : Nat) :
    let frames := ranges.map (sliceFrame payload)
    Emits s (sendSlices payload count ranges index) frames
      (fun k => index + k ≠ 0 ∧ ∀ j, s.session.AskedBy frames j → k ≤ max j (1 - index))
      fun _ => ∀ j < frames.length, s.session.AskedBy frames j → index = 0 ∧ frames.length < 2 := by
  induction ranges generalizing s index with
  | nil => exact .done (.refl hconnected) (by simp)
  | cons range ranges ih =>
      dsimp only at ih ⊢
      rw [sendSlices_cons, List.map_cons]
      by_cases hstop : index ≠ 0 ∧ s.session.cancelRequested = true
      · obtain ⟨t, hrun, hspoke⟩ := checkpoint_stops count hconnected hstop.1 hstop.2
        rw [Emits, Call.run_bind, hrun]
        exact .stopped (k := 0) (by simp) ⟨by simpa using hstop.1, by simp⟩ hspoke
      · have hpass : index = 0 ∨ s.session.cancelRequested = false := by
          by_cases hindex : index = 0
          · exact .inl hindex
          · exact .inr (Bool.eq_false_iff.2 fun hrequested => hstop ⟨hindex, hrequested⟩)
        -- What is asked for by now would have been seen at the checkpoint.
        have hlater : ∀ {frames}, s.session.AskedBy frames 0 → index = 0 := by
          rintro frames ⟨n, hpending, hle⟩
          refine hpass.resolve_right fun hquiet => ?_
          have hrequested := hpending.requested (by simpa using hle)
          simp [hquiet] at hrequested
        have hrest : ∀ t : Scene (StreamSession μ),
            s.session.Says (wire [sliceFrame payload range]) t.session →
            (∀ n, Pending n s.session → Pending n t.session) →
            Emits t (sendSlices payload count ranges (index + 1)) (ranges.map (sliceFrame payload))
              (fun k => ∀ j, s.session.AskedBy
                (sliceFrame payload range :: ranges.map (sliceFrame payload)) j →
                  1 + k ≤ max j (1 - index))
              fun _ => ∀ j < ranges.length + 1, s.session.AskedBy
                (sliceFrame payload range :: ranges.map (sliceFrame payload)) j →
                  index = 0 ∧ ranges.length + 1 < 2 := by
          intro t hspoke hpending
          have hbehind : ∀ {j}, s.session.AskedBy
              (sliceFrame payload range :: ranges.map (sliceFrame payload)) j →
              t.session.AskedBy (ranges.map (sliceFrame payload)) (j - 1) :=
            fun h => AskedBy.behind (List.singleton_append ▸ h) hspoke hpending
          refine (ih hspoke.isSome (index + 1)).mono ?_ ?_
          · rintro k ⟨-, hbound⟩ j hasked
            have hk := hbound _ (hbehind hasked)
            by_cases hj : j = 0
            · have hindex := hlater (hj ▸ hasked)
              omega
            · omega
          · intro u hend j hj hasked
            by_cases hlast : j - 1 < (ranges.map (sliceFrame payload)).length
            · exact absurd (hend _ hlast (hbehind hasked)).1 (Nat.succ_ne_zero _)
            · rw [List.length_map] at hlast
              have hzero : j = 0 := by omega
              exact ⟨hlater (hzero ▸ hasked), by omega⟩
        rw [Emits, Call.run_bind, checkpoint_passes count hpass]
        have hslice := Emits.bind (emits_sendFrame hconnected (sliceFrame payload range)) hrest
        refine hslice.mono ?_ fun t hend => by simpa using hend
        rintro k (hfalse | ⟨j, rfl, hj⟩)
        · exact hfalse.elim
        · exact ⟨by simp, hj⟩

/-- What is left of the sending of slices once they are announced. -/
def sendAnnounced (typeId : Int32) (payload : List UInt8) : Call (StreamSession μ) Unit := do
  Call.tell (.sent (.sliceHeader payload.length.toUInt32 typeId))
  let plan := SlicePlan.ofSizes payload.length (← Call.session).config.sliceSize
  sendSlices payload plan.remaining plan.ranges 0
  Call.tell (.sentSlices payload.length.toUInt32 typeId plan.remaining)
  dropLateCancel typeId

theorem sendSliced_eq (typeId : Int32) (payload : List UInt8) :
    sendSliced typeId payload = (do
      sendFrame (announcement typeId payload)
      sendAnnounced typeId payload : Call (StreamSession μ) Unit) := rfl

theorem emits_sendAnnounced {s t : Scene (StreamSession μ)} (typeId : Int32)
    (payload : List UInt8) (hspoke : s.session.Says (wire [announcement typeId payload]) t.session)
    (hpending : ∀ count, Pending count s.session → Pending count t.session) :
    let slices := sliceFrames s.session.config.sliceSize payload
    Emits t (sendAnnounced typeId payload) slices
      (fun k => 1 ≤ k ∧ ∀ j, s.session.AskedBy (announcement typeId payload :: slices) j →
        k ≤ max (j - 1) 1)
      fun _ => ∀ j < slices.length + 1,
        s.session.AskedBy (announcement typeId payload :: slices) j → slices.length < 2 := by
  intro slices
  have hbehind : ∀ {j}, s.session.AskedBy (announcement typeId payload :: slices) j →
      t.session.AskedBy slices (j - 1) := by
    intro j hasked
    exact AskedBy.behind (List.singleton_append ▸ hasked) hspoke hpending
  refine Emits.told fun u hsame => ?_
  have hconnected : u.session.transport.isSome := hsame ▸ hspoke.isSome
  rw [Emits, Call.run_bind]
  dsimp only [Call.session]
  rw [hsame, hspoke.config, ← hsame]
  refine Emits.before
    ((emits_sendSlices hconnected payload _ _ 0).mono ?_ fun v hend => hend) ?_
  · rintro k ⟨hpos, hbound⟩
    refine ⟨by omega, fun j hasked => hbound _ ?_⟩
    rw [hsame]
    exact hbehind hasked
  · intro v hspoke' hend
    refine Emits.told fun w hsame' => emits_dropLateCancel (hsame' ▸ hspoke'.isSome) _ ?_
    intro j hj hasked
    by_cases hlast : j - 1 < slices.length
    · refine (hend _ hlast ?_).2
      rw [hsame]
      exact hbehind hasked
    · omega

theorem emits_sendSliced {s : Scene (StreamSession μ)} (hconnected : s.session.transport.isSome)
    (typeId : Int32) (payload : List UInt8) :
    let frames := bodyFrames s.session.config.sliceSize true typeId payload
    Emits s (sendSliced typeId payload) frames
      (fun k => 2 ≤ k ∧ ∀ j, s.session.AskedBy frames j → k ≤ max j 2)
      fun _ => ∀ j < frames.length, s.session.AskedBy frames j →
        (sliceFrames s.session.config.sliceSize payload).length < 2 := by
  intro frames
  rw [sendSliced_eq]
  have hboth := Emits.bind (emits_sendFrame hconnected (announcement typeId payload))
    fun t => emits_sendAnnounced typeId payload
  refine Emission.mono hboth ?_ fun t hend => hend
  rintro k (hfalse | ⟨j, rfl, hpos, hbound⟩)
  · exact hfalse.elim
  · rw [List.length_singleton]
    refine ⟨by omega, fun i hasked => ?_⟩
    have hj := hbound i hasked
    omega

theorem emits_sendWhole {s : Scene (StreamSession μ)} (hconnected : s.session.transport.isSome)
    (typeId : Int32) (payload : List UInt8) :
    Emits s (sendWhole typeId payload) (bodyFrames s.session.config.sliceSize false typeId payload)
      (fun _ => False) fun _ => True := by
  refine Emits.before (emits_sendFrame hconnected _) fun t hspoke _ => ?_
  exact Emits.told fun u hsame => emits_dropLateCancel (hsame ▸ hspoke.isSome) _ trivial

theorem emits_sendVersion {s : Scene (StreamSession μ)} (hconnected : s.session.transport.isSome) :
    Emits s sendVersion [tableFrame s.session.registry] (fun _ => False)
      fun t => ∀ count, Pending count s.session → Pending count t := by
  rw [Emits, sendVersion, Call.run_bind]
  exact Emits.before (emits_sendFrame hconnected _) fun t hspoke hpending =>
    .done (.refl hspoke.isSome) hpending

def cancelFrame (typeId : Int32) : Frame := ⟨.cancel typeId, []⟩

theorem run_sendCancel {s : Scene (StreamSession μ)} (hconnected : s.session.transport.isSome)
    (typeId : Int32) :
    ∃ t tail, (sendCancel typeId).run s = (.ok (), t) ∧ s.session.Says tail t.session ∧
      tail <+: (cancelFrame typeId).encode ∧
      (tail = (cancelFrame typeId).encode ∨ ∃ error, .cancelFailed typeId error ∈ t.log) ∧
      (s.session.Smooth → tail = (cancelFrame typeId).encode) := by
  have hemits := emits_sendFrame hconnected (cancelFrame typeId)
  have hwire : wire [cancelFrame typeId] = (cancelFrame typeId).encode := by simp
  rw [sendCancel, Call.run_bind]
  cases hrun : (sendFrame (cancelFrame typeId)).run s with
  | mk ended t =>
      have hrun' : (sendFrame ⟨.cancel typeId, []⟩).run s = (ended, t) := hrun
      rw [emits_iff_of_run hrun] at hemits
      simp only [Call.errorOf?, hrun']
      cases hemits with
      | done hspoke hend =>
          rw [hwire] at hspoke
          exact ⟨_, _, rfl, hspoke, List.prefix_refl _, .inl rfl, fun _ => rfl⟩
      | @broken _ error front hrough herror hfront hspoke =>
          rw [hwire] at hfront
          exact ⟨_, _, rfl, hspoke, hfront, .inr ⟨error, Array.mem_push_self⟩, fun hs =>
            absurd hs hrough⟩
      | stopped hk hstop hspoke => exact hstop.elim

end StreamSession

end MessageChannel
