import MessageChannel.Message.Any
import MessageChannel.Proofs.Registration
import MessageChannel.Proofs.Standing
import MessageChannel.Proofs.TableCodec
import MessageChannel.Proofs.Untouched

namespace MessageChannel

variable {μ : Type}

/-- The last table counts. -/
theorem Tables.decode_last {limit : UInt32} {table told : PeerTable} {fs : List Frame} {f : Frame}
    (h : Tables limit table (fs ++ [f]) told) :
    f.Carries .versionVerification ∧ PeerTable.decode f.payload = .ok told := by
  induction fs generalizing table with
  | nil =>
      cases h with
      | next hf htable hfits hdecode hrest =>
          cases hrest
          exact ⟨hf, hdecode⟩
  | cons g fs ih =>
      cases h with
      | next hg htable hfits hdecode hrest => exact ih hrest

theorem Body.ne_table {limit : UInt32} {fs : List Frame} {typeId : Int32} {sliced : Bool}
    {payload : List UInt8} (h : Body limit fs typeId sliced payload) :
    ∀ f ∈ fs, f.header.kind ≠ .ok .versionVerification := by
  cases h with
  | whole hf hfits => simp [hf.kind]
  | sliced hkind hbare hfits hslices =>
      intro g hg
      rcases List.mem_cons.1 hg with rfl | hg
      · simp [hkind]
      · simp [(hslices.within g hg).1.kind]

namespace Receiver

variable {registry : Registry μ} {limit : UInt32} {table told : PeerTable} {fs gs : List Frame}
  {demand : Demand} {r : Receiver μ} {f : Frame}

theorem ne_table_of_slices {total : Nat} (hf : Announces limit f) (hslices : Unfinished total gs) :
    ∀ g ∈ f :: gs, g.header.kind ≠ .ok .versionVerification := by
  intro g hg
  rcases List.mem_cons.1 hg with rfl | hg
  · simp [hf.kind]
  · simp [(hslices.within g hg).1.kind]

/-- The table in force is the last of the tables that the frames begin with. -/
theorem Stands.tables (hs : Stands registry limit table fs demand r) :
    ∃ tables rest, fs = tables ++ rest ∧ Tables limit table tables r.peerTable ∧
      ∀ f ∈ rest, f.header.kind ≠ .ok .versionVerification := by
  cases hs with
  | rests htables hr | opensTable htables hr | opensWhole htables hr =>
      exact ⟨fs, [], by simp, hr.peerTable ▸ htables, by simp⟩
  | gathers htables hf hslices hg | opensSlice htables hf hslices hg =>
      exact ⟨_, _, rfl, hg.peerTable ▸ htables, ne_table_of_slices hf hslices⟩
  | delivers htables hbody hmessage htold => exact ⟨_, _, rfl, htold ▸ htables, hbody.ne_table⟩

theorem Stands.message_of_delivery {typeId : Int32} {sliced : Bool}
    (hs : Stands registry limit table fs (.delivery typeId sliced) r) :
    r.message = registry.resolve? typeId r.peerTable := by
  cases hs with
  | delivers htables hbody hmessage htold => rw [hmessage, htold]

theorem Stands.decode_last (hs : Stands registry limit table (fs ++ f :: gs) demand r)
    (hf : f.header.kind = .ok .versionVerification)
    (hgs : ∀ g ∈ gs, g.header.kind ≠ .ok .versionVerification) :
    f.Carries .versionVerification ∧ PeerTable.decode f.payload = .ok r.peerTable := by
  obtain ⟨tables, rest, hsplit, htables, hrest⟩ := hs.tables
  rcases List.append_eq_append_iff.1 hsplit with ⟨more, rfl, hmore⟩ | ⟨more, rfl, hmore⟩
  · cases more with
    | nil =>
        obtain rfl : f :: gs = rest := hmore
        exact absurd hf (hrest f List.mem_cons_self)
    | cons g more =>
        obtain ⟨rfl, rfl⟩ := List.cons.inj hmore
        cases more with
        | nil => exact htables.decode_last
        | cons g more => exact absurd (htables.kind (by simp)) (hgs g (by simp))
  · exact absurd hf (hrest f (by simp [hmore]))

theorem keepsTable_onHeader (registry : Registry μ) (h : Header) :
    Call.Keeps Receiver.peerTable (onHeader registry h) := by
  refine (timeless_onHeader registry h).keeps fun r => ?_
  rw [effect_onHeader]
  dsimp only
  repeat' split
  all_goals rfl

end Receiver

namespace StreamSession

variable [Message μ]

/-- How a call ends does not change the table in force. -/
theorem Ends.peerTable {flags : Flags} {u v : Scene (StreamSession μ)} {demand : Demand}
    {ended : Except Halt μ} (h : Ends flags u demand ended v) :
    v.session.receiver.peerTable = u.session.receiver.peerTable := by
  let view (s : StreamSession μ) : PeerTable := s.receiver.peerTable
  have hread : Call.Keeps view readHeader := keeps_readHeader fun _ _ => rfl
  have hbody : ∀ range, Call.Keeps view (readBody range) :=
    keeps_readBody (fun _ _ => rfl) fun _ _ _ => rfl
  have hheader : ∀ registry h, Call.Keeps view (onReceiver (Receiver.onHeader registry h)) :=
    fun registry h =>
      (Receiver.keepsTable_onHeader registry h).withinPart (fun _ => rfl) fun _ _ => rfl
  cases h with
  | noHeader hrun => exact hread.of_run hrun
  | badHeader hrun hrun' => exact ((hheader _ _).of_run hrun').trans (hread.of_run hrun)
  | noBody hrun => exact (hbody _).of_run hrun
  | badBody hrun hrun' =>
      obtain ⟨heffect, -⟩ := effect_of_onReceiver (Receiver.timeless_onBody _ _) hrun'
      obtain ⟨-, hsame⟩ := Receiver.onBody_failed heffect
      exact (congrArg Receiver.peerTable hsame).trans ((hbody _).of_run hrun)
  | handsOut hdeliver => rw [(Ends.handsOut hdeliver).handedOut.2]; rfl

omit [Message μ] in
theorem Passes.peerTable {S : Registry μ} {s u : Scene (StreamSession μ)} {fs gs : List Frame}
    {demand : Demand} (h : Passes s (fs ++ tableFrame S :: gs) demand u) (hidle : s.session.Idle)
    (hgs : ∀ g ∈ gs, g.header.kind ≠ .ok .versionVerification) :
    u.session.receiver.peerTable = S.table := by
  have hstands := h.takes.1.stands hidle.rests
  obtain ⟨hcarries, hdecode⟩ := hstands.decode_last rfl hgs
  have hlt : S.table.encode.length < 2 ^ 32 := by
    have hlength : S.table.encode.length = (tableFrame S).header.length.toNat := hcarries.length
    rw [hlength]
    exact UInt32.toNat_lt _
  exact Except.ok.inj (hdecode.symm.trans (PeerTable.decode_encode hlt))

/-- Two sides understand each other by names, whatever their ids. The table that `S` sends has just
its ids from the first user id on; it takes each of them to the type of the same name at `R`, and
leaves `R` all other ids. Once `R` has received it, it is the table in force until another comes. -/
theorem reconciles {S R : Registry μ} (hS : S.Built) (hR : R.Built) :
    (S.table.version = S.version ∧ ∀ id name, (id, name) ∈ S.table.entries ↔
      ∃ typeId, firstUserTypeId ≤ typeId ∧ typeId.toUInt32 = id ∧ S.nameOf? typeId = some name) ∧
    (∀ typeId name, firstUserTypeId ≤ typeId → S.nameOf? typeId = some name →
      R.resolve? typeId S.table = R.createByName? name ∧
        ∀ m, R.createByName? name = some m ↔
          ∃ entry ∈ R.entries, entry.name = name ∧ entry.create entry.typeId = m) ∧
    (∀ typeId told, 1 ≤ typeId → typeId < firstUserTypeId →
      R.resolve? typeId told = R.create? typeId) ∧
    (∀ typeId, (firstUserTypeId ≤ typeId → S.nameOf? typeId = none) →
      R.resolve? typeId S.table = R.create? typeId) ∧
    ∀ {s u : Scene (StreamSession μ)} {fs gs demand}, s.session.Idle → s.session.registry = R →
      Passes s (fs ++ tableFrame S :: gs) demand u →
      (∀ g ∈ gs, g.header.kind ≠ .ok .versionVerification) →
        u.session.receiver.peerTable = S.table ∧
        (∀ typeId sliced, demand = .delivery typeId sliced →
          u.session.receiver.message = R.resolve? typeId S.table) ∧
        ∀ {flags ended v}, Ends flags u demand ended v →
          v.session.receiver.peerTable = S.table := by
  have hdistinct := hS.distinct
  refine ⟨⟨S.version_table, fun id name => hdistinct.mem_table_iff⟩, ?_, ?_, ?_, ?_⟩
  · intro typeId name huser hname
    refine ⟨?_, fun m => hR.distinct.createByName?_eq_some_iff⟩
    exact Registry.resolve?_of_nameOf? huser (hdistinct.nameOf?_table_of_user huser hname)
  · intro typeId told hfrom hto
    exact Registry.resolve?_of_reserved hfrom hto
  · intro typeId hnone
    apply Registry.resolve?_of_unnamed
    rw [hdistinct.nameOf?_table]
    split
    · next huser => exact hnone huser
    · rfl
  · rintro s u fs gs demand hidle rfl hpasses hgs
    have htable := hpasses.peerTable hidle hgs
    refine ⟨htable, ?_, fun hends => hends.peerTable.trans htable⟩
    rintro typeId sliced rfl
    have hstands := hpasses.takes.1.stands hidle.rests
    rw [hstands.message_of_delivery, htable]

def counterOf (typeId : Int32) : AnyMessage := .counter typeId 0

/-- Two names, registered in some order. -/
def both (first second : String) : Registry AnyMessage :=
  (((Registry.ofVersion 1).registerWith first counterOf).2.registerWith second counterOf).2

theorem built_both (first second : String) : (both first second).Built := by
  refine .registerWith (.registerWith (.ofVersion 1) _ _ fun _ => by decide) _ _ fun _ => ?_
  rw [Registry.registerWith]
  split
  · exact (by decide : 2 < Int32.size)
  · exact (by decide : 3 < Int32.size)

def receivingTable : Scene (StreamSession AnyMessage) where
  session := .new (both "Pong" "Ping") {}
    { inbound := { arrivals := [.bytes (tableFrame (both "Ping" "Pong")).encode] } }

theorem reconciles_swapped : ∃ u,
    Passes receivingTable [tableFrame (both "Ping" "Pong")] .frame u ∧
      u.session.receiver.peerTable = (both "Ping" "Pong").table ∧
      (both "Pong" "Ping").nameOf? 16 = some "Pong" ∧
      (both "Pong" "Ping").resolve? 16 (both "Ping" "Pong").table =
        (both "Pong" "Ping").createByName? "Ping" := by
  have hnone : ((receiveFrame .none).run receivingTable).1.toOption.map Option.isSome =
      some false := by decide +kernel
  generalize hrun : (receiveFrame .none).run receivingTable = result at hnone
  obtain ⟨ended, u⟩ := result
  obtain ⟨f, hpasses⟩ : ∃ f, Passes receivingTable [f] .frame u := by
    rcases receiveFrame_passes hrun with ⟨-, hf⟩ | ⟨_, _, _, ended', -, -, rfl⟩
    · exact hf
    · cases ended' <;> cases hnone
  have hidle : receivingTable.session.Idle := ⟨rfl, rfl⟩
  obtain ⟨behind, hbehind⟩ := hpasses.available_eq
  have hwhole : receivingTable.session.available =
      (tableFrame (both "Ping" "Pong")).encode ++ [] := by decide +kernel
  have havailable := hbehind.symm.trans hwhole
  obtain ⟨hheader, -⟩ := Frame.header_of_encode_append havailable
  have hstands : Receiver.Stands _ _ _ ([] ++ f :: []) .frame _ :=
    hpasses.takes.1.stands hidle.rests
  obtain ⟨hcarries, -⟩ := hstands.decode_last (by rw [hheader]; rfl) (by simp)
  have hframe : (tableFrame (both "Ping" "Pong")).Carries .versionVerification :=
    ⟨rfl, by decide +kernel⟩
  obtain ⟨rfl, -⟩ := hcarries.encode_append_inj hframe havailable
  obtain ⟨-, hnamed, -, -, hforce⟩ :=
    reconciles (built_both "Ping" "Pong") (built_both "Pong" "Ping")
  refine ⟨u, hpasses, ?_, by decide +kernel, (hnamed 16 "Ping" (by decide) (by decide +kernel)).1⟩
  exact (@hforce _ _ [] [] _ hidle rfl hpasses (by simp)).1

end StreamSession

end MessageChannel
