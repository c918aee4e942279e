import MessageChannel.Message.Any
import MessageChannel.Proofs.Enrolment

namespace MessageChannel

variable {μ : Type}

namespace Registry

/-- All that is known to one registry is known to the other, and the same. -/
structure Extends (r r' : Registry μ) : Prop where
  entries : ∀ {typeId entry}, r.find? typeId = some entry → r'.find? typeId = some entry
  names : ∀ {name typeId}, r.idOfName? name = some typeId → r'.idOfName? name = some typeId
  types : ∀ {ident typeId}, r.idOfType? ident = some typeId → r'.idOfType? ident = some typeId

variable {r r' : Registry μ} {n : Nat} {call : Enrolment μ} {typeId nextId : Int32}
  {fixedId : Option Int32}

theorem idOfName?_enterAs {name : String} {create : Int32 → μ} :
    (r.enterAs typeId name create nextId).idOfName? name = some typeId :=
  (idOfName?_add typeId name create name).trans (if_pos rfl)

theorem Extends.refl (r : Registry μ) : r.Extends r := ⟨id, id, id⟩

theorem Extends.trans {r'' : Registry μ} (h : r.Extends r') (h' : r'.Extends r'') :
    r.Extends r'' :=
  ⟨h'.entries ∘ h.entries, h'.names ∘ h.names, h'.types ∘ h.types⟩

theorem extends_enterAs {name : String} {create : Int32 → μ} (hname : r.idOfName? name = none)
    (hfree : r.contains typeId = false) : r.Extends (r.enterAs typeId name create nextId) := by
  refine ⟨fun {other entry} hentry => ?_, fun {known other} hknown => ?_, id⟩
  · have hentries : (r.enterAs typeId name create nextId).entries =
        r.entries ++ [⟨typeId, name, create⟩] := entries_add name create hfree
    rw [find?] at hentry ⊢
    rw [hentries, List.find?_append, hentry]
    rfl
  · have hother : known ≠ name := by
      rintro rfl
      rw [hname] at hknown
      cases hknown
    exact (idOfName?_add typeId name create known).trans ((if_neg hother).trans hknown)

theorem idOfType?_addType (ident : String) (typeId : Int32) (other : String) :
    (r.addType ident typeId).idOfType? other =
      if other = ident then some typeId else r.idOfType? other := by
  simp only [idOfType?, addType, List.lookup_cons]
  split <;> simp_all

theorem extends_addType {ident : String} (hident : r.idOfType? ident = none) :
    r.Extends (r.addType ident typeId) := by
  refine ⟨id, id, fun {other typeId'} hother => ?_⟩
  rw [idOfType?_addType, if_neg]
  · exact hother
  · rintro rfl
    rw [hident] at hother
    cases hother

/-- What holds between calls to register, if a type is always called by the same name. -/
structure Orderly (called : String → String) (calls : Nat) (r : Registry μ) : Prop where
  distinct : r.Distinct
  counted : r.Counted calls
  typed : ∀ {ident typeId}, r.idOfType? ident = some typeId →
    r.idOfName? (called ident) = some typeId

section Orderly

variable {called : String → String}

theorem Orderly.mono (h : Orderly called n r) : Orderly called (n + 1) r :=
  ⟨h.distinct, ⟨h.counted.counter, h.counted.passed, Nat.le_succ_of_le h.counted.few⟩, h.typed⟩

theorem Orderly.addType (h : Orderly called n r) {ident : String}
    (hname : r.idOfName? (called ident) = some typeId) :
    Orderly called n (r.addType ident typeId) := by
  refine ⟨h.distinct.addType ident typeId, ⟨h.counted.counter, h.counted.passed, h.counted.few⟩,
    fun {other typeId'} hother => ?_⟩
  rw [idOfType?_addType] at hother
  split at hother
  · next hsame =>
    subst hsame
    obtain rfl := Option.some.inj hother
    exact hname
  · exact h.typed hother

theorem Orderly.enterAs (h : Orderly called n r) (hn : n < 2 ^ 31 - 17) {name : String}
    (create : Int32 → μ) (hname : r.idOfName? name = none) (hgets : r.Gets fixedId typeId nextId) :
    Orderly called (n + 1) (r.enterAs typeId name create nextId) ∧
      r.Extends (r.enterAs typeId name create nextId) := by
  obtain ⟨hfree, -, hcounted⟩ := h.counted.gets hn hgets name create
  have hextends : r.Extends (r.enterAs typeId name create nextId) := extends_enterAs hname hfree
  refine ⟨⟨(h.distinct.add create hfree hname).congr rfl rfl, hcounted, fun hident => ?_⟩, hextends⟩
  exact hextends.names (h.typed hident)

theorem Orderly.step (h : Orderly called n r) (hn : n < 2 ^ 31 - 17)
    (hcalled : ∀ c, call = .ofType c → c.name = called c.ident)
    (henrols : r.Enrols call typeId r') : Orderly called (n + 1) r' ∧ r.Extends r' := by
  cases henrols with
  | knownName hname | knownType hname hident => exact ⟨h.mono, .refl r⟩
  | newType hname hident =>
      have htyped := h.addType (hcalled _ rfl ▸ hname)
      exact ⟨htyped.mono, extends_addType hident⟩
  | newName hname hgets => exact h.enterAs hn _ hname hgets
  | @new c typeId nextId hname hgets =>
      obtain ⟨horderly, hextends⟩ := h.enterAs hn c.create hname hgets
      have hnamed : (r.enterAs typeId c.name c.create nextId).idOfName? (called c.ident) =
          some typeId := by
        rw [← hcalled c rfl, idOfName?_enterAs]
      -- A type that is known has a name that is known, so this one is not.
      have hident : r.idOfType? c.ident = none := by
        refine Option.eq_none_iff_forall_ne_some.2 fun known hknown => ?_
        have := h.typed hknown
        rw [← hcalled c rfl, hname] at this
        cases this
      exact ⟨horderly.addType hnamed, hextends.trans (extends_addType hident)⟩

theorem Orderly.enrolAll (h : Orderly called n r) {calls : List (Enrolment μ)}
    (hfew : n + calls.length < 2 ^ 31 - 17)
    (hcalled : ∀ c, .ofType c ∈ calls → c.name = called c.ident) :
    Orderly called (n + calls.length) (r.enrolAll calls) ∧ r.Extends (r.enrolAll calls) := by
  induction calls generalizing n r with
  | nil => exact ⟨h, .refl r⟩
  | cons call calls ih =>
      rw [List.length_cons] at hfew
      obtain ⟨hnext, hextends⟩ := h.step (by omega)
        (fun c hc => hcalled c (hc ▸ List.mem_cons_self)) (r.enrol_enrols call)
      obtain ⟨hlast, hextends'⟩ := ih hnext (by omega)
        fun c hc => hcalled c (List.mem_cons_of_mem _ hc)
      refine ⟨?_, hextends.trans hextends'⟩
      rwa [List.length_cons, Nat.add_comm calls.length 1, ← Nat.add_assoc]

theorem Enrols.assigned (henrols : r.Enrols call typeId r') (hassigns : r.assigns call = true) :
    typeId = r.freeId ∧ r'.nextId = r.freeId + 1 := by
  rw [assigns, Bool.and_eq_true] at hassigns
  obtain ⟨hname, htaken⟩ := hassigns
  cases henrols with
  | knownName hname' | knownType hname' hident | newType hname' hident =>
      rw [Enrolment.name, hname'] at hname
      cases hname
  | newName hname' hgets =>
      cases hgets
      exact ⟨rfl, rfl⟩
  | @new c typeId nextId hname' hgets =>
      rw [Enrolment.fixedId] at htaken
      generalize c.fixedId = fixedId at hgets htaken
      cases hgets with
      | fixed hfree =>
          rw [Option.all_some, hfree] at htaken
          cases htaken
      | assigned => exact ⟨rfl, rfl⟩

theorem Orderly.nextId_le (h : Orderly called n r) (hn : n < 2 ^ 31 - 17)
    (henrols : r.Enrols call typeId r') : r.nextId ≤ r'.nextId := by
  cases henrols with
  | knownName | knownType | newType => exact Int32.le_refl _
  | @newName name create typeId nextId hname hgets =>
      exact (h.counted.gets hn hgets name create).2.1
  | @new c typeId nextId hname hgets =>
      exact (h.counted.gets hn hgets c.name c.create).2.1

/-- The ids that the registry picks go up from call to call. -/
theorem Orderly.assignedIds (h : Orderly called n r) {calls : List (Enrolment μ)}
    (hfew : n + calls.length < 2 ^ 31 - 17)
    (hcalled : ∀ c, .ofType c ∈ calls → c.name = called c.ident) :
    (r.assignedIds calls).Pairwise (· < ·) ∧ ∀ typeId ∈ r.assignedIds calls, r.nextId ≤ typeId := by
  induction calls generalizing n r with
  | nil => exact ⟨.nil, by simp [Registry.assignedIds]⟩
  | cons call calls ih =>
      rw [List.length_cons] at hfew
      have hn : n < 2 ^ 31 - 17 := by omega
      have henrols := r.enrol_enrols call
      obtain ⟨hnext, -⟩ := h.step hn (fun c hc => hcalled c (hc ▸ List.mem_cons_self)) henrols
      have hle := h.nextId_le hn henrols
      obtain ⟨hup, hfrom⟩ := ih hnext (by omega) fun c hc => hcalled c (List.mem_cons_of_mem _ hc)
      rw [Registry.assignedIds]
      split
      · next hassigns =>
        obtain ⟨htypeId, hcounter⟩ := henrols.assigned hassigns
        obtain ⟨hge, hmax, -, -⟩ := h.counted.freeId hn
        refine ⟨List.pairwise_cons.2 ⟨fun later hlater => ?_, hup⟩, fun typeId hmem => ?_⟩
        · have hbehind := hfrom later hlater
          rw [hcounter] at hbehind
          rw [htypeId]
          exact Int32.lt_of_lt_of_le ((lt_add_one_iff hmax).2 (Int32.le_refl _)) hbehind
        · rcases List.mem_cons.1 hmem with rfl | hmem
          · rwa [htypeId]
          · exact Int32.le_trans hle (hfrom typeId hmem)
      · exact ⟨hup, fun typeId hmem => Int32.le_trans hle (hfrom typeId hmem)⟩

/-- What a call to register gives back, and what it leaves of a registry. -/
structure Registers (r : Registry μ) (call : Enrolment μ) (typeId : Int32) (r' : Registry μ) :
    Prop where
  keeps : r.Extends r'
  known : ∀ {id}, r.idOfName? call.name = some id → typeId = id ∧ r'.entries = r.entries
  new : r.idOfName? call.name = none → r.contains typeId = false ∧
    r'.entries = r.entries ++ [⟨typeId, call.name, call.create⟩]
  fixed : ∀ {id}, r.idOfName? call.name = none → call.fixedId = some id → r.contains id = false →
    typeId = id
  assigned : r.assigns call = true → firstUserTypeId ≤ typeId
  typed : ∀ {c}, call = .ofType c → r'.idOfType? c.ident = some typeId

theorem Gets.of_fixed (hgets : r.Gets fixedId typeId nextId) {id : Int32}
    (hfixed : fixedId = some id) (hfree : r.contains id = false) : typeId = id := by
  cases hgets with
  | fixed hfree' => exact Option.some.inj hfixed
  | assigned htaken =>
      rw [hfixed, Option.all_some, hfree] at htaken
      cases htaken

theorem Orderly.registers (h : Orderly called n r) (hn : n < 2 ^ 31 - 17)
    (hcalled : ∀ c, call = .ofType c → c.name = called c.ident)
    (henrols : r.Enrols call typeId r') : r.Registers call typeId r' := by
  obtain ⟨hnext, hkeeps⟩ := h.step hn hcalled henrols
  have hassigned : r.assigns call = true → firstUserTypeId ≤ typeId := by
    intro hassigns
    rw [(henrols.assigned hassigns).1]
    exact Int32.le_trans h.counted.counter (h.counted.freeId hn).1
  have hknown : ∀ {id}, r.idOfName? call.name = some id → typeId = id ∧ r'.entries = r.entries := by
    intro id hid
    cases henrols with
    | knownName hname | knownType hname hident | newType hname hident =>
        exact ⟨Option.some.inj (hname.symm.trans hid), rfl⟩
    | newName hname hgets | new hname hgets =>
        rw [Enrolment.name, hname] at hid
        cases hid
  have hnew : r.idOfName? call.name = none →
      (∃ nextId, r.Gets call.fixedId typeId nextId) ∧
        r'.entries = (r.add typeId call.name call.create).entries := by
    intro hnone
    cases henrols with
    | knownName hname | knownType hname hident | newType hname hident =>
        rw [Enrolment.name, hname] at hnone
        cases hnone
    | newName hname hgets | new hname hgets => exact ⟨⟨_, hgets⟩, rfl⟩
  refine ⟨hkeeps, hknown, fun hnone => ?_, fun hnone hfixed hfree => ?_, hassigned, ?_⟩
  · obtain ⟨⟨nextId, hgets⟩, hentries⟩ := hnew hnone
    have hfree := (h.counted.gets hn hgets call.name call.create).1
    exact ⟨hfree, hentries.trans (entries_add call.name call.create hfree)⟩
  · obtain ⟨⟨nextId, hgets⟩, -⟩ := hnew hnone
    exact hgets.of_fixed hfixed hfree
  · rintro c rfl
    cases henrols with
    | knownType hname hident =>
        obtain ⟨known, hknown⟩ := Option.isSome_iff_exists.1 hident
        have hsame := h.typed hknown
        rw [← hcalled c rfl, hname] at hsame
        rw [hknown, hsame]
    | newType | new => exact (idOfType?_addType ..).trans (if_pos rfl)

theorem orderly_ofVersion [Message μ] (version : UInt32)
    (htable : called PeerTable.messageType.ident = PeerTable.messageType.name) :
    Orderly called 0 (ofVersion version : Registry μ) := by
  refine ⟨distinct_ofVersion version, ⟨Int32.le_refl _, fun hfrom hto => ?_, ?_⟩,
    fun {ident typeId} hident => ?_⟩
  · exact absurd hto (Int32.not_lt.2 hfrom)
  · exact Nat.le_of_eq rfl
  · have hlookup : (({ version } : Registry μ).addType PeerTable.messageType.ident
        tableTypeId).idOfType? ident = some typeId := hident
    rw [idOfType?_addType] at hlookup
    split at hlookup
    · next hsame =>
      obtain rfl := Option.some.inj hlookup
      rw [hsame, htable]
      rfl
    · cases hlookup

end Orderly

/-- However types and names are registered, ids and names stay each other's inverses, a type keeps
the id of its name, and a message that is made for it has that id. The registry's own choices are
free user ids that go up from call to call. Nothing that was registered ever changes. -/
theorem enrolAll_orderly [Message μ] (version : UInt32) {calls : List (Enrolment μ)}
    {called : String → String} (hfew : calls.length < 2 ^ 31 - 17)
    (hcalled : ∀ c, .ofType c ∈ calls → c.name = called c.ident)
    (htable : called PeerTable.messageType.ident = PeerTable.messageType.name) :
    let start : Registry μ := ofVersion version
    let r := start.enrolAll calls
    (∀ typeId name, r.nameOf? typeId = some name ↔ r.idOfName? name = some typeId) ∧
    (∀ ident typeId, r.idOfType? ident = some typeId →
      r.idOfName? (called ident) = some typeId ∧
        ∀ build : Int32 → μ, (∀ id, Message.typeId (build id) = id) →
          ∃ m, r.make ident build = .ok m ∧ Message.typeId m = typeId) ∧
    (start.assignedIds calls).Pairwise (· < ·) ∧
    ∀ before call after, calls = before ++ call :: after →
      let r₀ := start.enrolAll before
      r₀.Registers call (r₀.enrol call).1 (r₀.enrol call).2 ∧
        (r₀.enrol call).2.Extends r := by
  intro start r
  have hstart : Orderly called 0 start := orderly_ofVersion version htable
  rw [← Nat.zero_add calls.length] at hfew
  obtain ⟨horderly, -⟩ := hstart.enrolAll hfew hcalled
  obtain ⟨hup, -⟩ := hstart.assignedIds hfew hcalled
  refine ⟨fun typeId name => ?_, fun ident typeId hident => ⟨horderly.typed hident, ?_⟩, hup, ?_⟩
  · rw [horderly.distinct.nameOf?_eq_some_iff, horderly.distinct.named]
    simp only [and_comm]
  · intro build hbuild
    refine ⟨build typeId, ?_, hbuild typeId⟩
    rw [make, hident]
  · rintro before call after rfl
    rw [List.length_append, List.length_cons] at hfew
    have hcalls : ∀ c, call = .ofType c → c.name = called c.ident := by
      rintro c rfl
      exact hcalled c (List.mem_append_right _ List.mem_cons_self)
    obtain ⟨hbefore, -⟩ := hstart.enrolAll (by omega : 0 + before.length < 2 ^ 31 - 17)
      fun c hc => hcalled c (List.mem_append_left _ hc)
    have henrols := (start.enrolAll before).enrol_enrols call
    obtain ⟨hnext, -⟩ := hbefore.step (by omega) hcalls henrols
    have hroom : 0 + before.length + 1 + after.length < 2 ^ 31 - 17 := by omega
    obtain ⟨-, hafter⟩ := hnext.enrolAll hroom fun c hc =>
      hcalled c (List.mem_append_right _ (List.mem_cons_of_mem _ hc))
    refine ⟨hbefore.registers (by omega) hcalls henrols, ?_⟩
    have hsplit : r = ((start.enrolAll before).enrol call).2.enrolAll after := List.foldl_append
    rwa [hsplit]

def candidateOf (ident name : String) (fixedId : Option Int32) : Candidate AnyMessage :=
  { ident, name, fixedId, create := fun typeId => .counter typeId 0 }

/-- Two types want the same id, and a third one has the name of a message with its own creator. -/
def rivals : List (Enrolment AnyMessage) :=
  [.ofType (candidateOf "Pin17" "Pin17" (some 17)), .ofName "Ping" fun typeId => .counter typeId 0,
    .ofType (candidateOf "Rival17" "Rival17" (some 17)), .ofType (candidateOf "PingV2" "Ping" none)]

def calledRival (ident : String) : String := if ident = "PingV2" then "Ping" else ident

theorem enrolAll_orderly_rivals :
    (ofVersion 1).assignedIds rivals = [16, 18] ∧
      ((ofVersion 1).assignedIds rivals).Pairwise (· < ·) ∧
      (∃ m : AnyMessage, ((ofVersion 1).enrolAll rivals).make "PingV2" (.counter · 7) = .ok m ∧
        Message.typeId m = 16) ∧
      ((ofVersion 1).enrolAll (rivals.take 2)).Registers
        (.ofType (candidateOf "Rival17" "Rival17" (some 17))) 18
        ((ofVersion 1).enrolAll (rivals.take 3)) := by
  have hcalled : ∀ c, .ofType c ∈ rivals → c.name = calledRival c.ident := by
    intro c hc
    simp only [rivals, List.mem_cons, Enrolment.ofType.injEq, reduceCtorEq, List.not_mem_nil,
      or_false, false_or] at hc
    rcases hc with rfl | rfl | rfl <;> rfl
  obtain ⟨-, htyped, hup, hcalls⟩ := enrolAll_orderly 1 (by decide : rivals.length < _) hcalled rfl
  refine ⟨by decide +kernel, hup, ?_, ?_⟩
  · exact (htyped "PingV2" 16 (by decide +kernel)).2 _ fun _ => rfl
  · have hrival := (hcalls (rivals.take 2) _ (rivals.drop 3) rfl).1
    have hid : (((ofVersion 1).enrolAll (rivals.take 2)).enrol
        (.ofType (candidateOf "Rival17" "Rival17" (some 17)))).1 = 18 := by decide +kernel
    rw [hid] at hrival
    exact hrival

end Registry

end MessageChannel
