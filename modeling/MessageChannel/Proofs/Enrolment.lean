import Mathlib.Algebra.Group.Int.Defs
import Mathlib.Algebra.Group.Nat.Defs
import MessageChannel.Proofs.Registration

namespace MessageChannel

variable {μ : Type}

/-- A call to register: a type, or a name with a creator of its own. -/
inductive Enrolment (μ : Type) where
  | ofType (candidate : Candidate μ)
  | ofName (name : String) (create : Int32 → μ)

namespace Enrolment

def name : Enrolment μ → String
  | ofType c => c.name
  | ofName name _ => name

def create : Enrolment μ → Int32 → μ
  | ofType c => c.create
  | ofName _ create => create

def fixedId : Enrolment μ → Option Int32
  | ofType c => c.fixedId
  | ofName _ _ => none

end Enrolment

namespace Registry

def enrol (r : Registry μ) : Enrolment μ → Int32 × Registry μ
  | .ofType c => ((r.register c).1, (r.register c).2.2)
  | .ofName name create => r.registerWith name create

def enrolAll (r : Registry μ) (calls : List (Enrolment μ)) : Registry μ :=
  calls.foldl (fun r call => (r.enrol call).2) r

/-- The name is new, and there is no fixed id for it that is free. -/
def assigns (r : Registry μ) (call : Enrolment μ) : Bool :=
  (r.idOfName? call.name).isNone && call.fixedId.all r.contains

/-- The ids that the registry picks by itself, in the order of the calls. -/
def assignedIds (r : Registry μ) : List (Enrolment μ) → List Int32
  | [] => []
  | call :: calls =>
      if r.assigns call then (r.enrol call).1 :: (r.enrol call).2.assignedIds calls
      else (r.enrol call).2.assignedIds calls

/-- Where the id of a new name comes from, and where the counter stands then. -/
inductive Gets (r : Registry μ) : Option Int32 → Int32 → Int32 → Prop
  | fixed {typeId} (hfree : r.contains typeId = false) : Gets r (some typeId) typeId r.nextId
  | assigned {fixedId} (htaken : fixedId.all r.contains = true) :
      Gets r fixedId r.freeId (r.freeId + 1)

def enterAs (r : Registry μ) (typeId : Int32) (name : String) (create : Int32 → μ)
    (nextId : Int32) : Registry μ :=
  { r.add typeId name create with nextId }

/-- All that a call to register may do. -/
inductive Enrols (r : Registry μ) : Enrolment μ → Int32 → Registry μ → Prop
  | knownName {name create typeId} (hname : r.idOfName? name = some typeId) :
      Enrols r (.ofName name create) typeId r
  | knownType {c typeId} (hname : r.idOfName? c.name = some typeId)
      (hident : (r.idOfType? c.ident).isSome = true) : Enrols r (.ofType c) typeId r
  | newType {c typeId} (hname : r.idOfName? c.name = some typeId)
      (hident : r.idOfType? c.ident = none) : Enrols r (.ofType c) typeId (r.addType c.ident typeId)
  | newName {name create typeId nextId} (hname : r.idOfName? name = none)
      (hgets : r.Gets none typeId nextId) :
      Enrols r (.ofName name create) typeId (r.enterAs typeId name create nextId)
  | new {c typeId nextId} (hname : r.idOfName? c.name = none)
      (hgets : r.Gets c.fixedId typeId nextId) :
      Enrols r (.ofType c) typeId ((r.enterAs typeId c.name c.create nextId).addType c.ident typeId)

theorem enrol_enrols (r : Registry μ) (call : Enrolment μ) :
    Enrols r call (r.enrol call).1 (r.enrol call).2 := by
  cases call with
  | ofName name create =>
      cases hname : r.idOfName? name with
      | some typeId =>
          simp only [enrol, registerWith, hname]
          exact .knownName hname
      | none =>
          simp only [enrol, registerWith, hname, addFree]
          exact .newName hname (.assigned rfl)
  | ofType c =>
      cases hname : r.idOfName? c.name with
      | some typeId =>
          cases hident : r.idOfType? c.ident with
          | some known =>
              simp only [enrol, register, hname, hident, Option.isSome_some, if_true]
              exact .knownType hname (by rw [hident]; rfl)
          | none =>
              simp only [enrol, register, hname, hident, Option.isSome_none, Bool.false_eq_true,
                if_false]
              exact .newType hname hident
      | none =>
          cases hfixed : c.fixedId with
          | none =>
              simp only [enrol, register, hname, hfixed, addFree]
              exact .new hname (hfixed ▸ .assigned rfl)
          | some fixed =>
              cases hholder : r.nameOf? fixed with
              | some holder =>
                  have htaken : r.contains fixed = true := by
                    rw [contains, ← Option.isSome_map, ← nameOf?, hholder]
                    rfl
                  simp only [enrol, register, hname, hfixed, hholder, addFree]
                  exact .new hname (hfixed ▸ .assigned htaken)
              | none =>
                  have hfree : r.contains fixed = false := by
                    rw [contains, ← Option.isSome_map, ← nameOf?, hholder]
                    rfl
                  simp only [enrol, register, hname, hfixed, hholder]
                  exact .new hname (hfixed ▸ .fixed hfree)

section Search

theorem toInt_add_one {typeId : Int32} (h : typeId.toInt < 2 ^ 31 - 1) :
    (typeId + 1).toInt = typeId.toInt + 1 := by
  have hle := typeId.le_toInt
  rw [Int32.toInt_add, Int32.toInt_one]
  exact Int.bmod_eq_of_le_mul_two (by omega) (by omega)

theorem lt_add_one_iff {typeId other : Int32} (h : typeId.toInt < 2 ^ 31 - 1) :
    other < typeId + 1 ↔ other ≤ typeId := by
  rw [Int32.lt_iff_toInt_lt, Int32.le_iff_toInt_le, toInt_add_one h]
  omega

/-- The search stops at the first id that is free. -/
theorem firstFree_le {taken : Int32 → Bool} {steps : Nat} {start free : Int32} (hle : start ≤ free)
    (hfree : taken free = false) (hsteps : free.toInt ≤ start.toInt + steps) :
    start ≤ firstFree taken steps start ∧ firstFree taken steps start ≤ free ∧
      taken (firstFree taken steps start) = false ∧
      ∀ typeId, start ≤ typeId → typeId < firstFree taken steps start → taken typeId = true := by
  induction steps generalizing start with
  | zero =>
      have hsame : start = free := by
        rw [Int32.le_iff_toInt_le] at hle
        rw [← Int32.toInt_inj]
        omega
      subst hsame
      refine ⟨Int32.le_refl _, Int32.le_refl _, hfree, fun typeId hfrom hto => ?_⟩
      exact absurd hto (Int32.not_lt.2 hfrom)
  | succ steps ih =>
      rw [firstFree]
      split
      · next htaken =>
        have hne : start ≠ free := by
          rintro rfl
          rw [hfree] at htaken
          cases htaken
        have hlt : start.toInt < free.toInt :=
          Int32.lt_iff_toInt_lt.1 (Int32.lt_of_le_of_ne hle hne)
        have hmax := free.toInt_lt
        have hnext : (start + 1).toInt = start.toInt + 1 := toInt_add_one (by omega)
        have hup : start ≤ start + 1 := by
          rw [Int32.le_iff_toInt_le]
          omega
        have hleft : start + 1 ≤ free := by
          rw [Int32.le_iff_toInt_le]
          omega
        obtain ⟨hfrom, hto, hfound, hpassed⟩ := ih hleft (by omega)
        refine ⟨Int32.le_trans hup hfrom, hto, hfound, fun typeId hge hlt' => ?_⟩
        by_cases heq : typeId = start
        · rwa [heq]
        · refine hpassed typeId ?_ hlt'
          rw [Int32.le_iff_toInt_le] at hge ⊢
          have hne := mt Int32.toInt_inj.1 heq
          omega
      · next hfound =>
        refine ⟨Int32.le_refl _, hle, Bool.eq_false_iff.2 hfound, fun typeId hfrom hto => ?_⟩
        exact absurd hto (Int32.not_lt.2 hfrom)

end Search

def userIds (r : Registry μ) : List Int32 :=
  (r.entries.map (·.typeId)).filter (firstUserTypeId ≤ ·)

/-- The counter has left no free id behind, and there are no more ids to be passed than calls were
made. -/
structure Counted (r : Registry μ) (calls : Nat) : Prop where
  counter : firstUserTypeId ≤ r.nextId
  passed : ∀ {typeId}, firstUserTypeId ≤ typeId → typeId < r.nextId → r.contains typeId = true
  few : r.userIds.length ≤ calls

variable {r r' : Registry μ} {n : Nat} {call : Enrolment μ} {typeId nextId : Int32}
  {fixedId : Option Int32}

theorem toInt_user {k : Nat} (hk : k < 2 ^ 31 - 16) :
    (firstUserTypeId + Int32.ofNat k).toInt = 16 + k := by
  have hfirst : firstUserTypeId.toInt = 16 := rfl
  rw [Int32.toInt_add, hfirst, Int32.toInt_ofNat_of_lt (by omega)]
  exact Int.bmod_eq_of_le_mul_two (by omega) (by omega)

/-- While fewer calls were made than there are ids, the counter finds a free id in front of it. -/
theorem Counted.freeId (h : r.Counted n) (hn : n < 2 ^ 31 - 17) :
    r.nextId ≤ r.freeId ∧ r.freeId.toInt < 2 ^ 31 - 1 ∧ r.contains r.freeId = false ∧
      ∀ typeId, r.nextId ≤ typeId → typeId < r.freeId → r.contains typeId = true := by
  have hfew := h.few
  have hroom : r.userIds.length < Int32.size := by
    rw [Int32.size]
    omega
  obtain ⟨k, hk, hunlisted⟩ := exists_unlisted hroom firstUserTypeId
  have hvalue := toInt_user (by omega : k < 2 ^ 31 - 16)
  generalize firstUserTypeId + Int32.ofNat k = free at hunlisted hvalue
  have hcounter := Int32.le_iff_toInt_le.1 h.counter
  have hfirst : firstUserTypeId.toInt = 16 := rfl
  have huser : firstUserTypeId ≤ free := by
    rw [Int32.le_iff_toInt_le]
    omega
  have hfree : r.contains free = false := by
    rw [not_contains_iff]
    exact fun hmem => hunlisted (List.mem_filter.2 ⟨hmem, decide_eq_true huser⟩)
  have hle : r.nextId ≤ free := by
    refine Int32.not_lt.1 fun hlt => ?_
    rw [h.passed huser hlt] at hfree
    cases hfree
  have hsteps : k ≤ r.entries.length := by
    have hle := List.length_filter_le (firstUserTypeId ≤ ·) (r.entries.map (·.typeId))
    rw [List.length_map] at hle
    exact Nat.le_trans hk hle
  obtain ⟨hfrom, hto, hfound, hpassed⟩ := firstFree_le hle hfree
    (by omega : free.toInt ≤ r.nextId.toInt + r.entries.length)
  refine ⟨hfrom, ?_, hfound, hpassed⟩
  rw [Int32.le_iff_toInt_le] at hto
  change (firstFree r.contains r.entries.length r.nextId).toInt < _
  omega

section Admission

variable {name : String} {create : Int32 → μ}

theorem contains_add (hfree : r.contains typeId = false) {other : Int32} :
    (r.add typeId name create).contains other = true ↔
      r.contains other = true ∨ other = typeId := by
  rw [contains_iff, entries_add name create hfree, contains_iff]
  simp

theorem length_userIds_add (hfree : r.contains typeId = false) :
    (r.add typeId name create).userIds.length ≤ r.userIds.length + 1 := by
  rw [userIds, entries_add name create hfree, List.map_append, List.filter_append,
    List.length_append]
  exact Nat.add_le_add_left (List.length_filter_le _ _) _

/-- An id that a new name gets is free, and the counter moves on if it is the registry's choice. -/
theorem Counted.gets (h : r.Counted n) (hn : n < 2 ^ 31 - 17)
    (hgets : r.Gets fixedId typeId nextId) (name : String) (create : Int32 → μ) :
    r.contains typeId = false ∧ r.nextId ≤ nextId ∧
      (r.enterAs typeId name create nextId).Counted (n + 1) := by
  have hfew := h.few
  cases hgets with
  | fixed hfree =>
      refine ⟨hfree, Int32.le_refl _, h.counter, fun hfrom hto => ?_, ?_⟩
      · exact (contains_add hfree).2 (.inl (h.passed hfrom hto))
      · exact Nat.le_trans (length_userIds_add hfree) (Nat.succ_le_succ hfew)
  | assigned htaken =>
      obtain ⟨hfrom, hmax, hfree, hpassed⟩ := h.freeId hn
      have hnext : r.nextId ≤ r.freeId + 1 := by
        rw [Int32.le_iff_toInt_le] at hfrom ⊢
        rw [toInt_add_one hmax]
        omega
      refine ⟨hfree, hnext, Int32.le_trans h.counter hnext, fun {other} huser hto => ?_, ?_⟩
      · refine (contains_add hfree).2 ?_
        by_cases heq : other = r.freeId
        · exact .inr heq
        · have hlt := Int32.lt_of_le_of_ne ((lt_add_one_iff hmax).1 hto) heq
          by_cases hbehind : other < r.nextId
          · exact .inl (h.passed huser hbehind)
          · exact .inl (hpassed other (Int32.not_lt.1 hbehind) hlt)
      · exact Nat.le_trans (length_userIds_add hfree) (Nat.succ_le_succ hfew)

end Admission

end Registry

end MessageChannel
