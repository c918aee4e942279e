import MessageChannel.Proofs.Passage
import MessageChannel.Proofs.Untouched

namespace MessageChannel

variable {μ σ τ α β : Type}

/-- The header that a call tells to have read. -/
def Event.header? : Event → Option Header
  | received h => some h
  | _ => none

/-- The headers that were read on a stream, as a log tells of them. -/
def headersIn (log : List Event) : List Header := log.filterMap Event.header?

def Scene.headers (s : Scene σ) : List Header := headersIn s.log.toList

theorem headersIn_append (log more : List Event) :
    headersIn (log ++ more) = headersIn log ++ headersIn more := List.filterMap_append

theorem headersIn_push (log : Array Event) (event : Event) :
    headersIn (log.push event).toList = headersIn log.toList ++ event.header?.toList := by
  rw [Array.toList_push, headersIn_append]
  cases h : event.header? <;> simp [headersIn, h]

namespace Call

/-- A call that tells of no header. -/
def Mute (act : Call σ α) : Prop := ∀ s, (act.run s).2.headers = s.headers

namespace Mute

theorem of_run {act : Call σ α} (h : Mute act) {s t : Scene σ} {ended : Except Halt α}
    (hrun : act.run s = (ended, t)) : t.headers = s.headers := by
  have hs := h s
  rwa [hrun] at hs

theorem pure (a : α) : Mute (Pure.pure a : Call σ α) := fun _ => rfl

theorem halt (h : Halt) : Mute (Call.halt h : Call σ α) := fun _ => rfl

theorem fail (error : ChannelError) : Mute (Call.fail error : Call σ α) := fun _ => rfl

theorem session : Mute (Call.session : Call σ σ) := fun _ => rfl

theorem scene : Mute (Call.scene : Call σ (Scene σ)) := fun _ => rfl

theorem update (f : σ → σ) : Mute (Call.update f) := fun _ => rfl

theorem settle (session : σ) (now : Nat) : Mute (Call.settle session now) := fun _ => rfl

theorem tell {event : Event} (h : event.header? = none) :
    Mute (Call.tell event : Call σ Unit) := by
  intro s
  rw [Call.tell, Scene.headers, headersIn_push, h, Option.toList_none, List.append_nil]
  rfl

theorem failIf (c : Prop) [Decidable c] (error : ChannelError) :
    Mute (Call.failIf c error : Call σ Unit) := by
  by_cases hc : c
  · rw [Call.failIf, if_pos hc]
    exact fail _
  · rw [Call.failIf, if_neg hc]
    exact pure _

theorem tellIf (c : Prop) [Decidable c] {event : Event} (h : event.header? = none) :
    Mute (Call.tellIf c event : Call σ Unit) := by
  by_cases hc : c
  · rw [Call.tellIf, if_pos hc]
    exact tell h
  · rw [Call.tellIf, if_neg hc]
    exact pure _

theorem ofExcept (ended : Except ChannelError α) : Mute (Call.ofExcept ended : Call σ α) := by
  cases ended
  · exact fail _
  · exact pure _

theorem ofHalting (ended : Except Halt α) : Mute (Call.ofHalting ended : Call σ α) := by
  cases ended
  · exact halt _
  · exact pure _

theorem bind {act : Call σ α} {next : α → Call σ β} (hact : Mute act)
    (hnext : ∀ a, Mute (next a)) : Mute (act >>= next) := by
  intro s
  rw [run_bind]
  cases hrun : act.run s with
  | mk ended t =>
      cases ended with
      | ok a => exact (hnext a t).trans (hact.of_run hrun)
      | error halt => exact hact.of_run hrun

theorem within {act : Call τ α} (h : Mute act) (part : σ → τ) (put : τ → σ → σ) :
    Mute (act.within part put) := fun s => h ⟨part s.session, s.now, s.log⟩

end Mute

end Call

namespace Receiver

open Call (Mute)

theorem mute_assemble (act : Assembly → Except ChannelError Unit × Assembly) :
    Mute (assemble (μ := μ) act) :=
  .bind .session fun _ => .bind (.update _) fun _ => .ofExcept _

/-- A header is told of before anything is made of it, so also if it is refused. -/
theorem headers_onHeader (registry : Registry μ) (h : Header) (s : Scene (Receiver μ)) :
    ((onHeader registry h).run s).2.headers = s.headers ++ [h] := by
  rw [onHeader, Call.run_bind, Call.update]
  dsimp only
  rw [Call.run_bind, Call.tell]
  dsimp only
  refine Eq.trans (b := headersIn (s.log.push (.received h)).toList) ?_ (headersIn_push _ _)
  refine (show Mute _ from ?_) _
  refine .bind (.ofExcept _) fun kind => ?_
  cases kind with
  | complete => exact .bind (mute_assemble _) fun _ => .pure _
  | slice => exact .bind .session fun _ => .bind (.ofExcept _) fun _ => .pure _
  | sliceHeader =>
      exact .bind (mute_assemble _) fun _ => .bind (.update _) fun _ => .bind .session fun _ =>
        .bind (.tellIf _ rfl) fun _ => .pure _
  | cancel => exact .bind (.tell rfl) fun _ => .bind (.update _) fun _ => .fail _
  | versionVerification =>
      exact .bind (.failIf _ _) fun _ => .bind (mute_assemble _) fun _ => .pure _

theorem mute_onBody (registry : Registry μ) (h : Header) : Mute (onBody registry h) := by
  refine .bind (.ofExcept _) fun kind => ?_
  cases kind with
  | slice => exact .bind (.update _) fun _ => .bind .session fun _ => .pure _
  | versionVerification =>
      refine .bind ?_ fun _ => .pure _
      exact .bind .session fun _ => .bind (.ofExcept _) fun _ => .bind (.update _) fun _ =>
        .bind (.tellIf _ rfl) fun _ => .bind (.tell rfl) fun _ => .update _
  | complete | sliceHeader | cancel => exact .bind (.update _) fun _ => .pure _

theorem mute_deliver [Message μ] (flags : Flags) (typeId : Int32) (sliced : Bool) :
    Mute (deliver (μ := μ) flags typeId sliced) := by
  rw [deliver_eq]
  refine .bind .session fun r => .bind (.update _) fun _ => ?_
  split
  · exact .ofHalting _
  · split
    · exact .pure _
    · exact .bind (.tell rfl) fun _ => .fail _

/-- The headers of whole frames, and of a frame whose body is asked for. -/
def headersTaken (fs : List Frame) (demand : Demand) (r : Receiver μ) : List Header :=
  fs.map (·.header) ++ match demand with
    | .body _ => [r.header]
    | _ => []

variable {registry : Registry μ} {r r' : Receiver μ} {h : Header} {fs : List Frame}
  {demand : Demand}

theorem headersTaken_snoc {f : Frame} (hbare : ∀ range, demand ≠ .body range) :
    headersTaken (fs ++ [f]) demand r = fs.map (·.header) ++ [f.header] := by
  cases demand with
  | body range => exact absurd rfl (hbare range)
  | frame | delivery => simp [headersTaken]

theorem headersTaken_frame : headersTaken fs .frame r = fs.map (·.header) := List.append_nil _

theorem header_onHeader (registry : Registry μ) (h : Header) (r : Receiver μ) :
    ((onHeader registry h).effect r).2.header = h := by
  rw [effect_onHeader]
  dsimp only
  repeat' split
  all_goals rfl

theorem Heeds.ne_cancel {before : List Header} (hheeds : Heeds registry r h demand r')
    (hbefore : ∀ h' ∈ before, h'.kind ≠ .ok .cancel) :
    ∀ h' ∈ before ++ [h], h'.kind ≠ .ok .cancel := by
  intro h' hh
  rcases List.mem_append.1 hh with hh | hh
  · exact hbefore h' hh
  · obtain rfl := List.mem_singleton.1 hh
    cases hheeds with
    | table hkind | whole hkind | announcement hkind | slice hkind => simp [hkind]

theorem Absorbs.header_eq (habsorbs : Absorbs registry r demand r') : r'.header = r.header := by
  cases habsorbs <;> rfl

/-- No frame that a receiver takes is a cancel frame, and it keeps the header of the last one. -/
theorem Takes.lastHeader (htakes : Takes registry r fs demand r') :
    (∀ h ∈ headersTaken fs demand r', h.kind ≠ .ok .cancel) ∧
      r'.header = (headersTaken fs demand r').getLast?.getD r.header := by
  induction htakes with
  | nothing => exact ⟨by simp [headersTaken], rfl⟩
  | bare htakes hheeds hbare ih =>
      rw [headersTaken_frame] at ih
      rw [headersTaken_snoc hbare, hheeds.header_eq, List.getLast?_concat]
      exact ⟨hheeds.ne_cancel ih.1, rfl⟩
  | opened htakes hheeds ih =>
      rw [headersTaken_frame] at ih
      rw [headersTaken, hheeds.header_eq, List.getLast?_concat]
      exact ⟨hheeds.ne_cancel ih.1, rfl⟩
  | @filled fs range bytes demand r' r'' htakes hlength habsorbs ih =>
      have hsame : r''.header = r'.header := habsorbs.header_eq
      rw [headersTaken_snoc habsorbs.ne_body, List.getLast?_concat]
      exact ⟨ih.1, hsame⟩

end Receiver

namespace StreamSession

open Call (Mute)
open Receiver (headersTaken)

theorem mute_pull (n : Nat) (deadline : Option Nat) : Mute (pull (μ := μ) n deadline) := by
  refine .bind (.bind .session fun s => ?_) fun _ => .bind .scene fun _ =>
    .bind (.settle _ _) fun _ => .pure _
  split
  · exact .pure _
  · exact .fail _

theorem mute_checkEnd (ended : FillEnd) : Mute (checkEnd (μ := μ) ended) := by
  cases ended
  · exact .pure _
  · exact .fail _
  · exact .fail _
  · exact .halt _

theorem mute_readHeader : Mute (readHeader (μ := μ)) := by
  refine .bind .scene fun s => ?_
  split
  · exact .bind (mute_pull _ _) fun _ => .bind (mute_checkEnd _) fun _ =>
      .bind (mute_pull _ _) fun _ => .bind (mute_checkEnd _) fun _ => .pure _
  · exact .bind (mute_pull _ _) fun _ => .bind (mute_checkEnd _) fun _ => .pure _

theorem mute_readBody (range : SliceRange) : Mute (readBody (μ := μ) range) :=
  .bind (mute_pull _ _) fun _ => .bind (.update _) fun _ => mute_checkEnd _

theorem mute_onReceiver {act : Call (Receiver μ) α} (h : Mute act) : Mute (onReceiver act) :=
  h.within _ _

theorem headers_of_onHeader {registry : Registry μ} {h : Header} {s t : Scene (StreamSession μ)}
    {ended : Except Halt Demand} (hrun : (onReceiver (Receiver.onHeader registry h)).run s =
      (ended, t)) : t.headers = s.headers ++ [h] := by
  have hheaders := Receiver.headers_onHeader registry h ⟨s.session.receiver, s.now, s.log⟩
  obtain ⟨-, rfl⟩ := Prod.mk.inj hrun
  exact hheaders

theorem headers_noted (flags : Flags) (s : Scene (StreamSession μ)) :
    Scene.headers { s with log := noted flags s.log } = s.headers := by
  rw [Scene.headers, noted]
  cases flags.sliced <;> cases flags.versioned <;> simp [headersIn, Event.header?, Scene.headers]

variable {s u v : Scene (StreamSession μ)} {fs : List Frame} {demand : Demand}

theorem Passes.headers (h : Passes s fs demand u) :
    u.headers = s.headers ++ headersTaken fs demand u.session.receiver := by
  induction h with
  | begins => simp [headersTaken]
  | bare hpasses hread hheader hbare ih =>
      rw [headers_of_onHeader hheader, mute_readHeader.of_run hread, ih,
        Receiver.headersTaken_frame, Receiver.headersTaken_snoc hbare, List.append_assoc]
  | opened hpasses hread hheader ih =>
      obtain ⟨-, hheeds⟩ := heeds_of_run hread hheader
      rw [headers_of_onHeader hheader, mute_readHeader.of_run hread, ih,
        Receiver.headersTaken_frame, List.append_assoc, headersTaken, hheeds.header_eq]
  | filled hpasses hread hears hbody ih =>
      have hdemand := (absorbs_of_run hread hears hbody).2.2.ne_body
      rw [(mute_onReceiver (Receiver.mute_onBody _ _)).of_run hbody,
        (mute_readBody _).of_run hread, ih, Receiver.headersTaken_snoc hdemand]
      rfl

variable [Message μ]

/-- Behind its frames, a call reads one more header if it refuses that, and else none. -/
theorem Ends.headers {flags : Flags} {ended : Except Halt μ} (h : Ends flags u demand ended v) :
    (v.headers = u.headers ∧ v.session.receiver.header = u.session.receiver.header) ∨
    ∃ h halt, demand = .frame ∧ ended = .error halt ∧ v.headers = u.headers ++ [h] ∧
      (Receiver.onHeader u.session.registry h).effect u.session.receiver =
        (.error halt, v.session.receiver) := by
  have hkeeps : ∀ range, Call.Keeps (fun s : StreamSession μ => s.receiver.header)
      (readBody range) := keeps_readBody (fun _ _ => rfl) fun _ _ _ => rfl
  cases h with
  | noHeader hread =>
      have hsame := receiver_of_readHeader hread
      exact .inl ⟨mute_readHeader.of_run hread, congrArg Receiver.header hsame⟩
  | @badHeader h halt w v hread hheader =>
      obtain ⟨hears, hreceiver⟩ := hears_of_readHeader hread
      obtain ⟨heffect, -⟩ := effect_of_onReceiver (Receiver.timeless_onHeader _ _) hheader
      rw [hreceiver, hears.registry] at heffect
      refine .inr ⟨h, halt, rfl, rfl, ?_, heffect⟩
      rw [headers_of_onHeader hheader, mute_readHeader.of_run hread]
  | noBody hread =>
      exact .inl ⟨(mute_readBody _).of_run hread, (hkeeps _).of_run hread⟩
  | badBody hread hbody =>
      obtain ⟨heffect, -⟩ := effect_of_onReceiver (Receiver.timeless_onBody _ _) hbody
      obtain ⟨-, hsame⟩ := Receiver.onBody_failed heffect
      refine .inl ⟨?_, (congrArg Receiver.header hsame).trans ((hkeeps _).of_run hread)⟩
      rw [(mute_onReceiver (Receiver.mute_onBody _ _)).of_run hbody,
        (mute_readBody _).of_run hread]
  | handsOut hdeliver =>
      refine .inl ⟨(mute_onReceiver (Receiver.mute_deliver _ _ _)).of_run hdeliver, ?_⟩
      rw [(Ends.handsOut hdeliver).handedOut.2]
      rfl

omit [Message μ] in
theorem header_settled (ended : Except Halt μ) (r : Receiver μ) :
    (settled ended r).header = r.header := by
  rcases ended with (_ | _ | _) | _ <;> rfl

/-- A session keeps the last header that a call reads, and one that is of a cancel frame cancels the
call. -/
theorem receive_lastHeader {flags : Flags} {t : Scene (StreamSession μ)} {ended : Except Halt μ}
    {told : List Header} (hrun : (receive flags).run s = (ended, t))
    (htold : t.headers = s.headers ++ told) :
    t.session.receiver.header = told.getLast?.getD s.session.receiver.header ∧
      ∀ h, told.getLast? = some h → h.kind = .ok .cancel → ended = .error (.failed .canceled) := by
  obtain ⟨fs, demand, u, v, hpasses, hends, rfl⟩ := receive_goes hrun
  obtain ⟨hne, hlast⟩ := hpasses.takes.1.lastHeader
  have hheaders := hpasses.headers
  rw [headers_noted] at hheaders
  change v.headers = s.headers ++ told at htold
  dsimp only at hlast ⊢
  rw [header_settled]
  rcases hends.headers with ⟨hsame, hheader⟩ | ⟨h, halt, rfl, rfl, hread, heffect⟩
  · rw [hsame, hheaders] at htold
    obtain rfl := List.append_cancel_left htold
    refine ⟨hheader.trans hlast, fun h hh hkind => ?_⟩
    exact absurd hkind (hne h (List.mem_of_getLast? hh))
  · rw [hread, hheaders, List.append_assoc] at htold
    obtain rfl := List.append_cancel_left htold
    have hheader := Receiver.header_onHeader u.session.registry h u.session.receiver
    rw [heffect] at hheader
    rw [List.getLast?_concat]
    refine ⟨hheader, fun h' hh hkind => ?_⟩
    obtain rfl := Option.some.inj hh
    rw [Receiver.effect_onHeader, hkind] at heffect
    rw [Except.error.inj (Prod.mk.inj heffect).1]

end StreamSession

end MessageChannel
