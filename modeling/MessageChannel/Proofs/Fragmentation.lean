import MessageChannel.Message.Any
import MessageChannel.Proofs.Course
import MessageChannel.Proofs.History
import MessageChannel.Proofs.Listening
import MessageChannel.Proofs.Promptness

namespace MessageChannel

variable {μ : Type}

namespace Call

variable {σ α β ν : Type}

/-- Two runs of a call from sessions of one view come to the same end and leave sessions of one
view, unless one of them ends with this error. -/
def GoesBy (view : σ → ν) (error : ChannelError) (act : Call σ α) : Prop :=
  ∀ ⦃s t s' t' : Scene σ⦄ ⦃ended ended' : Except Halt α⦄, view s.session = view t.session →
    act.run s = (ended, s') → act.run t = (ended', t') →
    ended ≠ .error (.failed error) → ended' ≠ .error (.failed error) →
    ended = ended' ∧ view s'.session = view t'.session

namespace GoesBy

variable {view : σ → ν} {error : ChannelError}

theorem of_spec {act : Call σ α} (spec : ν → Except Halt α × ν)
    (h : ∀ {s t ended}, act.run s = (ended, t) → ended ≠ .error (.failed error) →
      (ended, view t.session) = spec (view s.session)) : GoesBy view error act := by
  intro s t s' t' ended ended' hview hs ht hquiet hquiet'
  have hspec := h hs hquiet
  rw [hview, ← h ht hquiet'] at hspec
  exact Prod.mk.inj hspec

theorem pure (a : α) : GoesBy view error (Pure.pure a : Call σ α) := by
  refine of_spec (fun v => (.ok a, v)) fun hrun _ => ?_
  obtain ⟨rfl, rfl⟩ := Prod.mk.inj hrun
  rfl

theorem ofExcept (ended : Except ChannelError α) :
    GoesBy view error (Call.ofExcept ended : Call σ α) := by
  cases ended with
  | ok a => exact pure a
  | error error' =>
      refine of_spec (fun v => (.error (.failed error'), v)) fun hrun _ => ?_
      obtain ⟨rfl, rfl⟩ := Prod.mk.inj hrun
      rfl

theorem bind {act : Call σ α} {next : α → Call σ β} (hact : GoesBy view error act)
    (hnext : ∀ a, GoesBy view error (next a)) : GoesBy view error (act >>= next) := by
  intro s t s' t' ended ended' hview hs ht hquiet hquiet'
  rw [run_bind] at hs ht
  cases hfirst : act.run s with
  | mk first u =>
      cases hfirst' : act.run t with
      | mk first' u' =>
          rw [hfirst] at hs
          rw [hfirst'] at ht
          have hloud : first ≠ .error (.failed error) := by
            rintro rfl
            exact hquiet (Prod.mk.inj hs).1.symm
          have hloud' : first' ≠ .error (.failed error) := by
            rintro rfl
            exact hquiet' (Prod.mk.inj ht).1.symm
          obtain ⟨rfl, hmid⟩ := hact hview hfirst hfirst' hloud hloud'
          cases first with
          | ok a => exact hnext a hmid hs ht hquiet hquiet'
          | error halt =>
              obtain ⟨rfl, rfl⟩ := Prod.mk.inj hs
              obtain ⟨rfl, rfl⟩ := Prod.mk.inj ht
              exact ⟨rfl, hmid⟩

/-- A call may look at the session if it goes by the view alone. -/
theorem bindSession {next : σ → Call σ β} (hsame : ∀ s t, view s = view t → next s = next t)
    (hnext : ∀ s, GoesBy view error (next s)) : GoesBy view error (Call.session >>= next) := by
  intro s t s' t' ended ended' hview hs ht
  simp only [run_bind, Call.session] at hs ht
  rw [← hsame _ _ hview] at ht
  exact hnext s.session hview hs ht

end GoesBy

end Call

namespace StreamSession

/-- What the transport still has for its reader. -/
def course (s : StreamSession μ) : Option Course := s.transport.map (·.inbound.course)

/-- What calls to receive go by, however the bytes come. -/
structure Gist (μ : Type) where
  registry : Registry μ
  receiver : Receiver μ
  course : Option Course

def gist (s : StreamSession μ) : Gist μ := ⟨s.registry, s.receiver, s.course⟩

def Gist.pull (n : Nat) (g : Gist μ) : Except Halt (List UInt8) × Gist μ :=
  match g.course with
  | none => (.error (.failed closedError), g)
  | some c =>
      let r := c.read n
      (r.outcome.ended r.bytes, { g with course := some r.rest })

theorem Gist.pull_of_course {g : Gist μ} {c : Course} (h : g.course = some c) (n : Nat) :
    g.pull n = ((c.read n).outcome.ended (c.read n).bytes,
      { g with course := some (c.read n).rest }) := by
  simp only [pull, h]

/-- To pull some bytes and then some more is to pull all of them. -/
theorem Gist.pull_add (g : Gist μ) (m n : Nat) :
    g.pull (m + n) =
      match g.pull m with
      | (.ok front, g) => ((g.pull n).1.map (front ++ ·), (g.pull n).2)
      | (.error halt, g) => (.error halt, g) := by
  cases hcourse : g.course with
  | none => simp only [pull, hcourse]
  | some c =>
      rw [pull_of_course hcourse, pull_of_course hcourse, Course.read_add]
      cases hfirst : (c.read m).outcome with
      | full =>
          rw [if_pos rfl]
          dsimp only [FillEnd.ended]
          rw [pull_of_course rfl]
          cases hsecond : ((c.read m).rest.read n).outcome <;>
            simp [Course.Reading.behind, hsecond, FillEnd.ended, Except.map]
      | failed error | expired | stalled =>
          rw [if_neg (by simp), hfirst]
          rfl

def Gist.pullBody (range : SliceRange) (g : Gist μ) : Except Halt Unit × Gist μ :=
  match g.course with
  | none => (.error (.failed closedError), g)
  | some c =>
      let r := c.read range.length
      (r.outcome.ended (), { g with
        receiver := g.receiver.fill range r.bytes
        course := some r.rest })

section

variable {s t : Scene (StreamSession μ)}

theorem pullExactly_gist {n : Nat} {deadline : Option Nat} {ended : Except Halt (List UInt8)}
    (hrun : (pullExactly n deadline).run s = (ended, t))
    (hquiet : ended ≠ .error (.failed .timeout)) :
    (ended, t.session.gist) = s.session.gist.pull n := by
  cases htransport : s.session.transport with
  | none =>
      rw [pullExactly, Call.run_bind, run_pull_closed htransport] at hrun
      obtain ⟨rfl, rfl⟩ := Prod.mk.inj hrun
      simp [Gist.pull, gist, course, htransport]
  | some transport =>
      rw [run_pullExactly htransport] at hrun
      obtain ⟨rfl, rfl⟩ := Prod.mk.inj hrun
      rcases transport.inbound.fill_reading s.session.config.retryBackoff deadline s.now n with
        hexpired | hreading
      · rw [hexpired] at hquiet
        exact absurd rfl hquiet
      · have hcourse : s.session.gist.course = some transport.inbound.course := by
          simp [gist, course, htransport]
        rw [Gist.pull_of_course hcourse, ← hreading]
        rfl

theorem readBody_gist {range : SliceRange} {ended : Except Halt Unit}
    (hrun : (readBody range).run s = (ended, t)) :
    (ended, t.session.gist) = s.session.gist.pullBody range := by
  cases htransport : s.session.transport with
  | none =>
      rw [readBody, Call.run_bind, run_pull_closed htransport] at hrun
      obtain ⟨rfl, rfl⟩ := Prod.mk.inj hrun
      simp [Gist.pullBody, gist, course, htransport]
  | some transport =>
      rw [run_readBody htransport] at hrun
      obtain ⟨rfl, rfl⟩ := Prod.mk.inj hrun
      have hreading := (transport.inbound.fill_reading s.session.config.retryBackoff none s.now
        range.length).resolve_left (Inbound.fillFrom_ne_expired _ _ _ _ _)
      have hcourse : s.session.gist.course = some transport.inbound.course := by
        simp [gist, course, htransport]
      simp only [Gist.pullBody, hcourse, ← hreading]
      rfl

/-- A header is read in one piece or in two. -/
theorem readHeader_gist {ended : Except Halt (List UInt8)} (hrun : readHeader.run s = (ended, t))
    (hquiet : ended ≠ .error (.failed .timeout)) :
    (ended, t.session.gist) = s.session.gist.pull headerSize := by
  rw [run_readHeader] at hrun
  cases hlimit : s.session.idleLimit with
  | none =>
      rw [hlimit] at hrun
      exact pullExactly_gist hrun hquiet
  | some limit =>
      simp only [hlimit] at hrun
      rw [readHeaderBy_eq, Call.run_bind] at hrun
      cases hfirst : (pullExactly 1 (some (s.now + limit))).run s with
      | mk first u =>
          rw [hfirst] at hrun
          have hloud : first ≠ .error (.failed .timeout) := by
            rintro rfl
            exact hquiet (Prod.mk.inj hrun).1.symm
          have hgist := pullExactly_gist hfirst hloud
          rw [show headerSize = 1 + (headerSize - 1) from rfl, Gist.pull_add, ← hgist]
          cases first with
          | error halt =>
              obtain ⟨rfl, rfl⟩ := Prod.mk.inj hrun
              rfl
          | ok front =>
              dsimp only at hrun ⊢
              rw [Call.run_bind] at hrun
              cases hsecond : (pullExactly (headerSize - 1) none).run u with
              | mk second v =>
                  rw [hsecond] at hrun
                  have hloud' : second ≠ .error (.failed .timeout) := by
                    rintro rfl
                    exact hquiet (Prod.mk.inj hrun).1.symm
                  rw [← pullExactly_gist hsecond hloud']
                  cases second <;> obtain ⟨rfl, rfl⟩ := Prod.mk.inj hrun <;> rfl

end

/-- What the receiver does goes by the receiver alone. -/
theorem goesBy_onReceiver {α : Type} {act : Call (Receiver μ) α} (hact : Call.Timeless act)
    (error : ChannelError) : Call.GoesBy gist error (onReceiver act) := by
  refine .of_spec (fun g => ((act.effect g.receiver).1,
    { g with receiver := (act.effect g.receiver).2 })) fun {s t ended} hrun _ => ?_
  obtain ⟨log, hwithin⟩ := hact.run_within (fun s : StreamSession μ => s.receiver)
    (fun r s => { s with receiver := r }) s
  obtain ⟨rfl, rfl⟩ := Prod.mk.inj (hrun.symm.trans hwithin)
  rfl

theorem gist_reset_congr {s t : StreamSession μ} (h : s.gist = t.gist) :
    s.reset.gist = t.reset.gist := by
  simp only [gist, Gist.mk.injEq] at h ⊢
  exact ⟨h.1, congrArg Receiver.reset h.2.1, h.2.2⟩

variable [Message μ]

/-- The bytes of a header are the next bytes of the course, however they are read. What is done with
a header may go by more of the session. -/
theorem goesBy_receiveFrame_of {ν : Type} {view : StreamSession μ → ν} {flags : Flags}
    (hread : Call.GoesBy view .timeout readHeader)
    (hregistry : ∀ s t, view s = view t → s.registry = t.registry)
    (hrest : ∀ registry h, Call.GoesBy view .timeout (receiveRest registry flags h)) :
    Call.GoesBy view .timeout (receiveFrame (μ := μ) flags) := by
  rw [receiveFrame_eq]
  refine .bind hread fun bytes => .bind (.ofExcept _) fun h =>
    .bindSession (fun s t hview => ?_) fun s => hrest s.registry h
  rw [hregistry s t hview]

theorem goesBy_receiveDemanded (registry : Registry μ) (flags : Flags) (h : Header)
    (demand : Demand) : Call.GoesBy gist .timeout (receiveDemanded registry flags h demand) := by
  cases demand with
  | frame | delivery => exact goesBy_onReceiver (Receiver.timeless_conclude flags _) _
  | body range =>
      exact .bind (.of_spec (·.pullBody range) fun hrun _ => readBody_gist hrun) fun _ =>
        goesBy_onReceiver (Receiver.timeless_afterBody _ _ _) _

theorem goesBy_receiveFrame (flags : Flags) :
    Call.GoesBy gist .timeout (receiveFrame (μ := μ) flags) :=
  goesBy_receiveFrame_of (.of_spec (·.pull headerSize) readHeader_gist)
    (fun _ _ hgist => congrArg Gist.registry hgist) fun registry h =>
      .bind (goesBy_onReceiver (Receiver.timeless_onHeader _ _) _) fun demand =>
        goesBy_receiveDemanded registry flags h demand

theorem receiveFrame_ne_timeout {flags : Flags} {s t u : Scene (StreamSession μ)}
    {ended : Except Halt μ} {frame : Except Halt (Option μ)}
    (hframe : (receiveFrame flags).run s = (frame, u)) (hrun : receiveMessage flags s = (ended, t))
    (hquiet : ended ≠ .error (.failed .timeout)) : frame ≠ .error (.failed .timeout) := by
  rintro rfl
  rw [receiveMessage_eq, hframe] at hrun
  exact hquiet (Prod.mk.inj hrun).1.symm

section

variable {ν : Type} {view : StreamSession μ → ν} {flags : Flags}

theorem goesBy_receiveMessage (hview : Call.GoesBy view .timeout (receiveFrame (μ := μ) flags)) :
    Call.GoesBy view .timeout (⟨receiveMessage flags⟩ : Call (StreamSession μ) μ) := by
  intro s t s' t' ended ended' hsame hs ht hquiet hquiet'
  dsimp only at hs ht
  -- Frame by frame the two runs do the same.
  fun_induction receiveMessage flags s generalizing t with
  | case1 s u hframe ih =>
      cases hframe' : (receiveFrame flags).run t with
      | mk frame u' =>
          obtain ⟨rfl, hmid⟩ := hview hsame hframe hframe' (by simp)
            (receiveFrame_ne_timeout hframe' ht hquiet')
          rw [receiveMessage_eq, hframe'] at ht
          exact ih hmid hs ht
  | case2 s m u hframe =>
      cases hframe' : (receiveFrame flags).run t with
      | mk frame u' =>
          obtain ⟨rfl, hmid⟩ := hview hsame hframe hframe' (by simp)
            (receiveFrame_ne_timeout hframe' ht hquiet')
          rw [receiveMessage_eq, hframe'] at ht
          obtain ⟨rfl, rfl⟩ := Prod.mk.inj hs
          obtain ⟨rfl, rfl⟩ := Prod.mk.inj ht
          exact ⟨rfl, hmid⟩
  | case3 s halt u hframe =>
      obtain ⟨rfl, rfl⟩ := Prod.mk.inj hs
      cases hframe' : (receiveFrame flags).run t with
      | mk frame u' =>
          obtain ⟨rfl, hmid⟩ := hview hsame hframe hframe' (by simpa using hquiet)
            (receiveFrame_ne_timeout hframe' ht hquiet')
          rw [receiveMessage_eq, hframe'] at ht
          obtain ⟨rfl, rfl⟩ := Prod.mk.inj ht
          exact ⟨rfl, hmid⟩

/-- Where the wait for a message goes the same way, so does the call to receive, if a reset does not
show more. -/
theorem receive_agrees {s t s' t' : Scene (StreamSession μ)} {ended ended' : Except Halt μ}
    (hreset : ∀ s t, view s = view t → view s.reset = view t.reset)
    (hmessages : ∀ {log log' ended ended' u u'}, receiveMessage flags { s with log } = (ended, u) →
      receiveMessage flags { t with log := log' } = (ended', u') →
      ended ≠ .error (.failed .timeout) → ended' ≠ .error (.failed .timeout) →
      ended = ended' ∧ view u.session = view u'.session)
    (hs : (receive flags).run s = (ended, s')) (ht : (receive flags).run t = (ended', t'))
    (hquiet : ended ≠ .error (.failed .timeout)) (hquiet' : ended' ≠ .error (.failed .timeout)) :
    ended = ended' ∧ view s'.session = view t'.session := by
  obtain ⟨log, u, hmessage, rfl⟩ := receive_settled hs
  obtain ⟨log', u', hmessage', rfl⟩ := receive_settled ht
  obtain ⟨rfl, hmid⟩ := hmessages hmessage hmessage' hquiet hquiet'
  refine ⟨rfl, ?_⟩
  cases ended with
  | ok m => exact hmid
  | error halt =>
      cases halt with
      | failed error => exact hreset _ _ hmid
      | stalled | crashed => exact hmid

/-- Calls to receive go by what the receipt of a frame goes by. -/
theorem goesBy_receive_of (hview : Call.GoesBy view .timeout (receiveFrame (μ := μ) flags))
    (hreset : ∀ s t, view s = view t → view s.reset = view t.reset) :
    Call.GoesBy view .timeout (receive (μ := μ) flags) := by
  intro s t s' t' ended ended' hsame hs ht
  refine receive_agrees hreset (fun {log log' _ _ _ _} hmessage hmessage' => ?_) hs ht
  exact goesBy_receiveMessage hview (s := { s with log }) (t := { t with log := log' }) hsame
    hmessage hmessage'

end

/-- Two calls to receive on sessions of one gist return the same and leave sessions of one gist,
unless one of them is given up. -/
theorem goesBy_receive (flags : Flags) : Call.GoesBy gist .timeout (receive (μ := μ) flags) :=
  goesBy_receive_of (goesBy_receiveFrame flags) fun _ _ => gist_reset_congr

theorem receiveAll_goesBy {s t : Scene (StreamSession μ)}
    (hgist : s.session.gist = t.session.gist) (hs : s.session.Unhurried)
    (ht : t.session.Unhurried) (calls : List Flags) :
    (receiveAll calls s).1 = (receiveAll calls t).1 ∧
      (receiveAll calls s).2.session.gist = (receiveAll calls t).2.session.gist ∧
      ∀ call ∈ (receiveAll calls s).1, call.2 ≠ .error (.failed .timeout) := by
  induction calls generalizing s t with
  | nil => exact ⟨rfl, hgist, by simp [receiveAll]⟩
  | cons flags calls ih =>
      cases hrun : (receive flags).run s with
      | mk ended u =>
          cases hrun' : (receive flags).run t with
          | mk ended' u' =>
              obtain ⟨hquiet, hu⟩ := safe_receive flags hs hrun
              obtain ⟨hquiet', hu'⟩ := safe_receive flags ht hrun'
              obtain ⟨rfl, hmid⟩ := goesBy_receive flags hgist hrun hrun' hquiet hquiet'
              by_cases hstalled : ended = .error .stalled
              · subst hstalled
                rw [receiveAll_cons_of_stalled hrun, receiveAll_cons_of_stalled hrun']
                exact ⟨rfl, hmid, by simp⟩
              · rw [receiveAll_cons_of_run hrun hstalled, receiveAll_cons_of_run hrun' hstalled]
                obtain ⟨hcalls, hlast, hnone⟩ := ih hmid hu hu'
                refine ⟨by rw [hcalls], hlast, fun call hcall => ?_⟩
                rcases List.mem_cons.1 hcall with rfl | hcall
                · exact hquiet
                · exact hnone call hcall

/-- Calls to receive do not see how the bytes come. Two streams with the same bytes and the same
lasting errors in the same order give the same results, the same table of the peer and the same
last header, however they are cut and whatever is waited out, be it with a limit that no wait
reaches or with none. -/
theorem receiveAll_fragmented {s t : Scene (StreamSession μ)}
    (hregistry : s.session.registry = t.session.registry)
    (hreceiver : s.session.receiver = t.session.receiver)
    (hcourse : s.session.course = t.session.course) (hs : s.session.Unhurried)
    (ht : t.session.Unhurried) (calls : List Flags) :
    (receiveAll calls s).1 = (receiveAll calls t).1 ∧
      (receiveAll calls s).2.session.receiver.peerTable =
        (receiveAll calls t).2.session.receiver.peerTable ∧
      (receiveAll calls s).2.session.receiver.header =
        (receiveAll calls t).2.session.receiver.header ∧
      (receiveAll calls s).2.session.course = (receiveAll calls t).2.session.course ∧
      ∀ call ∈ (receiveAll calls s).1, call.2 ≠ .error (.failed .timeout) := by
  have hgist : s.session.gist = t.session.gist := by
    rw [gist, gist, hregistry, hreceiver, hcourse]
  obtain ⟨hcalls, hlast, hnone⟩ := receiveAll_goesBy hgist hs ht calls
  have hlastReceiver := congrArg Gist.receiver hlast
  exact ⟨hcalls, congrArg Receiver.peerTable hlastReceiver, congrArg Receiver.header hlastReceiver,
    congrArg Gist.course hlast, hnone⟩

def tableAndLetter : List UInt8 := wire [tableFrame (.ofVersion (μ := AnyMessage) 2), letter]

/-- A table and a message, in one piece, and then a broken pipe. -/
def inOnePiece : Scene (StreamSession AnyMessage) where
  session := .new (.ofVersion 1) {} { inbound :=
    { arrivals := [.bytes tableAndLetter, .fault (.system 32)] } }

/-- The same, cut within a header and within a table, with two blocked reads, an interrupt and a
pause. No byte is waited for longer than the limit. -/
def inPieces : Scene (StreamSession AnyMessage) where
  session := .new (.ofVersion 1) { recvTimeout := some 30 } { inbound :=
    { arrivals := [.bytes (tableAndLetter.take 3), .fault (.system 11), .pause 20,
        .bytes ((tableAndLetter.drop 3).take 20), .fault (.system 4), .fault (.system 11),
        .bytes ((tableAndLetter.drop 3).drop 20), .fault (.system 32)] } }

theorem course_inPieces : inOnePiece.session.course = inPieces.session.course := by
  have hblocked : IoError.retry (.system 11) = .now ∨ IoError.retry (.system 11) = .later :=
    .inr rfl
  have hinterrupted : IoError.retry (.system 4) = .now ∨ IoError.retry (.system 4) = .later :=
    .inl rfl
  have hpieces : Inbound.Brings [.fault (.system 32)] (tableAndLetter.take 3 ++
      ((tableAndLetter.drop 3).take 20 ++ ((tableAndLetter.drop 3).drop 20 ++ []))) _ :=
    .piece _ (.fault hblocked (.pause 20 (.piece _
      (.fault hinterrupted (.fault hblocked (.piece _ .nothing))))))
  rw [List.append_nil, List.take_append_drop, List.take_append_drop] at hpieces
  exact congrArg some (hpieces.course false).symm

theorem unhurried_inPieces : inPieces.session.Unhurried := by
  intro limit transport hlimit htransport
  obtain rfl := Option.some.inj hlimit
  obtain rfl := Option.some.inj htransport
  decide +kernel

theorem receiveAll_fragmented_inPieces :
    ((receiveAll [.none, .none] inPieces).1.map fun call => call.2.isOk) = [true, false] ∧
      (receiveAll [.none, .none] inPieces).2.session.receiver.peerTable.version = 2 := by
  obtain ⟨hcalls, htable, -⟩ := receiveAll_fragmented (s := inOnePiece) (t := inPieces) rfl rfl
    course_inPieces (.of_patient rfl) unhurried_inPieces [.none, .none]
  rw [← hcalls, ← htable]
  exact ⟨by decide +kernel, by decide +kernel⟩

end StreamSession

end MessageChannel
