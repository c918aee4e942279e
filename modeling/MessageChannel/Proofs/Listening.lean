import MessageChannel.Proofs.Conversation
import MessageChannel.Proofs.Patience
import Mathlib.Data.List.Forall2

namespace MessageChannel.StreamSession

variable {μ : Type} [Message μ]

/-- Calls to receive, one after the other, with what each returns. One that waits for ever is the
last, and returns nothing. -/
def receiveAll : List Flags → Scene (StreamSession μ) →
    List (Flags × Except Halt μ) × Scene (StreamSession μ)
  | [], s => ([], s)
  | flags :: calls, s =>
      match (receive flags).run s with
      | (.error .stalled, t) => ([], t)
      | (ended, t) => ((flags, ended) :: (receiveAll calls t).1, (receiveAll calls t).2)

omit [Message μ] in
/-- The calls that did not end because nothing came in time. -/
def heard (calls : List (Flags × Except Halt μ)) : List (Flags × Except Halt μ) :=
  calls.filter fun call => call.2 ≠ .error (.failed .timeout)

def Answers (reply : Flags → Except Halt μ) (call : Flags × Except Halt μ) : Prop :=
  call.2 = reply call.1

theorem receiveAll_cons_of_run {flags : Flags} {calls : List Flags}
    {s t : Scene (StreamSession μ)} {ended : Except Halt μ}
    (hrun : (receive flags).run s = (ended, t)) (hended : ended ≠ .error .stalled) :
    receiveAll (flags :: calls) s =
      ((flags, ended) :: (receiveAll calls t).1, (receiveAll calls t).2) := by
  rw [receiveAll, hrun]
  cases ended with
  | ok m => rfl
  | error halt =>
      cases halt with
      | stalled => exact absurd rfl hended
      | failed error | crashed => rfl

theorem receiveAll_cons_of_stalled {flags : Flags} {calls : List Flags}
    {s t : Scene (StreamSession μ)} (hrun : (receive flags).run s = (.error .stalled, t)) :
    receiveAll (flags :: calls) s = ([], t) := by
  rw [receiveAll, hrun]

omit [Message μ] in
theorem heard_cons_of_timeout (flags : Flags) (calls : List (Flags × Except Halt μ)) :
    heard ((flags, .error (.failed .timeout)) :: calls) = heard calls := by
  simp [heard]

omit [Message μ] in
theorem heard_cons {ended : Except Halt μ} (hquiet : ended ≠ .error (.failed .timeout))
    (flags : Flags) (calls : List (Flags × Except Halt μ)) :
    heard ((flags, ended) :: calls) = (flags, ended) :: heard calls := by
  simp [heard, hquiet]

omit [Message μ] in
theorem rests_settled {r : Receiver μ} {limit : UInt32} {table : PeerTable}
    (h : r.Rests limit table) (ended : Except Halt μ) : (settled ended r).Rests limit table := by
  cases ended with
  | ok m => exact h
  | error halt =>
      cases halt with
      | failed error => exact ⟨rfl, h.limit, h.peerTable⟩
      | stalled | crashed => exact h

/-- The session is between two messages of a conversation on a transport that stays open, and its
peer has said something. -/
structure Listens (s : StreamSession μ) (fs : List Frame)
    (replies : List (Flags → Except Halt μ)) : Prop where
  idle : s.Idle
  opened : s.shortage = .stalled
  conversation : Conversation s.registry s.config.maxPayload s.receiver.peerTable fs replies

namespace Listens

variable {s t : Scene (StreamSession μ)} {flags : Flags} {fs : List Frame} {ended : Except Halt μ}
  {reply : Flags → Except Halt μ} {replies : List (Flags → Except Halt μ)}

/-- A call that is given up has lost nothing but tables, which the session has taken in. -/
theorem receive_timeout (h : s.session.Listens fs replies)
    (hrun : (receive flags).run s = (.error (.failed .timeout), t)) {more rest : List UInt8}
    (havailable : wire fs ++ more = s.session.available ++ rest) :
    (∃ back, wire back ++ more = t.session.available ++ rest ∧ t.session.Listens back replies) ∨
      replies = [] ∧ (wire fs).length < s.session.available.length := by
  obtain ⟨gs, told, htables, hears, hrests⟩ := StreamSession.receive_timeout h.idle.rests hrun
  rw [hears.available, List.append_assoc] at havailable
  rcases h.conversation.behind_tables htables havailable with ⟨back, rfl, hback⟩ | ⟨hnone, hlt⟩
  · rw [wire_append, List.append_assoc] at havailable
    refine .inl ⟨back, List.append_cancel_left havailable, ⟨hrests.inFlight, ?_⟩, ?_, ?_⟩
    · rw [hrests.limit, hears.config]
    · rw [hears.shortage, h.opened]
    · rw [hears.registry, hears.config, hrests.peerTable]
      exact hback
  · refine .inr ⟨hnone, ?_⟩
    rw [hears.available, List.length_append]
    omega

/-- A call that has the frames of the next reply to read returns that reply. -/
theorem receive_reply (h : s.session.Listens fs (reply :: replies))
    (hrun : (receive flags).run s = (ended, t)) (hquiet : ended ≠ .error (.failed .timeout)) :
    ∃ front back, fs = front ++ back ∧
      (∀ rest, s.session.available = wire front ++ rest →
        ended = reply flags ∧ t.session.available = rest ∧ t.session.Listens back replies) ∧
      ∀ rest, wire front = s.session.available ++ rest → rest ≠ [] → ended = .error .stalled := by
  obtain ⟨front, back, told, rfl, hback, hreply⟩ := h.conversation.message?_reply
  have hmessage := receive_message hrun hquiet
  refine ⟨front, back, rfl, fun rest havailable => ?_, fun rest havailable hrest => ?_⟩
  · obtain ⟨r', htaken, hr'⟩ := hreply h.idle.rests flags rest
    rw [havailable, htaken] at hmessage
    obtain ⟨hended, hreceiver, hrest, bytes, hears⟩ := hmessage
    have hsettled := rests_settled hr' (reply flags)
    dsimp only [settledIntake] at hreceiver
    rw [← hreceiver] at hsettled
    refine ⟨hended, hrest, ⟨hsettled.inFlight, ?_⟩, ?_, ?_⟩
    · rw [hsettled.limit, hears.config]
    · rw [hears.shortage, h.opened]
    · rw [hears.registry, hears.config, hsettled.peerTable]
      exact hback
  · obtain ⟨r', htaken, -⟩ := hreply h.idle.rests flags []
    rw [List.append_nil, havailable] at htaken
    have hnone := Receiver.message?_none_of_short htaken (List.length_pos_iff.2 hrest)
    rw [hnone] at hmessage
    have hended : ended = .error s.session.shortage := hmessage
    rw [hended, h.opened]

theorem receive_silence (h : s.session.Listens fs []) (hrun : (receive flags).run s = (ended, t))
    (hquiet : ended ≠ .error (.failed .timeout)) (havailable : s.session.available <+: wire fs) :
    ended = .error .stalled := by
  obtain ⟨rest, hrest⟩ := havailable
  have hmessage := receive_message hrun hquiet
  have hnone := h.conversation.message?_none h.idle.rests flags
  rw [← hrest] at hnone
  rw [Receiver.message?_none_of_append hnone] at hmessage
  have hended : ended = .error s.session.shortage := hmessage
  rw [hended, h.opened]

/-- One call while a part of the conversation is there to be read. -/
theorem receive_of_prefix (h : s.session.Listens fs replies)
    (hrun : (receive flags).run s = (ended, t)) (hended : ended ≠ .error .stalled)
    (havailable : s.session.available <+: wire fs) :
    (ended = .error (.failed .timeout) ∧
      ∃ gs, t.session.Listens gs replies ∧ t.session.available <+: wire gs) ∨
    (ended ≠ .error (.failed .timeout) ∧ ∃ reply others gs, replies = reply :: others ∧
      ended = reply flags ∧ t.session.Listens gs others ∧ t.session.available <+: wire gs) := by
  by_cases htimeout : ended = .error (.failed .timeout)
  · subst htimeout
    obtain ⟨rest, hrest⟩ := havailable
    have hwhole : wire fs ++ [] = s.session.available ++ rest := by
      rw [List.append_nil, hrest]
    rcases h.receive_timeout hrun hwhole with ⟨back, hback, hlistens⟩ | ⟨-, hlt⟩
    · rw [List.append_nil] at hback
      exact .inl ⟨rfl, back, hlistens, rest, hback.symm⟩
    · rw [← hrest, List.length_append] at hlt
      omega
  · refine .inr ⟨htimeout, ?_⟩
    cases replies with
    | nil => exact absurd (h.receive_silence hrun htimeout havailable) hended
    | cons reply replies =>
        obtain ⟨front, back, rfl, hwhole, hpart⟩ := h.receive_reply hrun htimeout
        obtain ⟨rest, hrest⟩ := havailable
        rw [wire_append] at hrest
        -- What is there ends within the frames of the reply, or at their end, or behind it.
        rcases List.append_eq_append_iff.1 hrest with ⟨more, hfront, -⟩ | ⟨more, hmore, hback⟩
        · by_cases hnil : more = []
          · rw [hnil, List.append_nil] at hfront
            obtain ⟨hreply, hrest', hlistens⟩ := hwhole [] (by rw [List.append_nil, hfront])
            refine ⟨reply, replies, back, rfl, hreply, hlistens, ?_⟩
            rw [hrest']
            exact List.nil_prefix
          · exact absurd (hpart more hfront hnil) hended
        · obtain ⟨hreply, hrest', hlistens⟩ := hwhole more hmore
          exact ⟨reply, replies, back, rfl, hreply, hlistens, rest, by rw [hrest', hback]⟩

/-- Whatever part of a conversation is there to be read, the calls return the replies to it in
their order, and nothing else. -/
theorem heard_prefix (h : s.session.Listens fs replies)
    (havailable : s.session.available <+: wire fs) (calls : List Flags) :
    ∃ front back, replies = front ++ back ∧
      List.Forall₂ Answers front (heard (receiveAll calls s).1) := by
  -- A call that times out may take in tables, so the frames left vary with the session.
  induction calls generalizing s fs replies with
  | nil => exact ⟨[], replies, rfl, .nil⟩
  | cons flags calls ih =>
      cases hrun : (receive flags).run s with
      | mk ended t =>
          by_cases hstalled : ended = .error .stalled
          · rw [receiveAll_cons_of_stalled (hstalled ▸ hrun)]
            exact ⟨[], replies, rfl, .nil⟩
          rw [receiveAll_cons_of_run hrun hstalled]
          dsimp only
          rcases h.receive_of_prefix hrun hstalled havailable with
            ⟨rfl, gs, hlistens, hpart⟩ |
            ⟨htimeout, reply, others, gs, rfl, hreply, hlistens, hpart⟩
          · rw [heard_cons_of_timeout]
            exact ih hlistens hpart
          · obtain ⟨front, back, rfl, hall⟩ := ih hlistens hpart
            rw [heard_cons htimeout]
            exact ⟨reply :: front, back, rfl, .cons hreply hall⟩

/-- One call while all of the conversation is there to be read. -/
theorem receive_of_whole (h : s.session.Listens fs (reply :: replies))
    (hrun : (receive flags).run s = (ended, t)) (havailable : wire fs <+: s.session.available) :
    (ended = .error (.failed .timeout) ∧
      ∃ gs, t.session.Listens gs (reply :: replies) ∧ wire gs <+: t.session.available) ∨
    (ended ≠ .error (.failed .timeout) ∧ ended = reply flags ∧
      ∃ gs, t.session.Listens gs replies ∧ wire gs <+: t.session.available) := by
  obtain ⟨rest, hrest⟩ := havailable
  by_cases htimeout : ended = .error (.failed .timeout)
  · subst htimeout
    have hwhole : wire fs ++ rest = s.session.available ++ [] := by
      rw [List.append_nil, hrest]
    rcases h.receive_timeout hrun hwhole with ⟨back, hback, hlistens⟩ | ⟨hnone, -⟩
    · rw [List.append_nil] at hback
      exact .inl ⟨rfl, back, hlistens, rest, hback⟩
    · cases hnone
  · obtain ⟨front, back, rfl, hwhole, -⟩ := h.receive_reply hrun htimeout
    rw [wire_append, List.append_assoc] at hrest
    obtain ⟨hreply, hrest', hlistens⟩ := hwhole _ hrest.symm
    exact .inr ⟨htimeout, hreply, back, hlistens, rest, hrest'.symm⟩

theorem available_ne_nil (h : s.session.Listens fs (reply :: replies))
    (havailable : wire fs <+: s.session.available) : s.session.available ≠ [] := by
  intro hnothing
  obtain ⟨front, back, told, rfl, -, hreply⟩ := h.conversation.message?_reply
  obtain ⟨r', htaken, -⟩ := hreply h.idle.rests .none []
  rw [hnothing, List.prefix_nil, wire_append, List.append_eq_nil_iff] at havailable
  rw [havailable.1, List.append_nil, Receiver.message?_nil] at htaken
  cases htaken

/-- A conversation that is all there to be read has all its replies heard, unless the calls come to
an end before it does. -/
theorem length_le_heard (h : s.session.Listens fs replies)
    (havailable : wire fs <+: s.session.available) (calls : List Flags)
    (hend : (receiveAll calls s).1.length < calls.length ∨
      (receiveAll calls s).2.session.available = []) :
    replies.length ≤ (heard (receiveAll calls s).1).length := by
  induction calls generalizing s fs replies with
  | nil =>
      have hnothing : s.session.available = [] := by
        simpa [receiveAll] using hend
      cases replies with
      | nil => exact Nat.zero_le _
      | cons reply replies => exact absurd hnothing (h.available_ne_nil havailable)
  | cons flags calls ih =>
      cases replies with
      | nil => exact Nat.zero_le _
      | cons reply replies =>
          cases hrun : (receive flags).run s with
          | mk ended t =>
              rcases h.receive_of_whole hrun havailable with
                ⟨rfl, gs, hlistens, hwhole⟩ | ⟨htimeout, hreply, gs, hlistens, hwhole⟩
              · rw [receiveAll_cons_of_run hrun (by simp)] at hend ⊢
                dsimp only at hend ⊢
                rw [heard_cons_of_timeout]
                exact ih hlistens hwhole (by simpa using hend)
              · have hstalled : ended ≠ .error .stalled := by
                  rw [hreply]
                  exact h.conversation.ne_stalled List.mem_cons_self flags
                rw [receiveAll_cons_of_run hrun hstalled] at hend ⊢
                dsimp only at hend ⊢
                rw [heard_cons htimeout, List.length_cons, List.length_cons]
                exact Nat.succ_le_succ (ih hlistens hwhole (by simpa using hend))

end Listens

end MessageChannel.StreamSession
