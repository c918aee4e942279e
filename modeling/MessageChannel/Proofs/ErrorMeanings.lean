import MessageChannel.Message.Any
import MessageChannel.Proofs.Completion
import MessageChannel.Proofs.FailureCodes
import MessageChannel.Proofs.Interruptions
import MessageChannel.Proofs.StreamTables

namespace MessageChannel

variable {μ : Type}

namespace IoError

variable {error : IoError}

theorem Severs.not_transient (h : error.Severs) : ¬error.Transient := by
  rintro (hkind | hkind | rfl)
  · simp [Severs, hkind] at h
  · simp [Severs, hkind] at h
  · revert h
    decide

theorem report_eq_connectionReset_iff : error.report = .connectionReset ↔ error.Severs := by
  by_cases hsevers : error.Severs <;> simp [report, hsevers]

end IoError

namespace Inbound

/-- What reads meet at last says that the peer is gone: the end of the stream, or an error of the
transport with that meaning. All that is before it passes. -/
inductive PeerGone (staysOpen : Bool) : List Arrival → Prop
  | ended (hends : staysOpen = false) : PeerGone staysOpen []
  | closed {behind} : PeerGone staysOpen (.closed :: behind)
  | severed {error behind} (hsevers : error.Severs) : PeerGone staysOpen (.fault error :: behind)
  | behind {a rest} (hpasses : a.Passes) (hgone : PeerGone staysOpen rest) :
      PeerGone staysOpen (a :: rest)

theorem endOf_error {staysOpen : Bool} {arrivals : List Arrival} {error : ChannelError}
    (hend : endOf staysOpen arrivals = .failed error) :
    error = .connectionReset ∨ ∃ fault, error = .io fault := by
  fun_induction endOf staysOpen arrivals with
  | case4 error' rest error'' hretry =>
      obtain rfl := FillEnd.failed.inj hend
      exact (IoError.eq_of_retry_eq_never hretry).imp id fun h => ⟨_, h⟩
  | _ => simp_all

theorem endOf_eq_connectionReset_iff {staysOpen : Bool} {arrivals : List Arrival} :
    endOf staysOpen arrivals = .failed .connectionReset ↔ PeerGone staysOpen arrivals := by
  constructor
  · intro hend
    fun_induction endOf staysOpen arrivals with
    | case1 hopen => cases hend
    | case2 hclosed => exact .ended (by simpa using hclosed)
    | case3 rest => exact .closed
    | case4 error rest error' hretry =>
        obtain ⟨-, rfl⟩ := IoError.retry_eq_never_iff.1 hretry
        exact .severed (IoError.report_eq_connectionReset_iff.1 (FillEnd.failed.inj hend))
    | case5 error rest hnever ih =>
        refine .behind (.of_retry ?_) (ih hend)
        cases hretry : error.retry with
        | now => exact .inl rfl
        | later => exact .inr rfl
        | never error' => exact absurd hretry (hnever error')
    | case6 data rest ih | case7 duration rest ih | case8 wake rest ih =>
        exact .behind trivial (ih hend)
  · intro hgone
    induction hgone with
    | ended hends => simp [endOf, hends]
    | closed => rfl
    | @severed error behind hsevers =>
        have hending := (ending_cons_fault staysOpen hsevers.not_transient behind).2
        rwa [IoError.report_eq_connectionReset_iff.2 hsevers] at hending
    | @behind a rest hpasses hgone ih =>
        rw [← ih]
        exact (leads_over staysOpen (List.forall_mem_singleton.2 hpasses) rest).ending.symm

/-- A wait that is given up ends at its deadline. -/
theorem fillFrom_expired_now (staysOpen : Bool) (backoff limit : Nat) (arrivals : List Arrival)
    (now n : Nat)
    (h : (fillFrom staysOpen backoff (some limit) arrivals now n).outcome = .expired) :
    (fillFrom staysOpen backoff (some limit) arrivals now n).now = limit := by
  generalize hdeadline : some limit = deadline at h ⊢
  fun_induction fillFrom staysOpen backoff deadline arrivals now n with
  | case6 data rest now n hsplit filled ih => exact ih h
  | _ => subst hdeadline; simp_all [fillFrom.expire]

end Inbound

/-- The body that is asked for is the one that the last header declares. -/
theorem Receiver.Takes.length_of_body {registry : Registry μ} {r r' : Receiver μ}
    {fs : List Frame} {range : SliceRange} (h : Takes registry r fs (.body range) r') :
    range.length = r'.header.length.toNat := by
  cases h with
  | bare htakes hheeds hbare => exact absurd rfl (hbare range)
  | opened htakes hheeds =>
      cases hheeds with
      | announcement hkind hidle hfits hdemand => split at hdemand <;> cases hdemand
      | table | whole | slice => rfl
  | filled htakes hlength habsorbs => exact absurd rfl (habsorbs.ne_body range)

namespace StreamSession

open Receiver (taken headersTaken Undelivered)

/-- Want of bytes is an error if the peer is gone or the transport fails for another reason. -/
theorem shortage_error {s : StreamSession μ} {error : ChannelError}
    (h : s.shortage = .failed error) :
    (error = .connectionReset ∧ ∃ transport, s.transport = some transport ∧
      Inbound.PeerGone transport.inbound.staysOpen transport.inbound.arrivals) ∨
    ∃ fault, error = .io fault := by
  cases htransport : s.transport with
  | none =>
      simp only [shortage, htransport, Halt.failed.injEq] at h
      exact .inr ⟨_, h.symm⟩
  | some transport =>
      have hexpired : transport.inbound.ending ≠ .expired := Inbound.endOf_ne_expired _ _
      simp only [shortage, htransport] at h
      cases hending : transport.inbound.ending with
      | failed error' =>
          rw [hending] at h
          obtain rfl : error' = error := Halt.failed.inj h
          rcases Inbound.endOf_error hending with rfl | hfault
          · exact .inl ⟨rfl, transport, rfl, Inbound.endOf_eq_connectionReset_iff.1 hending⟩
          · exact .inr hfault
      | expired => exact absurd hending hexpired
      | full | stalled => simp [hending, FillEnd.halt] at h

/-- The front of a frame whose rest is missing. -/
inductive Fragment : List UInt8 → Prop
  | header {bytes : List UInt8} (hshort : bytes.length < headerSize) : Fragment bytes
  | body {h : Header} {bytes : List UInt8} (hshort : bytes.length < h.length.toNat) :
      Fragment (h.encode ++ bytes)

/-- How a call that begins at `s` gives up the wait for a message: it has got behind some tables and
read nothing of the next frame when the configured time is over since that wait began. -/
inductive Expires (s : Scene (StreamSession μ)) (rest : List UInt8) (later : Nat) : Prop
  | mk {tables told u transport limit}
      (hidle : s.session.receiver.assembly.inFlight = none)
      (htables : Tables s.session.config.maxPayload s.session.receiver.peerTable tables told)
      (hpasses : Passes s tables .frame u) (hrest : s.session.available = wire tables ++ rest)
      (htransport : u.session.transport = some transport)
      (hlimit : s.session.config.recvTimeout = some limit)
      (hexpired : (transport.inbound.fill s.session.config.retryBackoff (some (u.now + limit)) u.now
        1).outcome = .expired)
      (hlater : later = u.now + limit) : Expires s rest later

/-- What is behind an error of a call to receive that begins at `s`, reads the headers `told` and
leaves the bytes `rest`, when the headers in `heard` were read before. -/
inductive Cause [Message μ] (heard : List Header) (s : Scene (StreamSession μ)) (flags : Flags)
    (told : List Header) (rest : List UInt8) (later : Nat) : ChannelError → Prop
  | canceled {h} (hlast : told.getLast? = some h) (hkind : h.kind = .ok .cancel) :
      Cause heard s flags told rest later .canceled
  | refused {error} (hcode : error.code ∈ refusals) : Cause heard s flags told rest later error
  | expired (hexpires : Expires s rest later) : Cause heard s flags told rest later .timeout
  | severed {transport fs left} (htransport : s.session.transport = some transport)
      (hgone : Inbound.PeerGone transport.inbound.staysOpen transport.inbound.arrivals)
      (havailable : s.session.available = wire fs ++ left) (hleft : Fragment left) :
      Cause heard s flags told rest later .connectionReset
  | broken {fault} (hshortage : s.session.shortage = .failed (.io fault)) :
      Cause heard s flags told rest later (.io fault)
  | undelivered {fs typeId sliced blank? payload error}
      (hcompletes : Completes heard s.session fs typeId sliced blank? payload)
      (hrest : s.session.available = wire fs ++ rest)
      (hundelivered : Undelivered flags typeId payload sliced blank? error) :
      Cause heard s flags told rest later error

section

variable {s t u v : Scene (StreamSession μ)} {fs : List Frame} {demand : Demand}
  {range : SliceRange} {heard told : List Header} {flags : Flags} {error : ChannelError}

theorem Cause.starved [Message μ] {fs : List Frame} {left rest : List UInt8} {later : Nat}
    (hshortage : s.session.shortage = .failed error)
    (havailable : s.session.available = wire fs ++ left) (hleft : Fragment left) :
    Cause heard s flags told rest later error := by
  rcases shortage_error hshortage with ⟨rfl, transport, htransport, hgone⟩ | ⟨fault, rfl⟩
  · exact .severed htransport hgone havailable hleft
  · exact .broken hshortage

theorem Passes.connected (h : Passes s fs (.body range) u) :
    ∃ transport, u.session.transport = some transport := by
  cases h with
  | bare hpasses hread hheader hbare => exact absurd rfl (hbare range)
  | opened hpasses hread hheader => exact (heeds_of_run hread hheader).1.connected
  | filled hpasses hread hears hbody =>
      exact absurd rfl ((absorbs_of_run hread hears hbody).2.2.ne_body range)

theorem Passes.expires (hpasses : Passes s fs .frame u)
    (hlimit : s.session.receiver.limit = s.session.config.maxPayload)
    (hread : readHeader.run u = (.error (.failed .timeout), v)) :
    Expires s v.session.available v.now := by
  obtain ⟨htakes, hreads⟩ := hpasses.takes
  rw [Receiver.taken_frame] at hreads
  obtain ⟨limit, transport, hidleLimit, htransport, hexpired, rfl⟩ := readHeader_expired hread
  obtain ⟨-, hears, -⟩ := readHeader_timeout hread
  have hidle : s.session.receiver.assembly.inFlight = none := by
    cases hflight : s.session.receiver.assembly.inFlight with
    | none => rfl
    | some announced =>
        have hu := inFlight_of_idleLimit hidleLimit
        rw [(htakes.amidSlices hflight).2.1 rfl] at hu
        cases hu
  obtain ⟨told, htables, -⟩ :=
    (htakes.stands ⟨hidle, hlimit, rfl⟩).rests_of_idle (inFlight_of_idleLimit hidleLimit)
  have hconfig := hreads.config
  have hnow := Inbound.fillFrom_expired_now _ _ _ _ _ _ hexpired
  refine .mk hidle htables hpasses ?_ htransport ?_ (hconfig ▸ hexpired) hnow
  · rw [hreads.available, hears.available]
    rfl
  · rw [← hconfig]
    exact recvTimeout_of_idleLimit hidleLimit

variable [Message μ]

/-- Whatever error a call to receive ends with, it has one of these causes. -/
theorem Ends.cause (hlimit : s.session.receiver.limit = s.session.config.maxPayload)
    (hs : s.session.receiver.Underway heard) (hpasses : Passes s fs demand u)
    (hends : Ends flags u demand (.error (.failed error) : Except Halt μ) v)
    (htold : v.headers = s.headers ++ told) :
    Cause heard s flags told v.session.available v.now error := by
  obtain ⟨htakes, hreads⟩ := hpasses.takes
  cases hends with
  | noHeader hread =>
      rw [Receiver.taken_frame] at hreads
      rcases readHeader_cases hread with (⟨bytes, hended, -⟩ | ⟨hended, hshort⟩) | ⟨hended, -⟩
      · cases hended
      · have hshortage := hreads.shortage.symm.trans (Except.error.inj hended).symm
        exact .starved hshortage hreads.available (.header hshort)
      · obtain rfl := Halt.failed.inj (Except.error.inj hended)
        exact .expired (hpasses.expires hlimit hread)
  | @badHeader h _ w _ hread hheader =>
      obtain ⟨heffect, -⟩ := effect_of_onReceiver (Receiver.timeless_onHeader _ _) hheader
      rcases Receiver.onHeader_refuses heffect with ⟨rfl, hkind⟩ | ⟨hcode, -⟩
      · rw [headers_of_onHeader hheader, mute_readHeader.of_run hread, hpasses.headers,
          List.append_assoc] at htold
        rw [← List.append_cancel_left htold]
        exact .canceled List.getLast?_concat hkind
      · exact .refused hcode
  | @noBody range _ _ hread =>
      obtain ⟨transport, htransport⟩ := hpasses.connected
      rcases readBody_cases htransport hread with ⟨bytes, hended, -⟩ | ⟨hended, hshort⟩
      · cases hended
      · have hshortage := hreads.shortage.symm.trans (Except.error.inj hended).symm
        rw [htakes.length_of_body] at hshort
        have havailable := hreads.available
        rw [taken, List.append_assoc] at havailable
        exact .starved hshortage havailable (.body hshort)
  | badBody hread hbody =>
      obtain ⟨heffect, -⟩ := effect_of_onReceiver (Receiver.timeless_onBody _ _) hbody
      exact .refused (Receiver.onBody_refuses heffect)
  | handsOut hdeliver =>
      obtain ⟨hdelivered, hv⟩ := Ends.handedOut (.handsOut hdeliver)
      have havailable := hreads.available
      rw [Receiver.taken_delivery] at havailable
      refine .undelivered (completes_of_takes hlimit hs htakes) ?_
        (Receiver.undelivered_of_handOut hdelivered.symm)
      rw [havailable, hv]
      rfl

theorem Cause.lastHeader {rest : List UInt8} {later : Nat}
    (h : Cause heard s flags told rest later .canceled) :
    ∃ h, told.getLast? = some h ∧ h.kind = .ok .cancel := by
  cases h with
  | canceled hlast hkind => exact ⟨_, hlast, hkind⟩
  | refused hcode => exact absurd hcode (by decide)
  | undelivered hcompletes hrest hundelivered => cases hundelivered

theorem Cause.not_for_senders {rest : List UInt8} {later : Nat}
    (h : Cause heard s flags told rest later error) :
    error.code ≠ .noData ∧ error.code ≠ .unsupported := by
  cases h with
  | refused hcode => constructor <;> intro hsender <;> simp [hsender, refusals] at hcode
  | undelivered hcompletes hrest hundelivered => cases hundelivered <;> simp [ChannelError.code]
  | canceled | expired | severed | broken => simp [ChannelError.code]

theorem receive_cause (hlimit : s.session.receiver.limit = s.session.config.maxPayload)
    (hs : s.session.receiver.Underway heard)
    (hrun : (receive flags).run s = ((.error (.failed error) : Except Halt μ), t))
    (htold : t.headers = s.headers ++ told) :
    ∃ log, Cause heard { s with log } flags told t.session.available t.now error := by
  obtain ⟨fs, demand, u, v, hpasses, hends, rfl⟩ := receive_goes hrun
  have htold' : v.headers = Scene.headers { s with log := noted flags s.log } ++ told := by
    rwa [headers_noted]
  generalize noted flags s.log = log at hpasses htold'
  have hcause := Ends.cause (s := { s with log }) hlimit hs hpasses hends htold'
  exact ⟨log, hcause⟩

end

/-- The errors of calls to receive mean what they say, whatever comes in, whatever was called before,
and whatever errors messages fail with when they read their payload. A call is canceled by a cancel
frame alone, as the last that it reads. Every other error has a cause of its own kind, and no error
is of a kind that is for senders. A message that does not read its payload is invalid data. -/
theorem receive_errors [Message μ] {registry : Registry μ} {config : Config} {before told : List Event}
    {s t : StreamSession μ} {flags : Flags} {now later : Nat} {ended : Except Halt μ}
    (hs : Annals registry config before s)
    (hrun : (receive flags).start s now = (ended, t, later, told)) :
    t.receiver.header = (headersIn told).getLast?.getD s.receiver.header ∧
    (ended = .error (.failed .canceled) ↔
      ∃ h, (headersIn told).getLast? = some h ∧ h.kind = .ok .cancel) ∧
    (∀ error, ended = .error (.failed error) → ∃ log,
      Cause (headersIn before) ⟨s, now, log⟩ flags (headersIn told) t.available later error) ∧
    ended ≠ .error (.failed .noData) ∧
    (∀ operation, ended ≠ .error (.failed (.unsupported operation))) ∧
    ∀ {fs typeId sliced m payload error rest},
      Completes (headersIn before) s fs typeId sliced (some m) payload →
      s.available = wire fs ++ rest → Message.decode m payload = .error (.refused error) →
      ended ≠ .error (.failed .timeout) →
        ∃ fault, error.asInvalidData = .invalidData fault ∧
          ended = .error (.failed (.invalidData fault)) := by
  obtain ⟨log, hreceive, rfl⟩ := Call.run_of_start hrun
  obtain ⟨past, hpast⟩ := hs.chronicle
  have hlimit : s.receiver.limit = s.config.maxPayload := hpast.settings.2
  have htold : Scene.headers ⟨t, later, log⟩ =
      Scene.headers ⟨s, now, #[]⟩ ++ headersIn log.toList := rfl
  obtain ⟨hlast, hcancel⟩ := receive_lastHeader hreceive htold
  have hcause : ∀ error, ended = .error (.failed error) → ∃ log',
      Cause (headersIn before) ⟨s, now, log'⟩ flags (headersIn log.toList) t.available later
        error := by
    rintro error rfl
    exact receive_cause (s := ⟨s, now, #[]⟩) hlimit hs.underway hreceive htold
  refine ⟨hlast, ⟨fun hcanceled => ?_, fun ⟨h, hh, hkind⟩ => hcancel h hh hkind⟩, hcause,
    fun hnoData => ?_, fun operation hunsupported => ?_, ?_⟩
  · obtain ⟨log', hcause⟩ := hcause _ hcanceled
    exact hcause.lastHeader
  · obtain ⟨log', hcause⟩ := hcause _ hnoData
    exact hcause.not_for_senders.1 rfl
  · obtain ⟨log', hcause⟩ := hcause _ hunsupported
    exact hcause.not_for_senders.2 rfl
  · intro fs typeId sliced m payload error rest hcompletes havailable hdecode hquiet
    obtain ⟨fault, hfault⟩ := error.asInvalidData_eq
    refine ⟨fault, hfault, ?_⟩
    rw [← hfault]
    have hfeeds : s.Feeds (headersIn before) m payload := ⟨_, _, _, _, hcompletes, havailable⟩
    exact receive_refused (s := ⟨s, now, #[]⟩) hs hfeeds hdecode hreceive hquiet

/-- The front of a message in slices, which its sender then calls off. -/
def calledOff : StreamSession AnyMessage :=
  .new (.ofVersion 1) {} { inbound := { arrivals := [.bytes (wire
    [⟨.sliceHeader 3 rawTypeId, []⟩, ⟨.slice 2 0, [7, 8]⟩, cancelFrame rawTypeId])] } }

theorem receive_errors_calledOff :
    ((receive .none).start calledOff 0).1 = .error (.failed .canceled) := by
  have hlast : (headersIn ((receive .none).start calledOff 0).2.2.2).getLast? =
      some (cancelFrame rawTypeId).header := by decide +kernel
  generalize hrun : (receive .none).start calledOff 0 = result at hlast
  obtain ⟨ended, t, later, told⟩ := result
  have hs : Annals (.ofVersion 1) {} [] calledOff := .new _
  exact (receive_errors hs hrun).2.1.2 ⟨_, hlast, Header.kind_ofKind ..⟩

end StreamSession

end MessageChannel
