import MessageChannel.Proofs.CallEffect
import MessageChannel.Proofs.FrameCodec
import MessageChannel.Stream.Receiver

namespace MessageChannel

variable {μ : Type}

namespace Receiver

theorem timeless_assemble (act : Assembly → Except ChannelError Unit × Assembly) :
    Call.Timeless (assemble (μ := μ) act) :=
  .bind .session fun _ => .bind (.update _) fun _ => .ofExcept _

theorem timeless_onHeader (registry : Registry μ) (h : Header) :
    Call.Timeless (onHeader registry h) := by
  refine .bind (.update _) fun _ => .bind (.tell _) fun _ => .bind (.ofExcept _) fun kind => ?_
  cases kind with
  | complete => exact .bind (timeless_assemble _) fun _ => .pure _
  | slice => exact .bind .session fun _ => .bind (.ofExcept _) fun _ => .pure _
  | sliceHeader =>
      exact .bind (timeless_assemble _) fun _ => .bind (.update _) fun _ => .bind .session fun _ =>
        .bind (.tellIf _ _) fun _ => .pure _
  | cancel => exact .bind (.tell _) fun _ => .bind (.update _) fun _ => .fail _
  | versionVerification =>
      exact .bind (.failIf _ _) fun _ => .bind (timeless_assemble _) fun _ => .pure _

theorem timeless_onBody (registry : Registry μ) (h : Header) :
    Call.Timeless (onBody registry h) := by
  refine .bind (.ofExcept _) fun kind => ?_
  cases kind with
  | slice => exact .bind (.update _) fun _ => .bind .session fun _ => .pure _
  | versionVerification =>
      refine .bind ?_ fun _ => .pure _
      exact .bind .session fun _ => .bind (.ofExcept _) fun _ => .bind (.update _) fun _ =>
        .bind (.tellIf _ _) fun _ => .bind (.tell _) fun _ => .update _
  | complete | sliceHeader | cancel => exact .bind (.update _) fun _ => .pure _

variable [Message μ]

theorem timeless_deliver (flags : Flags) (typeId : Int32) (sliced : Bool) :
    Call.Timeless (deliver (μ := μ) flags typeId sliced) := by
  rw [deliver_eq]
  refine .bind .session fun r => .bind (.update _) fun _ => ?_
  split
  · exact .ofHalting _
  · split
    · exact .pure _
    · exact .bind (.tell _) fun _ => .fail _

/-- The message that a demand is for, if it is for one. -/
def conclude (flags : Flags) : Demand → Call (Receiver μ) (Option μ)
  | .delivery typeId sliced => some <$> deliver flags typeId sliced
  | _ => return none

theorem timeless_conclude (flags : Flags) (demand : Demand) :
    Call.Timeless (conclude (μ := μ) flags demand) := by
  cases demand with
  | delivery typeId sliced => exact .map (timeless_deliver _ _ _)
  | frame | body range => exact .pure _

def afterBody (registry : Registry μ) (flags : Flags) (h : Header) :
    Call (Receiver μ) (Option μ) := do
  conclude flags (← onBody registry h)

theorem timeless_afterBody (registry : Registry μ) (flags : Flags) (h : Header) :
    Call.Timeless (afterBody registry flags h) :=
  .bind (timeless_onBody _ _) fun _ => timeless_conclude _ _

/-- What became of the bytes at the front, and those behind them. -/
structure Intake (μ α : Type) where
  ended : Except Halt α
  receiver : Receiver μ
  rest : List UInt8

/-- What a receiver makes of a frame with this header and the bytes behind it, unless they end
within the frame. The transport, its pauses and its errors play no part in this. -/
def intakeOf? (registry : Registry μ) (flags : Flags) (r : Receiver μ) (h : Header)
    (bytes : List UInt8) : Option (Intake μ (Option μ)) :=
  match (onHeader registry h).effect r with
  | (.error halt, r) => some ⟨.error halt, r, bytes⟩
  | (.ok (.body range), r) =>
      (splitExactly? range.length bytes).map fun (payload, rest) =>
        let (ended, r) := (afterBody registry flags h).effect (r.fill range payload)
        ⟨ended, r, rest⟩
  | (.ok demand, r) =>
      let (ended, r) := (conclude flags demand).effect r
      some ⟨ended, r, bytes⟩

def intake? (registry : Registry μ) (flags : Flags) (r : Receiver μ) (bytes : List UInt8) :
    Option (Intake μ (Option μ)) :=
  (Header.decode? bytes).bind fun h => r.intakeOf? registry flags h (bytes.drop headerSize)

theorem intake?_encode_append (registry : Registry μ) (flags : Flags) (r : Receiver μ)
    (h : Header) (bytes : List UInt8) :
    r.intake? registry flags (h.encode ++ bytes) = r.intakeOf? registry flags h bytes := by
  have hdrop : (h.encode ++ bytes).drop headerSize = bytes := by
    rw [← h.length_encode, List.drop_left]
  rw [intake?, Header.decode?_encode_append, hdrop, Option.bind_some]

theorem length_rest_intakeOf? {registry : Registry μ} {flags : Flags} {r : Receiver μ} {h : Header}
    {bytes : List UInt8} {taken : Intake μ (Option μ)}
    (htaken : r.intakeOf? registry flags h bytes = some taken) :
    taken.rest.length ≤ bytes.length := by
  simp only [intakeOf?] at htaken
  split at htaken
  · obtain rfl := Option.some.inj htaken
    exact Nat.le_refl _
  · obtain ⟨⟨payload, rest⟩, hsplit, rfl⟩ := Option.map_eq_some_iff.1 htaken
    obtain ⟨rfl, -⟩ := splitExactly?_eq_some_iff.1 hsplit
    simp
  · obtain rfl := Option.some.inj htaken
    exact Nat.le_refl _

theorem length_rest_intake? {registry : Registry μ} {flags : Flags} {r : Receiver μ}
    {bytes : List UInt8} {taken : Intake μ (Option μ)}
    (htaken : r.intake? registry flags bytes = some taken) :
    taken.rest.length < bytes.length := by
  obtain ⟨h, hdecode, hof⟩ := Option.bind_eq_some_iff.1 htaken
  obtain ⟨rest, rfl⟩ := Header.decode?_eq_some_iff.1 hdecode
  have hlength := length_rest_intakeOf? hof
  simp only [List.length_drop, List.length_append, Header.length_encode, headerSize] at hlength ⊢
  omega

/-- A frame that is there whole is taken in the same way whatever comes behind it. -/
theorem intakeOf?_append {registry : Registry μ} {flags : Flags} {r : Receiver μ} {h : Header}
    {bytes : List UInt8} {taken : Intake μ (Option μ)}
    (htaken : r.intakeOf? registry flags h bytes = some taken) (more : List UInt8) :
    r.intakeOf? registry flags h (bytes ++ more) =
      some { taken with rest := taken.rest ++ more } := by
  simp only [intakeOf?] at htaken ⊢
  split at htaken
  · obtain rfl := Option.some.inj htaken
    rfl
  · obtain ⟨⟨payload, rest⟩, hsplit, rfl⟩ := Option.map_eq_some_iff.1 htaken
    obtain ⟨rfl, hlength⟩ := splitExactly?_eq_some_iff.1 hsplit
    simp only [List.append_assoc, ← hlength, splitExactly?_append, Option.map_some]
  · obtain rfl := Option.some.inj htaken
    rfl

theorem intake?_append {registry : Registry μ} {flags : Flags} {r : Receiver μ}
    {bytes : List UInt8} {taken : Intake μ (Option μ)}
    (htaken : r.intake? registry flags bytes = some taken) (more : List UInt8) :
    r.intake? registry flags (bytes ++ more) =
      some { taken with rest := taken.rest ++ more } := by
  obtain ⟨h, hdecode, hof⟩ := Option.bind_eq_some_iff.1 htaken
  obtain ⟨rest, rfl⟩ := Header.decode?_eq_some_iff.1 hdecode
  rw [intake?_encode_append] at htaken
  rw [List.append_assoc, intake?_encode_append, intakeOf?_append htaken]

/-- What a receiver makes of the frames in some bytes up to one that completes a message or
fails, unless the bytes end before. -/
def message? (registry : Registry μ) (flags : Flags) (r : Receiver μ) (bytes : List UInt8) :
    Option (Intake μ μ) :=
  match _h : r.intake? registry flags bytes with
  | none => none
  | some ⟨.error halt, r, rest⟩ => some ⟨.error halt, r, rest⟩
  | some ⟨.ok (some m), r, rest⟩ => some ⟨.ok m, r, rest⟩
  | some ⟨.ok none, r, rest⟩ => r.message? registry flags rest
termination_by bytes.length
decreasing_by exact length_rest_intake? _h

theorem message?_eq (registry : Registry μ) (flags : Flags) (r : Receiver μ) (bytes : List UInt8) :
    r.message? registry flags bytes =
      match r.intake? registry flags bytes with
      | none => none
      | some ⟨.error halt, r, rest⟩ => some ⟨.error halt, r, rest⟩
      | some ⟨.ok (some m), r, rest⟩ => some ⟨.ok m, r, rest⟩
      | some ⟨.ok none, r, rest⟩ => r.message? registry flags rest := by
  rw [message?]
  split <;> simp_all

theorem message?_of_frame {registry : Registry μ} {flags : Flags} {r r' : Receiver μ}
    {bytes rest : List UInt8} (h : r.intake? registry flags bytes = some ⟨.ok none, r', rest⟩) :
    r.message? registry flags bytes = r'.message? registry flags rest := by
  rw [message?_eq, h]

theorem message?_of_end {registry : Registry μ} {flags : Flags} {r r' : Receiver μ}
    {bytes rest : List UInt8} {ended : Except Halt μ}
    (h : r.intake? registry flags bytes = some ⟨ended.map some, r', rest⟩) :
    r.message? registry flags bytes = some ⟨ended, r', rest⟩ := by
  rw [message?_eq, h]
  cases ended <;> rfl

theorem message?_append {registry : Registry μ} {flags : Flags} {r : Receiver μ}
    {bytes : List UInt8} {taken : Intake μ μ}
    (htaken : r.message? registry flags bytes = some taken) (more : List UInt8) :
    r.message? registry flags (bytes ++ more) =
      some { taken with rest := taken.rest ++ more } := by
  fun_induction message? registry flags r bytes with
  | case1 r bytes hnone => simp at htaken
  | case2 r bytes halt r' rest h | case3 r bytes m r' rest h =>
      obtain rfl := Option.some.inj htaken
      rw [message?_eq, intake?_append h]
  | case4 r bytes r' rest h ih =>
      rw [message?_eq, intake?_append h]
      exact ih htaken

end Receiver

end MessageChannel
