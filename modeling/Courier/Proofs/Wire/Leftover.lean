import Courier.Proofs.Wire.Fragmentation

/-!
Courier.Proofs.Wire.Leftover — how much a reader leaves in the buffer.

A reader that finds no frame leaves what is there of the part that it awaits, if that part is not
whole. Payloads are taken over as they come, so the longest part that can be left is an identifier
in the plain form, and the length in eight bytes in the WebSocket form.
-/

namespace Courier

/-! ## 1. Parts that are not too long -/

/-- An identifier that is awaited has at most the length that identifiers may have. -/
def Plain.Awaiting.Modest : Plain.Awaiting → Prop
  | .identifier length => length ≤ Frame.maxIdentifierSize
  | _ => True

/-- A length that is awaited has at most eight bytes. -/
def WebSocket.Awaiting.Modest : WebSocket.Awaiting → Prop
  | .length _ _ width => width ≤ 8
  | _ => True

/-- What a reader awaits is not too long. -/
def FrameReader.Modest : FrameReader → Prop
  | .plain r => r.awaiting.Modest
  | .webSocket r => r.awaiting.Modest

/-- How much a reader of a form leaves at most. -/
def WireFormat.leftover : WireFormat → Nat
  | .plain => Frame.maxIdentifierSize - 1
  | .webSocket => 7

theorem WireFormat.modest_reader (format : WireFormat) (limit : Nat) :
    (format.reader limit).Modest := by
  cases format <;> trivial

/-! ## 2. Readers stay modest -/

namespace Plain

theorem modest_readPayload (identifier : String) (missing : Nat) (backlog : Bytes) (b : Buffer) :
    (readPayload identifier missing backlog b).awaiting.Modest := by
  unfold readPayload
  dsimp only
  split <;> trivial

theorem modest_readPayloadLength (limit : Nat) (identifier : String) (b : Buffer) :
    (readPayloadLength limit identifier b).awaiting.Modest := by
  unfold readPayloadLength
  dsimp only
  split
  · trivial
  · split
    · trivial
    · exact modest_readPayload _ _ _ _

theorem modest_readIdentifier (limit : Nat) {length : Nat} (h : length ≤ Frame.maxIdentifierSize)
    (b : Buffer) : (readIdentifier limit length b).awaiting.Modest := by
  unfold readIdentifier
  dsimp only
  split
  · exact h
  · split
    · exact h
    · exact modest_readPayloadLength _ _ _

theorem modest_readIdentifierLength (limit : Nat) (b : Buffer) :
    (readIdentifierLength limit b).awaiting.Modest := by
  unfold readIdentifierLength
  dsimp only
  split
  · trivial
  · split
    · trivial
    · next hlength => exact modest_readIdentifier limit (Nat.le_of_not_lt hlength) _

theorem Reader.modest_read {r : Reader} (h : r.awaiting.Modest) (b : Buffer) :
    (r.read b).2.1.awaiting.Modest := by
  unfold Reader.read Reader.step
  cases hawaiting : r.awaiting with
  | identifierLength => exact modest_readIdentifierLength _ _
  | identifier length =>
      rw [hawaiting] at h
      exact modest_readIdentifier _ h _
  | payloadLength identifier => exact modest_readPayloadLength _ _ _
  | payload identifier missing backlog => exact modest_readPayload _ _ _ _

end Plain

namespace WebSocket

theorem modest_afterLength (opcode : Opcode) (masked : Bool) (length : Nat) :
    (afterLength opcode masked length).Modest := by
  cases masked <;> trivial

theorem modest_of_afterHeader {field : Bytes} {aw : Awaiting} (h : afterHeader field = .ok aw) :
    aw.Modest := by
  unfold afterHeader at h
  dsimp only at h
  split at h
  · cases h
  · split at h
    · cases h
    · split at h
      · cases h
        exact Nat.le_of_ble_eq_true rfl
      · split at h <;> cases h
        · exact Nat.le_refl 8
        · exact modest_afterLength _ _ _

/-- What a reader awaits after a look at the outer bytes is not too long. -/
def Unwrapped.Modest : Unwrapped → Prop
  | .pending => True
  | .fault _ r _ | .next r _ => r.awaiting.Modest

theorem modest_unwrapHeader {r : Reader} (h : r.awaiting.Modest) (b : Buffer) :
    (unwrapHeader r b).Modest := by
  unfold unwrapHeader
  split
  · trivial
  · dsimp only
    split
    · exact h
    · next hafter => exact modest_of_afterHeader hafter

theorem modest_unwrapPayload (opcode : Opcode) (mask : Option Mask) (missing : Nat) (r : Reader)
    (b : Buffer) : (unwrapPayload opcode mask missing r b).Modest := by
  unfold unwrapPayload
  dsimp only
  split
  · trivial
  · split
    · split <;> trivial
    · trivial

theorem Reader.modest_unwrap {r : Reader} (h : r.awaiting.Modest) (b : Buffer) :
    (r.unwrap b).Modest := by
  unfold Reader.unwrap
  split
  · exact modest_unwrapHeader h b
  · split
    · trivial
    · exact modest_afterLength _ _ _
  · split <;> trivial
  · exact modest_unwrapPayload _ _ _ _ _

theorem Reader.awaiting_readBody (r : Reader) : r.readBody.2.awaiting = r.awaiting := by
  unfold Reader.readBody
  split <;> rfl

theorem Reader.modest_readWithin (effort : Nat) {r : Reader} (h : r.awaiting.Modest) (b : Buffer) :
    (r.readWithin effort b).2.1.awaiting.Modest := by
  induction effort generalizing r b with
  | zero => exact h
  | succ effort ih =>
      have hbody : r.readBody.2.awaiting.Modest := by
        rw [r.awaiting_readBody]
        exact h
      have hunwrap := Reader.modest_unwrap hbody b
      unfold Reader.readWithin
      split
      · next hread =>
        rw [hread] at hbody
        exact hbody
      · next hread =>
        rw [hread] at hbody
        exact hbody
      · next hread =>
        rw [hread] at hbody hunwrap
        dsimp only at hunwrap
        split
        · exact hbody
        · next hnext =>
          rw [hnext] at hunwrap
          exact hunwrap
        · next hnext =>
          rw [hnext] at hunwrap
          exact ih hunwrap _

end WebSocket

/-- **A reader stays modest**, whatever it reads. -/
theorem FrameReader.Modest.read {r : FrameReader} (h : r.Modest) (b : Buffer) :
    (r.read b).2.1.Modest := by
  cases r with
  | plain r => exact Plain.Reader.modest_read h b
  | webSocket r => exact WebSocket.Reader.modest_readWithin _ h b

/-! ## 3. What is left -/

namespace Plain

theorem length_of_pending {limit : Nat} {aw : Awaiting} {bs : Bytes} (hmodest : aw.Modest)
    (h : look limit aw bs = .pending) : bs.length < Frame.maxIdentifierSize := by
  have hfield : 4 < Frame.maxIdentifierSize := by decide
  cases aw with
  | identifierLength =>
      refine Nat.lt_trans (Part.lt_of_field_eq_pending (fun field rest => ?_) h) hfield
      unfold takeIdentifierLength
      split <;> simp
  | identifier length =>
      refine Nat.lt_of_lt_of_le (Part.lt_of_field_eq_pending (fun field rest => ?_) h) hmodest
      unfold takeIdentifier
      split <;> simp
  | payloadLength identifier =>
      refine Nat.lt_trans (Part.lt_of_field_eq_pending (fun field rest => ?_) h) hfield
      unfold takePayloadLength
      split <;> simp
  | payload identifier missing backlog =>
      simp only [look, takePayload] at h
      split at h
      · cases h
      · decide
      · cases h

end Plain

namespace WebSocket

theorem length_of_pending {aw : Awaiting} {bs : Bytes} (hmodest : aw.Modest)
    (h : look aw bs = .pending) : bs.length < 8 := by
  cases aw with
  | header =>
      refine Nat.lt_trans (Part.lt_of_field_eq_pending (fun field rest => ?_) h) (by decide)
      unfold takeHeader
      split <;> simp
  | length opcode masked width =>
      exact Nat.lt_of_lt_of_le
        (Part.lt_of_field_eq_pending (fun field rest => by simp [takeLength]) h) hmodest
  | maskingKey opcode length =>
      exact Nat.lt_trans (Part.lt_of_field_eq_pending (fun field rest => by simp [takeKey]) h)
        (by decide)
  | payload opcode mask missing =>
      simp only [look, takePayload] at h
      split at h
      · split at h <;> cases h
      · decide
      · cases h

/-- Two machines that await more both do. -/
theorem look_of_intake_pending {limit : Nat} {aw : Awaiting} {held : Bytes} {t : Plain.Awaiting}
    {bs : Bytes} (h : (intake limit).look (aw, held, t) bs = .pending) : look aw bs = .pending := by
  have hstack : Intake.stackLook unwrapping (Plain.intake limit) (aw, held, t) bs = .pending := h
  simp only [Intake.stackLook] at hstack
  split at hstack
  · cases hstack
  · cases hstack
  · split at hstack
    · next hlook => exact hlook
    · cases hstack
    · cases hstack

end WebSocket

/-- **A reader that awaits more leaves little**: less than one part of a frame. -/
theorem WireFormat.length_of_pending {format : WireFormat} {limit : Nat} {r : FrameReader}
    {s : (format.decoder limit).State} {bs : Bytes} (hat : (format.decoder limit).At r s)
    (hmodest : r.Modest) (hlook : (format.decoder limit).intake.look s bs = .pending) :
    bs.length ≤ format.leftover := by
  cases format with
  | plain =>
      obtain ⟨p, rfl, hp⟩ := hat
      have hawaiting : Plain.Awaiting.Modest s := by
        rw [← hp.awaiting_eq]
        exact hmodest
      exact Nat.le_pred_of_lt (Plain.length_of_pending hawaiting hlook)
  | webSocket =>
      obtain ⟨w, rfl, hw⟩ := hat
      obtain ⟨aw, held, t⟩ := s
      have hawaiting : aw.Modest := by
        have hawaiting_eq : w.awaiting = aw := hw.awaiting_eq
        rw [← hawaiting_eq]
        exact hmodest
      exact Nat.le_of_lt_succ
        (WebSocket.length_of_pending hawaiting (WebSocket.look_of_intake_pending hlook))

end Courier
