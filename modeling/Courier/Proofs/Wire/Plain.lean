import Courier.Proofs.Wire.Intake
import Courier.Wire.Plain

/-!
Courier.Proofs.Wire.Plain — the plain reader as a machine.

`Plain.intake` takes in one field of a frame at a time, and of a payload one byte. A call of the
reader is a stretch of a run of it: the fields that are whole, and as much of the payload as is
there at once (`Plain.Reader.call_read`). So everything that is known of runs is known of the
reader.
-/

namespace Courier.Plain

/-! ## 1. The machine -/

/-- What is made of the length of an identifier. -/
def takeIdentifierLength (field rest : Bytes) : Part Awaiting Frame :=
  if Frame.maxIdentifierSize < Bytes.toNat field then
    .fault (.violation (.identifierLength (Bytes.toNat field) Frame.maxIdentifierSize))
  else .next (.identifier (Bytes.toNat field)) [] rest

/-- What is made of an identifier. -/
def takeIdentifier (field rest : Bytes) : Part Awaiting Frame :=
  match Bytes.toString? field with
  | none => .fault (.violation .identifierNotText)
  | some identifier => .next (.payloadLength identifier) [] rest

/-- What is made of the length of a payload. -/
def takePayloadLength (limit : Nat) (identifier : String) (field rest : Bytes) :
    Part Awaiting Frame :=
  if limit < Bytes.toNat field then .fault (.violation (.payloadLength (Bytes.toNat field) limit))
  else .next (.payload identifier (Bytes.toNat field) []) [] rest

/-- A look at the payload, of which a byte at a time is taken. -/
def takePayload (identifier : String) (missing : Nat) (backlog bs : Bytes) : Part Awaiting Frame :=
  match missing, bs with
  | 0, bs => .next .identifierLength [.received identifier backlog.reverse] bs
  | _ + 1, [] => .pending
  | missing + 1, b :: bs => .next (.payload identifier missing (b :: backlog)) [] bs

/-- A look at the field that is awaited. -/
def look (limit : Nat) (aw : Awaiting) (bs : Bytes) : Part Awaiting Frame :=
  match aw with
  | .identifierLength => .field 4 bs takeIdentifierLength
  | .identifier length => .field length bs takeIdentifier
  | .payloadLength identifier => .field 4 bs (takePayloadLength limit identifier)
  | .payload identifier missing backlog => takePayload identifier missing backlog bs

/-- What is left to do: bytes to take in, and a field that may be empty. -/
def effort (aw : Awaiting) (bs : Bytes) : Nat :=
  2 * bs.length + (match aw with
    | .identifier _ | .payload _ _ _ => 1
    | _ => 0)

theorem effort_lt_of_look {limit : Nat} {aw aw' : Awaiting} {bs rest : Bytes} {gives : List Frame}
    (h : look limit aw bs = .next aw' gives rest) : effort aw' rest < effort aw bs := by
  cases aw with
  | identifierLength =>
      obtain ⟨hn, h⟩ := Part.field_eq_next (k := takeIdentifierLength) h
      unfold takeIdentifierLength at h
      split at h <;> cases h
      simp only [effort, List.length_drop]
      omega
  | identifier length =>
      obtain ⟨hn, h⟩ := Part.field_eq_next (k := takeIdentifier) h
      unfold takeIdentifier at h
      split at h <;> cases h
      simp only [effort, List.length_drop]
      omega
  | payloadLength identifier =>
      obtain ⟨hn, h⟩ := Part.field_eq_next (k := takePayloadLength limit identifier) h
      unfold takePayloadLength at h
      split at h <;> cases h
      simp only [effort, List.length_drop]
      omega
  | payload identifier missing backlog =>
      simp only [look, takePayload] at h
      split at h <;> cases h <;> simp [effort]

theorem look_append {limit : Nat} {aw : Awaiting} {bs : Bytes} (h : look limit aw bs ≠ .pending)
    (more : Bytes) : look limit aw (bs ++ more) = (look limit aw bs).before more := by
  cases aw with
  | identifierLength =>
      refine Part.field_append (fun field rest => ?_) h
      unfold takeIdentifierLength
      split <;> rfl
  | identifier length =>
      refine Part.field_append (fun field rest => ?_) h
      unfold takeIdentifier
      split <;> rfl
  | payloadLength identifier =>
      refine Part.field_append (fun field rest => ?_) h
      unfold takePayloadLength
      split <;> rfl
  | payload identifier missing backlog =>
      cases missing with
      | zero => rfl
      | succ missing =>
          cases bs with
          | nil => exact absurd rfl h
          | cons b bs => rfl

/-- The machine that takes in plain frames whose payloads have at most `limit` bytes. -/
def intake (limit : Nat) : Intake Awaiting Frame where
  look := look limit
  wellFounded :=
    Subrelation.wf (fun ⟨_, h⟩ => effort_lt_of_look h) (measure fun p => effort p.1 p.2).wf
  look_append := look_append

/-! ## 2. Payloads

The machine takes in a payload byte by byte; these two lemmas sum that up. -/

theorem run_payload_of_le {limit : Nat} {identifier : String} {missing : Nat} {backlog bs : Bytes}
    (h : missing ≤ bs.length) :
    (intake limit).run (.payload identifier missing backlog) bs =
      ((intake limit).run .identifierLength (bs.drop missing)).after
        [.received identifier (backlog.reverse ++ bs.take missing)] := by
  induction missing generalizing backlog bs with
  | zero =>
      have hlook : (intake limit).look (.payload identifier 0 backlog) bs =
          .next .identifierLength [.received identifier backlog.reverse] bs := rfl
      rw [Intake.run_of_next hlook]
      simp
  | succ missing ih =>
      cases bs with
      | nil => simp at h
      | cons b bs =>
          have hlook : (intake limit).look (.payload identifier (missing + 1) backlog) (b :: bs) =
              .next (.payload identifier missing (b :: backlog)) [] bs := rfl
          rw [Intake.run_of_next hlook, ih (by simpa using h)]
          simp

theorem run_payload_of_lt {limit : Nat} {identifier : String} {missing : Nat} {backlog bs : Bytes}
    (h : bs.length < missing) :
    (intake limit).run (.payload identifier missing backlog) bs =
      ⟨[], .ok (.payload identifier (missing - bs.length) (bs.reverse ++ backlog), [])⟩ := by
  induction bs generalizing missing backlog with
  | nil =>
      cases missing with
      | zero => simp at h
      | succ missing => exact Intake.run_of_pending rfl
  | cons b bs ih =>
      cases missing with
      | zero => simp at h
      | succ missing =>
          have hlook : (intake limit).look (.payload identifier (missing + 1) backlog) (b :: bs) =
              .next (.payload identifier missing (b :: backlog)) [] bs := rfl
          rw [Intake.run_of_next hlook, ih (by simpa using h)]
          simp

/-! ## 3. Calls of the reader -/

/-- A reader at rest never awaits a field that takes no bytes. -/
def Awaiting.Hungry : Awaiting → Prop
  | .identifier length => 0 < length
  | .payload _ missing _ => 0 < missing
  | _ => True

/-- A reader with this limit that is at rest at a state of the machine. -/
structure Reader.At (limit : Nat) (r : Reader) (aw : Awaiting) : Prop where
  limit_eq : r.limit = limit
  awaiting_eq : r.awaiting = aw
  hungry : aw.Hungry

/-- A part of a frame is read as the machine takes it in. -/
abbrev Progress.Follows (limit : Nat) (aw : Awaiting) (b : Buffer) (p : Progress) : Prop :=
  Call (intake limit) (Reader.At limit) aw b.toList
    (p.result, { limit, awaiting := p.awaiting }, p.rest)

theorem look_nil_of_hungry {limit : Nat} {aw : Awaiting} (h : aw.Hungry) :
    look limit aw [] = .pending := by
  cases aw with
  | identifierLength => rfl
  | identifier length => exact Part.field_of_lt (k := takeIdentifier) h
  | payloadLength identifier => rfl
  | payload identifier missing backlog =>
      cases missing with
      | zero => exact absurd h (Nat.lt_irrefl 0)
      | succ missing => rfl

theorem readPayload_follows {limit : Nat} {b : Buffer} (hb : b.Sound) (identifier : String)
    (missing : Nat) (backlog : Bytes) :
    (readPayload identifier missing backlog b).Follows limit
      (.payload identifier missing backlog) b := by
  unfold readPayload
  rw [hb.size_eq]
  rcases Nat.lt_or_ge b.toList.length missing with h | h
  · rw [Nat.min_eq_left (by omega), if_neg (by omega)]
    refine .pending ⟨rfl, rfl, ?_⟩ (hb.split _) ?_
    · exact Nat.sub_pos_of_lt h
    · simp [run_payload_of_lt h]
  · rw [Nat.min_eq_right h, if_pos (by omega)]
    refine .frame ⟨rfl, rfl, trivial⟩ (hb.split _) ?_
    simp [run_payload_of_le h]

theorem readPayloadLength_follows {limit : Nat} {b : Buffer} (hb : b.Sound) (identifier : String) :
    (readPayloadLength limit identifier b).Follows limit (.payloadLength identifier) b := by
  unfold readPayloadLength
  rw [hb.size_eq]
  split
  · next h =>
    exact .pending ⟨rfl, rfl, trivial⟩ hb
      (Intake.run_of_pending (Part.field_of_lt (k := takePayloadLength limit identifier) h))
  · next h =>
    have hlook : look limit (.payloadLength identifier) b.toList =
        takePayloadLength limit identifier (b.toList.take 4) (b.toList.drop 4) :=
      Part.field_of_le (Nat.not_lt.mp h)
    simp only [Buffer.split_fst]
    split
    · next hlimit => exact .fault (Intake.run_of_fault (hlook.trans (if_pos hlimit)))
    · next hlimit =>
      refine (readPayload_follows (hb.split 4) identifier _ []).of_run_eq ?_
      rw [Intake.run_of_next (hlook.trans (if_neg hlimit)), Buffer.toList_split_snd]
      rfl

theorem readIdentifier_follows {limit : Nat} {b : Buffer} (hb : b.Sound) {length : Nat} :
    (readIdentifier limit length b).Follows limit (.identifier length) b := by
  unfold readIdentifier
  rw [hb.size_eq]
  split
  · next h =>
    exact .pending ⟨rfl, rfl, Nat.zero_lt_of_lt h⟩ hb
      (Intake.run_of_pending (Part.field_of_lt (k := takeIdentifier) h))
  · next h =>
    have hlook : look limit (.identifier length) b.toList =
        takeIdentifier (b.toList.take length) (b.toList.drop length) :=
      Part.field_of_le (Nat.not_lt.mp h)
    simp only [Buffer.split_fst]
    split
    · next ht =>
      rw [takeIdentifier, ht] at hlook
      exact .fault (Intake.run_of_fault hlook)
    · next identifier ht =>
      refine (readPayloadLength_follows (hb.split length) identifier).of_run_eq ?_
      rw [takeIdentifier, ht] at hlook
      rw [Intake.run_of_next hlook, Buffer.toList_split_snd]
      rfl

theorem readIdentifierLength_follows {limit : Nat} {b : Buffer} (hb : b.Sound) :
    (readIdentifierLength limit b).Follows limit .identifierLength b := by
  unfold readIdentifierLength
  rw [hb.size_eq]
  split
  · next h =>
    exact .pending ⟨rfl, rfl, trivial⟩ hb
      (Intake.run_of_pending (Part.field_of_lt (k := takeIdentifierLength) h))
  · next h =>
    have hlook : look limit .identifierLength b.toList =
        takeIdentifierLength (b.toList.take 4) (b.toList.drop 4) :=
      Part.field_of_le (Nat.not_lt.mp h)
    simp only [Buffer.split_fst]
    split
    · next hlimit => exact .fault (Intake.run_of_fault (hlook.trans (if_pos hlimit)))
    · next hlimit =>
      refine (readIdentifier_follows (hb.split 4)).of_run_eq ?_
      rw [Intake.run_of_next (hlook.trans (if_neg hlimit)), Buffer.toList_split_snd]
      rfl

/-- **A call of the reader is a stretch of a run of the machine.** -/
theorem Reader.call_read {limit : Nat} {r : Reader} {aw : Awaiting} {b : Buffer}
    (hr : r.At limit aw) (hb : b.Sound) :
    Call (intake limit) (Reader.At limit) aw b.toList (r.read b) := by
  obtain ⟨rfl, rfl, -⟩ := hr
  unfold Reader.read Reader.step
  cases r.awaiting with
  | identifierLength => exact readIdentifierLength_follows hb
  | identifier length => exact readIdentifier_follows hb
  | payloadLength identifier => exact readPayloadLength_follows hb identifier
  | payload identifier missing backlog => exact readPayload_follows hb identifier missing backlog

/-! ## 4. What a call takes from the buffer -/

theorem rest_readPayload (identifier : String) (missing : Nat) (backlog : Bytes) (b : Buffer) :
    b.Rest (readPayload identifier missing backlog b).rest := by
  dsimp only [readPayload]
  split <;> exact b.rest_split _

theorem rest_readPayloadLength (limit : Nat) (identifier : String) (b : Buffer) :
    b.Rest (readPayloadLength limit identifier b).rest := by
  dsimp only [readPayloadLength]
  split
  · exact .refl b
  · split
    · exact b.rest_split 4
    · exact (b.rest_split 4).trans (rest_readPayload _ _ _ _)

theorem rest_readIdentifier (limit length : Nat) (b : Buffer) :
    b.Rest (readIdentifier limit length b).rest := by
  dsimp only [readIdentifier]
  split
  · exact .refl b
  · split
    · exact b.rest_split length
    · exact (b.rest_split length).trans (rest_readPayloadLength _ _ _)

theorem rest_readIdentifierLength (limit : Nat) (b : Buffer) :
    b.Rest (readIdentifierLength limit b).rest := by
  dsimp only [readIdentifierLength]
  split
  · exact .refl b
  · split
    · exact b.rest_split 4
    · exact (b.rest_split 4).trans (rest_readIdentifier _ _ _)

/-- A call takes bytes from the front of the buffer. -/
theorem Reader.rest_read (r : Reader) (b : Buffer) : b.Rest (r.read b).2.2 := by
  unfold Reader.read Reader.step
  cases r.awaiting with
  | identifierLength => exact rest_readIdentifierLength _ _
  | identifier length => exact rest_readIdentifier _ _ _
  | payloadLength identifier => exact rest_readPayloadLength _ _ _
  | payload identifier missing backlog => exact rest_readPayload _ _ _ _

/-- A frame costs the bytes of the length of its payload at least, if that is still to come. -/
theorem size_readPayloadLength_lt {limit : Nat} {identifier : String} {b : Buffer} {f : Frame}
    (h : (readPayloadLength limit identifier b).result = .ok (some f)) :
    (readPayloadLength limit identifier b).rest.size < b.size := by
  dsimp only [readPayloadLength] at h ⊢
  split
  · next hb => simp [hb] at h
  · next hb =>
    rw [if_neg hb] at h
    split
    · next hl =>
      rw [if_pos hl] at h
      cases h
    · refine Nat.lt_of_le_of_lt (rest_readPayload _ _ _ _).size_le ?_
      show b.size - 4 < b.size
      omega

theorem size_readIdentifier_lt {limit length : Nat} {b : Buffer} {f : Frame}
    (h : (readIdentifier limit length b).result = .ok (some f)) :
    (readIdentifier limit length b).rest.size < b.size := by
  dsimp only [readIdentifier] at h ⊢
  split
  · next hb => simp [hb] at h
  · next hb =>
    rw [if_neg hb] at h
    split
    · next ht =>
      rw [ht] at h
      cases h
    · next identifier ht =>
      rw [ht] at h
      exact Nat.lt_of_lt_of_le (size_readPayloadLength_lt h) (Nat.sub_le _ _)

theorem size_readIdentifierLength_lt {limit : Nat} {b : Buffer} {f : Frame}
    (h : (readIdentifierLength limit b).result = .ok (some f)) :
    (readIdentifierLength limit b).rest.size < b.size := by
  dsimp only [readIdentifierLength] at h ⊢
  split
  · next hb => simp [hb] at h
  · next hb =>
    rw [if_neg hb] at h
    split
    · next hl =>
      rw [if_pos hl] at h
      cases h
    · next hl =>
      rw [if_neg hl] at h
      exact Nat.lt_of_lt_of_le (size_readIdentifier_lt h) (Nat.sub_le _ _)

theorem size_readPayload_lt {identifier : String} {missing : Nat} {backlog : Bytes} {b : Buffer}
    {f : Frame} (hm : 0 < missing)
    (h : (readPayload identifier missing backlog b).result = .ok (some f)) :
    (readPayload identifier missing backlog b).rest.size < b.size := by
  dsimp only [readPayload] at h ⊢
  split
  · rw [Buffer.size_split_snd]
    omega
  · next hb => simp [hb] at h

/-- A frame costs a byte. -/
theorem Reader.size_read_lt {limit : Nat} {r : Reader} {aw : Awaiting} {b : Buffer} {f : Frame}
    (hr : r.At limit aw) (h : (r.read b).1 = .ok (some f)) : (r.read b).2.2.size < b.size := by
  obtain ⟨rfl, rfl, hungry⟩ := hr
  unfold Reader.read Reader.step at h ⊢
  cases haw : r.awaiting with
  | identifierLength => exact size_readIdentifierLength_lt (by simpa [haw] using h)
  | identifier length => exact size_readIdentifier_lt (by simpa [haw] using h)
  | payloadLength identifier => exact size_readPayloadLength_lt (by simpa [haw] using h)
  | payload identifier missing backlog =>
      rw [haw] at hungry
      exact size_readPayload_lt hungry (by simpa [haw] using h)

end Courier.Plain
