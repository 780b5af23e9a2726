import Courier.Proofs.Wire.Plain
import Courier.Wire.WebSocket

/-!
Courier.Proofs.Wire.WebSocket — the WebSocket reader as two machines.

`WebSocket.unwrapping` takes in WebSocket frames and gives the bytes that they carry for us; on top
of it stands the machine of the plain reader. A call of the WebSocket reader is a stretch of a run
of the two (`WebSocket.Reader.call_read`): the reader lets the plain reader read before it looks at
the outer bytes, and it moves as much of a payload inwards at once as is there, which comes to the
same as moving it byte by byte.
-/

namespace Courier.WebSocket

/-! ## 1. Masks -/

theorem Mask.apply_append (m : Mask) (bs more : Bytes) :
    m.apply (bs ++ more) = m.apply bs ++ (m.advance bs.length).apply more := by
  simp only [Mask.apply, Mask.advance, List.mapIdx_append]
  congr 1
  refine congrArg (List.mapIdx · more) ?_
  funext i b
  rw [Nat.mod_add_mod, Nat.add_assoc, Nat.add_comm bs.length i]

theorem Mask.advance_advance (m : Mask) (a b : Nat) :
    (m.advance a).advance b = m.advance (a + b) := by
  simp [Mask.advance, Nat.add_assoc]

/-- The bytes for us in a piece of payload. -/
def carried (opcode : Opcode) (mask : Option Mask) (bs : Bytes) : Bytes :=
  if opcode.carriesData then unmask mask bs else []

theorem carried_nil (opcode : Opcode) (mask : Option Mask) : carried opcode mask [] = [] := by
  cases mask <;> simp [carried, unmask, Mask.apply]

theorem carried_append (opcode : Opcode) (mask : Option Mask) (bs more : Bytes) :
    carried opcode mask (bs ++ more) =
      carried opcode mask bs ++ carried opcode (mask.map (·.advance bs.length)) more := by
  unfold carried
  split
  · cases mask with
    | none => rfl
    | some m => exact m.apply_append bs more
  · rfl

theorem carried_close (mask : Option Mask) (bs : Bytes) : carried .close mask bs = [] := rfl

/-! ## 2. The outer machine -/

/-- What is made of a header. -/
def takeHeader (field rest : Bytes) : Part Awaiting UInt8 :=
  match afterHeader field with
  | .error cause => .fault (.violation cause)
  | .ok aw => .next aw [] rest

/-- What is made of a length. -/
def takeLength (opcode : Opcode) (masked : Bool) (field rest : Bytes) : Part Awaiting UInt8 :=
  .next (afterLength opcode masked (Bytes.toNat field)) [] rest

/-- What is made of a masking key. -/
def takeKey (opcode : Opcode) (length : Nat) (field rest : Bytes) : Part Awaiting UInt8 :=
  .next (.payload opcode (some { key := field }) length) [] rest

/-- A look at a payload, of which a byte at a time is taken. -/
def takePayload (opcode : Opcode) (mask : Option Mask) (missing : Nat) (bs : Bytes) :
    Part Awaiting UInt8 :=
  match missing, bs with
  | 0, bs => if opcode = .close then .fault .peerClosed else .next .header [] bs
  | _ + 1, [] => .pending
  | missing + 1, b :: bs =>
      .next (.payload opcode (mask.map (·.advance 1)) missing) (carried opcode mask [b]) bs

/-- A look at the part of a WebSocket frame that is awaited. -/
def look (aw : Awaiting) (bs : Bytes) : Part Awaiting UInt8 :=
  match aw with
  | .header => .field 2 bs takeHeader
  | .length opcode masked width => .field width bs (takeLength opcode masked)
  | .maskingKey opcode length => .field 4 bs (takeKey opcode length)
  | .payload opcode mask missing => takePayload opcode mask missing bs

/-- What is left to do: bytes to take in, and parts that may be empty. -/
def effort (aw : Awaiting) (bs : Bytes) : Nat :=
  2 * bs.length + (match aw with
    | .length _ _ _ => 2
    | .payload _ _ _ => 1
    | _ => 0)

theorem effort_le (aw : Awaiting) (bs : Bytes) : effort aw bs ≤ 2 * bs.length + 2 := by
  cases aw <;> simp [effort]

theorem effort_afterLength_le (opcode : Opcode) (masked : Bool) (length : Nat) (bs : Bytes) :
    effort (afterLength opcode masked length) bs ≤ 2 * bs.length + 1 := by
  cases masked <;> simp [afterLength, effort]

theorem effort_lt_of_look {aw aw' : Awaiting} {bs rest data : Bytes}
    (h : look aw bs = .next aw' data rest) : effort aw' rest < effort aw bs := by
  cases aw with
  | header =>
      obtain ⟨hn, h⟩ := Part.field_eq_next (k := takeHeader) h
      unfold takeHeader at h
      split at h <;> cases h
      have hle := effort_le aw' (bs.drop 2)
      simp only [List.length_drop] at hle
      simp only [effort] at hle ⊢
      omega
  | length opcode masked width =>
      obtain ⟨hn, h⟩ := Part.field_eq_next (k := takeLength opcode masked) h
      cases h
      have hle := effort_afterLength_le opcode masked (Bytes.toNat (bs.take width)) (bs.drop width)
      simp only [List.length_drop] at hle
      simp only [effort] at hle ⊢
      omega
  | maskingKey opcode length =>
      obtain ⟨hn, h⟩ := Part.field_eq_next (k := takeKey opcode length) h
      cases h
      simp only [effort, List.length_drop]
      omega
  | payload opcode mask missing =>
      simp only [look, takePayload] at h
      split at h
      · split at h <;> cases h
        simp [effort]
      · cases h
      · cases h
        simp [effort]

theorem look_append {aw : Awaiting} {bs : Bytes} (h : look aw bs ≠ .pending) (more : Bytes) :
    look aw (bs ++ more) = (look aw bs).before more := by
  cases aw with
  | header =>
      refine Part.field_append (fun field rest => ?_) h
      unfold takeHeader
      split <;> rfl
  | length opcode masked width => exact Part.field_append (fun _ _ => rfl) h
  | maskingKey opcode length => exact Part.field_append (fun _ _ => rfl) h
  | payload opcode mask missing =>
      cases missing with
      | zero =>
          simp only [look, takePayload]
          split <;> rfl
      | succ missing =>
          cases bs with
          | nil => exact absurd rfl h
          | cons b bs => rfl

/-- The machine that takes in WebSocket frames and gives the bytes that they carry for us. -/
def unwrapping : Intake Awaiting UInt8 where
  look := look
  wellFounded :=
    Subrelation.wf (fun ⟨_, h⟩ => effort_lt_of_look h) (measure fun p => effort p.1 p.2).wf
  look_append := look_append

/-- The machine that takes in our frames inside WebSocket frames. -/
def intake (limit : Nat) : Intake (Awaiting × Bytes × Plain.Awaiting) Frame :=
  unwrapping.stack (Plain.intake limit)

/-- Bytes of a payload are taken in one after another. -/
theorem leads_payload (opcode : Opcode) (mask : Option Mask) {missing : Nat} (b : UInt8)
    (bs rest : Bytes) (h : bs.length < missing) :
    unwrapping.Leads (.payload opcode mask missing) (b :: bs ++ rest)
      (carried opcode mask (b :: bs))
      (.payload opcode (mask.map (·.advance (bs.length + 1))) (missing - (bs.length + 1)))
      rest := by
  induction bs generalizing b mask missing with
  | nil =>
      cases missing with
      | zero => simp at h
      | succ missing => exact .single rfl
  | cons c bs ih =>
      cases missing with
      | zero => simp at h
      | succ missing =>
          have hlook : unwrapping.look (.payload opcode mask (missing + 1)) (b :: c :: bs ++ rest) =
              .next (.payload opcode (mask.map (·.advance 1)) missing) (carried opcode mask [b])
                (c :: bs ++ rest) := rfl
          have hmore := ih (mask.map (·.advance 1)) c (by simpa using h)
          have hmask : (mask.map (·.advance 1)).map (·.advance (bs.length + 1)) =
              mask.map (·.advance (bs.length + 1 + 1)) := by
            cases mask with
            | none => rfl
            | some m => simp [Mask.advance_advance, Nat.add_comm]
          rw [hmask] at hmore
          have hcarried : carried opcode mask (b :: c :: bs) =
              carried opcode mask [b] ++ carried opcode (mask.map (·.advance 1)) (c :: bs) :=
            carried_append opcode mask [b] (c :: bs)
          rw [hcarried]
          have hleads := Intake.Leads.cons hlook hmore
          simpa using hleads

/-! ## 3. What is unwrapped -/

/-- A length is never awaited that takes no bytes. -/
def Awaiting.Sound : Awaiting → Prop
  | .length _ _ width => 0 < width
  | _ => True

theorem sound_afterLength (opcode : Opcode) (masked : Bool) (length : Nat) :
    (afterLength opcode masked length).Sound := by
  cases masked <;> trivial

theorem sound_of_afterHeader {field : Bytes} {aw : Awaiting} (h : afterHeader field = .ok aw) :
    aw.Sound := by
  unfold afterHeader at h
  dsimp only at h
  split at h
  · cases h
  · split at h
    · cases h
    · split at h
      · cases h
        exact Nat.zero_lt_two
      · split at h
        · cases h
          exact Nat.zero_lt_succ 7
        · cases h
          exact sound_afterLength _ _ _

/-- What a look of the reader at the outer bytes has to do with the outer machine. -/
inductive Unwrapped.Follows (r : Reader) (b : Buffer) : Unwrapped → Prop where
  | pending (look : look r.awaiting b.toList = .pending) : Follows r b .pending
  | fault {aw : Awaiting} {rest : Bytes} {cause : Fault} {r' : Reader} {b' : Buffer}
      (leads : unwrapping.Leads r.awaiting b.toList [] aw rest)
      (look : look aw rest = .fault cause) :
      Follows r b (.fault cause r' b')
  | next {data : Bytes} {r' : Reader} {b' : Buffer}
      (leads : unwrapping.Leads r.awaiting b.toList data r'.awaiting b'.toList)
      (inner_eq : r'.inner = r.inner) (body_eq : r'.body.toList = r.body.toList ++ data)
      (sound : r'.awaiting.Sound ∧ r'.body.Sound ∧ b'.Sound)
      (effort_lt : r'.effort b' < r.effort b)
      (size_le : r'.body.size + b'.size ≤ r.body.size + b.size) : Follows r b (.next r' b')

theorem unwrapHeader_follows {r : Reader} {b : Buffer} (haw : r.awaiting = .header)
    (hr : r.body.Sound) (hb : b.Sound) : (unwrapHeader r b).Follows r b := by
  unfold unwrapHeader
  rw [hb.size_eq]
  split
  · next h =>
    refine .pending ?_
    rw [haw]
    exact Part.field_of_lt h
  · next h =>
    have hlook : look r.awaiting b.toList = takeHeader (b.toList.take 2) (b.toList.drop 2) := by
      rw [haw]
      exact Part.field_of_le (Nat.not_lt.mp h)
    simp only [Buffer.split_fst]
    split
    · next cause hcause =>
      rw [takeHeader, hcause] at hlook
      exact .fault (.refl _ _) hlook
    · next aw hok =>
      rw [takeHeader, hok] at hlook
      rw [← Buffer.toList_split_snd] at hlook
      refine .next (.single hlook) rfl (List.append_nil _).symm
        ⟨sound_of_afterHeader hok, hr, hb.split 2⟩ ?_ ?_
      · have hsize := hb.size_eq
        have heffort : effort aw (b.toList.drop 2) ≤ 2 * (b.toList.length - 2) + 2 := by
          simpa using effort_le aw (b.toList.drop 2)
        simp only [Reader.effort, haw, Buffer.size_split_snd]
        split <;> omega
      · simp only [Buffer.size_split_snd]
        omega

/-- What a piece of payload carries for us comes behind what was unwrapped. -/
theorem piece_kept (opcode : Opcode) (mask : Option Mask) (piece : Bytes) {r : Reader}
    (hr : r.body.Sound) :
    let r' := if opcode.carriesData then { r with body := r.body.pushBytes (unmask mask piece) }
      else r
    r'.inner = r.inner ∧ r'.body.Sound ∧
      r'.body.toList = r.body.toList ++ carried opcode mask piece := by
  unfold carried
  cases opcode.carriesData with
  | true => exact ⟨rfl, hr.pushBytes _, Buffer.toList_pushBytes _ _⟩
  | false => exact ⟨rfl, hr, (List.append_nil _).symm⟩

theorem length_unmask (mask : Option Mask) (bs : Bytes) : (unmask mask bs).length = bs.length := by
  cases mask <;> simp [unmask, Mask.apply]

theorem length_carried_le (opcode : Opcode) (mask : Option Mask) (bs : Bytes) :
    (carried opcode mask bs).length ≤ bs.length := by
  unfold carried
  split
  · exact Nat.le_of_eq (length_unmask mask bs)
  · exact Nat.zero_le _

/-- As much of a payload as is there is taken in. -/
theorem exists_leads_payload (opcode : Opcode) (mask : Option Mask) {missing n : Nat}
    {bs : Bytes} (hn : n ≤ bs.length) (hm : n ≤ missing) :
    ∃ mask', unwrapping.Leads (.payload opcode mask missing) bs (carried opcode mask (bs.take n))
        (.payload opcode mask' (missing - n)) (bs.drop n) ∧
      (0 < n → mask' = mask.map (·.advance n)) := by
  cases n with
  | zero =>
      refine ⟨mask, ?_, fun h => absurd h (Nat.lt_irrefl 0)⟩
      simpa [carried_nil] using
        Intake.Leads.refl (m := unwrapping) (.payload opcode mask missing) bs
  | succ n =>
      cases bs with
      | nil => simp at hn
      | cons b bs =>
          have hlen : (bs.take n).length = n := List.length_take_of_le (by simpa using hn)
          have hleads := leads_payload opcode mask b (bs.take n) (bs.drop n)
            (show (bs.take n).length < missing by omega)
          rw [hlen, List.cons_append, List.take_append_drop] at hleads
          exact ⟨_, hleads, fun _ => rfl⟩

theorem unwrapPayload_follows {opcode : Opcode} {mask : Option Mask} {missing : Nat} {r : Reader}
    {b : Buffer} (haw : r.awaiting = .payload opcode mask missing) (hr : r.body.Sound)
    (hb : b.Sound) : (unwrapPayload opcode mask missing r b).Follows r b := by
  have hsize := hb.size_eq
  dsimp only [unwrapPayload]
  generalize hn : min b.size missing = n
  split
  · next h =>
    refine .pending ?_
    have hnil : b.toList = [] := List.eq_nil_of_length_eq_zero (by omega)
    rw [haw, hnil]
    cases missing with
    | zero => omega
    | succ missing => rfl
  · next h =>
    obtain ⟨mask', hleads, hmask⟩ := exists_leads_payload opcode mask
      (show n ≤ b.toList.length by omega) (show n ≤ missing by omega)
    rw [← haw, ← Buffer.toList_split_snd] at hleads
    obtain ⟨hinner, hsound, hbody⟩ := piece_kept opcode mask (b.toList.take n) hr
    rw [Buffer.split_fst]
    generalize (if opcode.carriesData then
      { r with body := r.body.pushBytes (unmask mask (b.toList.take n)) } else r) = r₁ at *
    have hle : r₁.body.size + (b.split n).2.size ≤ r.body.size + b.size := by
      have hcarried := length_carried_le opcode mask (b.toList.take n)
      rw [hsound.size_eq, hbody, hr.size_eq, Buffer.size_split_snd]
      simp only [List.length_append, List.length_take] at hcarried ⊢
      omega
    split
    · next hz =>
      rw [hz] at hleads
      split
      · next hclose =>
        subst hclose
        rw [carried_close] at hleads
        exact .fault hleads rfl
      · next hclose =>
        have hlook : look (.payload opcode mask' 0) (b.split n).2.toList =
            .next .header [] (b.split n).2.toList := if_neg hclose
        refine .next (hleads.trans (.single hlook)) hinner ?_ ⟨trivial, hsound, hb.split n⟩ ?_ hle
        · rw [List.append_nil]
          exact hbody
        · simp only [Reader.effort, haw, Buffer.size_split_snd]
          omega
    · next hz =>
      have hpos : 0 < n := by omega
      rw [hmask hpos] at hleads
      refine .next hleads hinner hbody ⟨trivial, hsound, hb.split n⟩ ?_ hle
      simp only [Reader.effort, haw, Buffer.size_split_snd]
      omega

theorem Reader.unwrap_follows {r : Reader} {b : Buffer} (haw : r.awaiting.Sound)
    (hr : r.body.Sound) (hb : b.Sound) : (r.unwrap b).Follows r b := by
  unfold Reader.unwrap
  cases h : r.awaiting with
  | header => exact unwrapHeader_follows h hr hb
  | length opcode masked width =>
      rw [h] at haw
      dsimp only
      split
      · next hlt =>
        rw [hb.size_eq] at hlt
        refine .pending ?_
        rw [h]
        exact Part.field_of_lt (k := takeLength opcode masked) hlt
      · next hlt =>
        have hsize := hb.size_eq
        rw [hb.size_eq] at hlt
        have hlook : look r.awaiting b.toList =
            takeLength opcode masked (b.toList.take width) (b.toList.drop width) := by
          rw [h]
          exact Part.field_of_le (Nat.not_lt.mp hlt)
        rw [takeLength, ← Buffer.toList_split_snd] at hlook
        rw [Buffer.split_fst]
        refine .next (.single hlook) rfl (List.append_nil _).symm
          ⟨sound_afterLength _ _ _, hr, hb.split _⟩ ?_ ?_
        · have haw' : 0 < width := haw
          simp only [Reader.effort, h, Buffer.size_split_snd]
          split <;> omega
        · simp only [Buffer.size_split_snd]
          omega
  | maskingKey opcode length =>
      dsimp only
      split
      · next hlt =>
        rw [hb.size_eq] at hlt
        refine .pending ?_
        rw [h]
        exact Part.field_of_lt (k := takeKey opcode length) hlt
      · next hlt =>
        have hsize := hb.size_eq
        rw [hb.size_eq] at hlt
        have hlook : look r.awaiting b.toList =
            takeKey opcode length (b.toList.take 4) (b.toList.drop 4) := by
          rw [h]
          exact Part.field_of_le (Nat.not_lt.mp hlt)
        rw [takeKey, ← Buffer.toList_split_snd] at hlook
        rw [Buffer.split_fst]
        refine .next (.single hlook) rfl (List.append_nil _).symm ⟨trivial, hr, hb.split _⟩ ?_ ?_
        · simp only [Reader.effort, h, Buffer.size_split_snd]
          omega
        · simp only [Buffer.size_split_snd]
          omega
  | payload opcode mask missing => exact unwrapPayload_follows h hr hb

/-! ## 4. Calls of the reader -/

/-- A reader that is at rest at a state of the two machines. -/
structure Reader.At (limit : Nat) (r : Reader) (s : Awaiting × Bytes × Plain.Awaiting) : Prop where
  awaiting_eq : r.awaiting = s.1
  sound : s.1.Sound
  body_eq : r.body.toList = s.2.1
  body_sound : r.body.Sound
  inner_at : r.inner.At limit s.2.2

/-- Reading from what was unwrapped is a call of the plain reader, also when it is left out
because nothing is there. -/
theorem Reader.call_readBody {limit : Nat} {r : Reader} {s : Awaiting × Bytes × Plain.Awaiting}
    (hr : r.At limit s) : ∃ result r₁, r.readBody = (result, r₁) ∧ r₁.awaiting = s.1 ∧
      Call (Plain.intake limit) (Plain.Reader.At limit) s.2.2 s.2.1 (result, r₁.inner, r₁.body) ∧
      r₁.body.size ≤ r.body.size ∧ (∀ f, result = .ok (some f) → r₁.body.size < r.body.size) := by
  unfold Reader.readBody
  split
  · next h =>
    have hnil : s.2.1 = [] := hr.body_eq.symm.trans (hr.body_sound.isEmpty_iff.mp h)
    have hlook : (Plain.intake limit).look s.2.2 s.2.1 = .pending := by
      rw [hnil]
      exact Plain.look_nil_of_hungry hr.inner_at.hungry
    refine ⟨_, r, rfl, hr.awaiting_eq, ?_, Nat.le_refl _, fun f hf => by cases hf⟩
    refine .pending hr.inner_at hr.body_sound ?_
    rw [hr.body_eq]
    exact Intake.run_of_pending hlook
  · refine ⟨_, _, rfl, hr.awaiting_eq, ?_, (Plain.Reader.rest_read _ _).size_le, fun f hf => ?_⟩
    · rw [← hr.body_eq]
      exact Plain.Reader.call_read hr.inner_at hr.body_sound
    · exact Plain.Reader.size_read_lt hr.inner_at hf

section Stack

variable {limit : Nat} {aw aw' : Awaiting} {held : Bytes} {t t' : Plain.Awaiting} {bs rest : Bytes}

theorem intake_run (limit : Nat) (aw : Awaiting) (held : Bytes) (t : Plain.Awaiting) (bs : Bytes) :
    (intake limit).run (aw, held, t) bs =
      (intake limit).outwards aw bs ((Plain.intake limit).run t held) :=
  Intake.stack_run aw held t bs

theorem intake_run_of_leads {data : Bytes} (h : unwrapping.Leads aw bs data aw' rest) :
    (intake limit).run (aw, held, t) bs = (intake limit).run (aw', held ++ data, t) rest :=
  Intake.stack_run_of_leads h

/-- What the outer machine is stopped by stops both, if the inner one is at rest. -/
theorem intake_run_of_fault {cause : Fault} (hi : (Plain.intake limit).look t held = .pending)
    (ho : look aw bs = .fault cause) :
    (intake limit).run (aw, held, t) bs = ⟨[], .error cause⟩ := by
  refine Intake.run_of_fault ?_
  show Intake.stackLook unwrapping (Plain.intake limit) (aw, held, t) bs = .fault cause
  have ho' : unwrapping.look aw bs = .fault cause := ho
  simp only [Intake.stackLook, hi, ho']

/-- Both machines are at rest. -/
theorem intake_run_of_pending (hi : (Plain.intake limit).look t held = .pending)
    (ho : look aw bs = .pending) :
    (intake limit).run (aw, held, t) bs = ⟨[], .ok ((aw, held, t), bs)⟩ := by
  refine Intake.run_of_pending ?_
  show Intake.stackLook unwrapping (Plain.intake limit) (aw, held, t) bs = .pending
  have ho' : unwrapping.look aw bs = .pending := ho
  simp only [Intake.stackLook, hi, ho']

end Stack

/-- As long as there is effort enough, the reader is a stretch of a run of the two machines. -/
theorem Reader.call_readWithin {limit n : Nat} {r : Reader} {b : Buffer}
    {s : Awaiting × Bytes × Plain.Awaiting} (hr : r.At limit s) (hb : b.Sound)
    (hn : r.effort b < n) :
    Call (intake limit) (Reader.At limit) s b.toList (r.readWithin n b) := by
  induction n generalizing r b s with
  | zero => omega
  | succ n ih =>
      obtain ⟨aw, held, t⟩ := s
      obtain ⟨result, r₁, hread, haw, hcall, -, -⟩ := Reader.call_readBody hr
      have hsound : aw.Sound := hr.sound
      have heffort : r₁.effort b = r.effort b := by
        simp only [Reader.effort, haw, hr.awaiting_eq]
      simp only [Reader.readWithin, hread]
      cases hcall with
      | fault run =>
          refine .fault ?_
          rw [intake_run, run]
          rfl
      | @frame f _ t' _ at_ sound run =>
          have hat : r₁.At limit (aw, r₁.body.toList, t') := ⟨haw, hsound, rfl, sound, at_⟩
          refine .frame hat hb ?_
          rw [intake_run, run, Intake.outwards_after, ← intake_run]
      | @pending _ t' _ at_ sound run =>
          have hrun : (intake limit).run (aw, held, t) b.toList =
              (intake limit).run (aw, r₁.body.toList, t') b.toList := by
            rw [intake_run, run]
            rfl
          have hi : (Plain.intake limit).look t' r₁.body.toList = .pending :=
            Intake.look_of_run_ok (congrArg Taken.ending run)
          have hfollows := r₁.unwrap_follows (b := b) (by rw [haw]; exact hsound) sound hb
          refine Call.of_run_eq ?_ hrun
          dsimp only
          generalize r₁.unwrap b = u at hfollows
          cases hfollows with
          | pending look =>
              rw [haw] at look
              have hat : r₁.At limit (aw, r₁.body.toList, t') := ⟨haw, hsound, rfl, sound, at_⟩
              exact .pending hat hb (intake_run_of_pending hi look)
          | fault leads look =>
              rw [haw] at leads
              refine .fault ?_
              rw [intake_run_of_leads leads, List.append_nil]
              exact intake_run_of_fault hi look
          | @next data r' b' leads inner_eq body_eq sound' effort_lt size_le =>
              rw [haw] at leads
              have hat : r'.At limit (r'.awaiting, r₁.body.toList ++ data, t') :=
                ⟨rfl, sound'.1, body_eq, sound'.2.1, inner_eq ▸ at_⟩
              exact (ih hat sound'.2.2 (by omega)).of_run_eq (intake_run_of_leads leads)

/-- **A call of the reader is a stretch of a run of the two machines.** -/
theorem Reader.call_read {limit : Nat} {r : Reader} {s : Awaiting × Bytes × Plain.Awaiting}
    {b : Buffer} (hr : r.At limit s) (hb : b.Sound) :
    Call (intake limit) (Reader.At limit) s b.toList (r.read b) :=
  Reader.call_readWithin hr hb (Nat.lt_succ_self _)

/-! ## 5. What a call takes from the buffer -/

/-- A frame costs a byte of those that are there or were unwrapped. -/
theorem Reader.size_readWithin_lt {limit n : Nat} {r r' : Reader} {b b' : Buffer}
    {s : Awaiting × Bytes × Plain.Awaiting} {f : Frame} (hr : r.At limit s) (hb : b.Sound)
    (h : r.readWithin n b = (.ok (some f), r', b')) :
    r'.body.size + b'.size < r.body.size + b.size := by
  induction n generalizing r b s with
  | zero => cases h
  | succ n ih =>
      obtain ⟨result, r₁, hread, haw, hcall, hle, hlt⟩ := Reader.call_readBody hr
      have hsound := hr.sound
      simp only [Reader.readWithin, hread] at h
      cases hcall with
      | fault run => cases h
      | frame at_ sound run =>
          cases h
          exact Nat.add_lt_add_right (hlt f rfl) _
      | @pending _ t' _ at_ sound run =>
          have hfollows := r₁.unwrap_follows (b := b) (by rw [haw]; exact hsound) sound hb
          dsimp only at h
          generalize r₁.unwrap b = u at hfollows h
          cases hfollows with
          | pending look => cases h
          | fault leads look => cases h
          | @next data r₂ b₂ leads inner_eq body_eq sound' effort_lt size_le =>
              have hat : r₂.At limit (r₂.awaiting, r₁.body.toList ++ data, t') :=
                ⟨rfl, sound'.1, body_eq, sound'.2.1, inner_eq ▸ at_⟩
              have hless := ih hat sound'.2.2 h
              omega

/-- What a look at the next part leaves of the outer bytes. -/
def Unwrapped.Leaves (b : Buffer) : Unwrapped → Prop
  | .pending => True
  | .fault _ _ b' | .next _ b' => b.Rest b'

theorem Reader.unwrap_leaves (r : Reader) (b : Buffer) : (r.unwrap b).Leaves b := by
  unfold Reader.unwrap
  split
  · unfold unwrapHeader
    split
    · trivial
    · dsimp only
      split <;> exact b.rest_split 2
  · split
    · trivial
    · exact b.rest_split _
  · split
    · trivial
    · exact b.rest_split 4
  · dsimp only [unwrapPayload]
    split
    · trivial
    · split
      · split <;> exact b.rest_split _
      · exact b.rest_split _

/-- A call takes bytes from the front of the buffer. -/
theorem Reader.rest_readWithin (n : Nat) (r : Reader) (b : Buffer) :
    b.Rest (r.readWithin n b).2.2 := by
  induction n generalizing r b with
  | zero => exact .refl b
  | succ n ih =>
      unfold Reader.readWithin
      split
      · exact .refl b
      · exact .refl b
      · next r₁ _ =>
        have hleaves := r₁.unwrap_leaves b
        split
        · exact .refl b
        · next hunwrap =>
          rw [hunwrap] at hleaves
          exact hleaves
        · next hunwrap =>
          rw [hunwrap] at hleaves
          exact hleaves.trans (ih _ _)

end Courier.WebSocket
