import Courier.Proofs.Bytes
import Courier.Proofs.Wire.Leftover

/-!
Courier.Proofs.Wire.Loop — the loops inside the readers.

A reader goes round a loop: a pass takes in the part that is awaited and goes round again, or it
returns. Nothing in such a loop counts the passes. `Ends` says that the loop comes to an end, after
how many passes, and what is returned; a loop that goes round forever has no such end. The plain
reader passes at most once for each part of a frame (`Plain.Reader.exists_ends_read`). The WebSocket
reader needs no more passes than it is given, as each leaves less to do
(`WebSocket.Reader.Fit.exists_ends_readWithin`).

What every pass keeps is kept by a call (`Ends.keeps`). So the state in which a call leaves a
reader is found from single passes: that is what the second half is about.
-/

namespace Courier

/-! ## 1. Loops -/

/-- What a pass of a loop comes to: the call returns, or the loop goes round again. -/
inductive Pass (ρ : Type) where
  | returns (result : Except Fault (Option Frame)) (reader : ρ) (rest : Buffer)
  | again (reader : ρ) (rest : Buffer)

/-- The same pass of a reader that is part of a larger one. -/
def Pass.map {ρ ρ' : Type} (g : ρ → ρ') : Pass ρ → Pass ρ'
  | .returns result r b => .returns result (g r) b
  | .again r b => .again (g r) b

section Loops

variable {ρ ρ' : Type}

/-- The loop that is entered with this reader and this buffer ends with the `n`-th pass, and what
is returned then. -/
inductive Ends (pass : ρ → Buffer → Pass ρ) :
    (n : Nat) → ρ → Buffer → Except Fault (Option Frame) × ρ × Buffer → Prop where
  | last {r r' : ρ} {b b' : Buffer} {result : Except Fault (Option Frame)}
      (pass_eq : pass r b = .returns result r' b') : Ends pass 1 r b (result, r', b')
  | more {r r₁ : ρ} {b b₁ : Buffer} {n : Nat} {returned : Except Fault (Option Frame) × ρ × Buffer}
      (pass_eq : pass r b = .again r₁ b₁) (ends : Ends pass n r₁ b₁ returned) :
      Ends pass (n + 1) r b returned

variable {pass : ρ → Buffer → Pass ρ} {r : ρ} {b : Buffer} {n : Nat}
variable {returned : Except Fault (Option Frame) × ρ × Buffer}

/-- **What every pass keeps holds up to the last one**, and what the last one makes of it holds of
what is returned. -/
theorem Ends.keeps {P : ρ → Buffer → Prop} {Q : Except Fault (Option Frame) → ρ → Buffer → Prop}
    (h : Ends pass n r b returned) (hstart : P r b)
    (hagain : ∀ r b r' b', P r b → pass r b = .again r' b' → P r' b')
    (hreturns : ∀ r b result r' b', P r b → pass r b = .returns result r' b' → Q result r' b') :
    Q returned.1 returned.2.1 returned.2.2 := by
  induction h with
  | last pass_eq => exact hreturns _ _ _ _ _ hstart pass_eq
  | more pass_eq ends ih => exact ih (hagain _ _ _ _ hstart pass_eq)

theorem Ends.map {pass' : ρ' → Buffer → Pass ρ'} (g : ρ → ρ')
    (hpass : ∀ r b, pass' (g r) b = (pass r b).map g) (h : Ends pass n r b returned) :
    Ends pass' n (g r) b (returned.1, g returned.2.1, returned.2.2) := by
  induction h with
  | last pass_eq =>
      refine .last ?_
      rw [hpass, pass_eq]
      rfl
  | more pass_eq ends ih =>
      refine .more ?_ ih
      rw [hpass, pass_eq]
      rfl

end Loops

/-! ## 2. The plain reader -/

namespace Plain

/-- A pass of the plain reader: it takes in the part that is awaited if that is whole. -/
def Reader.pass (r : Reader) (b : Buffer) : Pass Reader :=
  match r.awaiting with
  | .identifierLength =>
      if b.size < 4 then .returns (.ok none) r b
      else
        let field := b.split 4
        let length := Bytes.toNat field.1
        if Frame.maxIdentifierSize < length then
          .returns (.error (.violation (.identifierLength length Frame.maxIdentifierSize))) r
            field.2
        else .again { r with awaiting := .identifier length } field.2
  | .identifier length =>
      if b.size < length then .returns (.ok none) r b
      else
        let field := b.split length
        match Bytes.toString? field.1 with
        | none => .returns (.error (.violation .identifierNotText)) r field.2
        | some identifier => .again { r with awaiting := .payloadLength identifier } field.2
  | .payloadLength identifier =>
      if b.size < 4 then .returns (.ok none) r b
      else
        let field := b.split 4
        let length := Bytes.toNat field.1
        if r.limit < length then
          .returns (.error (.violation (.payloadLength length r.limit))) r field.2
        else .again { r with awaiting := .payload identifier length [] } field.2
  | .payload identifier missing backlog =>
      let progress := readPayload identifier missing backlog b
      .returns progress.result { r with awaiting := progress.awaiting } progress.rest

/-- The part that is awaited is not whole. A payload is taken over as it comes, so nothing of it is
left in the buffer. -/
def Awaiting.Lacking (b : Buffer) : Awaiting → Prop
  | .identifierLength | .payloadLength _ => b.size < 4
  | .identifier length => b.size < length
  | .payload _ missing _ => b.size = 0 ∧ 0 < missing

/-- Something else than a payload is awaited. -/
def Awaiting.IsField : Awaiting → Prop
  | .payload _ _ _ => False
  | _ => True

/-- What a pass of the plain reader can come to. -/
inductive Reader.Passes (r : Reader) (b : Buffer) : Pass Reader → Prop where
  | lacks (lacking : r.awaiting.Lacking b) : Passes r b (.returns (.ok none) r b)
  | refuses {cause : Fault} (n : Nat) (hungry : r.awaiting.Hungry) (field : r.awaiting.IsField) :
      Passes r b (.returns (.error cause) r (b.split n).2)
  | takes {aw : Awaiting} (n : Nat) (field : aw.IsField) :
      Passes r b (.again { r with awaiting := aw } (b.split n).2)
  /-- the length of a payload is taken in, of which nothing has come yet -/
  | declares {identifier : String} (size : 4 ≤ b.size)
      (length : Bytes.toNat (b.split 4).1 ≤ r.limit) :
      Passes r b (.again
        { r with awaiting := .payload identifier (Bytes.toNat (b.split 4).1) [] } (b.split 4).2)
  | gathers {identifier : String} {missing : Nat} {backlog : Bytes}
      (awaiting_eq : r.awaiting = .payload identifier missing backlog) (size : b.size < missing) :
      Passes r b (.returns (.ok none)
        { r with
          awaiting := .payload identifier (missing - b.size)
            ((b.split b.size).1.reverse ++ backlog) }
        (b.split b.size).2)
  | finishes (f : Frame) (n : Nat) :
      Passes r b (.returns (.ok (some f)) { r with awaiting := .identifierLength } (b.split n).2)

theorem Reader.passes_pass (r : Reader) (b : Buffer) : r.Passes b (r.pass b) := by
  unfold Reader.pass
  split
  · next haw =>
    dsimp only
    split
    · next hsize => exact .lacks (by rw [haw]; exact hsize)
    · split
      · exact .refuses 4 (by rw [haw]; trivial) (by rw [haw]; trivial)
      · exact .takes 4 trivial
  · next length haw =>
    dsimp only
    split
    · next hsize => exact .lacks (by rw [haw]; exact hsize)
    · split
      · next htext =>
        have hlength : 0 < length := by
          refine Nat.pos_of_ne_zero ?_
          rintro rfl
          rw [Buffer.split_fst, List.take_zero] at htext
          cases htext.symm.trans (Bytes.toString?_ofString "")
        exact .refuses length (by rw [haw]; exact hlength) (by rw [haw]; trivial)
      · exact .takes length trivial
  · next identifier haw =>
    dsimp only
    split
    · next hsize => exact .lacks (by rw [haw]; exact hsize)
    · next hsize =>
      split
      · exact .refuses 4 (by rw [haw]; trivial) (by rw [haw]; trivial)
      · next hlength => exact .declares (Nat.le_of_not_lt hsize) (Nat.le_of_not_lt hlength)
  · next identifier missing backlog haw =>
    dsimp only [readPayload]
    split
    · exact .finishes _ _
    · next hmissing =>
      have hsize : b.size < missing := by omega
      rw [Nat.min_eq_left (Nat.le_of_lt hsize)]
      exact .gathers haw hsize

/-- What a call returns. -/
def Progress.returned (limit : Nat) (p : Progress) :
    Except Fault (Option Frame) × Reader × Buffer :=
  (p.result, { limit, awaiting := p.awaiting }, p.rest)

theorem ends_payload (limit : Nat) (identifier : String) (missing : Nat) (backlog : Bytes)
    (b : Buffer) :
    Ends Reader.pass 1 ⟨limit, .payload identifier missing backlog⟩ b
      ((readPayload identifier missing backlog b).returned limit) :=
  .last rfl

theorem exists_ends_payloadLength (limit : Nat) (identifier : String) (b : Buffer) :
    ∃ n ≤ 2, Ends Reader.pass n ⟨limit, .payloadLength identifier⟩ b
      ((readPayloadLength limit identifier b).returned limit) := by
  dsimp only [readPayloadLength]
  split
  · next hsize => exact ⟨1, by omega, .last (by simp [Reader.pass, hsize])⟩
  · next hsize =>
    split
    · next hlength =>
      exact ⟨1, by omega, .last (by simp only [Reader.pass, if_neg hsize, if_pos hlength])⟩
    · next hlength =>
      exact ⟨2, by omega, .more (by simp only [Reader.pass, if_neg hsize, if_neg hlength])
        (ends_payload _ _ _ _ _)⟩

theorem exists_ends_identifier (limit length : Nat) (b : Buffer) :
    ∃ n ≤ 3, Ends Reader.pass n ⟨limit, .identifier length⟩ b
      ((readIdentifier limit length b).returned limit) := by
  dsimp only [readIdentifier]
  split
  · next hsize => exact ⟨1, by omega, .last (by simp [Reader.pass, hsize])⟩
  · next hsize =>
    split
    · next htext => exact ⟨1, by omega, .last (by simp only [Reader.pass, if_neg hsize, htext])⟩
    · next identifier htext =>
      obtain ⟨n, hn, hends⟩ := exists_ends_payloadLength limit identifier (b.split length).2
      exact ⟨n + 1, by omega, .more (by simp only [Reader.pass, if_neg hsize, htext]) hends⟩

theorem exists_ends_identifierLength (limit : Nat) (b : Buffer) :
    ∃ n ≤ 4, Ends Reader.pass n ⟨limit, .identifierLength⟩ b
      ((readIdentifierLength limit b).returned limit) := by
  dsimp only [readIdentifierLength]
  split
  · next hsize => exact ⟨1, by omega, .last (by simp [Reader.pass, hsize])⟩
  · next hsize =>
    split
    · next hlength =>
      exact ⟨1, by omega, .last (by simp only [Reader.pass, if_neg hsize, if_pos hlength])⟩
    · next hlength =>
      obtain ⟨n, hn, hends⟩ :=
        exists_ends_identifier limit (Bytes.toNat (b.split 4).1) (b.split 4).2
      exact ⟨n + 1, by omega,
        .more (by simp only [Reader.pass, if_neg hsize, if_neg hlength]) hends⟩

/-- **The loop of the plain reader ends**, after a pass for each part of a frame at most. -/
theorem Reader.exists_ends_read (r : Reader) (b : Buffer) :
    ∃ n ≤ 4, Ends Reader.pass n r b (r.read b) := by
  obtain ⟨limit, awaiting⟩ := r
  cases awaiting with
  | identifierLength => exact exists_ends_identifierLength limit b
  | identifier length =>
      obtain ⟨n, hn, hends⟩ := exists_ends_identifier limit length b
      exact ⟨n, by omega, hends⟩
  | payloadLength identifier =>
      obtain ⟨n, hn, hends⟩ := exists_ends_payloadLength limit identifier b
      exact ⟨n, by omega, hends⟩
  | payload identifier missing backlog =>
      exact ⟨1, by omega, ends_payload limit identifier missing backlog b⟩

/-! ## 3. What the plain reader keeps -/

section Keeps

variable {limit : Nat} {r r' : Reader} {b b' : Buffer} {aw : Awaiting}
variable {result : Except Fault (Option Frame)}

theorem Awaiting.Lacking.hungry (h : aw.Lacking b) : aw.Hungry := by
  cases aw with
  | identifierLength => trivial
  | identifier length => exact Nat.zero_lt_of_lt h
  | payloadLength identifier => trivial
  | payload identifier missing backlog => exact h.2

/-- A reader at rest lacks bytes if there are none. -/
theorem Awaiting.Hungry.lacking (h : aw.Hungry) (hb : b.size = 0) : aw.Lacking b := by
  cases aw with
  | identifierLength =>
      show b.size < 4
      omega
  | identifier length =>
      show b.size < length
      rw [hb]
      exact h
  | payloadLength identifier =>
      show b.size < 4
      omega
  | payload identifier missing backlog => exact ⟨hb, h⟩

/-- Less than the longest identifier is held back. -/
theorem Awaiting.Lacking.size_lt (h : aw.Lacking b) (hmodest : aw.Modest) :
    b.size < Frame.maxIdentifierSize := by
  have hfield : 4 < Frame.maxIdentifierSize := by decide
  cases aw with
  | identifierLength => exact Nat.lt_trans h hfield
  | identifier length => exact Nat.lt_of_lt_of_le h hmodest
  | payloadLength identifier => exact Nat.lt_trans h hfield
  | payload identifier missing backlog =>
      rw [h.1]
      decide

theorem split_zero (b : Buffer) : b.split 0 = ([], b) := by
  obtain ⟨segments, size⟩ := b
  cases segments <;> simp [Buffer.split, Buffer.splitSegments]

/-- A reader that lacks bytes finds no frame, and stays as it is. -/
theorem Reader.read_of_lacking (h : r.awaiting.Lacking b) : r.read b = (.ok none, r, b) := by
  obtain ⟨limit, awaiting⟩ := r
  cases awaiting with
  | identifierLength =>
      have hsize : b.size < 4 := h
      simp [Reader.read, Reader.step, readIdentifierLength, hsize]
  | identifier length =>
      have hsize : b.size < length := h
      simp [Reader.read, Reader.step, readIdentifier, hsize]
  | payloadLength identifier =>
      have hsize : b.size < 4 := h
      simp [Reader.read, Reader.step, readPayloadLength, hsize]
  | payload identifier missing backlog =>
      obtain ⟨hsize, hmissing⟩ : b.size = 0 ∧ 0 < missing := h
      simp only [Reader.read, Reader.step, readPayload, hsize, Nat.zero_min, split_zero,
        Nat.sub_zero, if_neg (Nat.ne_of_gt hmissing), List.reverse_nil, List.nil_append]

/-- Where a call finds no frame, the part that is awaited is not whole; where it finds one or a
fault, the next part to be awaited has a byte at least. -/
theorem Reader.rests_of_pass (hpass : r.pass b = .returns result r' b') :
    r'.awaiting.Hungry ∧ (result = .ok none → r'.awaiting.Lacking b') := by
  have hpasses := r.passes_pass b
  rw [hpass] at hpasses
  cases hpasses with
  | lacks lacking => exact ⟨lacking.hungry, fun _ => lacking⟩
  | refuses n hungry field => exact ⟨hungry, nofun⟩
  | @gathers identifier missing backlog awaiting_eq size =>
      have hleft : 0 < missing - b.size := Nat.sub_pos_of_lt size
      exact ⟨hleft, fun _ => ⟨Nat.sub_self b.size, hleft⟩⟩
  | finishes f n => exact ⟨trivial, nofun⟩

/-- After a call, whatever it came to, the reader is at rest. -/
theorem Reader.rests_read (r : Reader) (b : Buffer) :
    (r.read b).2.1.awaiting.Hungry ∧
      ((r.read b).1 = .ok none → (r.read b).2.1.awaiting.Lacking (r.read b).2.2) := by
  obtain ⟨n, -, hends⟩ := r.exists_ends_read b
  exact hends.keeps (P := fun _ _ => True)
    (Q := fun result r b => r.awaiting.Hungry ∧ (result = .ok none → r.awaiting.Lacking b))
    trivial (fun _ _ _ _ _ _ => trivial) fun _ _ _ _ _ _ hpass => Reader.rests_of_pass hpass

/-- A payload of which so many bytes are missing: its length, and behind that the bytes of it that
came, are the last that was taken from the stream. -/
def Counted (limit : Nat) (stream : Bytes) (missing : Nat) (backlog : Bytes) (b : Buffer) : Prop :=
  ∃ before field : Bytes, field.length = 4 ∧ Bytes.toNat field ≤ limit ∧
    backlog.length + missing = Bytes.toNat field ∧
    stream = before ++ field ++ backlog.reverse ++ b.toList

/-- A reader that is fed from a stream, of which the buffer has the end. -/
structure Reader.Reads (limit : Nat) (stream : Bytes) (r : Reader) (b : Buffer) : Prop where
  limit_eq : r.limit = limit
  sound : b.Sound
  suffix : b.toList <:+ stream
  counted : ∀ identifier missing backlog, r.awaiting = .payload identifier missing backlog →
    Counted limit stream missing backlog b

variable {stream : Bytes}

/-- More of the stream comes into the buffer. -/
theorem Reader.Reads.more (h : r.Reads limit stream b) {data : Bytes} (hb : b'.Sound)
    (hmore : b'.toList = b.toList ++ data) : r.Reads limit (stream ++ data) b' := by
  refine ⟨h.limit_eq, hb, ?_, ?_⟩
  · obtain ⟨taken, htaken⟩ := h.suffix
    exact ⟨taken, by rw [hmore, ← htaken, List.append_assoc]⟩
  · intro identifier missing backlog haw
    obtain ⟨before, field, hwidth, hlimit, hcount, hstream⟩ :=
      h.counted identifier missing backlog haw
    exact ⟨before, field, hwidth, hlimit, hcount, by rw [hstream, hmore, List.append_assoc]⟩

/-- **Every pass keeps count**: what is awaited next is not a payload, or its length has just been
taken from the stream, or else what came of it is behind what had come before. -/
theorem Reader.Reads.pass (h : r.Reads limit stream b) :
    match r.pass b with
    | .returns _ r' b' | .again r' b' => r'.Reads limit stream b' := by
  have hfront : ∀ n, (b.split n).2.toList <:+ stream := fun n =>
    (b.rest_split n).suffix.trans h.suffix
  have hfield : ∀ (aw : Awaiting) (n : Nat), aw.IsField →
      (⟨r.limit, aw⟩ : Reader).Reads limit stream (b.split n).2 := by
    intro aw n hfield
    refine ⟨h.limit_eq, h.sound.split n, hfront n, ?_⟩
    rintro identifier missing backlog rfl
    exact hfield.elim
  have hpasses := r.passes_pass b
  generalize r.pass b = pass at hpasses
  cases hpasses with
  | lacks lacking => exact h
  | refuses n hungry field => exact hfield r.awaiting n field
  | @takes aw n field => exact hfield aw n field
  | declares size length =>
      refine ⟨h.limit_eq, h.sound.split 4, hfront 4, ?_⟩
      rintro _ _ _ ⟨⟩
      obtain ⟨before, hbefore⟩ := h.suffix
      have hwidth : (b.split 4).1.length = 4 := by
        rw [Buffer.split_fst, List.length_take, ← h.sound.size_eq]
        omega
      refine ⟨before, _, hwidth, h.limit_eq ▸ length, Nat.zero_add _, ?_⟩
      rw [List.reverse_nil, List.append_nil, Buffer.split_fst, Buffer.toList_split_snd,
        List.append_assoc, List.take_append_drop, hbefore]
  | @gathers identifier missing backlog awaiting_eq size =>
      refine ⟨h.limit_eq, h.sound.split _, hfront _, ?_⟩
      rintro _ _ _ ⟨⟩
      obtain ⟨before, field, hwidth, hlimit, hcount, hstream⟩ := h.counted _ _ _ awaiting_eq
      refine ⟨before, field, hwidth, hlimit, ?_, ?_⟩
      · have hsize := h.sound.size_eq
        simp only [Buffer.split_fst, List.length_append, List.length_reverse, List.length_take]
        omega
      · rw [hstream, Buffer.split_fst, Buffer.toList_split_snd, List.reverse_append,
          List.reverse_reverse]
        simp only [List.append_assoc, List.take_append_drop]
  | finishes f n => exact hfield .identifierLength n trivial

/-- **A call keeps count.** -/
theorem Reader.Reads.read (h : r.Reads limit stream b) :
    (r.read b).2.1.Reads limit stream (r.read b).2.2 := by
  obtain ⟨n, -, hends⟩ := r.exists_ends_read b
  refine hends.keeps (P := Reader.Reads limit stream) (Q := fun _ => Reader.Reads limit stream) h
    ?_ ?_
  · intro r b r' b' hreads hpass
    have hkept := hreads.pass
    rwa [hpass] at hkept
  · intro r b result r' b' hreads hpass
    have hkept := hreads.pass
    rwa [hpass] at hkept

/-- A payload that is awaited: what came of it is the end of the stream, and some of it is
missing. -/
theorem Reader.Reads.payload_of_lacking (h : r.Reads limit stream b)
    (hlacking : r.awaiting.Lacking b) {identifier : String} {missing : Nat} {backlog : Bytes}
    (haw : r.awaiting = .payload identifier missing backlog) :
    0 < missing ∧ b.size = 0 ∧ ∃ before field : Bytes, field.length = 4 ∧
      Bytes.toNat field ≤ limit ∧ backlog.length + missing = Bytes.toNat field ∧
      stream = before ++ field ++ backlog.reverse := by
  rw [haw] at hlacking
  obtain ⟨hsize, hmissing⟩ := hlacking
  obtain ⟨before, field, hwidth, hlimit, hcount, hstream⟩ := h.counted _ _ _ haw
  have hnil : b.toList = [] := List.eq_nil_of_length_eq_zero (h.sound.size_eq ▸ hsize)
  rw [hnil, List.append_nil] at hstream
  exact ⟨hmissing, hsize, before, field, hwidth, hlimit, hcount, hstream⟩

end Keeps

end Plain

/-! ## 4. The WebSocket reader -/

namespace WebSocket

/-- A pass of the WebSocket reader: it reads what was unwrapped, and unwraps more if that is not
enough. -/
def Reader.pass (r : Reader) (b : Buffer) : Pass Reader :=
  match r.readBody with
  | (.error cause, r) => .returns (.error cause) r b
  | (.ok (some f), r) => .returns (.ok (some f)) r b
  | (.ok none, r) =>
      match r.unwrap b with
      | .pending => .returns (.ok none) r b
      | .fault cause r b => .returns (.error cause) r b
      | .next r b => .again r b

theorem Reader.readWithin_succ (n : Nat) (r : Reader) (b : Buffer) :
    r.readWithin (n + 1) b =
      match r.pass b with
      | .returns result r b => (result, r, b)
      | .again r b => r.readWithin n b := by
  rw [Reader.readWithin, Reader.pass]
  obtain ⟨result, r₁⟩ := r.readBody
  cases result with
  | error cause => rfl
  | ok found =>
      cases found with
      | some f => rfl
      | none =>
          dsimp only
          cases r₁.unwrap b <;> rfl

section Keeps

variable {limit : Nat} {r : Reader} {b : Buffer}

/-- What a look at the next part of a WebSocket frame does to the reader: the plain reader is left
alone, and more may come behind what was unwrapped. -/
def Unwrapped.Spares (r : Reader) : Unwrapped → Prop
  | .pending => True
  | .fault _ r' b' | .next r' b' =>
      r'.awaiting.Sound ∧ r'.inner = r.inner ∧ r'.body.Sound ∧ b'.Sound ∧
        ∃ data, r'.body.toList = r.body.toList ++ data

theorem Reader.unwrap_spares (haw : r.awaiting.Sound) (hr : r.body.Sound) (hb : b.Sound) :
    (r.unwrap b).Spares r := by
  have hsame : ∃ data, r.body.toList = r.body.toList ++ data := ⟨[], (List.append_nil _).symm⟩
  unfold Reader.unwrap
  split
  · unfold unwrapHeader
    split
    · trivial
    · dsimp only
      split
      · exact ⟨haw, rfl, hr, hb.split 2, hsame⟩
      · next hafter => exact ⟨sound_of_afterHeader hafter, rfl, hr, hb.split 2, hsame⟩
  · split
    · trivial
    · exact ⟨sound_afterLength _ _ _, rfl, hr, hb.split _, hsame⟩
  · split
    · trivial
    · exact ⟨trivial, rfl, hr, hb.split 4, hsame⟩
  · next opcode mask missing _ =>
    dsimp only [unwrapPayload]
    split
    · trivial
    · obtain ⟨hinner, hsound, hbody⟩ :=
        piece_kept opcode mask (b.split (min b.size missing)).1 hr
      generalize (if opcode.carriesData then
        { r with body := r.body.pushBytes (unmask mask (b.split (min b.size missing)).1) }
          else r) = r₁ at hinner hsound hbody ⊢
      split
      · split
        · exact ⟨trivial, hinner, hsound, hb.split _, _, hbody⟩
        · exact ⟨trivial, hinner, hsound, hb.split _, _, hbody⟩
      · exact ⟨trivial, hinner, hsound, hb.split _, _, hbody⟩

/-- A WebSocket reader between two calls, or between two passes: the plain reader is at rest, and
is fed from what was unwrapped. -/
structure Reader.Fit (limit : Nat) (r : Reader) : Prop where
  sound : r.awaiting.Sound
  modest : r.awaiting.Modest
  inner_hungry : r.inner.awaiting.Hungry
  inner_modest : r.inner.awaiting.Modest
  inner_reads : ∃ stream, r.inner.Reads limit stream r.body

/-- Neither of the two readers has a part that is whole. -/
def Reader.Stalled (r : Reader) (b : Buffer) : Prop :=
  r.inner.awaiting.Lacking r.body ∧ r.unwrap b = .pending

theorem Reader.Fit.readBody (h : r.Fit limit) :
    r.readBody.2.Fit limit ∧
      (r.readBody.1 = .ok none → r.readBody.2.inner.awaiting.Lacking r.readBody.2.body) := by
  unfold Reader.readBody
  split
  · next hempty =>
    have hsize : r.body.size = 0 := by simpa [Buffer.isEmpty] using hempty
    exact ⟨h, fun _ => h.inner_hungry.lacking hsize⟩
  · obtain ⟨hhungry, hlacking⟩ := r.inner.rests_read r.body
    obtain ⟨stream, hreads⟩ := h.inner_reads
    exact ⟨⟨h.sound, h.modest, hhungry, Plain.Reader.modest_read h.inner_modest _,
      stream, hreads.read⟩, hlacking⟩

theorem Reader.Fit.unwrap (h : r.Fit limit) (hb : b.Sound) :
    match r.unwrap b with
    | .pending => True
    | .fault _ r' b' | .next r' b' => r'.Fit limit ∧ b'.Sound := by
  obtain ⟨stream, hreads⟩ := h.inner_reads
  have hfit : ∀ {r' : Reader} {b' : Buffer}, r'.awaiting.Modest →
      (r'.awaiting.Sound ∧ r'.inner = r.inner ∧ r'.body.Sound ∧ b'.Sound ∧
        ∃ data, r'.body.toList = r.body.toList ++ data) → r'.Fit limit ∧ b'.Sound := by
    rintro r' b' hmodest ⟨hsound, hinner, hbody, hb', data, hdata⟩
    refine ⟨⟨hsound, hmodest, ?_, ?_, stream ++ data, ?_⟩, hb'⟩
    · rw [hinner]
      exact h.inner_hungry
    · rw [hinner]
      exact h.inner_modest
    · rw [hinner]
      exact hreads.more hbody hdata
  have hspares := Reader.unwrap_spares h.sound hreads.sound hb
  have hmodest := Reader.modest_unwrap h.modest b
  generalize r.unwrap b = unwrapped at hspares hmodest
  cases unwrapped with
  | pending => trivial
  | fault cause r' b' => exact hfit hmodest hspares
  | next r' b' => exact hfit hmodest hspares

/-- **A pass keeps the reader fit**, and leaves less to do if the loop goes round again. -/
theorem Reader.Fit.pass (h : r.Fit limit) (hb : b.Sound) :
    match r.pass b with
    | .returns result r' b' => r'.Fit limit ∧ b'.Sound ∧ (result = .ok none → r'.Stalled b')
    | .again r' b' => r'.Fit limit ∧ b'.Sound ∧ r'.effort b' < r.effort b := by
  obtain ⟨hfit, hlacking⟩ := h.readBody
  have haw := r.awaiting_readBody
  unfold Reader.pass
  generalize r.readBody = read at hfit hlacking haw
  obtain ⟨result, r₁⟩ := read
  cases result with
  | error cause => exact ⟨hfit, hb, nofun⟩
  | ok found =>
      cases found with
      | some f => exact ⟨hfit, hb, nofun⟩
      | none =>
          obtain ⟨stream, hreads⟩ := hfit.inner_reads
          have heffort : r₁.effort b = r.effort b := by
            have haw' : r₁.awaiting = r.awaiting := haw
            simp only [Reader.effort, haw']
          have hunwrap := hfit.unwrap hb
          have hfollows := Reader.unwrap_follows hfit.sound hreads.sound hb
          dsimp only
          generalize hunwrapped : r₁.unwrap b = unwrapped at hunwrap hfollows
          cases unwrapped with
          | pending => exact ⟨hfit, hb, fun _ => ⟨hlacking rfl, hunwrapped⟩⟩
          | fault cause r' b' => exact ⟨hunwrap.1, hunwrap.2, nofun⟩
          | next r' b' =>
              cases hfollows with
              | next leads inner_eq body_eq sound effort_lt size_le =>
                  exact ⟨hunwrap.1, hunwrap.2, heffort ▸ effort_lt⟩

/-- **The loop of the WebSocket reader ends**, and the passes that the reader is given are
enough. -/
theorem Reader.Fit.exists_ends_readWithin (h : r.Fit limit) (hb : b.Sound) {n : Nat}
    (hn : r.effort b < n) :
    ∃ k ≤ r.effort b + 1, Ends Reader.pass k r b (r.readWithin n b) := by
  induction n generalizing r b with
  | zero => omega
  | succ n ih =>
      have hpass := h.pass hb
      rw [Reader.readWithin_succ]
      generalize hp : r.pass b = pass at hpass ⊢
      cases pass with
      | returns result r' b' => exact ⟨1, by omega, .last hp⟩
      | again r' b' =>
          obtain ⟨hfit, hb', hless⟩ := hpass
          obtain ⟨k, hk, hends⟩ := ih hfit hb' (by omega)
          exact ⟨k + 1, by omega, .more hp hends⟩

theorem Reader.Fit.exists_ends_read (h : r.Fit limit) (hb : b.Sound) :
    ∃ k ≤ r.effort b + 1, Ends Reader.pass k r b (r.read b) :=
  h.exists_ends_readWithin hb (Nat.lt_succ_self _)

/-- **A call keeps the reader fit**, whatever it comes to. -/
theorem Reader.Fit.read (h : r.Fit limit) (hb : b.Sound) :
    (r.read b).2.1.Fit limit ∧ (r.read b).2.2.Sound ∧
      ((r.read b).1 = .ok none → (r.read b).2.1.Stalled (r.read b).2.2) := by
  obtain ⟨n, -, hends⟩ := h.exists_ends_read hb
  refine hends.keeps (P := fun r b => r.Fit limit ∧ b.Sound)
    (Q := fun result r b => r.Fit limit ∧ b.Sound ∧ (result = .ok none → r.Stalled b)) ⟨h, hb⟩ ?_ ?_
  · rintro r b r' b' ⟨hfit, hsound⟩ hpass
    have hkept := hfit.pass hsound
    rw [hpass] at hkept
    exact ⟨hkept.1, hkept.2.1⟩
  · rintro r b result r' b' ⟨hfit, hsound⟩ hpass
    have hkept := hfit.pass hsound
    rwa [hpass] at hkept

/-- A reader that has no part that is whole finds no frame, and stays as it is. -/
theorem Reader.read_of_stalled (h : r.Stalled b) : r.read b = (.ok none, r, b) := by
  have hread : r.readBody = (.ok none, r) := by
    unfold Reader.readBody
    split
    · rfl
    · rw [Plain.Reader.read_of_lacking h.1]
  simp only [Reader.read, Reader.readWithin, hread, h.2]

/-- Less than eight bytes are held back of a WebSocket frame. -/
theorem Reader.Fit.size_of_stalled (h : r.Fit limit) (hb : b.Sound) (hstalled : r.Stalled b) :
    b.size ≤ 7 ∧ r.body.size < Frame.maxIdentifierSize := by
  obtain ⟨stream, hreads⟩ := h.inner_reads
  refine ⟨?_, hstalled.1.size_lt h.inner_modest⟩
  have hfollows := Reader.unwrap_follows h.sound hreads.sound hb
  rw [hstalled.2] at hfollows
  cases hfollows with
  | pending look =>
      have hless := length_of_pending h.modest look
      rw [hb.size_eq]
      omega

end Keeps

end WebSocket

end Courier
