import Courier.Proofs.Bytes
import Courier.Proofs.Wire.Fragmentation

/-!
Courier.Proofs.Wire.Envelope — the WebSocket reader is the plain reader on what is inside.

An `Envelope` is a WebSocket frame as a peer may send it: any kind, any flags, masked or not, its
length in any of the three forms that has room for it. A row of envelopes is unwrapped to the
payloads of those that carry data (`Envelope.leads_flatMap`), so the frames and the fault are those
of the plain reader on these payloads put together.

Control frames are held to the shortest form. One whose length stands behind the header is refused,
however short it is.
-/

namespace Courier.WebSocket

/-! ## 1. Envelopes -/

/-- Where the length of a payload stands: in the header's second byte, or behind the header in two
bytes, or in eight. -/
inductive LengthForm where
  | inline
  | short
  | long
  deriving DecidableEq, Repr

namespace LengthForm

/-- How many bytes behind the header the length takes. -/
def width : LengthForm → Nat
  | .inline => 0
  | .short => 2
  | .long => 8

/-- The least length that there is no room for. -/
def bound : LengthForm → Nat
  | .inline => 126
  | .short => 256 ^ 2
  | .long => 256 ^ 8

/-- What stands for the length in the header's second byte. -/
def mark (length : Nat) : LengthForm → Nat
  | .inline => length
  | .short => 126
  | .long => 127

/-- What is awaited after the header. -/
def awaiting (opcode : Opcode) (masked : Bool) (length : Nat) : LengthForm → Awaiting
  | .inline => afterLength opcode masked length
  | .short => .length opcode masked 2
  | .long => .length opcode masked 8

variable {form : LengthForm} {length : Nat}

theorem mark_lt (h : length < form.bound) : form.mark length < 128 := by
  cases form with
  | inline => exact Nat.lt_trans h (by decide)
  | short => simp [mark]
  | long => simp [mark]

/-- What the header's second byte says is above the greatest length exactly if it is no length. -/
theorem maxInlineLength_lt_mark_iff (h : length < form.bound) :
    maxInlineLength < form.mark length ↔ form ≠ .inline := by
  cases form with
  | inline =>
      have hlength : length < 126 := h
      simp only [mark, maxInlineLength]
      constructor
      · intro hlong
        omega
      · intro hform
        exact absurd rfl hform
  | short => simp [mark, maxInlineLength]
  | long => simp [mark, maxInlineLength]

/-- The second byte tells the three forms apart. -/
theorem awaiting_eq (opcode : Opcode) (masked : Bool) (h : length < form.bound) :
    (if form.mark length = 126 then Except.ok (ε := Violation) (.length opcode masked 2)
      else if form.mark length = 127 then .ok (.length opcode masked 8)
      else .ok (afterLength opcode masked length)) =
    .ok (form.awaiting opcode masked length) := by
  cases form with
  | inline =>
      have hlength : length < 126 := h
      have h126 : LengthForm.inline.mark length ≠ 126 := Nat.ne_of_lt hlength
      have h127 : LengthForm.inline.mark length ≠ 127 := Nat.ne_of_lt (Nat.lt_succ_of_lt hlength)
      rw [if_neg h126, if_neg h127]
      rfl
  | short => rfl
  | long => rfl

end LengthForm

/-- A WebSocket frame as a peer may send it. -/
structure Envelope where
  opcode : Opcode
  /-- the final bit and the reserved bits -/
  flags : Fin 16
  form : LengthForm
  key : Option { k : Bytes // k.length = 4 }
  /-- the payload before it is masked -/
  payload : Bytes
  fits : payload.length < form.bound

namespace Envelope

/-- The mask at the start of the payload. -/
def mask (e : Envelope) : Option Mask :=
  e.key.map fun k => { key := k.1 }

/-- The first two bytes. -/
def header (e : Envelope) : Bytes :=
  [UInt8.ofNat (16 * e.flags + e.opcode.toNat),
    UInt8.ofNat ((if e.key.isSome then 128 else 0) + e.form.mark e.payload.length)]

/-- The bytes of the masking key. -/
def keyBytes (e : Envelope) : Bytes :=
  match e.key with
  | none => []
  | some k => k.1

/-- The bytes of the frame. -/
def encode (e : Envelope) : Bytes :=
  e.header ++ (Bytes.ofNat e.form.width e.payload.length ++ (e.keyBytes ++ unmask e.mask e.payload))

/-- The bytes for us in the frame. -/
def data (e : Envelope) : Bytes :=
  if e.opcode.carriesData then e.payload else []

/-- The length is where the kind of frame allows it to be. -/
def Allowed (e : Envelope) : Prop :=
  e.opcode.isControl → e.form = .inline

end Envelope

/-! ## 2. Masks -/

/-- To mask is to unmask. -/
theorem Mask.apply_apply (m : Mask) (bs : Bytes) : m.apply (m.apply bs) = bs := by
  refine List.ext_getElem (by simp [Mask.apply]) fun i _ _ => ?_
  simp only [Mask.apply, List.getElem_mapIdx, UInt8.xor_assoc, UInt8.xor_self, UInt8.xor_zero]

theorem unmask_unmask (mask : Option Mask) (bs : Bytes) : unmask mask (unmask mask bs) = bs := by
  cases mask with
  | none => rfl
  | some m => exact m.apply_apply bs

/-- Of the masked payload the reader makes the payload, if it carries data. -/
theorem Envelope.carried_eq_data (e : Envelope) :
    carried e.opcode e.mask (unmask e.mask e.payload) = e.data := by
  unfold carried Envelope.data
  rw [unmask_unmask]

/-! ## 3. Headers -/

theorem Opcode.toNat_lt (o : Opcode) : o.toNat < 16 := by
  cases o <;> decide

namespace Envelope

variable {e : Envelope}

theorem toNat_header_fst (e : Envelope) :
    Bytes.toNat (e.header.take 1) % 16 = e.opcode.toNat := by
  have hopcode := e.opcode.toNat_lt
  have hflags := e.flags.isLt
  have hbyte : (UInt8.ofNat (16 * e.flags + e.opcode.toNat)).toNat =
      (16 * e.flags + e.opcode.toNat) % 256 := UInt8.toNat_ofNat'
  show (0 * 256 + (UInt8.ofNat (16 * e.flags + e.opcode.toNat)).toNat) % 16 = e.opcode.toNat
  rw [hbyte]
  omega

theorem toNat_header_snd (e : Envelope) :
    Bytes.toNat (e.header.drop 1) =
      (if e.key.isSome then 128 else 0) + e.form.mark e.payload.length := by
  have hmark := LengthForm.mark_lt e.fits
  have hbyte : (UInt8.ofNat ((if e.key.isSome then 128 else 0) +
      e.form.mark e.payload.length)).toNat =
        ((if e.key.isSome then 128 else 0) + e.form.mark e.payload.length) % 256 :=
    UInt8.toNat_ofNat'
  show 0 * 256 + (UInt8.ofNat ((if e.key.isSome then 128 else 0) +
    e.form.mark e.payload.length)).toNat = _
  rw [hbyte]
  split <;> omega

/-- What the reader finds in the header. -/
theorem afterHeader_header (e : Envelope) :
    afterHeader e.header =
      if e.opcode.isControl ∧ e.form ≠ .inline then .error .longControlFrame
      else .ok (e.form.awaiting e.opcode e.key.isSome e.payload.length) := by
  have hmark := LengthForm.mark_lt e.fits
  have hmasked : decide (128 ≤ Bytes.toNat (e.header.drop 1)) = e.key.isSome := by
    rw [toNat_header_snd]
    cases e.key.isSome
    · simp only [Bool.false_eq_true, if_false]
      exact decide_eq_false (by omega)
    · simp
  have hlength : Bytes.toNat (e.header.drop 1) % 128 = e.form.mark e.payload.length := by
    rw [toNat_header_snd]
    split <;> omega
  have hawaiting := LengthForm.awaiting_eq e.opcode e.key.isSome e.fits
  have hlong := LengthForm.maxInlineLength_lt_mark_iff e.fits
  unfold afterHeader
  generalize hform : e.form = form at *
  simp only [toNat_header_fst, Opcode.ofNat?_toNat, hmasked, hlength, Bool.and_eq_true,
    decide_eq_true_eq, hlong]
  split
  · rfl
  · cases form with
    | inline => exact hawaiting
    | short => rfl
    | long => rfl

theorem look_header (e : Envelope) (bs : Bytes) :
    unwrapping.look .header (e.header ++ bs) = takeHeader e.header bs :=
  rfl

theorem look_header_of_allowed (h : e.Allowed) (bs : Bytes) :
    unwrapping.look .header (e.header ++ bs) =
      .next (e.form.awaiting e.opcode e.key.isSome e.payload.length) [] bs := by
  have hneg : ¬ (e.opcode.isControl ∧ e.form ≠ .inline) := fun ⟨hcontrol, hform⟩ =>
    hform (h hcontrol)
  rw [look_header, takeHeader, afterHeader_header, if_neg hneg]

/-- A control frame whose length stands behind the header is refused. -/
theorem look_of_not_allowed (h : ¬ e.Allowed) (more : Bytes) :
    unwrapping.look .header (e.encode ++ more) = .fault (.violation .longControlFrame) := by
  have hpos : e.opcode.isControl ∧ e.form ≠ .inline := by
    unfold Allowed at h
    push Not at h
    exact h
  rw [encode, List.append_assoc, look_header, takeHeader, afterHeader_header, if_pos hpos]

/-! ## 4. Runs over envelopes -/

/-- The length, if there is one behind the header. -/
theorem leads_length (e : Envelope) (bs : Bytes) :
    unwrapping.Leads (e.form.awaiting e.opcode e.key.isSome e.payload.length)
      (Bytes.ofNat e.form.width e.payload.length ++ bs) []
      (afterLength e.opcode e.key.isSome e.payload.length) bs := by
  have hfits := e.fits
  cases hform : e.form with
  | inline => exact .refl _ _
  | short =>
      rw [hform] at hfits
      refine .single ?_
      show takeLength _ _ (Bytes.ofNat 2 e.payload.length) bs = _
      rw [takeLength, Bytes.toNat_ofNat_of_lt hfits]
  | long =>
      rw [hform] at hfits
      refine .single ?_
      show takeLength _ _ (Bytes.ofNat 8 e.payload.length) bs = _
      rw [takeLength, Bytes.toNat_ofNat_of_lt hfits]

/-- The masking key, if there is one. -/
theorem leads_key (e : Envelope) (bs : Bytes) :
    unwrapping.Leads (afterLength e.opcode e.key.isSome e.payload.length) (e.keyBytes ++ bs) []
      (.payload e.opcode e.mask e.payload.length) bs := by
  unfold keyBytes mask
  cases e.key with
  | none => exact .refl _ _
  | some k =>
      obtain ⟨key, hkey⟩ := k
      refine .single ?_
      show Part.field 4 (key ++ bs) (takeKey e.opcode e.payload.length) = _
      rw [Part.field_of_le (by simp [hkey]), List.take_left' hkey, List.drop_left' hkey]
      rfl

/-- All of an allowed envelope is taken in, up to the end of its payload. -/
theorem leads_encode (h : e.Allowed) (more : Bytes) :
    ∃ mask, unwrapping.Leads .header (e.encode ++ more) e.data (.payload e.opcode mask 0) more := by
  have hlen : (unmask e.mask e.payload).length = e.payload.length := length_unmask _ _
  obtain ⟨mask, hpayload, -⟩ := exists_leads_payload e.opcode e.mask
    (show e.payload.length ≤ (unmask e.mask e.payload ++ more).length by simp [hlen])
    (Nat.le_refl _)
  rw [List.take_left' hlen, List.drop_left' hlen, Nat.sub_self, carried_eq_data] at hpayload
  have hheader := Intake.Leads.single (look_header_of_allowed h
    (Bytes.ofNat e.form.width e.payload.length ++
      (e.keyBytes ++ (unmask e.mask e.payload ++ more))))
  have hleads := hheader.trans ((e.leads_length _).trans ((e.leads_key _).trans hpayload))
  refine ⟨mask, ?_⟩
  simpa [encode] using hleads

theorem leads_of_ne_close (h : e.Allowed) (hclose : e.opcode ≠ .close) (more : Bytes) :
    unwrapping.Leads .header (e.encode ++ more) e.data .header more := by
  obtain ⟨mask, hleads⟩ := leads_encode h more
  have hend : unwrapping.look (.payload e.opcode mask 0) more = .next .header [] more :=
    if_neg hclose
  simpa using hleads.trans (.single hend)

/-- A row of envelopes gives what is for us in them. -/
theorem leads_flatMap {es : List Envelope} (h : ∀ e ∈ es, e.Allowed ∧ e.opcode ≠ .close)
    (more : Bytes) :
    unwrapping.Leads .header (es.flatMap encode ++ more) (es.flatMap data) .header more := by
  induction es with
  | nil => exact .refl _ _
  | cons e es ih =>
      obtain ⟨hallowed, hclose⟩ := h e (by simp)
      have hrest := ih fun e' he' => h e' (by simp [he'])
      have hfirst := leads_of_ne_close hallowed hclose (es.flatMap encode ++ more)
      simpa using hfirst.trans hrest

end Envelope

/-! ## 5. The two readers -/

/-- Unwrapping an untouched stream: the plain machine takes in what is unwrapped of the front, and
the two of them go on from there. -/
theorem run_of_leads_header (limit : Nat) {bs data rest : Bytes}
    (h : unwrapping.Leads .header bs data .header rest) :
    (intake limit).run (.header, [], .identifierLength) bs =
      (intake limit).outwards .header rest ((Plain.intake limit).run .identifierLength data) := by
  rw [intake_run_of_leads h, List.nil_append, intake_run]

/-- The stream ends behind what is unwrapped: the two machines come to what the plain one does. -/
theorem outwards_nil (limit : Nat) (held : Bytes) (t : Plain.Awaiting) :
    let taken := (Plain.intake limit).run t held
    let both := (intake limit).outwards .header [] taken
    both.gives = taken.gives ∧ both.fault? = taken.fault? := by
  cases hrun : (Plain.intake limit).run t held with
  | mk gives ending =>
      cases ending with
      | error cause => exact ⟨rfl, rfl⟩
      | ok place =>
          obtain ⟨t', left⟩ := place
          have hpend := Intake.look_of_run_ok (congrArg Taken.ending hrun)
          have hboth := intake_run_of_pending hpend (show look .header [] = .pending from rfl)
          simp [Intake.outwards, hboth, Taken.after, Taken.fault?]

/-- The outer machine comes to a fault behind what is unwrapped: it comes up after the frames in
what was unwrapped, unless there is a fault among them. -/
theorem outwards_of_fault (limit : Nat) {bs rest : Bytes} {aw : Awaiting} {cause : Fault}
    (hleads : unwrapping.Leads .header bs [] aw rest)
    (hlook : unwrapping.look aw rest = .fault cause)
    (held : Bytes) (t : Plain.Awaiting) :
    let taken := (Plain.intake limit).run t held
    let both := (intake limit).outwards .header bs taken
    both.gives = taken.gives ∧ both.fault? = taken.fault?.or (some cause) := by
  cases hrun : (Plain.intake limit).run t held with
  | mk gives ending =>
      cases ending with
      | error cause' => exact ⟨rfl, rfl⟩
      | ok place =>
          obtain ⟨t', left⟩ := place
          have hpend := Intake.look_of_run_ok (congrArg Taken.ending hrun)
          have hboth : (intake limit).run (.header, left, t') bs = ⟨[], .error cause⟩ := by
            rw [intake_run_of_leads hleads, List.append_nil]
            exact intake_run_of_fault hpend hlook
          simp [Intake.outwards, hboth, Taken.after, Taken.fault?]

end Courier.WebSocket

namespace Courier

open WebSocket

/-- A new reader that is fed a stream in pieces reads what a run over the stream gives. -/
theorem WireFormat.readAll_eq (format : WireFormat) (limit : Nat) (pieces : List Bytes) :
    let x := (format.reader limit).readAll pieces {}
    let t := (format.decoder limit).intake.run (format.fresh limit) pieces.flatten
    x.frames = t.gives ∧ x.stopped = t.fault? := by
  have hmatches := Decoder.readAll_matches pieces (format.reader_at limit) Buffer.sound_empty
    (format.look_fresh_nil limit)
  exact ⟨hmatches.frames, hmatches.stopped⟩

/-- What the plain reader reads of bytes that are there at once. -/
theorem plain_readAll_singleton (limit : Nat) (data : Bytes) :
    let plain := (WireFormat.plain.reader limit).readAll [data] {}
    let t := (Plain.intake limit).run .identifierLength data
    plain.frames = t.gives ∧ plain.stopped = t.fault? := by
  have h := WireFormat.plain.readAll_eq limit [data]
  rwa [List.flatten_singleton] at h

section Unwrapped

variable (limit : Nat) {bs data rest : Bytes} {pieces : List Bytes}

/-- A new reader unwraps the front of a stream and goes on from there. -/
theorem webSocket_readAll_of_leads (hleads : unwrapping.Leads .header bs data .header rest)
    (hpieces : pieces.flatten = bs) :
    let x := (WireFormat.webSocket.reader limit).readAll pieces {}
    let t := (intake limit).outwards .header rest ((Plain.intake limit).run .identifierLength data)
    x.frames = t.gives ∧ x.stopped = t.fault? := by
  have hx := WireFormat.webSocket.readAll_eq limit pieces
  rw [hpieces] at hx
  rw [← run_of_leads_header limit hleads]
  exact hx

/-- Of a stream that is unwrapped to its end the plain reader reads what is inside. -/
theorem webSocket_readAll_of_end (hleads : unwrapping.Leads .header bs data .header [])
    (hpieces : pieces.flatten = bs) :
    let plain := (WireFormat.plain.reader limit).readAll [data] {}
    let x := (WireFormat.webSocket.reader limit).readAll pieces {}
    x.frames = plain.frames ∧ x.stopped = plain.stopped := by
  obtain ⟨hplainFrames, hplainStopped⟩ := plain_readAll_singleton limit data
  obtain ⟨hframes, hstopped⟩ := webSocket_readAll_of_leads limit hleads hpieces
  obtain ⟨hgives, hfault⟩ := outwards_nil limit data .identifierLength
  exact ⟨(hframes.trans hgives).trans hplainFrames.symm,
    (hstopped.trans hfault).trans hplainStopped.symm⟩

/-- Where the reader comes to a fault behind what is unwrapped, it stops there, unless the plain
reader has stopped before. -/
theorem webSocket_readAll_of_fault {aw : Awaiting} {behind : Bytes} {cause : Fault}
    (hleads : unwrapping.Leads .header bs data .header rest)
    (hbehind : unwrapping.Leads .header rest [] aw behind)
    (hlook : unwrapping.look aw behind = .fault cause) (hpieces : pieces.flatten = bs) :
    let plain := (WireFormat.plain.reader limit).readAll [data] {}
    let x := (WireFormat.webSocket.reader limit).readAll pieces {}
    x.frames = plain.frames ∧ x.stopped = plain.stopped.or (some cause) := by
  obtain ⟨hplainFrames, hplainStopped⟩ := plain_readAll_singleton limit data
  obtain ⟨hframes, hstopped⟩ := webSocket_readAll_of_leads limit hleads hpieces
  obtain ⟨hgives, hfault⟩ := outwards_of_fault limit hbehind hlook data .identifierLength
  dsimp only
  rw [hplainFrames, hplainStopped]
  exact ⟨hframes.trans hgives, hstopped.trans hfault⟩

/-- A close frame ends the stream. -/
theorem webSocket_readAll_of_close {e : Envelope} {tail : Bytes} (hclose : e.opcode = .close)
    (hallowed : e.Allowed) (hleads : unwrapping.Leads .header bs data .header (e.encode ++ tail))
    (hpieces : pieces.flatten = bs) :
    let plain := (WireFormat.plain.reader limit).readAll [data] {}
    let x := (WireFormat.webSocket.reader limit).readAll pieces {}
    x.frames = plain.frames ∧ x.stopped = plain.stopped.or (some .peerClosed) := by
  obtain ⟨mask, hbehind⟩ := Envelope.leads_encode hallowed tail
  have hdata : e.data = [] := by rw [Envelope.data, hclose]; rfl
  rw [hdata, hclose] at hbehind
  exact webSocket_readAll_of_fault limit hleads hbehind rfl hpieces

end Unwrapped

/-- **The WebSocket reader is the plain reader on what is inside.** However the stream of a row of
envelopes is cut, the frames and the fault are those of the plain reader on the payloads of those
that carry data. A close frame behind them ends it after just these frames, and so does a control
frame that is not allowed; nothing behind such a frame has a part in it. -/
theorem webSocket_readAll_envelopes (limit : Nat) (es : List Envelope)
    (hes : ∀ e ∈ es, e.Allowed ∧ e.opcode ≠ .close) :
    let plain := (WireFormat.plain.reader limit).readAll [es.flatMap Envelope.data] {}
    (∀ pieces : List Bytes, pieces.flatten = es.flatMap Envelope.encode →
      let x := (WireFormat.webSocket.reader limit).readAll pieces {}
      x.frames = plain.frames ∧ x.stopped = plain.stopped) ∧
    (∀ (e : Envelope) (tail : Bytes) (pieces : List Bytes), e.opcode = .close → e.Allowed →
      pieces.flatten = es.flatMap Envelope.encode ++ (e.encode ++ tail) →
      let x := (WireFormat.webSocket.reader limit).readAll pieces {}
      x.frames = plain.frames ∧ x.stopped = plain.stopped.or (some .peerClosed)) ∧
    (∀ (e : Envelope) (tail : Bytes) (pieces : List Bytes), ¬ e.Allowed →
      pieces.flatten = es.flatMap Envelope.encode ++ (e.encode ++ tail) →
      let x := (WireFormat.webSocket.reader limit).readAll pieces {}
      x.frames = plain.frames ∧
        x.stopped = plain.stopped.or (some (.violation .longControlFrame))) := by
  refine ⟨fun pieces hpieces => ?_, fun e tail pieces hclose hallowed hpieces => ?_,
    fun e tail pieces hnot hpieces => ?_⟩
  · have hall : pieces.flatten = es.flatMap Envelope.encode ++ [] := by
      rw [hpieces, List.append_nil]
    exact webSocket_readAll_of_end limit (Envelope.leads_flatMap hes []) hall
  · exact webSocket_readAll_of_close limit hclose hallowed (Envelope.leads_flatMap hes _) hpieces
  · exact webSocket_readAll_of_fault limit (Envelope.leads_flatMap hes _) (.refl _ _)
      (Envelope.look_of_not_allowed hnot tail) hpieces

/-- A plain frame in two envelopes, the first one masked, with a masked ping between them. -/
theorem webSocket_readAll_split_envelopes :
    let es : List Envelope := [
      { opcode := .binary, flags := 0, form := .short, key := some ⟨[1, 2, 3, 4], rfl⟩,
        payload := [0, 0, 0, 1, 97, 0], fits := by decide },
      { opcode := .ping, flags := 8, form := .inline, key := some ⟨[9, 9, 9, 9], rfl⟩,
        payload := [1, 2], fits := by decide },
      { opcode := .continuation, flags := 8, form := .long, key := none,
        payload := [0, 0, 1, 7], fits := by decide }]
    (∀ e ∈ es, e.Allowed ∧ e.opcode ≠ .close) ∧
    let plain := (WireFormat.plain.reader 1).readAll [es.flatMap Envelope.data] {}
    ∀ pieces : List Bytes, pieces.flatten = es.flatMap Envelope.encode →
      let x := (WireFormat.webSocket.reader 1).readAll pieces {}
      x.frames = plain.frames ∧ x.stopped = plain.stopped := by
  intro es
  have hes : ∀ e ∈ es, e.Allowed ∧ e.opcode ≠ .close := by
    unfold Envelope.Allowed
    decide
  exact ⟨hes, (webSocket_readAll_envelopes 1 es hes).1⟩

/-- A short ping whose length stands behind the header, and a binary frame behind it: to hold
control frames to their size is not enough. -/
theorem webSocket_readAll_ne_of_ping_in_short_form :
    ¬ ∀ (limit : Nat) (es : List Envelope), (∀ e ∈ es, e.opcode ≠ .close) →
      (∀ e ∈ es, e.opcode.isControl → e.payload.length ≤ maxInlineLength) →
      ∀ pieces : List Bytes, pieces.flatten = es.flatMap Envelope.encode →
        let plain := (WireFormat.plain.reader limit).readAll [es.flatMap Envelope.data] {}
        let x := (WireFormat.webSocket.reader limit).readAll pieces {}
        x.frames = plain.frames ∧ x.stopped = plain.stopped := by
  intro h
  have hfalse := h 1 [
    { opcode := .ping, flags := 8, form := .short, key := none,
      payload := [113, 113, 113, 113, 113], fits := by decide },
    { opcode := .binary, flags := 8, form := .inline, key := none,
      payload := [0, 0, 0, 5, 97, 102, 116, 101, 114, 0, 0, 0, 1, 120], fits := by decide }]
    (by decide) (by decide)
    [[137, 126, 0, 5, 113, 113, 113, 113, 113, 130, 14, 0, 0, 0, 5, 97, 102, 116, 101, 114, 0, 0, 0,
      1, 120]] (by decide)
  revert hfalse
  decide

end Courier
