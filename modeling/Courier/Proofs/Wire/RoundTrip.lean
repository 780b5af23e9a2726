import Courier.Config.Options
import Courier.Proofs.Wire.Envelope

/-!
Courier.Proofs.Wire.RoundTrip — a reader takes in what a writer wrote.

The bytes of a frame that may be sent are taken in as a whole and give the frame as its peer hears
it, whatever comes behind them (`WireFormat.run_encode`). A frame in the WebSocket form is an
envelope around one in the plain form. So a row of frames is read back as it was written, however
the bytes are cut on their way (`WireFormat.readAll_encoded`).
-/

namespace Courier

/-- A frame as the peer hears it. A missing identifier reads as the empty one. -/
def Frame.heard (f : Frame) : Frame :=
  .received (f.identifier.getD "") f.payload

/-- The lengths of a frame that may be sent are within the limits. -/
theorem Frame.lengths_of_validate {limit : Nat} {f : Frame} (h : f.validate limit = .ok ()) :
    f.identifierBytes.length ≤ maxIdentifierSize ∧ f.payload.length ≤ limit := by
  unfold Frame.validate at h
  split at h
  · cases h
  · next hid =>
    split at h
    · cases h
    · next hpayload => exact ⟨Nat.not_lt.mp hid, Nat.not_lt.mp hpayload⟩

theorem Frame.validate_of_lengths {limit : Nat} {f : Frame}
    (hid : f.identifierBytes.length ≤ maxIdentifierSize) (hpayload : f.payload.length ≤ limit) :
    f.validate limit = .ok () := by
  unfold Frame.validate
  rw [if_neg (Nat.not_lt.mpr hid), if_neg (Nat.not_lt.mpr hpayload)]

theorem Frame.toString?_identifierBytes (f : Frame) :
    Bytes.toString? f.identifierBytes = some (f.identifier.getD "") := by
  unfold Frame.identifierBytes
  cases f.identifier with
  | none => exact Bytes.toString?_ofString ""
  | some id => exact Bytes.toString?_ofString id

/-- There is room for the lengths of a frame in the fields that they are written in. -/
structure Frame.Narrow (f : Frame) : Prop where
  identifier : f.identifierBytes.length < 256 ^ 4
  payload : f.payload.length < 256 ^ 4

theorem Frame.narrow_of_validate {limit : Nat} {f : Frame}
    (hlimit : limit ≤ ConnectionOptions.lengthLimit) (h : f.validate limit = .ok ()) :
    f.Narrow := by
  obtain ⟨hid, hpayload⟩ := Frame.lengths_of_validate h
  exact ⟨Nat.lt_of_le_of_lt hid (by decide),
    Nat.lt_of_le_of_lt (Nat.le_trans hpayload hlimit) (by decide)⟩

/-! ## 1. The plain form -/

theorem Bytes.narrow_of_lt {width n : Nat} (h : n < 256 ^ width) :
    Bytes.narrow width n = .ok (Bytes.ofNat width n) :=
  if_pos h

theorem Bytes.lt_of_narrow {width n : Nat} {bs : Bytes} (h : Bytes.narrow width n = .ok bs) :
    n < 256 ^ width := by
  unfold Bytes.narrow at h
  split at h
  · assumption
  · cases h

namespace Plain

/-- The bytes of a frame. -/
def bytes (f : Frame) : Bytes :=
  Bytes.ofNat 4 f.identifierBytes.length ++ (f.identifierBytes ++
    (Bytes.ofNat 4 f.payload.length ++ f.payload))

theorem length_bytes (f : Frame) : (bytes f).length = size f := by
  simp [bytes, size]
  omega

section Write

variable {limit : Nat} {f : Frame}

theorem parts_of_narrow (h : f.Narrow) :
    parts f = .ok [Bytes.ofNat 4 f.identifierBytes.length, f.identifierBytes,
      Bytes.ofNat 4 f.payload.length, f.payload] := by
  rw [parts, Bytes.narrow_of_lt h.identifier, Bytes.narrow_of_lt h.payload]
  rfl

theorem narrow_of_parts {ps : List Bytes} (h : parts f = .ok ps) : f.Narrow := by
  unfold parts at h
  cases hid : Bytes.narrow 4 f.identifierBytes.length with
  | error m =>
      rw [hid] at h
      cases h
  | ok identifierLength =>
      cases hpayload : Bytes.narrow 4 f.payload.length with
      | error m =>
          rw [hid, hpayload] at h
          cases h
      | ok payloadLength => exact ⟨Bytes.lt_of_narrow hid, Bytes.lt_of_narrow hpayload⟩

theorem flatten_parts {ps : List Bytes} (h : parts f = .ok ps) : ps.flatten = bytes f := by
  have hparts := parts_of_narrow (narrow_of_parts h)
  cases h.symm.trans hparts
  simp [bytes]

/-- The parts of a frame fill memory of the size of the frame. -/
theorem assemble_parts {ps : List Bytes} (h : parts f = .ok ps) :
    assemble (size f) ps = .ok (bytes f) := by
  rw [assemble, flatten_parts h, length_bytes]
  simp

/-- What is handed on for a frame is the bytes of the frame, whether they are put together or
not. -/
theorem write_of_narrow (h : f.Narrow) :
    ∃ pieces, write f = .ok pieces ∧ pieces.flatten = bytes f := by
  have hparts := parts_of_narrow h
  rcases Nat.lt_or_ge scratchSize (size f) with hsize | hsize
  · refine ⟨_, ?_, flatten_parts hparts⟩
    rw [write, hparts]
    exact if_neg (Nat.not_le.mpr hsize)
  · refine ⟨[bytes f], ?_, List.flatten_singleton⟩
    rw [write, hparts]
    refine (if_pos hsize).trans ?_
    rw [assemble_parts hparts]
    rfl

theorem encode_of_narrow (h : f.Narrow) : WireFormat.plain.encode f = .ok (bytes f) := by
  obtain ⟨pieces, hpieces, hflatten⟩ := write_of_narrow h
  rw [← hflatten]
  exact congrArg (·.map List.flatten) hpieces

/-- A frame can be written exactly if there is room for its lengths. -/
theorem encode_eq_ok_iff {bs : Bytes} :
    WireFormat.plain.encode f = .ok bs ↔ f.Narrow ∧ bytes f = bs := by
  constructor
  · intro h
    have hnarrow : f.Narrow := by
      cases hparts : parts f with
      | ok ps => exact narrow_of_parts hparts
      | error m =>
          have hwrite : write f = .error m := by rw [write, hparts]; rfl
          have hencode : WireFormat.plain.encode f = .error m :=
            congrArg (·.map List.flatten) hwrite
          cases h.symm.trans hencode
    rw [encode_of_narrow hnarrow] at h
    exact ⟨hnarrow, Except.ok.inj h⟩
  · rintro ⟨hnarrow, rfl⟩
    exact encode_of_narrow hnarrow

/-- The bytes of a frame are taken in field by field, and give the frame. -/
theorem run_bytes (hlimit : limit ≤ ConnectionOptions.lengthLimit) (h : f.validate limit = .ok ())
    (ys : Bytes) :
    (intake limit).run .identifierLength (bytes f ++ ys) =
      ((intake limit).run .identifierLength ys).after [f.heard] := by
  obtain ⟨hid, hpayload⟩ := Frame.lengths_of_validate h
  obtain ⟨hid', hpayload'⟩ := Frame.narrow_of_validate hlimit h
  have hfield : ∀ (n : Nat) (k : Bytes → Bytes → Part Awaiting Frame) (rest : Bytes),
      Part.field 4 (Bytes.ofNat 4 n ++ rest) k = k (Bytes.ofNat 4 n) rest := by
    intro n k rest
    rw [Part.field_of_le (by simp), List.take_left' (by simp), List.drop_left' (by simp)]
  have hidentifierLength : (intake limit).look .identifierLength (bytes f ++ ys) =
      .next (.identifier f.identifierBytes.length) []
        (f.identifierBytes ++ (Bytes.ofNat 4 f.payload.length ++ (f.payload ++ ys))) := by
    show Part.field 4 (bytes f ++ ys) takeIdentifierLength = _
    rw [bytes, List.append_assoc, hfield, takeIdentifierLength, Bytes.toNat_ofNat_of_lt hid',
      if_neg (Nat.not_lt.mpr hid)]
    simp
  have hidentifier : (intake limit).look (.identifier f.identifierBytes.length)
      (f.identifierBytes ++ (Bytes.ofNat 4 f.payload.length ++ (f.payload ++ ys))) =
        .next (.payloadLength (f.identifier.getD "")) []
          (Bytes.ofNat 4 f.payload.length ++ (f.payload ++ ys)) := by
    show Part.field _ _ takeIdentifier = _
    rw [Part.field_of_le (by simp), List.take_left' rfl, List.drop_left' rfl, takeIdentifier,
      Frame.toString?_identifierBytes]
  have hpayloadLength : (intake limit).look (.payloadLength (f.identifier.getD ""))
      (Bytes.ofNat 4 f.payload.length ++ (f.payload ++ ys)) =
        .next (.payload (f.identifier.getD "") f.payload.length []) [] (f.payload ++ ys) := by
    show Part.field 4 (Bytes.ofNat 4 f.payload.length ++ (f.payload ++ ys))
      (takePayloadLength limit (f.identifier.getD "")) = _
    rw [hfield, takePayloadLength, Bytes.toNat_ofNat_of_lt hpayload',
      if_neg (Nat.not_lt.mpr hpayload)]
  rw [Intake.run_of_next hidentifierLength, Intake.run_of_next hidentifier,
    Intake.run_of_next hpayloadLength, run_payload_of_le (by simp), List.take_left' rfl,
    List.drop_left' rfl]
  rfl

end Write

end Plain

/-! ## 2. The WebSocket form -/

namespace WebSocket

/-- The form in which a length is written. -/
def LengthForm.narrowest (length : Nat) : LengthForm :=
  if length ≤ maxInlineLength then .inline else if length < 65536 then .short else .long

theorem LengthForm.lt_bound_narrowest {length : Nat} (h : length < 256 ^ 8) :
    length < (narrowest length).bound := by
  unfold narrowest
  split
  · next hlength => exact Nat.lt_succ_of_le hlength
  · split
    · next hlength => exact hlength
    · exact h

/-- The envelope that is put around bytes: a whole binary message, not masked. -/
def Envelope.around (bs : Bytes) (h : bs.length < 256 ^ 8) : Envelope where
  opcode := .binary
  flags := 8
  form := .narrowest bs.length
  key := none
  payload := bs
  fits := LengthForm.lt_bound_narrowest h

/-- What is written ahead of a frame is the front of the envelope. -/
theorem header_flatten {bs : Bytes} (h : bs.length < 256 ^ 8) :
    ∃ head, header .binary bs.length = .ok head ∧
      head.flatten ++ bs = (Envelope.around bs h).encode := by
  have hbinary : Bytes.ofNat 1 (128 + Opcode.binary.toNat) = [130] := rfl
  have hencode : (Envelope.around bs h).encode =
      130 :: UInt8.ofNat (0 + (LengthForm.narrowest bs.length).mark bs.length) ::
        (Bytes.ofNat (LengthForm.narrowest bs.length).width bs.length ++ ([] ++ bs)) := rfl
  rw [hencode, header, hbinary, LengthForm.narrowest]
  rcases Nat.lt_or_ge maxInlineLength bs.length with hlong | hinline
  · rw [if_neg (Nat.not_le.mpr hlong), if_neg (Nat.not_le.mpr hlong)]
    rcases Nat.lt_or_ge bs.length 65536 with hshort | hlong'
    · rw [if_pos hshort, if_pos hshort, Bytes.narrow_of_lt hshort]
      exact ⟨_, rfl, by simp [LengthForm.mark, LengthForm.width]⟩
    · rw [if_neg (Nat.not_lt.mpr hlong'), if_neg (Nat.not_lt.mpr hlong'), Bytes.narrow_of_lt h]
      exact ⟨_, rfl, by simp [LengthForm.mark, LengthForm.width]⟩
  · have hbyte : bs.length < 256 ^ 1 := Nat.lt_of_le_of_lt hinline (by decide)
    rw [if_pos hinline, if_pos hinline, Bytes.narrow_of_lt hbyte]
    exact ⟨_, rfl, by simp [LengthForm.mark, LengthForm.width, Bytes.ofNat]⟩

section Write

variable {limit : Nat} {f : Frame}

theorem length_bytes_lt (hlimit : limit ≤ ConnectionOptions.lengthLimit)
    (h : f.validate limit = .ok ()) : (Plain.bytes f).length < 256 ^ 8 := by
  obtain ⟨hid, hpayload⟩ := Frame.lengths_of_validate h
  rw [Plain.length_bytes, Plain.size]
  have hlength : ConnectionOptions.lengthLimit = 4294967295 := rfl
  simp only [Frame.maxIdentifierSize] at hid
  omega

/-- What is handed on for a frame is the bytes of its plain form in an envelope. -/
theorem write_of_validate (hlimit : limit ≤ ConnectionOptions.lengthLimit)
    (h : f.validate limit = .ok ()) : ∃ pieces, write f = .ok pieces ∧
      pieces.flatten = (Envelope.around (Plain.bytes f) (length_bytes_lt hlimit h)).encode := by
  obtain ⟨pieces, hpieces, hflatten⟩ := Plain.write_of_narrow (Frame.narrow_of_validate hlimit h)
  obtain ⟨head, hhead, hencode⟩ := header_flatten (length_bytes_lt hlimit h)
  rw [Plain.length_bytes] at hhead
  refine ⟨head ++ pieces, ?_, ?_⟩
  · rw [write, hhead, hpieces]
    rfl
  · rw [List.flatten_append, hflatten, hencode]

/-- An envelope around the bytes of a frame is taken in as a whole, and gives the frame. -/
theorem run_around (hlimit : limit ≤ ConnectionOptions.lengthLimit)
    (h : f.validate limit = .ok ()) (ys : Bytes) :
    (intake limit).run (.header, [], .identifierLength)
        ((Envelope.around (Plain.bytes f) (length_bytes_lt hlimit h)).encode ++ ys) =
      ((intake limit).run (.header, [], .identifierLength) ys).after [f.heard] := by
  have hallowed : (Envelope.around (Plain.bytes f) (length_bytes_lt hlimit h)).Allowed :=
    fun hcontrol => by cases hcontrol
  have hleads := Envelope.leads_of_ne_close hallowed (by intro hclose; cases hclose) ys
  have hdata : (Envelope.around (Plain.bytes f) (length_bytes_lt hlimit h)).data = Plain.bytes f :=
    rfl
  have hplain := Plain.run_bytes hlimit h []
  have hrest : (Plain.intake limit).run .identifierLength [] = ⟨[], .ok (.identifierLength, [])⟩ :=
    Intake.run_of_pending rfl
  rw [List.append_nil, hrest] at hplain
  rw [run_of_leads_header limit hleads, hdata, hplain]
  rfl

end Write

end WebSocket

/-! ## 3. Both forms -/

/-- **What is written for a frame is read as that frame**, and what comes behind it is read as it
would be alone. -/
theorem WireFormat.run_encode (format : WireFormat) {limit : Nat} {f : Frame}
    (hlimit : limit ≤ ConnectionOptions.lengthLimit) (h : f.validate limit = .ok ()) :
    ∃ bs, format.encode f = .ok bs ∧ ∀ ys,
      (format.decoder limit).intake.run (format.fresh limit) (bs ++ ys) =
        ((format.decoder limit).intake.run (format.fresh limit) ys).after [f.heard] := by
  cases format with
  | plain =>
      exact ⟨_, Plain.encode_of_narrow (Frame.narrow_of_validate hlimit h),
        Plain.run_bytes hlimit h⟩
  | webSocket =>
      obtain ⟨pieces, hpieces, hflatten⟩ := WebSocket.write_of_validate hlimit h
      have hencode : WireFormat.webSocket.encode f = .ok pieces.flatten :=
        congrArg (·.map List.flatten) hpieces
      rw [hflatten] at hencode
      exact ⟨_, hencode, WebSocket.run_around hlimit h⟩

/-- What is written for a row of frames is taken in as that row. -/
theorem WireFormat.run_mapM_encode (format : WireFormat) {limit : Nat} {fs : List Frame}
    (hlimit : limit ≤ ConnectionOptions.lengthLimit) (hfs : ∀ f ∈ fs, f.validate limit = .ok ()) :
    ∃ bss, fs.mapM format.encode = .ok bss ∧ ∀ ys,
      (format.decoder limit).intake.run (format.fresh limit) (bss.flatten ++ ys) =
        ((format.decoder limit).intake.run (format.fresh limit) ys).after (fs.map Frame.heard) := by
  induction fs with
  | nil => exact ⟨[], rfl, fun ys => rfl⟩
  | cons f fs ih =>
      obtain ⟨bs, hencode, hrun⟩ := format.run_encode hlimit (hfs f (by simp))
      obtain ⟨bss, hencodes, hruns⟩ := ih fun g hg => hfs g (by simp [hg])
      refine ⟨bs :: bss, ?_, fun ys => ?_⟩
      · rw [List.mapM_cons, hencode, hencodes]
        rfl
      · rw [List.flatten_cons, List.append_assoc, hrun, hruns, Taken.after_after]
        rfl

/-! ## 4. However the bytes are cut -/

/-- A reader at the state of a new one is a new one. -/
theorem WireFormat.eq_reader_of_at (format : WireFormat) {limit : Nat} {r : FrameReader}
    (h : (format.decoder limit).At r (format.fresh limit)) : r = format.reader limit := by
  cases format with
  | plain =>
      obtain ⟨p, rfl, hp⟩ := h
      exact congrArg FrameReader.plain (hp.unique ⟨rfl, rfl, trivial⟩)
  | webSocket =>
      obtain ⟨w, rfl, hw⟩ := h
      obtain ⟨awaiting, body, inner⟩ := w
      have hawaiting : awaiting = .header := hw.awaiting_eq
      have hbody : body = {} := hw.body_sound.eq_empty hw.body_eq
      have hinner : inner = { limit } := hw.inner_at.unique ⟨rfl, rfl, trivial⟩
      rw [hawaiting, hbody, hinner]
      rfl

/-- **Frames that are written one after another are read one after another**, in either form and
however their bytes are cut: each as its peer hears it, without a fault, and with nothing left, be
it in the buffer or with the reader. -/
theorem WireFormat.readAll_encoded (format : WireFormat) {limit : Nat} {fs : List Frame}
    (hlimit : limit ≤ ConnectionOptions.lengthLimit) (hfs : ∀ f ∈ fs, f.validate limit = .ok ()) :
    ∃ bss, fs.mapM format.encode = .ok bss ∧ ∀ pieces : List Bytes, pieces.flatten = bss.flatten →
      (format.reader limit).readAll pieces {} =
        { frames := fs.map Frame.heard, stopped := none, reader := format.reader limit, rest := {} }
    := by
  obtain ⟨bss, hencodes, hruns⟩ := format.run_mapM_encode hlimit hfs
  refine ⟨bss, hencodes, fun pieces hpieces => ?_⟩
  have hmatches := Decoder.readAll_matches pieces (format.reader_at limit) Buffer.sound_empty
    (format.look_fresh_nil limit)
  have hrun := hruns []
  rw [List.append_nil, Intake.run_of_pending (format.look_fresh_nil limit)] at hrun
  rw [hpieces, Buffer.toList_empty, List.nil_append, hrun] at hmatches
  obtain ⟨hframes, hstopped, hat, hsound, hleft⟩ := hmatches
  rw [Taken.gives_after, List.append_nil] at hframes
  generalize (format.reader limit).readAll pieces {} = x at hframes hstopped hat hsound hleft ⊢
  obtain ⟨frames, stopped, reader, rest⟩ := x
  simp only [Reading.mk.injEq]
  exact ⟨hframes, hstopped, format.eq_reader_of_at hat, hsound.eq_empty hleft⟩

/-- A frame without an identifier and a payload, one whose length is the first that is written
behind the header, and one that is handed on in parts. -/
theorem webSocket_readAll_encoded_of_mixed :
    let fs : List Frame :=
      [.raw [], .new "a" (List.replicate 117 7), .new "grüße" (List.replicate 1500 1)]
    (1500 ≤ ConnectionOptions.lengthLimit ∧ ∀ f ∈ fs, f.validate 1500 = .ok ()) ∧
    ∃ bss, fs.mapM WireFormat.webSocket.encode = .ok bss ∧
      ∀ pieces : List Bytes, pieces.flatten = bss.flatten →
        (WireFormat.webSocket.reader 1500).readAll pieces {} =
          { frames := fs.map Frame.heard, stopped := none,
            reader := WireFormat.webSocket.reader 1500, rest := {} } := by
  intro fs
  have hlimit : 1500 ≤ ConnectionOptions.lengthLimit := by decide
  have hfs : ∀ f ∈ fs, f.validate 1500 = .ok () := by decide +kernel
  exact ⟨⟨hlimit, hfs⟩, WireFormat.webSocket.readAll_encoded hlimit hfs⟩

end Courier
