import Courier.Proofs.Wire.RoundTrip

/-!
Courier.Proofs.Wire.Grammar — the plain reader takes frames in the plain form, and nothing else.

A number and a text have one written form each, so what a reader has taken in of a frame can be told
from the field that it awaits (`Plain.Awaiting.taken`). What a run has taken in is the bytes of the
frames that it gave and the front of one more (`Plain.run_takes`). At rest this front is that of a
frame as far as its fields are whole (`Plain.Unfinished`), and no frame is over within it; after a
fault no frame that may be sent begins like it.
-/

namespace Courier

namespace Plain

/-! ## 1. What was taken in -/

/-- A byte string behind its length. -/
def measured (bs : Bytes) : Bytes :=
  Bytes.ofNat 4 bs.length ++ bs

theorem bytes_eq (f : Frame) : bytes f = measured f.identifierBytes ++ measured f.payload := by
  simp [bytes, measured]

/-- The first four bytes are what is written for the number that they spell. -/
theorem number_append_drop {bs : Bytes} (h : 4 ≤ bs.length) :
    Bytes.toNat (bs.take 4) < 256 ^ 4 ∧
      Bytes.ofNat 4 (Bytes.toNat (bs.take 4)) ++ bs.drop 4 = bs := by
  have hfour : (bs.take 4).length = 4 := List.length_take_of_le h
  have hlt := Bytes.toNat_lt (bs.take 4)
  rw [hfour] at hlt
  refine ⟨hlt, ?_⟩
  rw [Bytes.ofNat_toNat hfour, List.take_append_drop]

/-- Where a byte string begins with a measured one, the length can be told. -/
theorem length_of_measured_append {n : Nat} {bs xs left : Bytes} (hbs : bs.length < 256 ^ 4)
    (hn : n < 256 ^ 4) (h : measured bs ++ xs = Bytes.ofNat 4 n ++ left) :
    bs.length = n ∧ bs ++ xs = left := by
  rw [measured, List.append_assoc] at h
  exact Bytes.ofNat_append_inj hbs hn h

/-- Where a byte string begins with a measured one, this can be told from the rest. -/
theorem measured_append_inj {bs cs xs ys : Bytes} (hbs : bs.length < 256 ^ 4)
    (hcs : cs.length < 256 ^ 4) (h : measured bs ++ xs = measured cs ++ ys) :
    bs = cs ∧ xs = ys := by
  rw [measured, List.append_assoc] at h
  obtain ⟨hlength, hrest⟩ := length_of_measured_append hcs hbs h.symm
  obtain ⟨hcs, hys⟩ := List.append_inj hrest hlength
  exact ⟨hcs.symm, hys.symm⟩

/-- What was taken in of a frame before the field that is awaited, and of a payload so far. -/
def Awaiting.taken : Awaiting → Bytes
  | .identifierLength => []
  | .identifier length => Bytes.ofNat 4 length
  | .payloadLength text => measured (Bytes.ofString text)
  | .payload text missing backlog =>
      measured (Bytes.ofString text) ++
        (Bytes.ofNat 4 (backlog.length + missing) ++ backlog.reverse)

/-- What was taken in is within the limits. -/
def Awaiting.Fits (limit : Nat) : Awaiting → Prop
  | .identifierLength => True
  | .identifier length => length ≤ Frame.maxIdentifierSize
  | .payloadLength text => (Bytes.ofString text).length ≤ Frame.maxIdentifierSize
  | .payload text missing backlog =>
      (Bytes.ofString text).length ≤ Frame.maxIdentifierSize ∧
        backlog.length + missing ≤ limit ∧ backlog.length + missing < 256 ^ 4

theorem length_lt_of_fits {length : Nat} (h : length ≤ Frame.maxIdentifierSize) :
    length < 256 ^ 4 :=
  Nat.lt_of_le_of_lt h (by decide)

/-- From one place to another frames are given, and what was taken in is the bytes of these frames
and then those of the place. -/
structure Takes (limit : Nat) (aw : Awaiting) (bs : Bytes) (gives : List Frame) (aw' : Awaiting)
    (rest : Bytes) : Prop where
  fits : aw'.Fits limit
  valid : ∀ f ∈ gives, f.validate limit = .ok () ∧ f.Narrow
  bytes_eq : aw.taken ++ bs = gives.flatMap bytes ++ (aw'.taken ++ rest)

variable {limit : Nat} {aw aw' aw₁ : Awaiting} {bs rest rest₁ : Bytes} {gives more : List Frame}

theorem Takes.trans (h : Takes limit aw bs gives aw₁ rest₁)
    (h' : Takes limit aw₁ rest₁ more aw' rest) : Takes limit aw bs (gives ++ more) aw' rest where
  fits := h'.fits
  valid f hf := (List.mem_append.mp hf).elim (h.valid f) (h'.valid f)
  bytes_eq := by rw [h.bytes_eq, h'.bytes_eq, List.flatMap_append, List.append_assoc]

/-- A part that is taken in is what is written for it. -/
theorem takes_of_look (hfits : aw.Fits limit) (h : look limit aw bs = .next aw' gives rest) :
    Takes limit aw bs gives aw' rest := by
  cases aw with
  | identifierLength =>
      obtain ⟨hn, h⟩ := Part.field_eq_next (k := takeIdentifierLength) h
      unfold takeIdentifierLength at h
      split at h
      · cases h
      · next hlength =>
        cases h
        refine ⟨Nat.not_lt.mp hlength, by simp, ?_⟩
        exact (number_append_drop hn).2.symm
  | identifier length =>
      obtain ⟨hn, h⟩ := Part.field_eq_next (k := takeIdentifier) h
      unfold takeIdentifier at h
      split at h
      · cases h
      · next text htext =>
        cases h
        have hwritten : Bytes.ofString text = bs.take length := Bytes.ofString_of_toString? htext
        have hlength : (bs.take length).length = length := List.length_take_of_le hn
        refine ⟨?_, by simp, ?_⟩
        · show (Bytes.ofString text).length ≤ Frame.maxIdentifierSize
          rw [hwritten, hlength]
          exact hfits
        · simp [Awaiting.taken, measured, hwritten, Nat.min_eq_left hn]
  | payloadLength text =>
      obtain ⟨hn, h⟩ := Part.field_eq_next (k := takePayloadLength limit text) h
      unfold takePayloadLength at h
      split at h
      · cases h
      · next hlength =>
        cases h
        obtain ⟨hnarrow, hwritten⟩ := number_append_drop hn
        refine ⟨⟨hfits, ?_, ?_⟩, by simp, ?_⟩
        · rw [List.length_nil, Nat.zero_add]
          exact Nat.not_lt.mp hlength
        · rw [List.length_nil, Nat.zero_add]
          exact hnarrow
        · simp [Awaiting.taken, hwritten]
  | payload text missing backlog =>
      obtain ⟨hid, hle, hlt⟩ := hfits
      simp only [look, takePayload] at h
      split at h
      · cases h
        have hlength : backlog.reverse.length = backlog.length + 0 := List.length_reverse
        refine ⟨trivial, fun f hf => ?_, ?_⟩
        · cases List.mem_singleton.mp hf
          exact ⟨Frame.validate_of_lengths hid (hlength ▸ hle), length_lt_of_fits hid,
            hlength ▸ hlt⟩
        · simp [Awaiting.taken, Plain.bytes_eq, measured, Frame.received, Frame.identifierBytes]
      · cases h
      · next missing b bs =>
        cases h
        have hcount : (b :: backlog).length + missing = backlog.length + (missing + 1) := by
          simp only [List.length_cons]
          omega
        refine ⟨⟨hid, by rw [hcount]; exact hle, by rw [hcount]; exact hlt⟩, by simp, ?_⟩
        simp only [Awaiting.taken, hcount]
        simp

/-- **What a run takes in is the bytes of the frames that it gives, and the front of one more**:
where it ends, the part that is awaited is not whole, or is what stopped it. -/
theorem run_takes (hfits : aw.Fits limit) :
    ∃ aw' rest, Takes limit aw bs ((intake limit).run aw bs).gives aw' rest ∧
      look limit aw' rest = match ((intake limit).run aw bs).fault? with
        | none => .pending
        | some cause => .fault cause := by
  fun_induction (intake limit).run aw bs with
  | case1 aw bs hl => exact ⟨aw, bs, ⟨hfits, by simp, by simp⟩, hl⟩
  | case2 aw bs cause hl => exact ⟨aw, bs, ⟨hfits, by simp, by simp⟩, hl⟩
  | case3 aw bs aw₁ gives rest₁ hl ih =>
      have hfirst : Takes limit aw bs gives aw₁ rest₁ := takes_of_look hfits hl
      obtain ⟨aw', rest, htakes, hlook⟩ := ih hfirst.fits
      exact ⟨aw', rest, hfirst.trans htakes, hlook⟩

/-! ## 2. Unfinished frames -/

/-- The front of a frame, up to the middle of one of its fields. The fields that are whole are
within the limits, and the identifier is a text. -/
inductive Unfinished (limit : Nat) : Bytes → Prop where
  | identifierLength {left : Bytes} (short : left.length < 4) : Unfinished limit left
  | identifier {length : Nat} {left : Bytes} (fits : length ≤ Frame.maxIdentifierSize)
      (short : left.length < length) : Unfinished limit (Bytes.ofNat 4 length ++ left)
  | payloadLength {text : String} {left : Bytes}
      (fits : (Bytes.ofString text).length ≤ Frame.maxIdentifierSize) (short : left.length < 4) :
      Unfinished limit (measured (Bytes.ofString text) ++ left)
  | payload {text : String} {length : Nat} {left : Bytes}
      (fits : (Bytes.ofString text).length ≤ Frame.maxIdentifierSize) (allowed : length ≤ limit)
      (narrow : length < 256 ^ 4) (short : left.length < length) :
      Unfinished limit (measured (Bytes.ofString text) ++ (Bytes.ofNat 4 length ++ left))

theorem unfinished_of_pending (hfits : aw.Fits limit) (h : look limit aw rest = .pending) :
    Unfinished limit (aw.taken ++ rest) := by
  cases aw with
  | identifierLength =>
      refine .identifierLength (Part.lt_of_field_eq_pending (fun field rest => ?_) h)
      unfold takeIdentifierLength
      split <;> simp
  | identifier length =>
      refine .identifier hfits (Part.lt_of_field_eq_pending (fun field rest => ?_) h)
      unfold takeIdentifier
      split <;> simp
  | payloadLength text =>
      refine .payloadLength hfits (Part.lt_of_field_eq_pending (fun field rest => ?_) h)
      unfold takePayloadLength
      split <;> simp
  | payload text missing backlog =>
      obtain ⟨hid, hle, hlt⟩ := hfits
      simp only [look, takePayload] at h
      split at h
      · cases h
      · simp only [Awaiting.taken, List.append_nil]
        refine .payload hid hle hlt ?_
        simp
      · cases h

/-- No frame is over within an unfinished one. -/
theorem Unfinished.not_prefix {t : Bytes} (h : Unfinished limit t) {f : Frame} (hf : f.Narrow) :
    ¬ bytes f <+: t := by
  rintro ⟨ys, hys⟩
  rw [bytes_eq, List.append_assoc] at hys
  cases h with
  | identifierLength short =>
      rw [← hys] at short
      simp only [measured, List.length_append, Bytes.length_ofNat] at short
      omega
  | identifier fits short =>
      obtain ⟨hlength, rfl⟩ := length_of_measured_append hf.identifier (length_lt_of_fits fits) hys
      simp only [List.length_append] at short
      omega
  | payloadLength fits short =>
      obtain ⟨-, rfl⟩ := measured_append_inj hf.identifier (length_lt_of_fits fits) hys
      simp only [measured, List.length_append, Bytes.length_ofNat] at short
      omega
  | payload fits allowed narrow short =>
      obtain ⟨-, hrest⟩ := measured_append_inj hf.identifier (length_lt_of_fits fits) hys
      obtain ⟨hlength, rfl⟩ := length_of_measured_append hf.payload narrow hrest
      simp only [List.length_append] at short
      omega

/-! ## 3. What cannot become a frame -/

/-- What a part is refused for is found in no frame that may be sent. -/
theorem ne_bytes_of_fault {cause : Fault} (hfits : aw.Fits limit)
    (h : look limit aw rest = .fault cause) :
    (∃ v, cause = .violation v) ∧ ∀ f, f.validate limit = .ok () → f.Narrow → ∀ ys,
      bytes f ≠ aw.taken ++ rest ++ ys := by
  cases aw with
  | identifierLength =>
      obtain ⟨hn, h⟩ := Part.field_eq_fault (k := takeIdentifierLength) h
      unfold takeIdentifierLength at h
      split at h
      · next hlong =>
        cases h
        refine ⟨⟨_, rfl⟩, fun f hvalid hf ys hys => ?_⟩
        obtain ⟨hnarrow, hwritten⟩ := number_append_drop hn
        obtain ⟨hid, -⟩ := Frame.lengths_of_validate hvalid
        rw [bytes_eq, Awaiting.taken, List.nil_append, ← hwritten, List.append_assoc] at hys
        obtain ⟨hlength, -⟩ := length_of_measured_append hf.identifier hnarrow hys
        omega
      · cases h
  | identifier length =>
      obtain ⟨hn, h⟩ := Part.field_eq_fault (k := takeIdentifier) h
      unfold takeIdentifier at h
      split at h
      · next hnone =>
        cases h
        refine ⟨⟨_, rfl⟩, fun f hvalid hf ys hys => ?_⟩
        rw [bytes_eq, Awaiting.taken, List.append_assoc] at hys
        obtain ⟨hlength, hrest⟩ :=
          length_of_measured_append hf.identifier (length_lt_of_fits hfits) hys
        have hid : rest.take length = f.identifierBytes := by
          have htake := congrArg (List.take length) hrest
          rw [List.take_append_of_le_length hn, List.take_left' hlength] at htake
          exact htake.symm
        rw [hid, Frame.toString?_identifierBytes] at hnone
        cases hnone
      · cases h
  | payloadLength text =>
      obtain ⟨hn, h⟩ := Part.field_eq_fault (k := takePayloadLength limit text) h
      unfold takePayloadLength at h
      split at h
      · next hlong =>
        cases h
        refine ⟨⟨_, rfl⟩, fun f hvalid hf ys hys => ?_⟩
        obtain ⟨hnarrow, hwritten⟩ := number_append_drop hn
        obtain ⟨-, hpayload⟩ := Frame.lengths_of_validate hvalid
        rw [bytes_eq, Awaiting.taken, List.append_assoc, ← hwritten, List.append_assoc] at hys
        obtain ⟨-, hrest⟩ := measured_append_inj hf.identifier (length_lt_of_fits hfits) hys
        rw [← List.append_nil (measured f.payload)] at hrest
        obtain ⟨hlength, -⟩ := length_of_measured_append hf.payload hnarrow hrest
        omega
      · cases h
  | payload text missing backlog =>
      simp only [look, takePayload] at h
      split at h <;> cases h

end Plain

/-! ## 4. The plain reader -/

theorem WireFormat.mapM_encode_of_narrow {fs : List Frame} (h : ∀ f ∈ fs, f.Narrow) :
    fs.mapM WireFormat.plain.encode = .ok (fs.map Plain.bytes) := by
  induction fs with
  | nil => rfl
  | cons f fs ih =>
      have hfirst := Plain.encode_of_narrow (h f (by simp))
      have hrest := ih fun g hg => h g (by simp [hg])
      rw [List.mapM_cons, hfirst, hrest]
      rfl

/-- A new reader that was fed a stream has taken in the frames that it read, and the front of one
more. -/
theorem Plain.readAll_takes {limit : Nat} {pieces : List Bytes} {x : Reading}
    (hx : (WireFormat.plain.reader limit).readAll pieces {} = x) :
    ∃ aw rest, Takes limit .identifierLength pieces.flatten x.frames aw rest ∧
      look limit aw rest = match x.stopped with
        | none => .pending
        | some cause => .fault cause := by
  obtain ⟨hframes, hstopped⟩ := WireFormat.plain.readAll_eq limit pieces
  rw [← hx, hframes, hstopped]
  exact run_takes trivial

/-- **The plain reader takes what is written for frames that may be sent, and nothing else.** A
stream begins with what is written for the frames that are read of it. Without a fault an unfinished
frame follows, within which no frame is over. The fault can only be a violation, and then nothing
that may be sent begins like what was fed of the rest. -/
theorem plain_readAll_grammar (limit : Nat) (pieces : List Bytes) :
    let r := WireFormat.plain.reader limit
    let x := r.readAll pieces {}
    (∀ f ∈ x.frames, f.validate limit = .ok ()) ∧
    ∃ bss t, x.frames.mapM WireFormat.plain.encode = .ok bss ∧ pieces.flatten = bss.flatten ++ t ∧
      (x.stopped = none → Plain.Unfinished limit t ∧
        ∀ f bs, WireFormat.plain.encode f = .ok bs → ¬ bs <+: t) ∧
      (∀ cause, x.stopped = some cause → (∃ v, cause = .violation v) ∧
        ∃ seen, t = seen ++ (pieces.drop (FrameReader.feedAll pieces r {}).length).flatten ∧
          ∀ f more, f.validate limit = .ok () →
            WireFormat.plain.encode f ≠ .ok (seen ++ more)) := by
  intro r x
  let fed := pieces.take (FrameReader.feedAll pieces r {}).length
  let unfed := pieces.drop (FrameReader.feedAll pieces r {}).length
  cases hstopped : x.stopped with
  | none =>
      obtain ⟨aw, rest, htakes, hlook⟩ := Plain.readAll_takes (x := x) rfl
      rw [hstopped] at hlook
      have hunfinished := Plain.unfinished_of_pending htakes.fits hlook
      have hencode := WireFormat.mapM_encode_of_narrow fun f hf => (htakes.valid f hf).2
      refine ⟨fun f hf => (htakes.valid f hf).1, _, aw.taken ++ rest, hencode, ?_,
        fun _ => ⟨hunfinished, fun f bs hf => ?_⟩, fun cause h => by cases h⟩
      · rw [← List.flatMap_def]
        exact htakes.bytes_eq
      · obtain ⟨hnarrow, rfl⟩ := Plain.encode_eq_ok_iff.mp hf
        exact hunfinished.not_prefix hnarrow
  | some cause =>
      -- what was fed is read like the whole, so the rest of it is what was seen of the frame
      have hfed : r.readAll fed {} = x :=
        congrArg (FrameReader.readingOf r {}) (FrameReader.feedAll_take pieces r {})
      obtain ⟨aw, rest, htakes, hlook⟩ := Plain.readAll_takes hfed
      rw [hstopped] at hlook
      obtain ⟨hviolation, hnever⟩ := Plain.ne_bytes_of_fault htakes.fits hlook
      have hencode := WireFormat.mapM_encode_of_narrow fun f hf => (htakes.valid f hf).2
      have hpieces : pieces.flatten = fed.flatten ++ unfed.flatten := by
        rw [← List.flatten_append, List.take_append_drop]
      refine ⟨fun f hf => (htakes.valid f hf).1, _, aw.taken ++ rest ++ unfed.flatten, hencode, ?_,
        (fun h => by cases h), fun cause' h => ?_⟩
      · have hbytes : fed.flatten = x.frames.flatMap Plain.bytes ++ (aw.taken ++ rest) :=
          htakes.bytes_eq
        rw [hpieces, hbytes, List.flatMap_def, List.append_assoc]
      · cases h
        refine ⟨hviolation, aw.taken ++ rest, rfl, fun f more hvalid hf => ?_⟩
        obtain ⟨hnarrow, hbytes⟩ := Plain.encode_eq_ok_iff.mp hf
        exact hnever f hvalid hnarrow more hbytes

end Courier
