import Courier.Proofs.Wire.WebSocket
import Courier.Wire.Format

/-!
Courier.Proofs.Wire.Fragmentation — it does not matter how a stream is cut.

A `Decoder` is a machine together with the readers that carry it out. Whatever such a reader is
fed, in whatever pieces, is one run of the machine over all of it (`Decoder.readAll_matches`), so
two ways of cutting a stream come to the same, in the plain form and in the WebSocket form.
-/

namespace Courier

/-! ## 1. What a row of feeds comes to -/

/-- The frames that were read, how reading stopped, and the reader and the bytes at the end. -/
structure Reading where
  frames : List Frame
  stopped : Option Fault
  reader : FrameReader
  rest : Buffer

namespace FrameReader

/-- What was read, without the numbers of bytes that were left after each frame. -/
def Drained.reading (d : Drained) : Reading :=
  { frames := d.frames.map (·.1), stopped := d.stopped, reader := d.reader, rest := d.rest }

/-- What a row of feeds comes to, if the reader was `r` and the buffer `b` before. -/
def readingOf (r : FrameReader) (b : Buffer) : List Drained → Reading
  | [] => { frames := [], stopped := none, reader := r, rest := b }
  | d :: ds =>
      let more := readingOf d.reader d.rest ds
      { more with
        frames := d.reading.frames ++ more.frames
        stopped := d.stopped.or more.stopped }

/-- Feeds the pieces of a stream one by one. -/
def readAll (pieces : List Bytes) (r : FrameReader) (b : Buffer) : Reading :=
  readingOf r b (feedAll pieces r b)

/-- After a fault nothing more is fed. -/
theorem readAll_cons_of_stopped {piece : Bytes} {pieces : List Bytes} {r : FrameReader} {b : Buffer}
    {cause : Fault} (h : (feed piece r b).stopped = some cause) :
    r.readAll (piece :: pieces) b = (feed piece r b).reading := by
  simp [readAll, feedAll, h, readingOf, Drained.reading]

theorem readAll_cons {piece : Bytes} {pieces : List Bytes} {r : FrameReader} {b : Buffer}
    (h : (feed piece r b).stopped = none) :
    r.readAll (piece :: pieces) b =
      let more := (feed piece r b).reader.readAll pieces (feed piece r b).rest
      { more with frames := (feed piece r b).reading.frames ++ more.frames } := by
  simp [readAll, feedAll, h, readingOf, Drained.reading]

/-- A call takes bytes from the front of the buffer. -/
theorem rest_read (r : FrameReader) (b : Buffer) : b.Rest (r.read b).2.2 := by
  cases r with
  | plain r => exact r.rest_read b
  | webSocket r => exact WebSocket.Reader.rest_readWithin _ r b

/-- The pieces that are not fed have no part in it. -/
theorem feedAll_take (pieces : List Bytes) (r : FrameReader) (b : Buffer) :
    feedAll (pieces.take (feedAll pieces r b).length) r b = feedAll pieces r b := by
  induction pieces generalizing r b with
  | nil => rfl
  | cons piece pieces ih =>
      cases h : (feed piece r b).stopped with
      | some cause => simp [feedAll, h]
      | none => simp [feedAll, h, ih]

end FrameReader

/-! ## 2. Decoders -/

/-- A machine and the readers that carry it out: each call of one is a stretch of a run, and a
frame costs a byte of those that are there or are held by the reader. -/
structure Decoder where
  State : Type
  intake : Intake State Frame
  At : FrameReader → State → Prop
  call_read : ∀ {r s b}, At r s → b.Sound → Call intake At s b.toList (r.read b)
  size_lt : ∀ {r s b f r' b'}, At r s → b.Sound →
    r.read b = (.ok (some f), r', b') → r'.held + b'.size < r.held + b.size

namespace Decoder

variable {D : Decoder}

/-- A reading is a run: it has the frames that the run gives, and stops as the run does. -/
structure Matches (D : Decoder) (x : Reading) (t : Taken D.State Frame) : Prop where
  frames : x.frames = t.gives
  ending : match t.ending with
    | .error cause => x.stopped = some cause
    | .ok (s, left) => x.stopped = none ∧ D.At x.reader s ∧ x.rest.Sound ∧ x.rest.toList = left

theorem Matches.stopped {x : Reading} {t : Taken D.State Frame} (h : D.Matches x t) :
    x.stopped = t.fault? := by
  obtain ⟨gives, ending⟩ := t
  cases ending with
  | error cause => exact h.ending
  | ok place => exact h.ending.1

/-- Reading frame after frame, from a reader at a state: it ends at a fault or where bytes are
lacking, and each frame before that has taken a byte. -/
inductive Drains (D : Decoder) : FrameReader → D.State → Buffer → FrameReader.Drained → Prop where
  | fault {r r' : FrameReader} {s : D.State} {b b' : Buffer} {cause : Fault}
      (read : r.read b = (.error cause, r', b'))
      (run : D.intake.run s b.toList = ⟨[], .error cause⟩) :
      Drains D r s b { stopped := some cause, reader := r', rest := b' }
  | lacks {r r' : FrameReader} {s s' : D.State} {b b' : Buffer}
      (read : r.read b = (.ok none, r', b')) (at_ : D.At r' s') (sound : b'.Sound)
      (run : D.intake.run s b.toList = ⟨[], .ok (s', b'.toList)⟩) :
      Drains D r s b { stopped := none, reader := r', rest := b' }
  | frame {r r' : FrameReader} {s s' : D.State} {b b' : Buffer} {f : Frame}
      {d : FrameReader.Drained} (read : r.read b = (.ok (some f), r', b'))
      (less : r'.held + b'.size < r.held + b.size)
      (run : D.intake.run s b.toList = (D.intake.run s' b'.toList).after [f])
      (drains : Drains D r' s' b' d) :
      Drains D r s b { d with frames := (f, b'.size) :: d.frames }

/-- There is room enough for all frames if there is more of it than bytes. -/
theorem drains_drainWithin {room : Nat} {r : FrameReader} {s : D.State} {b : Buffer}
    (hr : D.At r s) (hb : b.Sound) (hroom : r.held + b.size < room) :
    D.Drains r s b (FrameReader.drainWithin room r b) := by
  induction room generalizing r s b with
  | zero => omega
  | succ room ih =>
      have hcall := D.call_read hr hb
      unfold FrameReader.drainWithin
      generalize hread : r.read b = result at hcall ⊢
      cases hcall with
      | fault run => exact .fault hread run
      | pending at_ sound run => exact .lacks hread at_ sound run
      | frame at_ sound run =>
          have hless := D.size_lt hr hb hread
          exact .frame hread hless run (ih at_ sound (by omega))

theorem Drains.matches_run {r : FrameReader} {s : D.State} {b : Buffer} {d : FrameReader.Drained}
    (h : D.Drains r s b d) : D.Matches d.reading (D.intake.run s b.toList) := by
  induction h with
  | fault read run =>
      rw [run]
      exact ⟨rfl, rfl⟩
  | lacks read at_ sound run =>
      rw [run]
      exact ⟨rfl, rfl, at_, sound, rfl⟩
  | @frame r r' s s' b b' f d read less run drains ih =>
      obtain ⟨hframes, hending⟩ := ih
      rw [run]
      refine ⟨?_, hending⟩
      exact congrArg (f :: ·) hframes

/-- **Reading all frames that are there is a run over what is there.** -/
theorem drainWithin_matches {room : Nat} {r : FrameReader} {s : D.State} {b : Buffer}
    (hr : D.At r s) (hb : b.Sound) (hroom : r.held + b.size < room) :
    D.Matches (FrameReader.drainWithin room r b).reading (D.intake.run s b.toList) :=
  (drains_drainWithin hr hb hroom).matches_run

/-- **There are at most as many frames as bytes.** -/
theorem Drains.length_frames_le {r : FrameReader} {s : D.State} {b : Buffer}
    {d : FrameReader.Drained} (h : D.Drains r s b d) : d.frames.length ≤ r.held + b.size := by
  induction h with
  | fault read run => exact Nat.zero_le _
  | lacks read at_ sound run => exact Nat.zero_le _
  | frame read less run drains ih => exact Nat.lt_of_le_of_lt ih less

theorem feed_matches {r : FrameReader} {s : D.State} {b : Buffer} (piece : Bytes)
    (hr : D.At r s) (hb : b.Sound) :
    D.Matches (FrameReader.feed piece r b).reading (D.intake.run s (b.toList ++ piece)) := by
  have h := drainWithin_matches hr (hb.pushBytes piece) (Nat.lt_succ_self _)
  rwa [Buffer.toList_pushBytes] at h

/-- **However a stream is cut, feeding it is a run over all of it.** -/
theorem readAll_matches {r : FrameReader} {s : D.State} {b : Buffer} (pieces : List Bytes)
    (hr : D.At r s) (hb : b.Sound) (hs : D.intake.look s b.toList = .pending) :
    D.Matches (r.readAll pieces b) (D.intake.run s (b.toList ++ pieces.flatten)) := by
  induction pieces generalizing r s b with
  | nil =>
      rw [List.flatten_nil, List.append_nil, Intake.run_of_pending hs]
      exact ⟨rfl, rfl, hr, hb, rfl⟩
  | cons piece pieces ih =>
      have hfeed := feed_matches piece hr hb
      rw [List.flatten_cons, ← List.append_assoc, Intake.run_append]
      generalize hrun : D.intake.run s (b.toList ++ piece) = t at hfeed ⊢
      obtain ⟨gives, ending⟩ := t
      cases ending with
      | error cause =>
          rw [FrameReader.readAll_cons_of_stopped hfeed.ending]
          exact hfeed
      | ok place =>
          obtain ⟨s', left⟩ := place
          obtain ⟨hstopped, hat, hsound, hleft⟩ := hfeed.ending
          have hrest := Intake.look_of_run_ok (congrArg Taken.ending hrun)
          have hmore := ih hat hsound (by rw [hleft]; exact hrest)
          rw [hleft] at hmore
          rw [FrameReader.readAll_cons hstopped]
          refine ⟨?_, hmore.ending⟩
          dsimp only [Intake.goOn, Taken.gives_after]
          rw [hfeed.frames]
          exact congrArg (gives ++ ·) hmore.frames

/-- Two readings come to the same: they have the same frames and the same fault, or else they end
with the same bytes left and readers at the same state, which awaits more. -/
structure Agree (D : Decoder) (x y : Reading) : Prop where
  frames : x.frames = y.frames
  stopped : x.stopped = y.stopped
  ending : x.stopped = none → ∃ s, D.At x.reader s ∧ D.At y.reader s ∧
    x.rest.Sound ∧ y.rest.Sound ∧ x.rest.toList = y.rest.toList ∧
    D.intake.look s x.rest.toList = .pending

theorem Matches.agree {x y : Reading} {s : D.State} {bs : Bytes}
    (hx : D.Matches x (D.intake.run s bs)) (hy : D.Matches y (D.intake.run s bs)) :
    D.Agree x y := by
  have hxe := hx.ending
  have hye := hy.ending
  have hframes := hx.frames.trans hy.frames.symm
  cases hrun : (D.intake.run s bs).ending with
  | error cause =>
      simp only [hrun] at hxe hye
      exact ⟨hframes, hxe.trans hye.symm, fun h => by rw [hxe] at h; cases h⟩
  | ok place =>
      obtain ⟨s', left⟩ := place
      simp only [hrun] at hxe hye
      obtain ⟨hx₁, hx₂, hx₃, hx₄⟩ := hxe
      obtain ⟨hy₁, hy₂, hy₃, hy₄⟩ := hye
      refine ⟨hframes, hx₁.trans hy₁.symm,
        fun _ => ⟨s', hx₂, hy₂, hx₃, hy₃, hx₄.trans hy₄.symm, ?_⟩⟩
      rw [hx₄]
      exact Intake.look_of_run_ok hrun

/-- Readers at the same state make the same of the same stream, however it is cut for each. -/
theorem readAll_agree {r r' : FrameReader} {s : D.State} {b b' : Buffer}
    {pieces pieces' : List Bytes} (hr : D.At r s) (hr' : D.At r' s) (hb : b.Sound)
    (hb' : b'.Sound) (hbb : b.toList = b'.toList) (hs : D.intake.look s b.toList = .pending)
    (h : pieces.flatten = pieces'.flatten) :
    D.Agree (r.readAll pieces b) (r'.readAll pieces' b') := by
  have hx := readAll_matches pieces hr hb hs
  have hy := readAll_matches pieces' hr' hb' (by rw [← hbb]; exact hs)
  rw [← hbb, ← h] at hy
  exact hx.agree hy

end Decoder

/-! ## 3. The two forms -/

/-- The call of a reader that is seen as one of a larger kind. -/
theorem Call.map {ρ ρ' σ : Type} {m : Intake σ Frame} {At : ρ → σ → Prop} {At' : ρ' → σ → Prop}
    {s : σ} {bs : Bytes} {result : Except Fault (Option Frame) × ρ × Buffer} (g : ρ → ρ')
    (hg : ∀ r s, At r s → At' (g r) s) (h : Call m At s bs result) :
    Call m At' s bs (result.1, g result.2.1, result.2.2) := by
  cases h with
  | fault run => exact .fault run
  | pending at_ sound run => exact .pending (hg _ _ at_) sound run
  | frame at_ sound run => exact .frame (hg _ _ at_) sound run

/-- The decoder of the plain form. -/
def Plain.decoder (limit : Nat) : Decoder where
  State := Plain.Awaiting
  intake := Plain.intake limit
  At r s := ∃ p, r = .plain p ∧ p.At limit s
  call_read := by
    rintro r s b ⟨p, rfl, hp⟩ hb
    exact (Plain.Reader.call_read hp hb).map FrameReader.plain fun p _ h => ⟨p, rfl, h⟩
  size_lt := by
    rintro r s b f r' b' ⟨p, rfl, hp⟩ hb h
    simp only [FrameReader.read, Prod.mk.injEq] at h
    obtain ⟨hf, rfl, rfl⟩ := h
    simpa [FrameReader.held] using Plain.Reader.size_read_lt hp hf

/-- The decoder of the WebSocket form. -/
def WebSocket.decoder (limit : Nat) : Decoder where
  State := WebSocket.Awaiting × Bytes × Plain.Awaiting
  intake := WebSocket.intake limit
  At r s := ∃ w, r = .webSocket w ∧ w.At limit s
  call_read := by
    rintro r s b ⟨w, rfl, hw⟩ hb
    exact (WebSocket.Reader.call_read hw hb).map FrameReader.webSocket fun w _ h => ⟨w, rfl, h⟩
  size_lt := by
    rintro r s b f r' b' ⟨w, rfl, hw⟩ hb h
    simp only [FrameReader.read, Prod.mk.injEq] at h
    obtain ⟨hf, rfl, rfl⟩ := h
    exact WebSocket.Reader.size_readWithin_lt hw hb (Prod.ext hf rfl)

/-- The decoder of a form. -/
def WireFormat.decoder (format : WireFormat) (limit : Nat) : Decoder :=
  match format with
  | .plain => Plain.decoder limit
  | .webSocket => WebSocket.decoder limit

/-- The state of a new reader. -/
def WireFormat.fresh (format : WireFormat) (limit : Nat) : (format.decoder limit).State :=
  match format with
  | .plain => Plain.Awaiting.identifierLength
  | .webSocket => (WebSocket.Awaiting.header, [], Plain.Awaiting.identifierLength)

theorem WireFormat.reader_at (format : WireFormat) (limit : Nat) :
    (format.decoder limit).At (format.reader limit) (format.fresh limit) := by
  cases format with
  | plain => exact ⟨_, rfl, rfl, rfl, trivial⟩
  | webSocket =>
      exact ⟨_, rfl, rfl, trivial, rfl, Buffer.sound_empty, rfl, rfl, trivial⟩

theorem WireFormat.look_fresh_nil (format : WireFormat) (limit : Nat) :
    (format.decoder limit).intake.look (format.fresh limit) [] = .pending := by
  cases format <;> rfl

/-- A new reader that is fed a stream, cut in two ways. -/
theorem WireFormat.readAll_agree (format : WireFormat) (limit : Nat) {pieces pieces' : List Bytes}
    (h : pieces.flatten = pieces'.flatten) :
    (format.decoder limit).Agree ((format.reader limit).readAll pieces {})
      ((format.reader limit).readAll pieces' {}) :=
  Decoder.readAll_agree (format.reader_at limit) (format.reader_at limit) Buffer.sound_empty
    Buffer.sound_empty rfl (format.look_fresh_nil limit) h

theorem Plain.Reader.At.unique {limit : Nat} {p q : Plain.Reader} {aw : Plain.Awaiting}
    (hp : p.At limit aw) (hq : q.At limit aw) : p = q := by
  obtain ⟨plimit, pawaiting⟩ := p
  obtain ⟨qlimit, qawaiting⟩ := q
  obtain ⟨rfl, rfl, -⟩ := hp
  obtain ⟨rfl, rfl, -⟩ := hq
  rfl

/-- **The plain reader does not depend on how a stream is cut**: the frames are the same, and so is
the fault; if there is none, so are the bytes left and the reader, with all that it keeps. -/
theorem plain_readAll_of_flatten_eq (limit : Nat) {pieces pieces' : List Bytes}
    (h : pieces.flatten = pieces'.flatten) :
    let x := (WireFormat.plain.reader limit).readAll pieces {}
    let y := (WireFormat.plain.reader limit).readAll pieces' {}
    x.frames = y.frames ∧ x.stopped = y.stopped ∧
      (x.stopped = none → x.rest.toList = y.rest.toList ∧ x.reader = y.reader) := by
  obtain ⟨hframes, hstopped, hending⟩ := WireFormat.plain.readAll_agree limit h
  refine ⟨hframes, hstopped, fun hnone => ?_⟩
  obtain ⟨s, ⟨p, hp, hpat⟩, ⟨q, hq, hqat⟩, -, -, hrest, -⟩ := hending hnone
  exact ⟨hrest, by rw [hp, hq, hpat.unique hqat]⟩

/-- A frame that arrives in one piece, or cut inside its identifier's length, right behind the
identifier and inside its payload, with an empty piece in between: either way it is found. -/
theorem plain_readAll_of_cut :
    let pieces : List Bytes := [[0, 0], [0, 1, 97], [], [0, 0, 0, 2, 5], [6, 0]]
    let whole : List Bytes := [[0, 0, 0, 1, 97, 0, 0, 0, 2, 5, 6, 0]]
    let x := (WireFormat.plain.reader 2).readAll pieces {}
    let y := (WireFormat.plain.reader 2).readAll whole {}
    pieces.flatten = whole.flatten ∧ x.frames = [.received "a" [5, 6]] ∧ x.stopped = none ∧
      x.frames = y.frames ∧ x.stopped = y.stopped ∧
      (x.stopped = none → x.rest.toList = y.rest.toList ∧ x.reader = y.reader) :=
  ⟨by decide, by decide +kernel, by decide +kernel, plain_readAll_of_flatten_eq 2 (by decide)⟩

/-- **The WebSocket reader does not depend on how a stream is cut**: the frames are the same, and
so is the fault; if there is none, so are the bytes left, and whatever follows is read in the same
way, however it is cut. -/
theorem webSocket_readAll_of_flatten_eq (limit : Nat) {pieces pieces' : List Bytes}
    (h : pieces.flatten = pieces'.flatten) :
    let x := (WireFormat.webSocket.reader limit).readAll pieces {}
    let y := (WireFormat.webSocket.reader limit).readAll pieces' {}
    x.frames = y.frames ∧ x.stopped = y.stopped ∧
      (x.stopped = none → x.rest.toList = y.rest.toList ∧
        ∀ more more' : List Bytes, more.flatten = more'.flatten →
          let u := x.reader.readAll more x.rest
          let v := y.reader.readAll more' y.rest
          u.frames = v.frames ∧ u.stopped = v.stopped ∧
            (u.stopped = none → u.rest.toList = v.rest.toList)) := by
  obtain ⟨hframes, hstopped, hending⟩ := WireFormat.webSocket.readAll_agree limit h
  refine ⟨hframes, hstopped, fun hnone => ?_⟩
  obtain ⟨s, hx, hy, hxs, hys, hrest, hlook⟩ := hending hnone
  refine ⟨hrest, fun more more' hmore => ?_⟩
  obtain ⟨hframes', hstopped', hending'⟩ := Decoder.readAll_agree hx hy hxs hys hrest hlook hmore
  refine ⟨hframes', hstopped', fun hnone' => ?_⟩
  obtain ⟨-, -, -, -, -, hrest', -⟩ := hending' hnone'
  exact hrest'

/-- A masked binary frame that holds a plain frame, in one piece, or cut inside the header, the
masking key and the masked payload: either way the plain frame is found. -/
theorem webSocket_readAll_of_cut :
    let pieces : List Bytes := [[130], [137, 1, 2], [3, 4, 1, 2, 3], [], [5, 96, 2, 3, 4, 1]]
    let whole : List Bytes := [[130, 137, 1, 2, 3, 4, 1, 2, 3, 5, 96, 2, 3, 4, 1]]
    let x := (WireFormat.webSocket.reader 2).readAll pieces {}
    let y := (WireFormat.webSocket.reader 2).readAll whole {}
    pieces.flatten = whole.flatten ∧ x.frames = [.received "a" []] ∧ x.stopped = none ∧
      x.frames = y.frames ∧ x.stopped = y.stopped ∧
      (x.stopped = none → x.rest.toList = y.rest.toList ∧
        ∀ more more' : List Bytes, more.flatten = more'.flatten →
          let u := x.reader.readAll more x.rest
          let v := y.reader.readAll more' y.rest
          u.frames = v.frames ∧ u.stopped = v.stopped ∧
            (u.stopped = none → u.rest.toList = v.rest.toList)) :=
  ⟨by decide, by decide +kernel, by decide +kernel, webSocket_readAll_of_flatten_eq 2 (by decide)⟩

end Courier
