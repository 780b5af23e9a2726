import Courier.Proofs.Wire.Loop

/-!
Courier.Proofs.Wire.Remainder — what readers hold back.

A reader is fed from a buffer: pieces of a stream are added at its end, and the reader is called,
in any order and as often as one likes, also after it has found a fault. Between two calls a reader
is always at rest (`Feed.Fit`). So where it finds no frame it holds back a part that is not whole,
which is a small one, and of a payload just the bytes that came.
-/

namespace Courier

/-! ## 1. Feeding -/

/-- A reader, the buffer that it is fed from, and all bytes that ever came into that. -/
structure Feed where
  reader : FrameReader
  buffer : Buffer := {}
  stream : Bytes := []

/-- What is done with a reader: a piece of the stream comes in, or the reader is called. -/
inductive Feed.Act where
  | push (piece : Bytes)
  | read

namespace Feed

/-- Does it. -/
def act (f : Feed) : Act → Feed
  | .push piece => { f with buffer := f.buffer.pushBytes piece, stream := f.stream ++ piece }
  | .read =>
      { f with reader := (f.reader.read f.buffer).2.1, buffer := (f.reader.read f.buffer).2.2 }

/-- What comes of a new reader. -/
def after (format : WireFormat) (limit : Nat) (acts : List Act) : Feed :=
  acts.foldl act { reader := format.reader limit }

/-- A reader of this form that is fed is at rest. -/
def Fit (format : WireFormat) (limit : Nat) (f : Feed) : Prop :=
  match format with
  | .plain => ∃ r, f.reader = .plain r ∧ r.awaiting.Hungry ∧ r.awaiting.Modest ∧
      r.Reads limit f.stream f.buffer
  | .webSocket => ∃ r, f.reader = .webSocket r ∧ r.Fit limit ∧ f.buffer.Sound

variable {format : WireFormat} {limit : Nat} {f : Feed}

theorem fit_new (format : WireFormat) (limit : Nat) :
    ({ reader := format.reader limit } : Feed).Fit format limit := by
  have hreads : (⟨limit, .identifierLength⟩ : Plain.Reader).Reads limit [] {} :=
    ⟨rfl, Buffer.sound_empty, List.suffix_rfl, nofun⟩
  cases format with
  | plain => exact ⟨_, rfl, trivial, trivial, hreads⟩
  | webSocket =>
      exact ⟨_, rfl, ⟨trivial, trivial, trivial, trivial, [], hreads⟩, Buffer.sound_empty⟩

/-- **Whatever is done with a reader, it is at rest after it.** -/
theorem Fit.act (h : f.Fit format limit) (a : Act) : (f.act a).Fit format limit := by
  obtain ⟨reader, buffer, stream⟩ := f
  cases format with
  | plain =>
      obtain ⟨r, rfl, hhungry, hmodest, hreads⟩ := h
      cases a with
      | push piece =>
          exact ⟨r, rfl, hhungry, hmodest, hreads.more (hreads.sound.pushBytes piece)
            (Buffer.toList_pushBytes piece buffer)⟩
      | read =>
          exact ⟨_, rfl, (r.rests_read buffer).1, Plain.Reader.modest_read hmodest buffer,
            hreads.read⟩
  | webSocket =>
      obtain ⟨r, rfl, hfit, hsound⟩ := h
      cases a with
      | push piece => exact ⟨r, rfl, hfit, hsound.pushBytes piece⟩
      | read =>
          obtain ⟨hfit', hsound', -⟩ := hfit.read hsound
          exact ⟨_, rfl, hfit', hsound'⟩

theorem Fit.acts (h : f.Fit format limit) (acts : List Act) :
    (acts.foldl Feed.act f).Fit format limit := by
  induction acts generalizing f with
  | nil => exact h
  | cons a acts ih => exact ih (h.act a)

theorem fit_after (format : WireFormat) (limit : Nat) (acts : List Act) :
    (after format limit acts).Fit format limit :=
  (fit_new format limit).acts acts

/-- **Readers hold back only a bounded remainder.** When a call finds no frame, another call finds
none and changes nothing as long as no byte comes in. A plain reader has left less than the longest
identifier in the buffer. If it awaits a payload it has left nothing there: the bytes of it that
came, behind its length, are the end of the stream, and with those to come, of which there are some,
they are as many as that length, which keeps to the limit. A WebSocket reader has left at most seven
bytes in the buffer, and less than the longest identifier of what it unwrapped, whatever length its
frame has. -/
theorem remainder_of_acts (format : WireFormat) (limit : Nat) (acts : List Act) {r : FrameReader}
    {b : Buffer}
    (h : (after format limit acts).reader.read (after format limit acts).buffer =
      (.ok none, r, b)) :
    r.read b = (.ok none, r, b) ∧
      match format with
      | .plain => b.size ≤ 511 ∧ ∃ p, r = .plain p ∧
          ∀ identifier missing backlog, p.awaiting = .payload identifier missing backlog →
            0 < missing ∧ b.size = 0 ∧ ∃ before field : Bytes, field.length = 4 ∧
              Bytes.toNat field ≤ limit ∧ backlog.length + missing = Bytes.toNat field ∧
              (after .plain limit acts).stream = before ++ field ++ backlog.reverse
      | .webSocket => b.size ≤ 7 ∧ ∃ w, r = .webSocket w ∧ w.body.size ≤ 511 ∧
          ∀ identifier missing backlog, w.inner.awaiting = .payload identifier missing backlog →
            0 < missing ∧ backlog.length + missing ≤ limit := by
  have hfit := fit_after format limit acts
  have hnext := hfit.act .read
  simp only [Feed.act, h] at hnext
  cases format with
  | plain =>
      obtain ⟨p, hp, -⟩ := hfit
      obtain ⟨q, rfl, -, hmodest, hreads⟩ := hnext
      have hcall : p.read (after .plain limit acts).buffer = (.ok none, q, b) := by
        rw [hp] at h
        simpa [FrameReader.read, Prod.ext_iff] using h
      have hlacking : q.awaiting.Lacking b := by
        have hrests := (p.rests_read (after .plain limit acts).buffer).2
        rw [hcall] at hrests
        exact hrests rfl
      refine ⟨?_, Nat.le_of_lt_succ (hlacking.size_lt hmodest), q, rfl, ?_⟩
      · simp only [FrameReader.read, Plain.Reader.read_of_lacking hlacking]
      · intro identifier missing backlog haw
        exact hreads.payload_of_lacking hlacking haw
  | webSocket =>
      obtain ⟨p, hp, hpfit, hsound⟩ := hfit
      obtain ⟨q, rfl, hqfit, hsound'⟩ := hnext
      have hcall : p.read (after .webSocket limit acts).buffer = (.ok none, q, b) := by
        rw [hp] at h
        simpa [FrameReader.read, Prod.ext_iff] using h
      have hstalled : q.Stalled b := by
        have hrests := (hpfit.read hsound).2.2
        rw [hcall] at hrests
        exact hrests rfl
      obtain ⟨hsize, hbody⟩ := hqfit.size_of_stalled hsound' hstalled
      refine ⟨?_, hsize, q, rfl, Nat.le_of_lt_succ hbody, ?_⟩
      · simp only [FrameReader.read, WebSocket.Reader.read_of_stalled hstalled]
      · intro identifier missing backlog haw
        obtain ⟨stream, hreads⟩ := hqfit.inner_reads
        obtain ⟨hmissing, -, before, field, -, hlimit, hcount, -⟩ :=
          hreads.payload_of_lacking hstalled.1 haw
        exact ⟨hmissing, hcount ▸ hlimit⟩

/-- A plain frame of which two bytes of the payload came, behind one that was refused. -/
theorem remainder_of_twoBytes :
    let acts : List Act :=
      [.push [0, 0, 2], .read, .push [1, 0, 0], .read, .push [0, 1, 97, 0, 0, 0], .read,
        .push [5, 104], .read, .push [105]]
    let r : Plain.Reader := ⟨5, .payload "a" 3 [105, 104]⟩
    (after .plain 5 acts).reader.read (after .plain 5 acts).buffer = (.ok none, .plain r, {}) ∧
      FrameReader.read (.plain r) {} = (.ok none, .plain r, {}) ∧
      ({} : Buffer).size ≤ 511 ∧ ∃ p, FrameReader.plain r = .plain p ∧
        ∀ identifier missing backlog, p.awaiting = .payload identifier missing backlog →
          0 < missing ∧ ({} : Buffer).size = 0 ∧ ∃ before field : Bytes, field.length = 4 ∧
            Bytes.toNat field ≤ 5 ∧ backlog.length + missing = Bytes.toNat field ∧
            (after .plain 5 acts).stream = before ++ field ++ backlog.reverse := by
  intro acts r
  have h : (after .plain 5 acts).reader.read (after .plain 5 acts).buffer =
      (.ok none, .plain r, {}) := by
    decide
  exact ⟨h, remainder_of_acts .plain 5 acts h⟩

end Feed

end Courier
