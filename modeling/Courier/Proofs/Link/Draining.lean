import Courier.Proofs.Buffer.Calls
import Courier.Proofs.Link.Resting
import Courier.Proofs.Wire.Remainder

/-!
Courier.Proofs.Link.Draining — reading until no frame is there.

The main task calls the reader, hands on the frame that was found, and calls again. None of the
loops counts: neither the one inside a call (`Feed.Fit.exists_ends_read`), nor the one that makes
the calls (`Link.reaches_of_drains`). They end because each frame takes a byte away from those
that are in the buffer or that the reader holds, wherever the bytes that made it were at the time of
the call. The other tasks have no part in this, as they leave the reader and the input in hand alone
(`Link.move_aside`).
-/

namespace Courier

/-! ## 1. A call -/

namespace FrameReader

/-- A pass of the loop inside a reader. -/
def pass : FrameReader → Buffer → Pass FrameReader
  | .plain r, b => (r.pass b).map .plain
  | .webSocket r, b => (r.pass b).map .webSocket

end FrameReader

namespace Feed

variable {format : WireFormat} {limit : Nat} {f : Feed} {b : Buffer}

/-- A reader that is fed carries out its decoder. -/
theorem Fit.exists_at (h : f.Fit format limit) : ∃ s, (format.decoder limit).At f.reader s := by
  cases format with
  | plain =>
      obtain ⟨r, hr, hhungry, -, hreads⟩ := h
      exact ⟨r.awaiting, r, hr, hreads.limit_eq, rfl, hhungry⟩
  | webSocket =>
      obtain ⟨r, hr, hfit, -⟩ := h
      obtain ⟨stream, hreads⟩ := hfit.inner_reads
      exact ⟨(r.awaiting, r.body.toList, r.inner.awaiting), r, hr, rfl, hfit.sound, rfl,
        hreads.sound, hreads.limit_eq, rfl, hfit.inner_hungry⟩

/-- **The loop inside a call ends**, whatever buffer the reader is called with. -/
theorem Fit.exists_ends_read (h : f.Fit format limit) (hb : b.Sound) :
    ∃ n ≤ 2 * b.size + 4, Ends FrameReader.pass n f.reader b (f.reader.read b) := by
  cases format with
  | plain =>
      obtain ⟨r, hr, -⟩ := h
      obtain ⟨n, hn, hends⟩ := r.exists_ends_read b
      rw [hr]
      exact ⟨n, by omega, hends.map FrameReader.plain fun _ _ => rfl⟩
  | webSocket =>
      obtain ⟨r, hr, hfit, -⟩ := h
      obtain ⟨n, hn, hends⟩ := hfit.exists_ends_read hb
      have heffort : r.effort b ≤ 2 * b.size + 1 := by
        unfold WebSocket.Reader.effort
        split <;> omega
      rw [hr]
      exact ⟨n, by omega, hends.map FrameReader.webSocket fun _ _ => rfl⟩

end Feed

/-! ## 2. All calls -/

namespace Link

variable {l : Link} {portion : Portion}

/-- Where the main task goes when it has read all frames that are there. -/
def afterReading (portion : Portion) (d : FrameReader.Drained) : MainStage :=
  match d.stopped with
  | some cause => .leaving (some cause)
  | none => .settling { portion with buffer := d.rest }

/-- The main task has called the reader until it found no frame. -/
def HasRead (heard : List Frame) (portion : Portion) (d : FrameReader.Drained) (l : Link) : Prop :=
  l.heard = heard ++ d.frames.map (·.1) ∧ l.reader = d.reader ∧ l.main = afterReading portion d

/-- A handler comes to its end, and then the main task reads on. -/
theorem reaches_reading_of_handling {job : Job} (hstage : l.main = .handling job portion) :
    l.Reaches fun l' => l'.heard = l.heard ∧ l'.reader = l.reader ∧ l'.main = .reading portion := by
  have hreaches := reaches_of_handling
    (Q := fun l' => l'.heard = l.heard ∧ l'.reader = l.reader) ⟨rfl, rfl⟩ hstage ?_
  · exact hreaches.trans fun l' h => .here ⟨h.1.1, h.1.2, h.2⟩
  · rintro l₁ job₁ ⟨hheard, hreader⟩ -
    have haside := (goOn_touches job₁ l₁).aside
    exact ⟨haside.heard_eq.trans hheard, haside.reader_eq.trans hreader⟩

/-- **The main task comes to the end of its loop**: what a reader can be drained of is handed on,
frame by frame. -/
theorem reaches_of_drains {D : Decoder} {s : D.State} {d : FrameReader.Drained}
    (h : D.Drains l.reader s portion.buffer d) (hstage : l.main = .reading portion) :
    l.Reaches (HasRead l.heard portion d) := by
  generalize hreader : l.reader = r at h
  generalize hbuffer : portion.buffer = b at h
  induction h generalizing l portion with
  | fault read run =>
      subst hreader hbuffer
      have hwork := workMain_of_reading hstage
      rw [Link.readFrame, read] at hwork
      exact .next hwork (.here ⟨(List.append_nil _).symm, rfl, rfl⟩)
  | lacks read at_ sound run =>
      subst hreader hbuffer
      have hwork := workMain_of_reading hstage
      rw [Link.readFrame, read] at hwork
      exact .next hwork (.here ⟨(List.append_nil _).symm, rfl, rfl⟩)
  | @frame r r' s s' b b' f d read less run drains ih =>
      subst hreader hbuffer
      have hwork := workMain_of_reading hstage
      rw [Link.readFrame, read] at hwork
      have hd := dispatch_dispatches f { portion with buffer := b' } r' l
      dsimp only at hwork
      generalize { l with reader := r' }.dispatch f { portion with buffer := b' } = l₁ at hwork hd
      -- the frame was noted, so the others come behind it
      have hrest : ∀ l₂ : Link, l₂.heard = l₁.heard → l₂.reader = l₁.reader →
          l₂.main = .reading { portion with buffer := b' } →
          l₂.Reaches (HasRead l.heard portion { d with frames := (f, b'.size) :: d.frames }) := by
        intro l₂ hheard hreader hmain
        refine (ih hmain (hreader.trans hd.reader_eq) rfl).trans ?_
        rintro l' ⟨hheard', hreader', hmain'⟩
        refine .here ⟨?_, hreader', hmain'⟩
        rw [hheard', hheard, hd.heard_eq, List.append_assoc]
        rfl
      refine .next hwork ?_
      obtain hmain | ⟨job, hmain⟩ := hd.main_eq
      · exact hrest l₁ rfl rfl hmain
      · refine (reaches_reading_of_handling hmain).trans ?_
        rintro l₂ ⟨hheard, hreader, hmain₂⟩
        exact hrest l₂ hheard hreader hmain₂

end Link

namespace Feed

/-- **Reading until no frame is there comes to an end.** Take a reader that was fed in any way, and
any buffer. The loop inside a call ends, also inside the reader that reads what was unwrapped. A
call that finds a frame leaves fewer bytes in the buffer and with the reader together. So a main
task that reads the buffer with this reader comes to the end of its loop, whatever the handlers of
the frames do: it has handed on at most as many frames as there were bytes, and gone on to give back
what was consumed, or to leave with a fault. -/
theorem draining_ends (format : WireFormat) (limit : Nat) (acts : List Act)
    (calls : List Buffer.Call) :
    let r := (after format limit acts).reader
    let b := Buffer.after calls
    (∃ n ≤ 2 * b.size + 4, Ends FrameReader.pass n r b (r.read b)) ∧
      (∀ (p : Plain.Reader) (body : Buffer), ∃ n ≤ 4,
        Ends Plain.Reader.pass n p body (p.read body)) ∧
      (match r.read b with
        | (.ok (some _), r', b') => r'.held + b'.size < r.held + b.size
        | _ => True) ∧
      (r.drain b).frames.length ≤ r.held + b.size ∧
      ∀ (l : Link) (portion : Portion),
        ({ l with reader := r, main := .reading { portion with buffer := b } } : Link).Reaches
          (Link.HasRead l.heard portion (r.drain b)) := by
  intro r b
  have hfit := fit_after format limit acts
  have hb : b.Sound := Buffer.sound_after calls
  obtain ⟨s, hr⟩ := hfit.exists_at
  have hdrains := Decoder.drains_drainWithin hr hb (Nat.lt_succ_self _)
  refine ⟨hfit.exists_ends_read hb, fun p body => p.exists_ends_read body, ?_,
    hdrains.length_frames_le, fun l portion => ?_⟩
  · split
    · next hread => exact (format.decoder limit).size_lt hr hb hread
    · trivial
  · have hreaches := @Link.reaches_of_drains
      { l with reader := r, main := .reading { portion with buffer := b } }
      { portion with buffer := b } _ s _ hdrains rfl
    exact hreaches

/-- Two frames in one WebSocket frame: when the first was read, the second is held by the reader,
and it is found though nothing is in the buffer. -/
example :
    let empty : Bytes := [0, 0, 0, 1, 97, 0, 0, 0, 0]
    let r := (after .webSocket 5 [.push ([130, 18] ++ empty ++ empty), .read]).reader
    r.held = 9 ∧ (r.drain {}).frames.length = 1 := by
  decide

end Feed

end Courier
