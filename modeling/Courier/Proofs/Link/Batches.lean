import Courier.Proofs.Link.Output
import Courier.Proofs.Wire.Writing

/-!
Courier.Proofs.Link.Batches — how much is written before a flush.

The writer takes a first frame, then others as long as there are some, and flushes when there are
none or when `Link.flushSize` bytes are unflushed. It looks at what is unflushed behind each frame
but the first. So a frame is written while less than that is unflushed, or behind one other frame,
however large that is: then there is `Room` for it.

`Outflow.Batched` says what is unflushed after any run: the frames that were written last, each of
which found room behind the others. How much that can be follows from it
(`Outflow.batches_of_run`).
-/

namespace Courier

/-! ## 1. What a pipe holds back -/

namespace Pipe

variable {pool pool' : BlockPool} {p q : Pipe} {bs : Bytes}

/-- These bytes were written and are not flushed, and they are counted. -/
structure Holds (bs : Bytes) (p : Pipe) : Prop where
  behind_eq : p.behind = bs
  unflushed_eq : p.unflushed = bs.length

theorem Keeps.holds (h : p.Keeps q) (hp : p.Holds bs) : q.Holds bs :=
  ⟨h.behind_eq.trans hp.behind_eq, h.unflushed_eq.trans hp.unflushed_eq⟩

theorem holds_publish (pool : BlockPool) (p : Pipe) : (p.publish pool).2.2.Holds [] :=
  ⟨behind_publish pool p, unflushed_publish pool p⟩

theorem holds_completeWriter (pool : BlockPool) (p : Pipe) :
    (p.completeWriter pool).2.Holds [] := by
  refine ⟨behind_completeWriter pool p, ?_⟩
  unfold completeWriter
  dsimp only
  split <;> rfl

/-- Only the first step of a flush hands anything over, and then it is everything. -/
theorem holds_of_flush {stage : FlushStage} {result : Staged FlushStage FlushOutcome}
    (hstep : stage.step? pool p = some (result, pool', q))
    (hlater : stage ≠ .publishing → p.Holds []) :
    q.Holds [] := by
  have hpublished := holds_publish pool p
  cases flush_step hstep with
  | dropped outcome publish | published publish =>
      rw [publish] at hpublished
      exact hpublished
  | done | idle | permitted | waits | woken =>
      have hnone := hlater FlushStage.noConfusion
      exact ⟨hnone.behind_eq, hnone.unflushed_eq⟩

theorem Holds.consume {n : Nat} (h : p.Holds bs) (hconsume : p.consume n pool = .ok (pool', q)) :
    q.Holds bs := by
  obtain ⟨-, -, rfl⟩ | ⟨-, -, -, rfl⟩ := consume_eq hconsume
  · exact h
  · exact ⟨h.behind_eq, h.unflushed_eq⟩

/-- What is written comes behind the rest. -/
theorem Holds.write (h : p.Holds bs) (hblank : pool.Blank) (pieces : List Bytes) :
    (pieces.foldl (fun s piece => s.2.write piece s.1) (pool, p)).2.Holds
      (bs ++ pieces.flatten) := by
  obtain ⟨s, -, rfl, hbehind, hunflushed⟩ := putAll_piped pieces hblank p
  refine ⟨by rw [hbehind, h.behind_eq], ?_⟩
  rw [hunflushed, h.unflushed_eq, List.length_append]

end Pipe

/-! ## 2. Room for a frame -/

/-- The number of bytes that frames take on the wire. -/
def WireFormat.weight (format : WireFormat) (fs : List Frame) : Nat :=
  (fs.flatMap format.outgoing).length

/-- Behind these frames another one may be written before a flush: they are small together, or
there is but one of them. -/
def WireFormat.Room (format : WireFormat) (fs : List Frame) : Prop :=
  format.weight fs < Link.flushSize ∨ ∃ g, fs = [g]

/-- Frames that may be unflushed: the last of them found room behind the others. -/
inductive WireFormat.Batch (format : WireFormat) : List Frame → Prop where
  | none : Batch format []
  | more {fs : List Frame} (f : Frame) (room : format.Room fs) : Batch format (fs ++ [f])

namespace WireFormat

variable {format : WireFormat} {fs : List Frame} {bound : Nat}

theorem weight_append_singleton (fs : List Frame) (f : Frame) :
    format.weight (fs ++ [f]) = format.weight fs + (format.outgoing f).length := by
  rw [weight, weight, List.flatMap_append, List.flatMap_singleton, List.length_append]

theorem weight_singleton (f : Frame) : format.weight [f] = (format.outgoing f).length := by
  rw [weight, List.flatMap_singleton]

theorem room_nil : format.Room [] :=
  .inl (show 0 < Link.flushSize by decide)

theorem Room.weight_le (h : format.Room fs)
    (hbound : ∀ f ∈ fs, (format.outgoing f).length ≤ bound) :
    format.weight fs ≤ max (Link.flushSize - 1) bound := by
  obtain hsmall | ⟨g, rfl⟩ := h
  · exact Nat.le_trans (Nat.le_sub_one_of_lt hsmall) (Nat.le_max_left _ _)
  · rw [weight_singleton]
    exact Nat.le_trans (hbound g (List.mem_singleton_self g)) (Nat.le_max_right _ _)

/-- A batch is larger than that by one frame at most. -/
theorem Batch.weight_le (h : format.Batch fs)
    (hbound : ∀ f ∈ fs, (format.outgoing f).length ≤ bound) :
    format.weight fs ≤ max (Link.flushSize - 1) bound + bound := by
  cases h with
  | none => exact Nat.zero_le _
  | @more earlier f room =>
      rw [weight_append_singleton]
      exact Nat.add_le_add
        (room.weight_le fun g hg => hbound g (List.mem_append_left _ hg))
        (hbound f (List.mem_append_right _ (List.mem_singleton_self f)))

/-- What is written for a frame of the plain form is as long as the frame says. -/
theorem outgoing_plain {identifier : String} {payload : Bytes}
    (h : (Frame.new identifier payload).Narrow) :
    ∃ pieces, Link.outgoingPieces .plain (.new identifier payload) = .ok pieces ∧
      (WireFormat.plain.outgoing (.new identifier payload)).length =
        Plain.size (.new identifier payload) := by
  obtain ⟨pieces, hwrite, hflatten⟩ := Plain.write_of_narrow h
  have hpieces : Link.outgoingPieces .plain (.new identifier payload) = .ok pieces := hwrite
  refine ⟨pieces, hpieces, ?_⟩
  rw [(writesAs_of_outgoingPieces hpieces).1, hflatten, Plain.length_bytes]

end WireFormat

/-! ## 3. What a move does to a batch -/

/-- The writer is about to begin a batch, or has just flushed one. -/
def WriterStage.isClear : WriterStage → Bool
  | .unstarted | .waiting => true
  | .flushing flush => flush != .publishing
  | _ => false

namespace Link

variable {l l' : Link} {choice : Choice} {f : Frame} {bs : Bytes}

/-- A frame that waits can be written. The batch goes on behind its first frame, and behind another
while little is unflushed. -/
theorem stepWriter_takes {queue : List Frame} {pieces : List Bytes}
    (hstage : l.writer = .waiting ∨ l.writer = .batching)
    (hfirst : l.connection.queue = f :: queue)
    (hpieces : outgoingPieces l.setup.format f = .ok pieces) :
    let written := { l with connection := { l.connection with queue } }.writePieces pieces
    ∃ stage, l.stepWriter .work = some { written with writer := stage } ∧
      (stage = .batching ∨ stage = .flushing .publishing) ∧
      (l.writer = .waiting → stage = .batching) ∧
      (stage = .batching →
        l.writer = .waiting ∨ written.transport.output.unflushed < flushSize) := by
  intro written
  obtain hstage | hstage := hstage
  · refine ⟨.batching, ?_, .inl rfl, fun _ => rfl, fun _ => .inl hstage⟩
    simp only [stepWriter, workWriter, writeNext?, hstage, hfirst, hpieces, written]
  · have hstep : l.stepWriter .work = some { written with writer := afterFrame written } := by
      simp only [stepWriter, workWriter, writeNext?, hstage, hfirst, hpieces, written]
    refine ⟨_, hstep, ?_, fun hwaiting => (by cases hstage.symm.trans hwaiting), ?_⟩
    all_goals
      unfold afterFrame
      split
    · exact .inr rfl
    · exact .inl rfl
    · exact WriterStage.noConfusion
    · next hlt => exact fun _ => .inr (Nat.lt_of_not_le hlt)

/-- **The writer goes on with a batch** only behind its first frame, or while little is
unflushed. -/
theorem unflushed_lt_of_batching (hstep : l.stepWriter choice = some l')
    (hbatching : l'.writer = .batching) :
    l.writer = .waiting ∨ l'.transport.output.unflushed < flushSize := by
  cases writes_of_stepWriter hstep with
  | takes hstage hfirst hpieces hnext =>
      obtain ⟨stage, hsame, -, -, hroom⟩ := stepWriter_takes hstage hfirst hpieces
      have hwriter := congrArg Link.writer (Option.some.inj (hstep.symm.trans hsame))
      exact hroom (hwriter.symm.trans hbatching)
  | @flushed flush outcome memory output hstage hflush =>
      have hafter : afterFlush outcome = .batching := hbatching
      unfold afterFlush at hafter
      split at hafter <;> cases hafter
  | _ => cases hbatching

/-- The sender has nothing to do with what is unflushed. -/
theorem Delivers.holds (hdelivers : l.Delivers choice l') (h : l.transport.output.Holds bs) :
    l'.transport.output.Holds bs := by
  cases hdelivers with
  | looks stage step | takes stage step => exact (Pipe.read_keeps step).1.holds h
  | settles stage consume => exact h.consume consume
  | @leaves fault stage | @reports fault stage => cases fault <;> exact h
  | drops | completes | stopsWaiting => exact ⟨h.behind_eq, h.unflushed_eq⟩
  | shuts =>
      have hshut := (shutDown_sparesWriter .sendingEnded l).output.holds h
      unfold releaseWire
      split <;> exact hshut
  | _ => exact h

end Link

/-! ## 4. Runs -/

namespace Outflow

/-- The frames of the batch are those that were written last; they are unflushed, and there is room
for another one if the writer goes on with them. -/
structure Batched (format : WireFormat) (batch : List Frame) (o : Outflow) : Prop where
  intact : o.Intact
  format_eq : o.link.setup.format = format
  last : batch <:+ o.written
  holds : o.link.transport.output.Holds (batch.flatMap format.outgoing)
  fits : format.Batch batch
  room : o.link.writer = .batching → format.Room batch
  clear : o.link.writer.isClear = true → batch = []

section Batched

variable {format : WireFormat} {batch : List Frame} {o o' : Outflow} {m : Move} {l' : Link}
  {choice : Choice}

/-- After a flush there is no batch. -/
theorem Batched.flushed (hintact : o.Intact) (hformat : o.link.setup.format = format)
    (hholds : o.link.transport.output.Holds []) : o.Batched format [] :=
  ⟨hintact, hformat, List.nil_suffix, hholds, .none, fun _ => WireFormat.room_nil, fun _ => rfl⟩

/-- Nothing is written or flushed. -/
theorem Batched.keeps (h : o.Batched format batch) (hintact : o'.Intact)
    (hformat : o'.link.setup.format = format) (hwritten : o'.written = o.written)
    (hholds : o'.link.transport.output.Holds (batch.flatMap format.outgoing))
    (hroom : o'.link.writer = .batching → o.link.writer = .batching)
    (hclear : o'.link.writer.isClear = true → o.link.writer.isClear = true) :
    o'.Batched format batch :=
  ⟨hintact, hformat, by rw [hwritten]; exact h.last, hholds, h.fits, fun hs => h.room (hroom hs),
    fun hs => h.clear (hclear hs)⟩

/-- A frame that is written finds room. -/
theorem Batched.room_of_stage (h : o.Batched format batch)
    (hstage : o.link.writer = .waiting ∨ o.link.writer = .batching) : format.Room batch := by
  obtain hstage | hstage := hstage
  · rw [h.clear (by rw [hstage]; rfl)]
    exact WireFormat.room_nil
  · exact h.room hstage

/-- The first frame of the queue is written behind the batch. -/
theorem Batched.takes {f : Frame} {queue : List Frame} {pieces : List Bytes} {stage : WriterStage}
    (h : o.Batched format batch) (hintact : o'.Intact) (hwritten : o'.written = o.written ++ [f])
    (hlink : o'.link =
      { { o.link with connection := { o.link.connection with queue } }.writePieces pieces with
        writer := stage })
    (hstage : o.link.writer = .waiting ∨ o.link.writer = .batching)
    (hpieces : Link.outgoingPieces o.link.setup.format f = .ok pieces)
    (hnext : stage = .batching ∨ stage = .flushing .publishing)
    (hroom : o'.link.writer = .batching →
      o.link.writer = .waiting ∨ o'.link.transport.output.unflushed < Link.flushSize) :
    o'.Batched format (batch ++ [f]) := by
  have hflatten := (WireFormat.writesAs_of_outgoingPieces hpieces).1
  rw [h.format_eq] at hflatten
  have hholds : o'.link.transport.output.Holds ((batch ++ [f]).flatMap format.outgoing) := by
    rw [hlink, List.flatMap_append, List.flatMap_singleton, hflatten]
    exact h.holds.write h.intact.blank pieces
  have hwriter : o'.link.writer = stage := by rw [hlink]
  obtain ⟨front, hfront⟩ := h.last
  refine ⟨hintact, by rw [hlink]; exact h.format_eq,
    ⟨front, by rw [hwritten, ← hfront, List.append_assoc]⟩, hholds,
    .more f (h.room_of_stage hstage), fun hbatching => ?_, fun hclear => ?_⟩
  · obtain hwaiting | hlt := hroom hbatching
    · rw [h.clear (by rw [hwaiting]; rfl)]
      exact .inr ⟨f, rfl⟩
    · rw [hholds.unflushed_eq] at hlt
      exact .inl hlt
  · rw [hwriter] at hclear
    obtain rfl | rfl := hnext <;> cases hclear

/-- **A step of the writer** writes a frame for which there is room, or flushes the batch. -/
theorem Batched.writer (h : o.Batched format batch) (hwrites : o.link.Writes choice l')
    (hroom : l'.writer = .batching →
      o.link.writer = .waiting ∨ l'.transport.output.unflushed < Link.flushSize)
    (hintact : o'.Intact) (hlink : o'.link = l')
    (hwritten : o'.written = o.written ++ o.link.writes (.writer choice)) :
    ∃ batch', o'.Batched format batch' := by
  have hturn (hnone : o.link.writes (.writer choice) = [])
      (hformat : l'.setup.format = format)
      (hholds : l'.transport.output.Holds (batch.flatMap format.outgoing))
      (hbatching : l'.writer ≠ .batching) (hclear : l'.writer.isClear = false) :
      ∃ batch', o'.Batched format batch' := by
    rw [hnone, List.append_nil] at hwritten
    subst hlink
    exact ⟨batch, h.keeps hintact hformat hwritten hholds (fun hs => absurd hs hbatching)
      fun hs => (by cases hclear.symm.trans hs)⟩
  have hflushed (hformat : l'.setup.format = format) (hholds : l'.transport.output.Holds []) :
      ∃ batch', o'.Batched format batch' := by
    subst hlink
    exact ⟨[], .flushed hintact hformat hholds⟩
  cases hwrites with
  | @takes f queue pieces stage' hstage hfirst hpieces hnext =>
      rw [Link.writes_of_pieces hstage hfirst hpieces] at hwritten
      exact ⟨_, h.takes hintact hwritten hlink hstage hpieces hnext (by rw [hlink]; exact hroom)⟩
  | @jams f queue misuse hstage hfirst hpieces =>
      exact hturn (Link.writes_of_misuse hstage hfirst hpieces) h.format_eq h.holds
        WriterStage.noConfusion rfl
  | runsOut hstage hempty =>
      exact hturn (Link.writes_of_empty hempty _) h.format_eq h.holds WriterStage.noConfusion rfl
  | leaves hstage =>
      exact hturn (Link.writes_of_stage (by simp [hstage]) (by simp [hstage]) _) h.format_eq h.holds
        WriterStage.noConfusion rfl
  | stopsWaiting hcancelled hstage =>
      exact hturn rfl h.format_eq h.holds WriterStage.noConfusion rfl
  | stopsFlushing hcancelled hstage =>
      exact hturn rfl h.format_eq ⟨h.holds.behind_eq, h.holds.unflushed_eq⟩ WriterStage.noConfusion
        rfl
  | flushes hstage hstep | flushed hstage hstep =>
      refine hflushed h.format_eq (Pipe.holds_of_flush hstep fun hlater => ?_)
      have hempty := h.clear (by simp [hstage, WriterStage.isClear, hlater])
      have hall := h.holds
      rwa [hempty] at hall
  | completes hstage => exact hflushed h.format_eq (Pipe.holds_completeWriter _ _)

/-- The writer waits for the first frame of a batch from the start on. -/
theorem Batched.start (h : o.Batched format batch) (hintact : o'.Intact)
    (hlink : o'.link = o.link.start) (hwritten : o'.written = o.written) :
    o'.Batched format batch := by
  refine h.keeps hintact ?_ hwritten ?_ ?_ ?_
  all_goals
    rw [hlink]
    unfold Link.start
    split
  · exact h.format_eq
  · exact h.format_eq
  · exact h.holds
  · exact h.holds
  · exact WriterStage.noConfusion
  · exact id
  · next hmain => exact fun _ => by rw [h.intact.unstarted hmain]; rfl
  · exact id

/-- **Every move leaves a batch.** -/
theorem Batched.move (h : o.Batched format batch) (hmove : o.move? m = some o') :
    ∃ batch', o'.Batched format batch' := by
  have hintact := h.intact.move hmove
  have hformat : o'.link.setup.format = format :=
    (congrArg LinkSetup.format (setup_of_move hmove)).trans h.format_eq
  obtain ⟨l', hl', rfl⟩ := Option.map_eq_some_iff.mp hmove
  cases m with
  | writer choice =>
      exact h.writer (Link.writes_of_stepWriter hl') (Link.unflushed_lt_of_batching hl') hintact rfl
        rfl
  | sender choice most =>
      have hdelivers := Link.delivers_of_stepSender hl'
      have hwriter : l'.writer = o.link.writer := (hdelivers.gives most).writer_eq
      exact ⟨batch, h.keeps hintact hformat (List.append_nil _) (hdelivers.holds h.holds)
        hwriter.symm.trans fun hclear => by rw [← hwriter]; exact hclear⟩
  | start =>
      cases hl'
      exact ⟨batch, h.start hintact rfl (List.append_nil _)⟩
  | depart most =>
      cases hl'
      exact ⟨batch, h.keeps hintact hformat (List.append_nil _) h.holds id id⟩
  | _ =>
      have hspares := Link.move_sparesWriter (fun _ => Move.noConfusion)
        (fun _ _ => Move.noConfusion) Move.noConfusion hl'
      have hwriter : l'.writer = o.link.writer := hspares.writer_eq
      exact ⟨batch, h.keeps hintact hformat (List.append_nil _) (hspares.output.holds h.holds)
        hwriter.symm.trans fun hclear => by rw [← hwriter]; exact hclear⟩

/-- A frame that waits is written when it is the writer's turn. -/
theorem Batched.exists_takes {f : Frame} {queue : List Frame} {pieces : List Bytes}
    (h : o.Batched format batch)
    (hstage : o.link.writer = .waiting ∨ o.link.writer = .batching)
    (hfirst : o.link.connection.queue = f :: queue)
    (hpieces : Link.outgoingPieces format f = .ok pieces) :
    ∃ o', o.move? (.writer .work) = some o' ∧ o.link.writes (.writer .work) = [f] ∧
      o'.Batched format (batch ++ [f]) ∧ o'.written = o.written ++ [f] ∧
      o'.link.connection.queue = queue ∧
      (o.link.writer = .waiting → o'.link.writer = .batching) := by
  rw [← h.format_eq] at hpieces
  obtain ⟨stage, hstep, hnext, hbatching, -⟩ := Link.stepWriter_takes hstage hfirst hpieces
  have hone := Link.writes_of_pieces hstage hfirst hpieces
  have hmove : o.move? (.writer .work) = some (o.follow (.writer .work) _) :=
    congrArg (Option.map fun link => o.follow (.writer .work) link) hstep
  have hwritten : (o.follow (.writer .work)
      { { o.link with connection := { o.link.connection with queue } }.writePieces pieces with
        writer := stage }).written = o.written ++ [f] := congrArg (o.written ++ ·) hone
  exact ⟨_, hmove, hone, h.takes (h.intact.move hmove) hwritten rfl hstage hpieces hnext
    (Link.unflushed_lt_of_batching hstep), hwritten, rfl, hbatching⟩

/-- **A second frame is written at once**, however large the first one is. -/
theorem Batched.second {f g : Frame} {queue : List Frame} {ps qs : List Bytes}
    (h : o.Batched format []) (hstage : o.link.writer = .waiting)
    (hqueue : o.link.connection.queue = f :: g :: queue)
    (hf : Link.outgoingPieces format f = .ok ps) (hg : Link.outgoingPieces format g = .ok qs) :
    ∃ o₁ o₂, o.move? (.writer .work) = some o₁ ∧ o₁.link.writes (.writer .work) = [g] ∧
      o₁.link.transport.output.unflushed = format.weight [f] ∧
      o₁.move? (.writer .work) = some o₂ ∧ o₂.written = o.written ++ [f] ++ [g] ∧
      o₂.link.transport.output.unflushed = format.weight [f, g] := by
  obtain ⟨o₁, hmove₁, -, h₁, hwritten₁, hqueue₁, hbatching⟩ :=
    h.exists_takes (.inl hstage) hqueue hf
  obtain ⟨o₂, hmove₂, hwrites, h₂, hwritten₂, -, -⟩ :=
    h₁.exists_takes (.inr (hbatching hstage)) hqueue₁ hg
  exact ⟨o₁, o₂, hmove₁, hwrites, h₁.holds.unflushed_eq, hmove₂, by rw [hwritten₂, hwritten₁],
    h₂.holds.unflushed_eq⟩

end Batched

/-! ## 5. How much is unflushed -/

/-- **Batches are bounded, but not by `Link.flushSize` and a frame.** Whatever is queued and however
the tasks take turns: a frame is written while less than `Link.flushSize` bytes are unflushed, or
right behind another frame that is all that is unflushed and may be of any size. So the frames of a
batch are all that is unflushed, and they take no more than two frames of the greatest size, or one
on top of what is less than `Link.flushSize`. -/
theorem batches_of_run (setup : LinkSetup) (id peer : String) (limit : Nat)
    (input output : Thresholds) (capacity : Nat) (moves : List Move) {o : Outflow}
    (hrun : run? moves { link := .new setup id peer limit input output { capacity } } = some o) :
    (∀ m f, o.link.writes m = [f] →
      o.link.transport.output.unflushed < Link.flushSize ∨
        ∃ front g, o.written = front ++ [g] ∧
          o.link.transport.output.unflushed = (setup.format.outgoing g).length) ∧
      (∃ front batch, o.written = front ++ batch ∧ setup.format.Batch batch ∧
        o.link.transport.output.behind = batch.flatMap setup.format.outgoing ∧
        o.link.transport.output.unflushed = o.link.transport.output.behind.length) ∧
      ∀ bound, (∀ f ∈ o.written, (setup.format.outgoing f).length ≤ bound) →
        o.link.transport.output.unflushed ≤ max (Link.flushSize - 1) bound + bound := by
  obtain ⟨batch, h⟩ : ∃ batch, o.Batched setup.format batch :=
    invariant_run (P := fun o => ∃ batch, o.Batched setup.format batch)
      (fun ⟨_, h⟩ hmove => h.move hmove)
      ⟨[], .flushed (intact_new setup id peer limit input output capacity) rfl ⟨rfl, rfl⟩⟩ hrun
  obtain ⟨front, hwritten⟩ := h.last
  have hweight : o.link.transport.output.unflushed = setup.format.weight batch :=
    h.holds.unflushed_eq
  refine ⟨fun m f hwrites => ?_, ⟨front, batch, hwritten.symm, h.fits, h.holds.behind_eq, ?_⟩,
    fun bound hbound => ?_⟩
  · have hstage := Link.stage_of_writes (m := m) (by rw [hwrites]; exact List.cons_ne_nil f [])
    rw [hweight]
    obtain hsmall | ⟨g, rfl⟩ := h.room_of_stage hstage
    · exact .inl hsmall
    · exact .inr ⟨front, g, hwritten.symm, WireFormat.weight_singleton g⟩
  · rw [h.holds.behind_eq, h.holds.unflushed_eq]
  · rw [hweight]
    exact h.fits.weight_le fun f hf => hbound f (h.last.subset hf)

/-- A frame of ten bytes and a raw one of two are written to a batch, and another one waits. -/
def smallMoves : List Move :=
  [.start, .call (.send "x" [7]), .call (.sendRaw [1, 2]), .call (.send "y" [9]), .writer .work,
    .writer .work]

/-- The third frame is written behind twelve bytes. -/
theorem batches_of_smallMoves : ∃ o,
    run? smallMoves { link := .new {} "near" "far" 16 {} {} { capacity := 64 } } = some o ∧
    o.link.writes (.writer .work) = [.new "y" [9]] ∧
    o.link.transport.output.behind = [0, 0, 0, 1, 120, 0, 0, 0, 1, 7, 1, 2] ∧
    o.link.transport.output.unflushed = 12 ∧
    o.link.transport.output.unflushed ≤ max (Link.flushSize - 1) 10 + 10 := by
  have hseen : (run? smallMoves
      { link := .new {} "near" "far" 16 {} {} { capacity := 64 } }).map (fun o =>
        (o.link.writes (.writer .work), o.link.transport.output.behind, o.written)) =
      some ([.new "y" [9]], [0, 0, 0, 1, 120, 0, 0, 0, 1, 7, 1, 2],
        [.new "x" [7], .raw [1, 2]]) := by
    decide +kernel
  obtain ⟨o, hrun, ho⟩ := Option.map_eq_some_iff.mp hseen
  simp only [Prod.mk.injEq] at ho
  obtain ⟨hwrites, hbehind, hwritten⟩ := ho
  obtain ⟨-, ⟨-, -, -, -, -, hcount⟩, hbound⟩ :=
    batches_of_run {} "near" "far" 16 {} {} 64 smallMoves hrun
  rw [hbehind] at hcount
  refine ⟨o, hrun, hwrites, hbehind, hcount, hbound 10 fun f hf => ?_⟩
  rw [hwritten] at hf
  revert f
  decide +kernel

/-- A payload that is taken waits in the queue. -/
theorem exists_send (identifier : String) {payload : Bytes} {o : Outflow}
    (hid : Connection.checkIdentifier identifier = .ok ())
    (hvalid : (Frame.new identifier payload).validate o.link.connection.maxPayload = .ok ())
    (hopen : (o.link.connection.cancelled || !o.link.connection.accepting) = false) :
    ∃ o', o.move? (.call (.send identifier payload)) = some o' ∧ o'.written = o.written ∧
      o'.link = { o.link with connection := { o.link.connection with
        queue := o.link.connection.queue ++ [.new identifier payload] } } := by
  refine ⟨_, rfl, List.append_nil _, ?_⟩
  unfold follow Link.perform
  rw [Connection.perform_send hid hvalid hopen]

/-- A payload is queued twice before the writer looks. -/
def pairMoves (payload : Bytes) : List Move :=
  [.start, .call (.send "a" payload), .call (.send "b" payload)]

theorem exists_pair (limit : Nat) {payload : Bytes} (hfits : payload.length ≤ limit) : ∃ o,
    run? (pairMoves payload) { link := .new {} "near" "far" limit {} {} { capacity := 64 } } =
      some o ∧
    o.link.writer = .waiting ∧ o.link.connection.queue = [.new "a" payload, .new "b" payload] ∧
    o.written = [] ∧ o.Batched .plain [] := by
  have hvalid (identifier : String)
      (hid : (Bytes.ofString identifier).length ≤ Frame.maxIdentifierSize) :
      (Frame.new identifier payload).validate limit = .ok () :=
    Frame.validate_of_lengths hid hfits
  let o₀ : Outflow := { link := .new {} "near" "far" limit {} {} { capacity := 64 } }
  obtain ⟨o₁, hmove₁, hwritten₁, hlink₁⟩ : ∃ o₁, o₀.move? .start = some o₁ ∧ o₁.written = [] ∧
      o₁.link = o₀.link.start := ⟨_, rfl, rfl, rfl⟩
  obtain ⟨o₂, hmove₂, hwritten₂, hlink₂⟩ := exists_send "a" (o := o₁)
    (by decide +kernel) (by rw [hlink₁]; exact hvalid "a" (by decide +kernel)) (by rw [hlink₁]; rfl)
  obtain ⟨o₃, hmove₃, hwritten₃, hlink₃⟩ := exists_send "b" (o := o₂)
    (by decide +kernel) (by rw [hlink₂, hlink₁]; exact hvalid "b" (by decide +kernel))
    (by rw [hlink₂, hlink₁]; rfl)
  have hrun : run? (pairMoves payload) o₀ = some o₃ := by
    simp only [pairMoves, run?, hmove₁, hmove₂, hmove₃]
  have hintact : o₃.Intact :=
    invariant_run Intact.move (intact_new {} "near" "far" limit {} {} 64) hrun
  rw [hlink₂, hlink₁] at hlink₃
  refine ⟨o₃, hrun, by rw [hlink₃]; rfl, by rw [hlink₃]; rfl,
    by rw [hwritten₃, hwritten₂, hwritten₁], .flushed hintact (by rw [hlink₃]; rfl) ?_⟩
  rw [hlink₃]
  exact ⟨rfl, rfl⟩

/-- **What is unflushed can be more**: behind a frame that is larger than `Link.flushSize` by itself
another one is written, and then more is unflushed than any of the frames on top of what is less
than that. -/
theorem overfull_of_largeFrames : ∃ o o₁ o₂ g,
    run? (pairMoves (List.replicate 65536 0))
      { link := .new {} "near" "far" Frame.maxPayloadSize {} {} { capacity := 64 } } = some o ∧
    o.move? (.writer .work) = some o₁ ∧ o₁.link.writes (.writer .work) = [g] ∧
    Link.flushSize ≤ o₁.link.transport.output.unflushed ∧
    o₁.move? (.writer .work) = some o₂ ∧
    ∀ f ∈ o₂.written, Link.flushSize - 1 + (WireFormat.plain.outgoing f).length <
      o₂.link.transport.output.unflushed := by
  -- of the payload only its length is of interest
  have hlength : (List.replicate 65536 (0 : UInt8)).length = 65536 := List.length_replicate
  generalize List.replicate 65536 (0 : UInt8) = payload at hlength ⊢
  have hnarrow (identifier : String) (hid : (Bytes.ofString identifier).length < 256 ^ 4) :
      (Frame.new identifier payload).Narrow :=
    ⟨hid, show payload.length < 256 ^ 4 by rw [hlength]; decide⟩
  have hsize (identifier : String) : Plain.size (.new identifier payload) =
      4 + (Bytes.ofString identifier).length + 4 + 65536 := by
    rw [← hlength]
    rfl
  obtain ⟨ps, hps, ha⟩ := WireFormat.outgoing_plain (hnarrow "a" (by decide +kernel))
  obtain ⟨qs, hqs, hb⟩ := WireFormat.outgoing_plain (hnarrow "b" (by decide +kernel))
  rw [hsize, show (Bytes.ofString "a").length = 1 by decide +kernel] at ha
  rw [hsize, show (Bytes.ofString "b").length = 1 by decide +kernel] at hb
  obtain ⟨o, hrun, hstage, hqueue, hwritten, h⟩ :=
    exists_pair Frame.maxPayloadSize (by rw [hlength]; decide)
  obtain ⟨o₁, o₂, hmove₁, hwrites, hone, hmove₂, hboth, htwo⟩ := h.second hstage hqueue hps hqs
  rw [WireFormat.weight_singleton, ha] at hone
  rw [← List.singleton_append, WireFormat.weight_append_singleton, WireFormat.weight_singleton, ha,
    hb] at htwo
  refine ⟨o, o₁, o₂, _, hrun, hmove₁, hwrites, ?_, hmove₂, fun f hf => ?_⟩
  · rw [hone]
    decide
  · have houtgoing : (WireFormat.plain.outgoing f).length = 4 + 1 + 4 + 65536 := by
      rw [hboth, hwritten] at hf
      simp only [List.nil_append, List.singleton_append, List.mem_cons, List.not_mem_nil,
        or_false] at hf
      obtain rfl | rfl := hf
      · exact ha
      · exact hb
    rw [htwo, houtgoing]
    decide

end Outflow

end Courier
