import Courier.Proofs.Pipe.Tidy

/-!
Courier.Proofs.Pipe.Conduit — a pipe in use neither loses, doubles nor reorders bytes.

`Conduit` is a pipe with its two ends at work. Each end does one thing at a time: the writer fills
memory or is in a flush, the reader consumes or is in a read. A flush and a read go look by look,
and between two looks the other end may do anything; from outside, both sides may be finished and
pending flushes and reads be canceled at any time. The conduit also keeps what went in and what came
out.

Every turn keeps `Conduit.Sound`: what was written is what was consumed and then what the pipe
holds, and the pipe is tidy.
-/

namespace Courier

/-! ## 1. Conduits -/

/-- The stage that comes next, if there is one. -/
def Staged.next? {σ ω : Type} : Staged σ ω → Option σ
  | .next stage => some stage
  | .done _ => none

/-- A pipe in use. -/
structure Conduit where
  pool : BlockPool := {}
  pipe : Pipe
  /-- where the flush is that was begun and has not ended -/
  flush : Option FlushStage := none
  /-- where the read is that was begun and has not ended -/
  read : Option ReadStage := none
  /-- the flush had waited already when it looked last -/
  waited : Bool := false
  /-- all bytes that were written -/
  written : Bytes := []
  /-- all bytes that were consumed -/
  consumed : Bytes := []
  /-- how far into what was written the last read has shown it to the reader -/
  shown : Nat := 0

namespace Conduit

/-- A conduit that is not used yet. -/
def new (thresholds : Thresholds) : Conduit :=
  { pipe := { thresholds } }

/-- What the writer does while it is not in a flush. -/
inductive WriterTurn where
  | write (bs : Bytes)
  /-- asks for memory -/
  | provide (atLeast : Nat)
  /-- copies bytes to the start of the memory provided, as far as they fit -/
  | fill (bs : Bytes)
  /-- declares the first `n` bytes of the memory provided written -/
  | commit (n : Nat)
  /-- begins a flush -/
  | flush
  | complete

/-- What the reader does while it is not in a read. -/
inductive ReaderTurn where
  /-- begins a read -/
  | read
  /-- consumes the first `n` unread bytes -/
  | consume (n : Nat)

/-- What happens next. -/
inductive Turn where
  | writer (t : WriterTurn)
  | reader (t : ReaderTurn)
  /-- the flush goes on, if it need not wait -/
  | stepFlush
  /-- the read goes on, if it need not wait -/
  | stepRead
  /-- the flush is given up -/
  | dropFlush
  /-- the read is given up -/
  | dropRead
  | completeWriter
  | completeReader
  | cancelFlush
  | cancelRead
  /-- others take blocks from the pool, and give some back -/
  | share (pool : BlockPool)

/-- A turn of the writer, for which it must not be in a flush. -/
def writerTurn? (t : WriterTurn) (s : Conduit) : Option Conduit :=
  match t with
  | .write bs =>
      let (pool, pipe) := s.pipe.write bs s.pool
      some { s with pool, pipe, written := s.written ++ bs }
  | .provide atLeast =>
      let (pool, pipe) := s.pipe.ensureMemory atLeast s.pool
      some { s with pool, pipe }
  | .fill bs => some { s with pipe := s.pipe.fillMemory bs }
  | .commit n =>
      match s.pipe.advance n with
      | .error _ => none
      | .ok pipe => some { s with pipe, written := s.written ++ s.pipe.memory n }
  | .flush => some { s with flush := some .publishing }
  | .complete =>
      let (pool, pipe) := s.pipe.completeWriter s.pool
      some { s with pool, pipe }

/-- A turn of the reader, for which it must not be in a read. -/
def readerTurn? (t : ReaderTurn) (s : Conduit) : Option Conduit :=
  match t with
  | .read => some { s with read := some .looking }
  | .consume n =>
      match s.pipe.consume n s.pool with
      | .error _ => none
      | .ok (pool, pipe) =>
          some { s with pool, pipe, consumed := s.consumed ++ s.pipe.unread.toList.take n }

/-- Whether the flush had waited already when it looked last, after this stage. -/
def waitedAfter (stage : FlushStage) (s : Conduit) : Bool :=
  match stage with
  | .checking waited => waited
  | _ => s.waited

/-- The flush goes on, if it need not wait. -/
def stepFlush? (s : Conduit) : Option Conduit :=
  match s.flush with
  | none => none
  | some stage =>
      match stage.step? s.pool s.pipe with
      | none => none
      | some (result, pool, pipe) =>
          some { s with pool, pipe, flush := result.next?, waited := s.waitedAfter stage }

/-- How far the reader has been shown what was written, after this step of a read. -/
def shownAfter (result : Staged ReadStage ReadOutcome) (s : Conduit) : Nat :=
  match result with
  | .done outcome => s.consumed.length + outcome.buffer.size
  | .next _ => s.shown

/-- The read goes on, if it need not wait. -/
def stepRead? (s : Conduit) : Option Conduit :=
  match s.read with
  | none => none
  | some stage =>
      match stage.step? s.pipe with
      | none => none
      | some (result, pipe) =>
          some { s with pipe, read := result.next?, shown := s.shownAfter result }

instance (pool : BlockPool) : Decidable pool.Blank :=
  inferInstanceAs (Decidable (∀ b ∈ pool.idle, b.filled = []))

/-- What is after a turn, if it is possible. -/
def turn? (t : Turn) (s : Conduit) : Option Conduit :=
  match t with
  | .writer t => if s.flush = none then s.writerTurn? t else none
  | .reader t => if s.read = none then s.readerTurn? t else none
  | .stepFlush => s.stepFlush?
  | .stepRead => s.stepRead?
  | .dropFlush =>
      if s.flush.any (·.interruptible) then
        some { s with pipe := s.pipe.abandonFlush, flush := none }
      else none
  | .dropRead =>
      if s.read.any (·.interruptible) then
        some { s with pipe := s.pipe.abandonRead, read := none }
      else none
  | .completeWriter => some { s with pipe := s.pipe.completeWriterOutside }
  | .completeReader =>
      let (pool, pipe) := s.pipe.completeReader s.pool
      some { s with pool, pipe }
  | .cancelFlush => some { s with pipe := s.pipe.cancelFlush }
  | .cancelRead => some { s with pipe := s.pipe.cancelRead }
  | .share pool => if pool.Blank then some { s with pool } else none

/-- What is after some turns in a row. -/
def run? : List Turn → Conduit → Option Conduit
  | [], s => some s
  | t :: turns, s =>
      match s.turn? t with
      | none => none
      | some s => run? turns s

/-! ## 2. What a turn does -/

/-- All that turns do. -/
inductive Does (s : Conduit) : Turn → Conduit → Prop where
  -- the writer, while it is not in a flush
  | writes (bs : Bytes) (idle : s.flush = none) :
      Does s (.writer (.write bs)) { s with
        pool := (s.pipe.write bs s.pool).1, pipe := (s.pipe.write bs s.pool).2,
        written := s.written ++ bs }
  | provides (atLeast : Nat) (idle : s.flush = none) :
      Does s (.writer (.provide atLeast)) { s with
        pool := (s.pipe.ensureMemory atLeast s.pool).1,
        pipe := (s.pipe.ensureMemory atLeast s.pool).2 }
  | fills (bs : Bytes) (idle : s.flush = none) :
      Does s (.writer (.fill bs)) { s with pipe := s.pipe.fillMemory bs }
  | commits {n : Nat} {pipe : Pipe} (idle : s.flush = none)
      (advance : s.pipe.advance n = .ok pipe) :
      Does s (.writer (.commit n)) { s with pipe, written := s.written ++ s.pipe.memory n }
  | flushes (idle : s.flush = none) : Does s (.writer .flush) { s with flush := some .publishing }
  | completes (idle : s.flush = none) :
      Does s (.writer .complete) { s with
        pool := (s.pipe.completeWriter s.pool).1, pipe := (s.pipe.completeWriter s.pool).2 }
  -- the reader, while it is not in a read
  | reads (idle : s.read = none) : Does s (.reader .read) { s with read := some .looking }
  | consumes {n : Nat} {pool : BlockPool} {pipe : Pipe} (idle : s.read = none)
      (consume : s.pipe.consume n s.pool = .ok (pool, pipe)) :
      Does s (.reader (.consume n)) { s with
        pool, pipe, consumed := s.consumed ++ s.pipe.unread.toList.take n }
  -- a flush or a read goes on, or is given up
  | stepsFlush {stage : FlushStage} {result : Staged FlushStage FlushOutcome} {pool : BlockPool}
      {pipe : Pipe} (begun : s.flush = some stage)
      (step : stage.step? s.pool s.pipe = some (result, pool, pipe)) :
      Does s .stepFlush { s with
        pool, pipe, flush := result.next?, waited := s.waitedAfter stage }
  | stepsRead {stage : ReadStage} {result : Staged ReadStage ReadOutcome} {pipe : Pipe}
      (begun : s.read = some stage) (step : stage.step? s.pipe = some (result, pipe)) :
      Does s .stepRead { s with pipe, read := result.next?, shown := s.shownAfter result }
  | dropsFlush : Does s .dropFlush { s with pipe := s.pipe.abandonFlush, flush := none }
  | dropsRead : Does s .dropRead { s with pipe := s.pipe.abandonRead, read := none }
  -- either side is declared finished, or is to be canceled
  | completesWriter : Does s .completeWriter { s with pipe := s.pipe.completeWriterOutside }
  | completesReader :
      Does s .completeReader { s with
        pool := (s.pipe.completeReader s.pool).1, pipe := (s.pipe.completeReader s.pool).2 }
  | cancelsFlush : Does s .cancelFlush { s with pipe := s.pipe.cancelFlush }
  | cancelsRead : Does s .cancelRead { s with pipe := s.pipe.cancelRead }
  | shares {pool : BlockPool} (blank : pool.Blank) : Does s (.share pool) { s with pool }

variable {s s' : Conduit}

theorem does_of_writerTurn {t : WriterTurn} (hidle : s.flush = none)
    (hturn : s.writerTurn? t = some s') : s.Does (.writer t) s' := by
  cases t with
  | write bs =>
      cases hturn
      exact .writes bs hidle
  | provide atLeast =>
      cases hturn
      exact .provides atLeast hidle
  | fill bs =>
      cases hturn
      exact .fills bs hidle
  | commit n =>
      simp only [writerTurn?] at hturn
      split at hturn <;> cases hturn
      next hadvance => exact .commits hidle hadvance
  | flush =>
      cases hturn
      exact .flushes hidle
  | complete =>
      cases hturn
      exact .completes hidle

theorem does_of_readerTurn {t : ReaderTurn} (hidle : s.read = none)
    (hturn : s.readerTurn? t = some s') : s.Does (.reader t) s' := by
  cases t with
  | read =>
      cases hturn
      exact .reads hidle
  | consume n =>
      simp only [readerTurn?] at hturn
      split at hturn <;> cases hturn
      next hconsume => exact .consumes hidle hconsume

theorem does_of_stepFlush (hturn : s.stepFlush? = some s') : s.Does .stepFlush s' := by
  unfold stepFlush? at hturn
  split at hturn
  · cases hturn
  · next stage hstage =>
    split at hturn <;> cases hturn
    next result pool pipe hstep => exact .stepsFlush hstage hstep

theorem does_of_stepRead (hturn : s.stepRead? = some s') : s.Does .stepRead s' := by
  unfold stepRead? at hturn
  split at hturn
  · cases hturn
  · next stage hstage =>
    split at hturn <;> cases hturn
    next result pipe hstep => exact .stepsRead hstage hstep

/-- **Every turn does one of these.** -/
theorem does_of_turn {t : Turn} (hturn : s.turn? t = some s') : s.Does t s' := by
  cases t with
  | writer t =>
      simp only [turn?] at hturn
      split at hturn
      · next hidle => exact does_of_writerTurn hidle hturn
      · cases hturn
  | reader t =>
      simp only [turn?] at hturn
      split at hturn
      · next hidle => exact does_of_readerTurn hidle hturn
      · cases hturn
  | stepFlush => exact does_of_stepFlush hturn
  | stepRead => exact does_of_stepRead hturn
  | dropFlush =>
      simp only [turn?] at hturn
      split at hturn <;> cases hturn
      exact .dropsFlush
  | dropRead =>
      simp only [turn?] at hturn
      split at hturn <;> cases hturn
      exact .dropsRead
  | completeWriter =>
      cases hturn
      exact .completesWriter
  | completeReader =>
      cases hturn
      exact .completesReader
  | cancelFlush =>
      cases hturn
      exact .cancelsFlush
  | cancelRead =>
      cases hturn
      exact .cancelsRead
  | share pool =>
      simp only [turn?] at hturn
      split at hturn <;> cases hturn
      next hblank => exact .shares hblank

/-- What a turn does to the bytes: the writer's side adds some, the reader consumes some, or the
reader is finished. -/
inductive Effect (s s' : Conduit) : Prop where
  | grows (bs : Bytes) (grows : Pipe.Grows bs (s.pool, s.pipe) (s'.pool, s'.pipe))
      (tidy : s.pool.Blank → s.pipe.Tidy → s'.pipe.Tidy) (written : s'.written = s.written ++ bs)
      (consumed : s'.consumed = s.consumed)
  | consumes (n : Nat) (consume : s.pipe.consume n s.pool = .ok (s'.pool, s'.pipe))
      (written : s'.written = s.written)
      (consumed : s'.consumed = s.consumed ++ s.pipe.unread.toList.take n)
  | closes (pool : s'.pool = (s.pipe.completeReader s.pool).1)
      (pipe : s'.pipe = (s.pipe.completeReader s.pool).2)

/-- What the pipe holds is left alone. -/
theorem Effect.keeps (hpool : s.pool.Blank → s'.pool.Blank) (hkeeps : s.pipe.Keeps s'.pipe)
    (hwritten : s'.written = s.written) (hconsumed : s'.consumed = s.consumed) : s.Effect s' :=
  .grows [] (.of_keeps hpool hkeeps) (fun _ htidy => htidy.of_keeps hkeeps)
    (by rw [hwritten, List.append_nil]) hconsumed

theorem effect_turn {t : Turn} (hturn : s.turn? t = some s') : s.Effect s' := by
  cases does_of_turn hturn with
  | writes bs =>
      exact .grows bs (Pipe.write_grows bs s.pool s.pipe)
        (fun hblank htidy => htidy.write hblank bs) rfl rfl
  | provides atLeast =>
      exact .grows [] (Pipe.ensureMemory_grows atLeast s.pool s.pipe)
        (fun hblank htidy => htidy.ensureMemory hblank atLeast) (List.append_nil _).symm rfl
  | fills bs =>
      exact .grows [] (Pipe.fillMemory_grows bs s.pool s.pipe) (fun _ htidy => htidy.fillMemory bs)
        (List.append_nil _).symm rfl
  | commits idle advance =>
      exact .grows _ (Pipe.advance_grows s.pool advance) (fun _ htidy => htidy.advance advance)
        rfl rfl
  | completes =>
      exact .grows [] (Pipe.completeWriter_grows s.pool s.pipe)
        (fun _ htidy => htidy.completeWriter s.pool) (List.append_nil _).symm rfl
  | consumes idle consume => exact .consumes _ consume rfl rfl
  | stepsFlush begun step =>
      exact .grows [] (Pipe.flush_grows step) (fun _ htidy => htidy.flush step)
        (List.append_nil _).symm rfl
  | stepsRead begun step => exact .keeps id (Pipe.read_keeps step).1 rfl rfl
  | completesReader => exact .closes rfl rfl
  | shares blank => exact .keeps (fun _ => blank) (.refl _) rfl rfl
  | flushes | reads => exact .keeps id (.refl _) rfl rfl
  | dropsFlush | dropsRead | completesWriter | cancelsFlush | cancelsRead =>
      exact .keeps id ⟨rfl, rfl, rfl, rfl, rfl⟩ rfl rfl

/-- What every turn keeps is true after every run. -/
theorem invariant_run {P : Conduit → Prop} {turns : List Turn}
    (hturn : ∀ {s s' : Conduit} {t : Turn}, P s → s.turn? t = some s' → P s') (h : P s)
    (hrun : s.run? turns = some s') : P s' := by
  induction turns generalizing s with
  | nil =>
      cases hrun
      exact h
  | cons t turns ih =>
      simp only [run?] at hrun
      split at hrun
      · cases hrun
      · next hfirst => exact ih (hturn h hfirst) hrun

theorem exists_run?_of_append {turns more : List Turn} (hrun : s.run? (turns ++ more) = some s') :
    ∃ s₁, s.run? turns = some s₁ ∧ s₁.run? more = some s' := by
  induction turns generalizing s with
  | nil => exact ⟨s, rfl, hrun⟩
  | cons t turns ih =>
      simp only [List.cons_append, run?] at hrun ⊢
      split at hrun
      · cases hrun
      · exact ih hrun

/-! ## 3. Every turn keeps the account -/

/-- The pipe is tidy, and as long as its reader has not finished it holds what was written and not
consumed. -/
structure Sound (s : Conduit) : Prop where
  blank : s.pool.Blank
  tidy : s.pipe.Tidy
  account : s.pipe.readerCompleted = false → s.written = s.consumed ++ s.pipe.pendingBytes

theorem sound_new (thresholds : Thresholds) : (new thresholds).Sound where
  blank := BlockPool.blank_empty
  tidy := .new thresholds
  account _ := rfl

/-- **Every turn keeps the account.** -/
theorem Sound.turn {t : Turn} (h : s.Sound) (hturn : s.turn? t = some s') : s'.Sound := by
  cases effect_turn hturn with
  | grows bs hgrows htidy hwritten hconsumed =>
      refine ⟨hgrows.blank h.blank, htidy h.blank h.tidy, fun hopen => ?_⟩
      have hopen' : s.pipe.readerCompleted = false := hgrows.readerCompleted_eq.symm.trans hopen
      have hpending : s'.pipe.pendingBytes = s.pipe.pendingBytes ++ bs :=
        hgrows.pending h.blank hopen'
      rw [hwritten, h.account hopen', hconsumed, hpending, List.append_assoc]
  | consumes n hconsume hwritten hconsumed =>
      refine ⟨Pipe.blank_consume hconsume h.blank, h.tidy.consume hconsume, fun hopen => ?_⟩
      have hpending :
          s.pipe.unread.toList.take n ++ s'.pipe.pendingBytes = s.pipe.pendingBytes := by
        obtain ⟨rfl, -, hpipe⟩ | ⟨-, -, -, hpipe⟩ := Pipe.consume_eq hconsume
        · simp [hpipe]
        · simp [hpipe, Pipe.pendingBytes, ← List.append_assoc]
      have hopen' : s.pipe.readerCompleted = false := by
        rw [← hopen, Pipe.readerCompleted_consume hconsume]
      rw [hwritten, h.account hopen', hconsumed, List.append_assoc, hpending]
  | closes hpool hpipe =>
      refine ⟨?_, ?_, fun hopen => ?_⟩
      · rw [hpool]
        exact Pipe.blank_completeReader s.pipe h.blank
      · rw [hpipe]
        exact h.tidy.completeReader s.pool
      · rw [hpipe] at hopen
        cases hopen

theorem Sound.run {turns : List Turn} (h : s.Sound) (hrun : s.run? turns = some s') :
    s'.Sound :=
  invariant_run (fun hs hturn => hs.turn hturn) h hrun

theorem readerCompleted_turn {t : Turn} (hdone : s.pipe.readerCompleted = true)
    (hturn : s.turn? t = some s') : s'.pipe.readerCompleted = true := by
  cases effect_turn hturn with
  | grows bs hgrows htidy hwritten hconsumed => exact hgrows.readerCompleted_eq.trans hdone
  | consumes n hconsume hwritten hconsumed =>
      exact (Pipe.readerCompleted_consume hconsume).trans hdone
  | closes hpool hpipe =>
      rw [hpipe]
      rfl

/-! ## 4. From one end to the other -/

/-- Bytes that are copied to the memory provided, as many as there is room for, can be declared
written, and are what was written then. -/
theorem run_fill_commit {bs : Bytes} (hflush : s.flush = none) (hroom : bs.length ≤ s.pipe.room) :
    ∃ s', s.run? [.writer (.fill bs), .writer (.commit bs.length)] = some s' ∧
      s'.written = s.written ++ bs := by
  obtain ⟨q, hq, -⟩ := Pipe.fillMemory_advance_grows s.pool hroom
  refine ⟨{ s with pipe := q, written := s.written ++ (s.pipe.fillMemory bs).memory bs.length },
    ?_, by simp only [Pipe.memory_fillMemory hroom]⟩
  simp only [run?, turn?, writerTurn?, hflush, if_true, hq]

/-- As much as is unread can be consumed. -/
theorem exists_consume {n : Nat} (h : s.Sound) (hread : s.read = none)
    (hn : n ≤ s.pipe.unread.toList.length) :
    ∃ s', s.turn? (.reader (.consume n)) = some s' ∧
      s'.consumed = s.consumed ++ s.pipe.unread.toList.take n := by
  have hsize : ¬ s.pipe.unread.size < n := by
    rw [h.tidy.sound.size_eq]
    exact Nat.not_lt_of_le hn
  obtain ⟨⟨pool, pipe⟩, hconsume⟩ : ∃ r, s.pipe.consume n s.pool = .ok r := by
    unfold Pipe.consume
    split
    · exact ⟨_, rfl⟩
    · rw [Buffer.advance, if_neg hsize]
      exact ⟨_, rfl⟩
  refine ⟨{ s with pool, pipe, consumed := s.consumed ++ s.pipe.unread.toList.take n }, ?_, rfl⟩
  simp only [turn?, readerTurn?, hread, if_true, hconsume]

/-- **A pipe neither loses, doubles nor reorders bytes**, whatever its two ends do and in whichever
order they do it. As long as the reader has not finished, all that was written is what was consumed,
then what is unread, then what is staged, then what the current block holds; the last two are what
is counted as unflushed; a read that ends returns what is unread, and no segment is empty or larger
than a block. The memory provided takes as many bytes as there is room for, and the reader may
consume as much as is unread. Once the reader has finished nothing is ever unread again. -/
theorem written_eq_of_run (thresholds : Thresholds) (turns : List Turn) {s : Conduit}
    (hrun : (new thresholds).run? turns = some s) :
    (s.pipe.readerCompleted = false → s.written =
      s.consumed ++ s.pipe.unread.toList ++ s.pipe.staged.flatMap (·.bytes) ++
        (s.pipe.current.map (·.filled)).getD []) ∧
    s.pipe.unflushed = (s.pipe.staged.flatMap (·.bytes)).length +
      ((s.pipe.current.map (·.filled)).getD []).length ∧
    (∀ stage outcome pipe, s.read = some stage →
      stage.step? s.pipe = some (.done outcome, pipe) → outcome.buffer = s.pipe.unread) ∧
    (∀ segment ∈ s.pipe.unread.segments ++ s.pipe.staged,
      segment.bytes ≠ [] ∧ segment.bytes.length ≤ Block.capacity) ∧
    (∀ bs, s.flush = none → bs.length ≤ s.pipe.room → ∃ s',
      s.run? [.writer (.fill bs), .writer (.commit bs.length)] = some s' ∧
        s'.written = s.written ++ bs) ∧
    (∀ n, s.read = none → n ≤ s.pipe.unread.toList.length → ∃ s',
      s.turn? (.reader (.consume n)) = some s' ∧
        s'.consumed = s.consumed ++ s.pipe.unread.toList.take n) ∧
    (s.pipe.readerCompleted = true → ∀ more s', s.run? more = some s' →
      s'.pipe.readerCompleted = true ∧ s'.pipe.unread = {}) := by
  have h := (sound_new thresholds).run hrun
  refine ⟨fun hopen => ?_, ?_, fun stage outcome pipe _ hstep => ?_, fun segment hsegment => ?_,
    fun bs => run_fill_commit, fun n => exists_consume h, fun hdone more s' hmore => ?_⟩
  · rw [h.account hopen, Pipe.pendingBytes]
    simp only [List.append_assoc]
  · rw [h.tidy.unflushed_eq, Pipe.behind, List.length_append]
  · exact (Pipe.read_keeps hstep).2 outcome rfl
  · rcases List.mem_append.mp hsegment with hunread | hstaged
    · exact ⟨h.tidy.sound.ne_nil segment hunread, h.tidy.unread_le segment hunread⟩
    · exact ⟨h.tidy.staged_ne_nil segment hstaged, h.tidy.staged_le segment hstaged⟩
  · have hdone' := invariant_run (P := fun s => s.pipe.readerCompleted = true)
      readerCompleted_turn hdone hmore
    exact ⟨hdone', (h.run hmore).tidy.unread_of_completed hdone'⟩

/-- A flush that waits is given up, and the reader consumes a part of what it made visible. -/
def dropTurns : List Turn :=
  [.writer (.write [1, 2, 3]), .writer (.provide 4096), .writer (.fill [4, 5]),
    .writer (.commit 2), .writer .flush, .stepFlush, .stepFlush, .stepFlush, .dropFlush,
    .reader .read, .stepRead, .reader (.consume 2), .writer (.write [6]), .writer (.provide 4096),
    .writer (.write [7])]

theorem written_eq_of_dropTurns : ∃ s, (new ⟨4, 2⟩).run? dropTurns = some s ∧
    s.consumed = [1, 2] ∧ s.pipe.unread.segmentLengths = [1, 2] ∧
      s.written = [1, 2, 3, 4, 5, 6, 7] := by
  have hseen : ((new ⟨4, 2⟩).run? dropTurns).map (fun s => (s.pipe.readerCompleted, s.consumed,
      s.pipe.unread, s.pipe.staged.flatMap (·.bytes), (s.pipe.current.map (·.filled)).getD [])) =
      some (false, [1, 2], ⟨[⟨[3], some 0⟩, ⟨[4, 5], some 1⟩], 3⟩, [6], [7]) := by
    decide +kernel
  obtain ⟨s, hrun, hs⟩ := Option.map_eq_some_iff.mp hseen
  simp only [Prod.mk.injEq] at hs
  obtain ⟨hopen, hconsumed, hunread, hstaged, hcurrent⟩ := hs
  refine ⟨s, hrun, hconsumed, by rw [hunread]; rfl, ?_⟩
  rw [(written_eq_of_run ⟨4, 2⟩ dropTurns hrun).1 hopen, hconsumed, hunread, hstaged, hcurrent]
  rfl

end Conduit

end Courier
