import Courier.Proofs.Pipe.Steady

/-!
Courier.Proofs.Pipe.Finality — what a reader may still get once it was told that the writer is done.

A read that ends says whether the writer has finished, and with it that its buffer is all that is
left. It is, if the writer has handed over everything it has written and writes no more; and the
writer does hand over everything when it finishes itself. When the writer was declared finished from
outside it may hold bytes that are not flushed, and flush them later. Whatever happens, a later read
shows what the first one has shown, less what was consumed, and behind it nothing but such bytes and
what was written since (`Conduit.later_read_of_run`).

As long as a pipe is read, the bytes that were consumed or are unread only get more
(`Conduit.Extends`), so that two reads are compared by where their bytes begin and end among these.
-/

namespace Courier

namespace Pipe

variable {pool pool' : BlockPool} {p q : Pipe}

/-- A read tells whether the writer has finished. -/
theorem completed_of_read {stage : ReadStage} {outcome : ReadOutcome}
    (h : stage.step? p = some (.done outcome, q)) : outcome.completed = p.writerCompleted := by
  cases stage with
  | looking =>
      simp only [ReadStage.step?] at h
      split at h <;> cases h
      next htry =>
      unfold tryRead at htry
      split at htry
      · cases htry
        rfl
      · split at htry <;> cases htry
        rfl
  | parking | parked =>
      simp only [ReadStage.step?] at h
      split at h <;> cases h

/-- A step of a flush declares neither side finished. -/
theorem completed_flush {stage : FlushStage} {result : Staged FlushStage FlushOutcome}
    (h : stage.step? pool p = some (result, pool', q)) :
    q.readerCompleted = p.readerCompleted ∧ q.writerCompleted = p.writerCompleted := by
  have hsteady := publish_steady pool p
  cases flush_step h with
  | dropped outcome publish | published publish =>
      rw [publish] at hsteady
      exact ⟨hsteady.readerCompleted_eq, hsteady.writerCompleted_eq⟩
  | done | idle | permitted | waits | woken => exact ⟨rfl, rfl⟩

end Pipe

namespace Conduit

variable {s s' s₁ s₂ : Conduit}

/-! ## 1. Reads that end -/

/-- How the read that was begun ends, if it ends with its next step. -/
def readOutcome? (s : Conduit) : Option ReadOutcome :=
  match s.read.bind (·.step? s.pipe) with
  | some (.done outcome, _) => some outcome
  | _ => none

/-- A read that ends shows all that is unread, and tells whether the writer has finished. -/
theorem eq_of_readOutcome? {outcome : ReadOutcome} (h : s.readOutcome? = some outcome) :
    outcome.buffer = s.pipe.unread ∧ outcome.completed = s.pipe.writerCompleted := by
  unfold readOutcome? at h
  split at h <;> cases h
  next pipe hread =>
  obtain ⟨stage, -, hstep⟩ := Option.bind_eq_some_iff.mp hread
  exact ⟨(Pipe.read_keeps hstep).2 outcome rfl, Pipe.completed_of_read hstep⟩

/-! ## 2. What only gets more -/

/-- All that the reader has consumed or can read. -/
def received (s : Conduit) : Bytes :=
  s.consumed ++ s.pipe.unread.toList

theorem Sound.written_eq (h : s.Sound) (hopen : s.pipe.readerCompleted = false) :
    s.written = s.received ++ s.pipe.behind := by
  rw [h.account hopen, Pipe.pendingBytes_eq, received, List.append_assoc]

/-- The one comes after the other: a side that has finished has finished for good, and as long as
the pipe is read, there is only more. -/
structure Extends (s s' : Conduit) : Prop where
  writerCompleted : s.pipe.writerCompleted = true → s'.pipe.writerCompleted = true
  open_of_open : s'.pipe.readerCompleted = false → s.pipe.readerCompleted = false
  written : s'.pipe.readerCompleted = false → s.written <+: s'.written
  consumed : s'.pipe.readerCompleted = false → s.consumed <+: s'.consumed
  received : s'.pipe.readerCompleted = false → s.received <+: s'.received

theorem Extends.refl (s : Conduit) : s.Extends s :=
  ⟨id, id, fun _ => List.prefix_rfl, fun _ => List.prefix_rfl, fun _ => List.prefix_rfl⟩

theorem Extends.trans (h : s.Extends s₁) (h' : s₁.Extends s₂) : s.Extends s₂ where
  writerCompleted := h'.writerCompleted ∘ h.writerCompleted
  open_of_open := h.open_of_open ∘ h'.open_of_open
  written hopen := (h.written (h'.open_of_open hopen)).trans (h'.written hopen)
  consumed hopen := (h.consumed (h'.open_of_open hopen)).trans (h'.consumed hopen)
  received hopen := (h.received (h'.open_of_open hopen)).trans (h'.received hopen)

/-- The reader is declared finished. -/
def Turn.completesReader : Turn → Bool
  | .completeReader => true
  | _ => false

/-- The writer is declared finished, by itself or from outside. -/
def Turn.completesWriter : Turn → Bool
  | .writer .complete | .completeWriter => true
  | _ => false

/-- The sides that a turn leaves finished are those that were, and those it declares so. -/
structure Declares (t : Turn) (s s' : Conduit) : Prop where
  reader : s'.pipe.readerCompleted = (s.pipe.readerCompleted || t.completesReader)
  writer : s'.pipe.writerCompleted = (s.pipe.writerCompleted || t.completesWriter)

theorem Declares.of_steady {t : Turn} (h : s.pipe.Steady s'.pipe)
    (hreader : t.completesReader = false) (hwriter : t.completesWriter = false) :
    Declares t s s' where
  reader := by rw [hreader, Bool.or_false, h.readerCompleted_eq]
  writer := by rw [hwriter, Bool.or_false, h.writerCompleted_eq]

/-- A side that finishes is declared finished by just that turn. -/
theorem declares_turn {t : Turn} (hturn : s.turn? t = some s') : Declares t s s' := by
  cases does_of_turn hturn with
  | writes bs => exact .of_steady (Pipe.write_private bs s.pool s.pipe).steady rfl rfl
  | provides atLeast =>
      exact .of_steady (Pipe.ensureMemory_private atLeast s.pool s.pipe).steady rfl rfl
  | fills bs => exact .of_steady (Pipe.fillMemory_private bs s.pipe).steady rfl rfl
  | commits idle advance => exact .of_steady (Pipe.advance_private advance).steady rfl rfl
  | completes =>
      have hsteady := Pipe.completeWriter_steady s.pool s.pipe
      exact ⟨hsteady.readerCompleted_eq.trans (Bool.or_false _).symm,
        hsteady.writerCompleted_eq.trans (Bool.or_true _).symm⟩
  | consumes idle consume => exact .of_steady (Pipe.consume_steady consume).1 rfl rfl
  | stepsFlush begun step =>
      obtain ⟨hreader, hwriter⟩ := Pipe.completed_flush step
      exact ⟨hreader.trans (Bool.or_false _).symm, hwriter.trans (Bool.or_false _).symm⟩
  | stepsRead begun step =>
      cases Pipe.read_step step <;> exact ⟨(Bool.or_false _).symm, (Bool.or_false _).symm⟩
  | completesWriter => exact ⟨(Bool.or_false _).symm, (Bool.or_true _).symm⟩
  | completesReader => exact ⟨(Bool.or_true _).symm, (Bool.or_false _).symm⟩
  | flushes | reads | dropsFlush | dropsRead | cancelsFlush | cancelsRead | shares =>
      exact ⟨(Bool.or_false _).symm, (Bool.or_false _).symm⟩

theorem extends_turn {t : Turn} (hturn : s.turn? t = some s') : s.Extends s' := by
  have hdeclares := declares_turn hturn
  have hwriter (hdone : s.pipe.writerCompleted = true) : s'.pipe.writerCompleted = true := by
    rw [hdeclares.writer, hdone, Bool.true_or]
  have hreader (hopen : s'.pipe.readerCompleted = false) : s.pipe.readerCompleted = false := by
    rw [hdeclares.reader, Bool.or_eq_false_iff] at hopen
    exact hopen.1
  cases effect_turn hturn with
  | grows bs hgrows htidy hwritten hconsumed =>
      refine ⟨hwriter, hreader, fun _ => ?_, fun _ => ?_, fun _ => ?_⟩
      · rw [hwritten]
        exact List.prefix_append _ _
      · exact ⟨[], (List.append_nil _).trans hconsumed.symm⟩
      · rw [received, received, hconsumed]
        exact (List.prefix_append_right_inj _).mpr hgrows.unread
  | consumes n hconsume hwritten hconsumed =>
      refine ⟨hwriter, hreader, fun _ => ?_, fun _ => ?_, fun _ => ?_⟩
      · exact ⟨[], (List.append_nil _).trans hwritten.symm⟩
      · rw [hconsumed]
        exact List.prefix_append _ _
      · -- what is consumed was unread
        have hsame : s'.received = s.received := by
          rw [received, hconsumed]
          obtain ⟨rfl, -, hpipe⟩ | ⟨-, -, -, hpipe⟩ := Pipe.consume_eq hconsume
          · rw [hpipe, List.take_zero, List.append_nil, received]
          · simp [hpipe, received]
        exact ⟨[], (List.append_nil _).trans hsame.symm⟩
  | closes hpool hpipe =>
      have hnever (hopen : s'.pipe.readerCompleted = false) : False := by
        rw [hpipe] at hopen
        cases hopen
      exact ⟨hwriter, hreader, fun hopen => (hnever hopen).elim, fun hopen => (hnever hopen).elim,
        fun hopen => (hnever hopen).elim⟩

theorem extends_run {turns : List Turn} (hrun : s.run? turns = some s') : s.Extends s' :=
  invariant_run (P := s.Extends) (fun h hturn => h.trans (extends_turn hturn)) (.refl s) hrun

/-! ## 3. What was written by then -/

/-- Bytes are put into the pipe. -/
def Turn.puts : Turn → Bool
  | .writer (.write _) | .writer (.commit _) => true
  | _ => false

/-- Nothing else is written. -/
theorem written_turn {t : Turn} (hputs : t.puts = false) (hturn : s.turn? t = some s') :
    s'.written = s.written := by
  cases does_of_turn hturn with
  | writes | commits => cases hputs
  | _ => rfl

theorem written_run {turns : List Turn} (hputs : ∀ t ∈ turns, t.puts = false)
    (hrun : s.run? turns = some s') : s'.written = s.written := by
  induction turns generalizing s with
  | nil =>
      cases hrun
      rfl
  | cons t turns ih =>
      simp only [run?] at hrun
      split at hrun
      · cases hrun
      · next hfirst =>
        rw [ih (fun u hu => hputs u (by simp [hu])) hrun, written_turn (hputs t (by simp)) hfirst]

/-- As long as the pipe is read, what is written later is behind, or has been handed over. -/
theorem Sound.exists_handed {turns : List Turn} (h : s.Sound) (hrun : s.run? turns = some s')
    (hopen : s'.pipe.readerCompleted = false) : ∃ handed,
      s'.received = s.received ++ handed ∧
        handed ++ s'.pipe.behind = s.pipe.behind ++ s'.written.drop s.written.length := by
  have hextends := extends_run hrun
  obtain ⟨handed, hhanded⟩ := hextends.received hopen
  obtain ⟨later, hlater⟩ := hextends.written hopen
  refine ⟨handed, hhanded.symm, ?_⟩
  have hwritten := (h.run hrun).written_eq hopen
  rw [← hlater, h.written_eq (hextends.open_of_open hopen), ← hhanded, List.append_assoc,
    List.append_assoc, List.append_cancel_left_eq] at hwritten
  rw [← hwritten, ← hlater, List.drop_left' rfl]

/-- Where nothing is behind and nothing is written any more, nothing comes. -/
theorem Sound.received_of_run {turns : List Turn} (h : s.Sound)
    (hputs : ∀ t ∈ turns, t.puts = false) (hbehind : s.pipe.behind = [])
    (hrun : s.run? turns = some s') (hopen : s'.pipe.readerCompleted = false) :
    s'.received = s.received ∧ s'.pipe.behind = [] := by
  obtain ⟨handed, hreceived, hhanded⟩ := h.exists_handed hrun hopen
  rw [written_run hputs hrun, hbehind, List.drop_length, List.append_nil,
    List.append_eq_nil_iff] at hhanded
  exact ⟨by rw [hreceived, hhanded.1, List.append_nil], hhanded.2⟩

/-! ## 4. Reads after the last one -/

/-- What a later read shows of what the reader has received by then. -/
theorem unread_of_extends (h : s.Extends s') {handed : Bytes}
    (hopen : s'.pipe.readerCompleted = false) (hreceived : s'.received = s.received ++ handed) :
    s'.pipe.unread.toList =
      (s.pipe.unread.toList ++ handed).drop (s'.consumed.length - s.consumed.length) := by
  obtain ⟨since, hsince⟩ := h.consumed hopen
  rw [received, received, ← hsince, List.append_assoc, List.append_assoc,
    List.append_cancel_left_eq] at hreceived
  rw [← hreceived, ← hsince, List.length_append, Nat.add_sub_cancel_left, List.drop_left' rfl]

/-- **What comes after a read that was told that the writer has finished.** Each later read is told
the same. As long as the pipe is read, it shows the bytes that the first one has shown, less those
that were consumed since, and behind them a front of what the writer held unflushed then and has
written since; if the reader has finished, it shows nothing. So it shows nothing new if the writer
held nothing unflushed and puts nothing into the pipe any more, and also if the writer had finished
itself and puts nothing into the pipe since. -/
theorem later_read_of_run (thresholds : Thresholds) (turns more : List Turn)
    {outcome later : ReadOutcome} (hrun : (new thresholds).run? turns = some s)
    (hread : s.readOutcome? = some outcome) (hcompleted : outcome.completed = true)
    (hmore : s.run? (.stepRead :: more) = some s') (hlater : s'.readOutcome? = some later) :
    later.completed = true ∧
    (s'.pipe.readerCompleted = false → ∃ handed,
      handed ++ s'.pipe.behind = s.pipe.behind ++ s'.written.drop s.written.length ∧
        later.buffer.toList =
          (outcome.buffer.toList ++ handed).drop (s'.consumed.length - s.consumed.length)) ∧
    (s'.pipe.readerCompleted = true → later.buffer.toList = []) ∧
    (s.pipe.unflushed = 0 → (∀ t ∈ more, t.puts = false) →
      later.buffer.toList <:+ outcome.buffer.toList) ∧
    (∀ front rest, turns = front ++ .writer .complete :: rest →
      (∀ t ∈ rest ++ more, t.puts = false) → later.buffer.toList <:+ outcome.buffer.toList) := by
  have h := (sound_new thresholds).run hrun
  have hextends := extends_run hmore
  obtain ⟨hbuffer, hdone⟩ := eq_of_readOutcome? hread
  obtain ⟨hbuffer', hdone'⟩ := eq_of_readOutcome? hlater
  rw [hdone] at hcompleted
  rw [hdone', hbuffer, hbuffer']
  have hclosed : s'.pipe.readerCompleted = true → s'.pipe.unread.toList = [] := fun hclosed => by
    rw [(h.run hmore).tidy.unread_of_completed hclosed]
    rfl
  -- where nothing is behind, a later read shows the end of what the first one has shown
  have hsuffix (hnone : ∀ t ∈ more, t.puts = false)
      (hbehind : s'.pipe.readerCompleted = false → s.pipe.behind = []) :
      s'.pipe.unread.toList <:+ s.pipe.unread.toList := by
    cases hopen : s'.pipe.readerCompleted with
    | true =>
        rw [hclosed hopen]
        exact List.nil_suffix
    | false =>
        have hputs : ∀ t ∈ Turn.stepRead :: more, t.puts = false :=
          List.forall_mem_cons.mpr ⟨rfl, hnone⟩
        obtain ⟨hreceived, -⟩ := h.received_of_run hputs (hbehind hopen) hmore hopen
        rw [unread_of_extends hextends hopen (hreceived.trans (List.append_nil _).symm),
          List.append_nil]
        exact List.drop_suffix _ _
  refine ⟨hextends.writerCompleted hcompleted, fun hopen => ?_, hclosed,
    fun hunflushed hnone => hsuffix hnone fun _ => ?_, fun front rest hturns hnone => ?_⟩
  · obtain ⟨handed, hreceived, hhanded⟩ := h.exists_handed hmore hopen
    exact ⟨handed, hhanded, unread_of_extends hextends hopen hreceived⟩
  · exact List.eq_nil_of_length_eq_zero (h.tidy.unflushed_eq.symm.trans hunflushed)
  · simp only [List.mem_append, or_imp, forall_and] at hnone
    refine hsuffix hnone.2 fun hopen => ?_
    rw [hturns] at hrun
    obtain ⟨s₀, hfront, hrest⟩ := exists_run?_of_append hrun
    simp only [run?] at hrest
    split at hrest
    · cases hrest
    · next s₁ hturn =>
      have hbehind : s₁.pipe.behind = [] := by
        simp only [turn?] at hturn
        split at hturn
        · cases hturn
          exact Pipe.behind_completeWriter _ _
        · cases hturn
      have h₁ := ((sound_new thresholds).run hfront).turn hturn
      exact (h₁.received_of_run hnone.1 hbehind hrest (hextends.open_of_open hopen)).2

/-- A read shows all that a writer has put into the pipe before it finished, and the next one what
the reader has not consumed of it. -/
theorem later_read_of_finished : ∃ s s' outcome later,
    (new {}).run? [.writer (.write [1, 2, 3]), .writer .complete, .reader .read] = some s ∧
    s.readOutcome? = some outcome ∧ outcome.completed = true ∧
    s.run? [.stepRead, .reader (.consume 2), .writer .flush, .stepFlush, .reader .read] = some s' ∧
    s'.readOutcome? = some later ∧ outcome.buffer.toList = [1, 2, 3] ∧
    later.buffer.toList = [3] ∧ later.completed = true ∧
      later.buffer.toList <:+ outcome.buffer.toList := by
  have hseen : ((new {}).run? [.writer (.write [1, 2, 3]), .writer .complete, .reader .read]).map
      (fun s => (s.readOutcome?, (s.run? [.stepRead, .reader (.consume 2), .writer .flush,
        .stepFlush, .reader .read]).map (·.readOutcome?))) =
      some (some ⟨⟨[⟨[1, 2, 3], some 0⟩], 3⟩, true, false⟩,
        some (some ⟨⟨[⟨[3], some 0⟩], 1⟩, true, false⟩)) := by
    decide +kernel
  obtain ⟨s, hrun, hs⟩ := Option.map_eq_some_iff.mp hseen
  obtain ⟨hread, hmore⟩ := Prod.mk.inj hs
  obtain ⟨s', hmore, hlater⟩ := Option.map_eq_some_iff.mp hmore
  obtain ⟨hcompleted, -, -, -, hfinal⟩ := later_read_of_run {} _ _ hrun hread rfl hmore hlater
  exact ⟨s, s', _, _, hrun, hread, rfl, hmore, hlater, rfl, rfl, hcompleted,
    hfinal [.writer (.write [1, 2, 3])] _ rfl (by decide)⟩

/-- A writer that was declared finished from outside flushes what it holds: the read before it was
told that nothing is left, and the read after it shows a byte. -/
theorem byte_after_completion : ∃ s s' outcome later,
    (new {}).run? [.writer (.write [97]), .completeWriter, .reader .read] = some s ∧
    s.readOutcome? = some outcome ∧ outcome.completed = true ∧ outcome.buffer.toList = [] ∧
    s.run? [.stepRead, .writer .flush, .stepFlush, .stepFlush, .reader .read] = some s' ∧
    s'.readOutcome? = some later ∧ later.buffer.toList = [97] ∧
      ¬ later.buffer.toList <:+ outcome.buffer.toList := by
  have hseen : ((new {}).run? [.writer (.write [97]), .completeWriter, .reader .read]).map
      (fun s => (s.readOutcome?, (s.run? [.stepRead, .writer .flush, .stepFlush, .stepFlush,
        .reader .read]).map (·.readOutcome?))) =
      some (some ⟨⟨[], 0⟩, true, false⟩, some (some ⟨⟨[⟨[97], some 0⟩], 1⟩, true, false⟩)) := by
    decide +kernel
  obtain ⟨s, hrun, hs⟩ := Option.map_eq_some_iff.mp hseen
  obtain ⟨hread, hmore⟩ := Prod.mk.inj hs
  obtain ⟨s', hmore, hlater⟩ := Option.map_eq_some_iff.mp hmore
  exact ⟨s, s', _, _, hrun, hread, rfl, rfl, hmore, hlater, rfl, by decide⟩

end Conduit

end Courier
