import Courier.Proofs.Pipe.Puts
import Courier.Proofs.Pipe.Waking

/-!
Courier.Proofs.Pipe.Steady — what the sides of a pipe have declared, and what is left behind.

Each side may be declared finished, and a flush or a read be canceled. `Pipe.Steady` says that
nothing of this has changed, and is true of most of what happens to a pipe. `Pipe.Going` says that
nothing of it has happened but that the writer may have finished: then a flush ends for lack of
unread bytes alone, and a read for something new.

A flush hands over all that was written, or leaves it behind.
-/

namespace Courier.Pipe

/-! ## 1. What is declared -/

/-- The reader has not finished, and nothing is to be canceled. -/
structure Going (p : Pipe) : Prop where
  reader : p.readerCompleted = false
  read : p.readCanceled = false
  flush : p.flushCanceled = false

/-- What both sides have declared of a pipe is left alone. -/
structure Steady (p q : Pipe) : Prop where
  readerCompleted_eq : q.readerCompleted = p.readerCompleted
  writerCompleted_eq : q.writerCompleted = p.writerCompleted
  readCanceled_eq : q.readCanceled = p.readCanceled
  flushCanceled_eq : q.flushCanceled = p.flushCanceled

variable {pool pool' : BlockPool} {p q : Pipe}

theorem Steady.refl (p : Pipe) : p.Steady p := ⟨rfl, rfl, rfl, rfl⟩

theorem Steady.trans {r : Pipe} (h : p.Steady q) (h' : q.Steady r) : p.Steady r :=
  ⟨h'.readerCompleted_eq.trans h.readerCompleted_eq,
    h'.writerCompleted_eq.trans h.writerCompleted_eq,
    h'.readCanceled_eq.trans h.readCanceled_eq, h'.flushCanceled_eq.trans h.flushCanceled_eq⟩

theorem Going.steady (h : p.Going) (hs : p.Steady q) : q.Going :=
  ⟨hs.readerCompleted_eq.trans h.reader, hs.readCanceled_eq.trans h.read,
    hs.flushCanceled_eq.trans h.flush⟩

theorem Private.steady (h : p.Private q) : p.Steady q := by
  unfold Private at h
  rw [h]
  exact ⟨rfl, rfl, rfl, rfl⟩

theorem Private.thresholds_eq (h : p.Private q) : q.thresholds = p.thresholds := by
  unfold Private at h
  rw [h]

theorem Private.unread_eq (h : p.Private q) : q.unread = p.unread := by
  unfold Private at h
  rw [h]

theorem publish_steady (pool : BlockPool) (p : Pipe) : p.Steady (p.publish pool).2.2 := by
  have hstaged := (stageCurrent_private pool p).steady
  unfold Pipe.publish
  dsimp only
  split
  · exact hstaged.trans ⟨rfl, rfl, rfl, rfl⟩
  · split <;> exact hstaged.trans ⟨rfl, rfl, rfl, rfl⟩

/-- What was written is handed over to a reader that has not finished. -/
theorem Going.publish (h : p.Going) (pool : BlockPool) :
    (p.publish pool).1 = none ∧ p.Steady (p.publish pool).2.2 := by
  refine ⟨?_, publish_steady pool p⟩
  have hopen := (h.steady (stageCurrent_private pool p).steady).reader
  unfold Pipe.publish
  dsimp only
  rw [if_neg (by rw [hopen]; exact Bool.false_ne_true)]
  split <;> rfl

theorem Going.checkSpace_eq (h : p.Going) (waited : Bool) :
    p.checkSpace waited = (if p.mayProceed waited then some {} else none, p) := by
  unfold checkSpace
  rw [if_neg (by rw [h.reader]; exact Bool.false_ne_true),
    if_neg (by rw [h.flush]; exact Bool.false_ne_true)]
  split <;> rfl

theorem Going.tryRead_eq (h : p.Going) : p.tryRead =
    if p.unexamined || p.writerCompleted then
      (some { buffer := p.unread, completed := p.writerCompleted }, { p with unexamined := false })
    else (none, p) := by
  unfold tryRead
  rw [if_neg (by rw [h.read]; exact Bool.false_ne_true)]

/-- A flush ends because there is room. -/
theorem Going.stepFlush {stage : FlushStage} {result : Staged FlushStage FlushOutcome}
    (h : p.Going) (hstep : stage.step? pool p = some (result, pool', q)) :
    p.Steady q ∧
      ∀ outcome, result = .done outcome → (outcome.completed || outcome.canceled) = false := by
  cases flush_step hstep with
  | dropped outcome publish =>
      have hnone := (h.publish pool).1
      rw [publish] at hnone
      cases hnone
  | published publish =>
      have hsteady := (h.publish pool).2
      rw [publish] at hsteady
      exact ⟨hsteady, fun _ heq => by cases heq⟩
  | done waited outcome flushCanceled =>
      simp only [FlushStage.step?, h.checkSpace_eq] at hstep
      cases hspace : p.mayProceed waited with
      | false =>
          rw [hspace] at hstep
          cases hstep
      | true =>
          simp only [hspace, if_true, Option.some.injEq, Prod.mk.injEq, Staged.done.injEq] at hstep
          obtain ⟨rfl, -, hsame⟩ := hstep
          rw [← hsame]
          exact ⟨.refl p, fun _ heq => by cases heq; rfl⟩
  | idle | permitted | waits | woken =>
      exact ⟨⟨rfl, rfl, rfl, rfl⟩, fun _ heq => by cases heq⟩

/-- A read ends because there is something new, or with the writer. -/
theorem Going.stepRead {stage : ReadStage} {result : Staged ReadStage ReadOutcome}
    (h : p.Going) (hstep : stage.step? p = some (result, q)) :
    p.Steady q ∧ ∀ outcome, result = .done outcome →
      outcome.canceled = false ∧ outcome.completed = p.writerCompleted := by
  cases read_step hstep with
  | done outcome unexamined readCanceled buffer =>
      simp only [ReadStage.step?, h.tryRead_eq] at hstep
      cases hnews : p.unexamined || p.writerCompleted with
      | false =>
          rw [hnews] at hstep
          cases hstep
      | true =>
          simp only [hnews, if_true, Option.some.injEq, Prod.mk.injEq, Staged.done.injEq] at hstep
          obtain ⟨rfl, hsame⟩ := hstep
          rw [← hsame]
          exact ⟨⟨rfl, rfl, rfl, rfl⟩, fun _ heq => by cases heq; exact ⟨rfl, rfl⟩⟩
  | idle | permitted | waits | woken =>
      exact ⟨⟨rfl, rfl, rfl, rfl⟩, fun _ heq => by cases heq⟩

/-- Finishing is all that a writer declares when it finishes. -/
theorem completeWriter_steady (pool : BlockPool) (p : Pipe) :
    { p with writerCompleted := true }.Steady (p.completeWriter pool).2 := by
  obtain ⟨hreader, -, hread, hflush⟩ := (stageCurrent_private pool p).steady
  unfold Pipe.completeWriter
  dsimp only
  split <;> exact ⟨hreader, rfl, hread, hflush⟩

theorem Going.completeWriter (h : p.Going) (pool : BlockPool) :
    (p.completeWriter pool).2.Going :=
  Going.steady (p := { p with writerCompleted := true }) ⟨h.reader, h.read, h.flush⟩
    (completeWriter_steady pool p)

theorem fillMemory_private (bs : Bytes) (p : Pipe) : p.Private (p.fillMemory bs) := rfl

/-! ## 2. What is left behind -/

theorem consume_steady {n : Nat} (h : p.consume n pool = .ok (pool', q)) :
    p.Steady q ∧ q.behind = p.behind := by
  obtain ⟨-, -, rfl⟩ | ⟨-, -, -, rfl⟩ := consume_eq h
  · exact ⟨.refl q, rfl⟩
  · exact ⟨⟨rfl, rfl, rfl, rfl⟩, rfl⟩

theorem read_behind {stage : ReadStage} {result : Staged ReadStage ReadOutcome}
    (h : stage.step? p = some (result, q)) : q.behind = p.behind := by
  obtain ⟨hkeeps, -⟩ := read_keeps h
  unfold behind
  rw [hkeeps.staged_eq, hkeeps.current_eq]

theorem behind_publish (pool : BlockPool) (p : Pipe) : (p.publish pool).2.2.behind = [] := by
  have hfilled := filled_stageCurrent pool p
  unfold publish behind
  dsimp only
  split
  · simpa using hfilled
  · split <;> simpa [appendUnread] using hfilled

theorem unflushed_publish (pool : BlockPool) (p : Pipe) : (p.publish pool).2.2.unflushed = 0 := by
  unfold publish
  dsimp only
  split
  · rfl
  · split
    · next hzero => exact hzero
    · rfl

/-- A step of a flush hands over everything, or nothing. -/
theorem keeps_or_behind_of_flush {stage : FlushStage} {pool' : BlockPool}
    {result : Staged FlushStage FlushOutcome}
    (h : stage.step? pool p = some (result, pool', q)) : p.Keeps q ∨ q.behind = [] := by
  obtain hpublish | ⟨-, hkeeps⟩ := flush_cases h
  · have hbehind := behind_publish pool p
    rw [hpublish] at hbehind
    exact .inr hbehind
  · exact .inl hkeeps

theorem Keeps.behind_eq (h : p.Keeps q) : q.behind = p.behind := by
  rw [behind, h.staged_eq, h.current_eq, behind]

/-- After the last of it was handed over, nothing is left behind. -/
theorem behind_completeWriter (pool : BlockPool) (p : Pipe) :
    (p.completeWriter pool).2.behind = [] := by
  have hfilled := filled_stageCurrent pool p
  unfold completeWriter behind
  dsimp only
  split <;> simpa [appendUnread] using hfilled

end Courier.Pipe
