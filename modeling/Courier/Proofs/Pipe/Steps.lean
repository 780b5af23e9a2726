import Courier.Pipe.Stages

/-!
Courier.Proofs.Pipe.Steps — what a step of a flush or of a read can be.

A step looks at the pipe once: it ends the call, or finds that the call has to wait, or waits, or
goes on from a wait; the first step of a flush hands over what was written. `ReadStage.Step` and
`FlushStage.Step` say what a step can be and what is true when it is that. What is known of steps
follows from them.
-/

namespace Courier

namespace Pipe

/-! ## 1. Reasons to wait -/

/-- There is nothing for a read to return. -/
def Quiet (p : Pipe) : Prop :=
  p.unexamined = false ∧ p.writerCompleted = false ∧ p.readCanceled = false

/-- There is nothing for a flush to go on for. -/
def Crowded (waited : Bool) (p : Pipe) : Prop :=
  p.readerCompleted = false ∧ p.flushCanceled = false ∧ p.mayProceed waited = false

end Pipe

/-! ## 2. Steps -/

/-- What a step of a read can be. -/
inductive ReadStage.Step (p : Pipe) : ReadStage → Staged ReadStage ReadOutcome → Pipe → Prop where
  | done (outcome : ReadOutcome) (unexamined readCanceled : Bool)
      (buffer : outcome.buffer = p.unread) :
      Step p .looking (.done outcome) { p with unexamined, readCanceled }
  | idle (quiet : p.Quiet) : Step p .looking (.next .parking) p
  | permitted : Step p .parking (.next .looking) { p with dataSignal := {} }
  | waits (permit : p.dataSignal.permit = false) :
      Step p .parking (.next .parked) { p with dataSignal := { waiter := .waiting } }
  | woken : Step p .parked (.next .looking) { p with dataSignal := p.dataSignal.resume }

/-- What a step of a flush can be. -/
inductive FlushStage.Step (pool : BlockPool) (p : Pipe) :
    FlushStage → Staged FlushStage FlushOutcome → BlockPool → Pipe → Prop where
  | dropped (outcome : FlushOutcome) {pool' : BlockPool} {q : Pipe}
      (publish : p.publish pool = (some outcome, pool', q)) :
      Step pool p .publishing (.done outcome) pool' q
  | published {pool' : BlockPool} {q : Pipe} (publish : p.publish pool = (none, pool', q)) :
      Step pool p .publishing (.next (.checking false)) pool' q
  | done (waited : Bool) (outcome : FlushOutcome) (flushCanceled : Bool) :
      Step pool p (.checking waited) (.done outcome) pool { p with flushCanceled }
  | idle (waited : Bool) (crowded : p.Crowded waited) :
      Step pool p (.checking waited) (.next .parking) pool p
  | permitted : Step pool p .parking (.next (.checking true)) pool { p with spaceSignal := {} }
  | waits (permit : p.spaceSignal.permit = false) :
      Step pool p .parking (.next .parked) pool { p with spaceSignal := { waiter := .waiting } }
  | woken :
      Step pool p .parked (.next (.checking true)) pool
        { p with spaceSignal := p.spaceSignal.resume }

namespace Pipe

variable {pool pool' : BlockPool} {p q : Pipe}

theorem Quiet.tryRead_eq (h : p.Quiet) : p.tryRead = (none, p) := by
  obtain ⟨hnews, hopen, hcanceled⟩ := h
  simp [tryRead, hnews, hopen, hcanceled]

theorem tryRead_cases (p : Pipe) : p.tryRead = (none, p) ∧ p.Quiet ∨
    ∃ outcome unexamined readCanceled, outcome.buffer = p.unread ∧
      p.tryRead = (some outcome, { p with unexamined, readCanceled }) := by
  unfold tryRead
  split
  · exact .inr ⟨_, p.unexamined, false, rfl, rfl⟩
  · next hcanceled =>
    split
    · exact .inr ⟨_, false, p.readCanceled, rfl, rfl⟩
    · next hnews =>
      simp only [Bool.or_eq_true, not_or, Bool.not_eq_true] at hcanceled hnews
      exact .inl ⟨rfl, hnews.1, hnews.2, hcanceled⟩

theorem read_step {stage : ReadStage} {result : Staged ReadStage ReadOutcome}
    (h : stage.step? p = some (result, q)) : ReadStage.Step p stage result q := by
  cases stage with
  | looking =>
      simp only [ReadStage.step?] at h
      obtain ⟨htry, hquiet⟩ | ⟨outcome, unexamined, readCanceled, hbuffer, htry⟩ :=
        tryRead_cases p
      · rw [htry] at h
        cases h
        exact .idle hquiet
      · rw [htry] at h
        cases h
        exact .done outcome unexamined readCanceled hbuffer
  | parking =>
      simp only [ReadStage.step?, Signal.wait] at h
      cases hpermit : p.dataSignal.permit with
      | true =>
          rw [if_pos hpermit] at h
          cases h
          exact .permitted
      | false =>
          rw [if_neg (by rw [hpermit]; exact Bool.false_ne_true)] at h
          cases h
          exact .waits hpermit
  | parked =>
      simp only [ReadStage.step?] at h
      split at h <;> cases h
      exact .woken

theorem checkSpace_cases (waited : Bool) (p : Pipe) :
    p.checkSpace waited = (none, p) ∧ p.Crowded waited ∨
      ∃ outcome flushCanceled, p.checkSpace waited = (some outcome, { p with flushCanceled }) := by
  unfold checkSpace
  split
  · exact .inr ⟨_, p.flushCanceled, rfl⟩
  · next hopen =>
    split
    · exact .inr ⟨_, false, rfl⟩
    · next hcanceled =>
      split
      · exact .inr ⟨_, p.flushCanceled, rfl⟩
      · next hspace =>
        rw [Bool.not_eq_true] at hopen hcanceled hspace
        exact .inl ⟨rfl, hopen, hcanceled, hspace⟩

theorem flush_step {stage : FlushStage} {result : Staged FlushStage FlushOutcome}
    (h : stage.step? pool p = some (result, pool', q)) :
    FlushStage.Step pool p stage result pool' q := by
  cases stage with
  | publishing =>
      simp only [FlushStage.step?] at h
      split at h <;> cases h
      · next hpublish => exact .dropped _ hpublish
      · next hpublish => exact .published hpublish
  | checking waited =>
      simp only [FlushStage.step?] at h
      obtain ⟨hcheck, hcrowded⟩ | ⟨outcome, flushCanceled, hcheck⟩ := checkSpace_cases waited p
      · rw [hcheck] at h
        cases h
        exact .idle waited hcrowded
      · rw [hcheck] at h
        cases h
        exact .done waited outcome flushCanceled
  | parking =>
      simp only [FlushStage.step?, Signal.wait] at h
      cases hpermit : p.spaceSignal.permit with
      | true =>
          rw [if_pos hpermit] at h
          cases h
          exact .permitted
      | false =>
          rw [if_neg (by rw [hpermit]; exact Bool.false_ne_true)] at h
          cases h
          exact .waits hpermit
  | parked =>
      simp only [FlushStage.step?] at h
      split at h <;> cases h
      exact .woken

end Pipe

end Courier
