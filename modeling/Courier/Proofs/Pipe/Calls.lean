import Courier.Proofs.Pipe.Conduit

/-!
Courier.Proofs.Pipe.Calls — a call of a pipe as a whole is a run of its steps.

`Pipe.beginFlush`, `Pipe.resumeFlush`, `Pipe.beginRead` and `Pipe.resumeRead` are calls as one sees
them who does nothing between two looks. Each leaves a pipe that a conduit comes to by steps of that
call alone, so what is known of every run of a conduit is known of a pipe that is used by whole
calls.
-/

namespace Courier.Conduit

variable {s s' : Conduit}

/-! ## 1. Repeating a turn -/

/-- Where a call is that was made with this result: it has ended, or it waits. -/
def pendingAt {σ ω : Type} (parked : σ) : Option ω → Option σ
  | some _ => none
  | none => some parked

/-- The conduit gets from one state to another by one turn, taken some times. -/
def Repeats (t : Turn) (s s' : Conduit) : Prop :=
  ∃ n, s.run? (List.replicate n t) = some s'

theorem Repeats.refl (t : Turn) (s : Conduit) : s.Repeats t s := ⟨0, rfl⟩

theorem Repeats.head {t : Turn} {s₁ : Conduit} (hturn : s.turn? t = some s₁)
    (h : s₁.Repeats t s') : s.Repeats t s' := by
  obtain ⟨n, hrun⟩ := h
  refine ⟨n + 1, ?_⟩
  simp only [List.replicate_succ, run?, hturn, hrun]

variable {pool : BlockPool} {pipe : Pipe}

theorem Repeats.flush {stage : FlushStage} {result : Staged FlushStage FlushOutcome}
    (hflush : s.flush = some stage) (hstep : stage.step? s.pool s.pipe = some (result, pool, pipe))
    (h : Repeats .stepFlush
      { s with pool, pipe, flush := result.next?, waited := s.waitedAfter stage } s') :
    s.Repeats .stepFlush s' :=
  .head (by simp only [turn?, stepFlush?, hflush, hstep]) h

theorem Repeats.read {stage : ReadStage} {result : Staged ReadStage ReadOutcome}
    (hread : s.read = some stage) (hstep : stage.step? s.pipe = some (result, pipe))
    (h : Repeats .stepRead { s with pipe, read := result.next?, shown := s.shownAfter result } s') :
    s.Repeats .stepRead s' :=
  .head (by simp only [turn?, stepRead?, hread, hstep]) h

/-! ## 2. Flushes -/

/-- A flush that is about to wait looks once more if a permit is stored. -/
theorem repeats_waitForSpace (hflush : s.flush = some .parking) : ∃ waited,
    s.Repeats .stepFlush { s with
      pipe := s.pipe.waitForSpace.2,
      flush := pendingAt .parked s.pipe.waitForSpace.1, waited } := by
  cases hpermit : s.pipe.spaceSignal.permit with
  | false =>
      have hwait : s.pipe.waitForSpace =
          (none, { s.pipe with spaceSignal := { waiter := .waiting } }) := by
        simp [Pipe.waitForSpace, Signal.wait, hpermit]
      have hpark : FlushStage.parking.step? s.pool s.pipe = some (.next .parked, s.pool,
          { s.pipe with spaceSignal := { waiter := .waiting } }) := by
        simp [FlushStage.step?, Signal.wait, hpermit]
      rw [hwait]
      exact ⟨s.waited, .flush hflush hpark (.refl _ _)⟩
  | true =>
      obtain ⟨q, hq⟩ : ∃ q : Pipe, q = { s.pipe with spaceSignal := {} } := ⟨_, rfl⟩
      have hpermit' : q.spaceSignal.permit = false := by rw [hq]
      have hfirst : FlushStage.parking.step? s.pool s.pipe =
          some (.next (.checking true), s.pool, q) := by
        simp [FlushStage.step?, Signal.wait, hpermit, hq]
      obtain ⟨hcheck, -⟩ | ⟨outcome, flushCanceled, hcheck⟩ := Pipe.checkSpace_cases true q
      · have hwait : s.pipe.waitForSpace =
            (none, { q with spaceSignal := { waiter := .waiting } }) := by
          simp [Pipe.waitForSpace, Signal.wait, hpermit, ← hq, hcheck, hpermit']
        have hlook : (FlushStage.checking true).step? s.pool q =
            some (.next .parking, s.pool, q) := by
          simp only [FlushStage.step?, hcheck]
        have hpark : FlushStage.parking.step? s.pool q = some (.next .parked, s.pool,
            { q with spaceSignal := { waiter := .waiting } }) := by
          simp [FlushStage.step?, Signal.wait, hpermit']
        rw [hwait]
        exact ⟨true, .flush hflush hfirst (.flush rfl hlook (.flush rfl hpark (.refl _ _)))⟩
      · have hwait : s.pipe.waitForSpace = (some outcome, { q with flushCanceled }) := by
          simp [Pipe.waitForSpace, Signal.wait, hpermit, ← hq, hcheck]
        have hlook : (FlushStage.checking true).step? s.pool q =
            some (.done outcome, s.pool, { q with flushCanceled }) := by
          simp only [FlushStage.step?, hcheck]
        rw [hwait]
        exact ⟨true, .flush hflush hfirst (.flush rfl hlook (.refl _ _))⟩

/-- The second part of a flush, up to the point where it has to wait. -/
def lookForSpace (waited : Bool) (p : Pipe) : Option FlushOutcome × Pipe :=
  match p.checkSpace waited with
  | (some outcome, p) => (some outcome, p)
  | (none, p) => p.waitForSpace

theorem repeats_lookForSpace {waited : Bool} (hflush : s.flush = some (.checking waited)) :
    ∃ waited', s.Repeats .stepFlush { s with
      pipe := (lookForSpace waited s.pipe).2,
      flush := pendingAt .parked (lookForSpace waited s.pipe).1, waited := waited' } := by
  unfold lookForSpace
  obtain ⟨hcheck, -⟩ | ⟨outcome, flushCanceled, hcheck⟩ := Pipe.checkSpace_cases waited s.pipe
  · have hlook : (FlushStage.checking waited).step? s.pool s.pipe =
        some (.next .parking, s.pool, s.pipe) := by
      simp only [FlushStage.step?, hcheck]
    have hparking : { s with flush := some .parking, waited : Conduit }.flush = some .parking := rfl
    obtain ⟨waited', hwait⟩ := repeats_waitForSpace hparking
    rw [hcheck]
    exact ⟨waited', .flush hflush hlook hwait⟩
  · have hlook : (FlushStage.checking waited).step? s.pool s.pipe =
        some (.done outcome, s.pool, { s.pipe with flushCanceled }) := by
      simp only [FlushStage.step?, hcheck]
    rw [hcheck]
    exact ⟨waited, .flush hflush hlook (.refl _ _)⟩

/-- **A flush that is begun as a whole** is a run of its steps. -/
theorem repeats_beginFlush (hflush : s.flush = some .publishing) : ∃ waited,
    s.Repeats .stepFlush { s with
      pool := (s.pipe.beginFlush s.pool).2.1, pipe := (s.pipe.beginFlush s.pool).2.2,
      flush := pendingAt .parked (s.pipe.beginFlush s.pool).1, waited } := by
  obtain ⟨outcome, pool, q, hpublish⟩ : ∃ outcome pool q,
      s.pipe.publish s.pool = (outcome, pool, q) := ⟨_, _, _, rfl⟩
  cases outcome with
  | some outcome =>
      have hbegin : s.pipe.beginFlush s.pool = (some outcome, pool, q) := by
        simp only [Pipe.beginFlush, hpublish]
      have hstep : FlushStage.publishing.step? s.pool s.pipe = some (.done outcome, pool, q) := by
        simp only [FlushStage.step?, hpublish]
      rw [hbegin]
      exact ⟨s.waited, .flush hflush hstep (.refl _ _)⟩
  | none =>
      have hbegin : s.pipe.beginFlush s.pool =
          ((lookForSpace false q).1, pool, (lookForSpace false q).2) := by
        obtain ⟨outcome, q', hcheck⟩ : ∃ outcome q', q.checkSpace false = (outcome, q') :=
          ⟨_, _, rfl⟩
        simp only [Pipe.beginFlush, hpublish, lookForSpace, hcheck]
        cases outcome <;> rfl
      have hstep : FlushStage.publishing.step? s.pool s.pipe =
          some (.next (.checking false), pool, q) := by
        simp only [FlushStage.step?, hpublish]
      have hchecking : { s with pool, pipe := q, flush := some (.checking false) : Conduit }.flush =
          some (.checking false) := rfl
      obtain ⟨waited, hlook⟩ := repeats_lookForSpace hchecking
      rw [hbegin]
      exact ⟨waited, .flush hflush hstep hlook⟩

/-- **A flush that is looked after as a whole** is a run of its steps. -/
theorem repeats_resumeFlush (hflush : s.flush = some .parked) : ∃ waited,
    s.Repeats .stepFlush { s with
      pipe := s.pipe.resumeFlush.2, flush := pendingAt .parked s.pipe.resumeFlush.1, waited } := by
  by_cases hwoken : s.pipe.spaceSignal.waiter = .woken
  · obtain ⟨q, hq⟩ : ∃ q : Pipe, q = { s.pipe with spaceSignal := s.pipe.spaceSignal.resume } :=
      ⟨_, rfl⟩
    have hresume : s.pipe.resumeFlush = lookForSpace true q := by
      simp only [Pipe.resumeFlush, hwoken, hq]
      rfl
    have hstep : FlushStage.parked.step? s.pool s.pipe =
        some (.next (.checking true), s.pool, q) := by
      simp only [FlushStage.step?, hwoken, hq]
    have hchecking : { s with pipe := q, flush := some (.checking true) : Conduit }.flush =
        some (.checking true) := rfl
    obtain ⟨waited, hlook⟩ := repeats_lookForSpace hchecking
    rw [hresume]
    exact ⟨waited, .flush hflush hstep hlook⟩
  · have hresume : s.pipe.resumeFlush = (none, s.pipe) := by
      unfold Pipe.resumeFlush
      split
      · next h => exact absurd h hwoken
      · rfl
    have hparked : s = { s with flush := some .parked } := by rw [← hflush]
    rw [hresume]
    exact ⟨s.waited, hparked ▸ .refl _ _⟩

/-! ## 3. Reads -/

/-- **A read that is begun as a whole** is a run of its steps: if a permit is stored it looks once
more, at the same state. -/
theorem repeats_beginRead (hread : s.read = some .looking) : ∃ shown,
    s.Repeats .stepRead { s with
      pipe := s.pipe.beginRead.2, read := pendingAt .parked s.pipe.beginRead.1, shown } := by
  obtain ⟨htry, hquiet⟩ | ⟨outcome, unexamined, readCanceled, -, htry⟩ := Pipe.tryRead_cases s.pipe
  · have hbegin : s.pipe.beginRead =
        (none, { s.pipe with dataSignal := { waiter := .waiting } }) := by
      simp only [Pipe.beginRead, htry]
    have hlook : ReadStage.looking.step? s.pipe = some (.next .parking, s.pipe) := by
      simp only [ReadStage.step?, htry]
    rw [hbegin]
    cases hpermit : s.pipe.dataSignal.permit with
    | false =>
        have hpark : ReadStage.parking.step? s.pipe = some (.next .parked,
            { s.pipe with dataSignal := { waiter := .waiting } }) := by
          simp [ReadStage.step?, Signal.wait, hpermit]
        exact ⟨s.shown, .read hread hlook (.read rfl hpark (.refl _ _))⟩
    | true =>
        have hpermitted : ReadStage.parking.step? s.pipe =
            some (.next .looking, { s.pipe with dataSignal := {} }) := by
          simp [ReadStage.step?, Signal.wait, hpermit]
        have hagain : ReadStage.looking.step? { s.pipe with dataSignal := {} } =
            some (.next .parking, { s.pipe with dataSignal := {} }) := by
          have hquiet' : { s.pipe with dataSignal := {} }.Quiet := hquiet
          simp only [ReadStage.step?, hquiet'.tryRead_eq]
        have hpark : ReadStage.parking.step? { s.pipe with dataSignal := {} } = some (.next .parked,
            { s.pipe with dataSignal := { waiter := .waiting } }) := rfl
        exact ⟨s.shown, .read hread hlook (.read rfl hpermitted (.read rfl hagain
          (.read rfl hpark (.refl _ _))))⟩
  · have hbegin : s.pipe.beginRead = (some outcome, { s.pipe with unexamined, readCanceled }) := by
      simp only [Pipe.beginRead, htry]
    have hstep : ReadStage.looking.step? s.pipe =
        some (.done outcome, { s.pipe with unexamined, readCanceled }) := by
      simp only [ReadStage.step?, htry]
    rw [hbegin]
    exact ⟨_, .read hread hstep (.refl _ _)⟩

/-- **A read that is looked after as a whole** is a run of its steps. -/
theorem repeats_resumeRead (hread : s.read = some .parked) : ∃ shown,
    s.Repeats .stepRead { s with
      pipe := s.pipe.resumeRead.2, read := pendingAt .parked s.pipe.resumeRead.1, shown } := by
  by_cases hwoken : s.pipe.dataSignal.waiter = .woken
  · obtain ⟨q, hq⟩ : ∃ q : Pipe, q = { s.pipe with dataSignal := s.pipe.dataSignal.resume } :=
      ⟨_, rfl⟩
    have hresume : s.pipe.resumeRead = q.beginRead := by
      simp only [Pipe.resumeRead, hwoken, hq]
    have hstep : ReadStage.parked.step? s.pipe = some (.next .looking, q) := by
      simp only [ReadStage.step?, hwoken, hq]
    have hlooking : { s with pipe := q, read := some .looking : Conduit }.read =
        some .looking := rfl
    obtain ⟨shown, hlook⟩ := repeats_beginRead hlooking
    rw [hresume]
    exact ⟨shown, .read hread hstep hlook⟩
  · have hresume : s.pipe.resumeRead = (none, s.pipe) := by
      unfold Pipe.resumeRead
      split
      · next h => exact absurd h hwoken
      · rfl
    have hparked : s = { s with read := some .parked } := by rw [← hread]
    rw [hresume]
    exact ⟨s.shown, hparked ▸ .refl _ _⟩

end Courier.Conduit
