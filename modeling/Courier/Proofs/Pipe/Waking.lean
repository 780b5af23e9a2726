import Courier.Proofs.Pipe.Conduit

/-!
Courier.Proofs.Pipe.Waking — no side of a pipe waits for what is there already.

A side that has to wait has looked at the pipe before, and between its look and its wait the other
side may do anything. `Signal.Guards` says what keeps this safe: whoever waits at a signal and was
not woken, or is about to wait and will find no permit, has nothing to go on for. Each turn that
could give a side something to go on for notifies its signal, so every turn keeps `Conduit.Awake`.

A flush begins to wait at the pause threshold, and goes on from its wait at the resume threshold. So
what a waiting flush waits for depends on whether it has looked again since it began to wait.
-/

namespace Courier

/-! ## 1. Signals -/

/-- How close a side is to waiting at its signal. -/
inductive Approach where
  | away
  /-- it has looked, and waits next -/
  | about
  | waiting

/-- Whoever waits and was not woken, or is about to wait and will find no permit, is idle. -/
def Signal.Guards (idle : Prop) (s : Signal) : Approach → Prop
  | .away => s.waiter = .absent
  | .about => s.waiter = .absent ∧ (s.permit = false → idle)
  | .waiting => s.waiter = .woken ∨ s.waiter = .waiting ∧ idle

namespace Signal

variable {idle idle' : Prop} {s : Signal} {a : Approach}

/-- After a notification nobody is idle by mistake, whatever has become of the reason to wait. -/
theorem Guards.notify (h : s.Guards idle a) : s.notify.Guards idle' a := by
  cases a with
  | away =>
      have habsent : s.waiter = .absent := h
      simp only [Guards, Signal.notify, habsent]
  | about =>
      have habsent : s.waiter = .absent := h.1
      simp [Guards, Signal.notify, habsent]
  | waiting =>
      rcases h with hwoken | ⟨hwaiting, -⟩
      · simp [Guards, Signal.notify, hwoken]
      · simp [Guards, Signal.notify, hwaiting]

/-- Whoever gives up, waits no more. -/
theorem guards_abandon (s : Signal) : s.abandon.Guards idle .away := by
  unfold abandon
  split
  · next habsent => exact habsent
  · rfl
  · rfl

end Signal

namespace Pipe

variable {pool : BlockPool} {p q : Pipe}

/-! ## 2. What the writer does on its own -/

/-- What both sides share is left alone. -/
def Private (p q : Pipe) : Prop :=
  q = { p with current := q.current, staged := q.staged, unflushed := q.unflushed }

theorem Private.refl (p : Pipe) : p.Private p := rfl

theorem Private.trans {r : Pipe} (h : p.Private q) (h' : q.Private r) : p.Private r := by
  unfold Private at h h' ⊢
  rw [h', h]

theorem stageCurrent_private (pool : BlockPool) (p : Pipe) :
    p.Private (p.stageCurrent pool).2 := by
  unfold stageCurrent
  split
  · exact .refl p
  · split
    · exact .refl p
    · rfl

theorem ensureMemory_private (atLeast : Nat) (pool : BlockPool) (p : Pipe) :
    p.Private (p.ensureMemory atLeast pool).2 := by
  unfold ensureMemory
  dsimp only
  split
  · exact .refl p
  · exact (stageCurrent_private pool p).trans rfl

theorem write_private (bs : Bytes) (pool : BlockPool) (p : Pipe) :
    p.Private (p.write bs pool).2 := by
  fun_induction p.write bs pool with
  | case1 pool p => exact .refl p
  | case2 pool p b rest ready more piece written ih =>
      have hready : p.Private ready.2 := ensureMemory_private 1 pool p
      have hwritten : ready.2.Private written := rfl
      exact (hready.trans hwritten).trans ih

theorem advance_private {n : Nat} (h : p.advance n = .ok q) : p.Private q := by
  obtain ⟨-, rfl⟩ | ⟨b, b', -, -, rfl⟩ := advance_eq h
  · exact .refl q
  · rfl

/-- The reader is told that there is something new. -/
structure Alerts (p q : Pipe) : Prop where
  thresholds_eq : q.thresholds = p.thresholds
  spaceSignal_eq : q.spaceSignal = p.spaceSignal
  dataSignal_eq : q.dataSignal = p.dataSignal.notify
  news : q.unexamined = true ∨ q.writerCompleted = true

theorem Private.alerts {r : Pipe} (h : p.Private q) (h' : q.Alerts r) : p.Alerts r := by
  unfold Private at h
  rw [h] at h'
  exact ⟨h'.thresholds_eq, h'.spaceSignal_eq, h'.dataSignal_eq, h'.news⟩

/-- What is handed over is news, unless there is nothing to hand over. -/
theorem publish_cases (h : p.Tidy) (pool : BlockPool) :
    p.Private (p.publish pool).2.2 ∨ p.Alerts (p.publish pool).2.2 := by
  have hstage := h.stageCurrent pool
  have hprivate := stageCurrent_private pool p
  have hfilled := filled_stageCurrent pool p
  unfold publish
  generalize p.stageCurrent pool = staged at hstage hprivate hfilled ⊢
  obtain ⟨pool', p'⟩ := staged
  dsimp only
  split
  · exact .inl (hprivate.trans rfl)
  · split
    · next hzero =>
      -- no segment is staged, for none is empty
      have hnone : p'.staged = [] := by
        have hbehind : p'.behind = [] := List.eq_nil_of_length_eq_zero
          (hstage.unflushed_eq.symm.trans hzero)
        rw [behind, hfilled, List.append_nil, List.flatMap_eq_nil_iff] at hbehind
        exact List.eq_nil_iff_forall_not_mem.mpr fun s hs =>
          hstage.staged_ne_nil s hs (hbehind s hs)
      refine .inl (hprivate.trans ?_)
      rw [hnone]
      rfl
    · exact .inr (hprivate.alerts ⟨rfl, rfl, rfl, .inl rfl⟩)

theorem completeWriter_alerts (pool : BlockPool) (p : Pipe) :
    p.Alerts (p.completeWriter pool).2 := by
  have hprivate := stageCurrent_private pool p
  unfold completeWriter
  dsimp only
  split
  · exact hprivate.alerts ⟨rfl, rfl, rfl, .inr rfl⟩
  · exact hprivate.alerts ⟨rfl, rfl, rfl, .inr rfl⟩

end Pipe

/-! ## 3. Every turn keeps a conduit awake -/

namespace Conduit

/-- How close the reader is to waiting. -/
def readApproach : Option ReadStage → Approach
  | some .parking => .about
  | some .parked => .waiting
  | _ => .away

/-- How close the writer is to waiting. -/
def flushApproach : Option FlushStage → Approach
  | some .parking => .about
  | some .parked => .waiting
  | _ => .away

/-- Neither side waits for what is there already, and what is not news was shown to the reader. -/
structure Awake (thresholds : Thresholds) (s : Conduit) : Prop where
  thresholds_eq : s.pipe.thresholds = thresholds
  read : s.pipe.dataSignal.Guards s.pipe.Quiet (readApproach s.read)
  flush : s.pipe.spaceSignal.Guards (s.pipe.Crowded s.waited) (flushApproach s.flush)
  seen : s.pipe.unexamined = false → s.pipe.writerCompleted = false →
    s.consumed.length + s.pipe.unread.size ≤ s.shown

namespace Awake

variable {thresholds : Thresholds} {s s' : Conduit}

theorem new (thresholds : Thresholds) : (Conduit.new thresholds).Awake thresholds where
  thresholds_eq := rfl
  read := rfl
  flush := rfl
  seen _ _ := Nat.le_refl 0

/-- What the writer does on its own wakes nobody. -/
theorem of_private (h : s.Awake thresholds) (hprivate : s.pipe.Private s'.pipe)
    (hread : readApproach s'.read = readApproach s.read)
    (hflush : flushApproach s'.flush = flushApproach s.flush) (hwaited : s'.waited = s.waited)
    (hconsumed : s'.consumed = s.consumed) (hshown : s'.shown = s.shown) :
    s'.Awake thresholds := by
  unfold Pipe.Private at hprivate
  refine ⟨?_, ?_, ?_, ?_⟩
  · rw [hprivate]
    exact h.thresholds_eq
  · rw [hprivate, hread]
    exact h.read
  · rw [hprivate, hflush, hwaited]
    exact h.flush
  · rw [hprivate, hconsumed, hshown]
    exact h.seen

/-- The reader is told of something new by a writer that does not wait. -/
theorem of_alerts (h : s.Awake thresholds) (halerts : s.pipe.Alerts s'.pipe)
    (hread : s'.read = s.read) (haway : flushApproach s.flush = .away)
    (haway' : flushApproach s'.flush = .away) : s'.Awake thresholds where
  thresholds_eq := halerts.thresholds_eq.trans h.thresholds_eq
  read := by
    rw [halerts.dataSignal_eq, hread]
    exact h.read.notify
  flush := by
    have habsent := h.flush
    rw [haway] at habsent
    rw [halerts.spaceSignal_eq, haway']
    exact habsent
  seen hold hopen := by
    rcases halerts.news with hnew | hcompleted
    · cases hold.symm.trans hnew
    · cases hopen.symm.trans hcompleted

/-- What is consumed makes room, and this is announced. -/
theorem consume {n : Nat} {pool : BlockPool} {pipe : Pipe} (hs : s.Sound) (h : s.Awake thresholds)
    (hconsume : s.pipe.consume n s.pool = .ok (pool, pipe)) :
    { s with pool, pipe, consumed := s.consumed ++ s.pipe.unread.toList.take n : Conduit }.Awake
      thresholds := by
  obtain ⟨rfl, -, rfl⟩ | ⟨-, hle, -, rfl⟩ := Pipe.consume_eq hconsume
  · exact h.of_private rfl rfl rfl rfl (by simp) rfl
  · refine ⟨h.thresholds_eq, h.read, h.flush.notify, fun hold hopen => ?_⟩
    have hseen := h.seen hold hopen
    have hlength := hs.tidy.sound.size_eq
    simp only [List.length_append, Buffer.size_drop, List.length_take]
    omega

/-- What a flush makes visible is announced. -/
theorem publish (hs : s.Sound) (h : s.Awake thresholds) (pool : BlockPool)
    (hpublish : (s.pipe.publish pool).2.2 = s'.pipe) (hread : s'.read = s.read)
    (haway : flushApproach s.flush = .away) (haway' : flushApproach s'.flush = .away)
    (hwaited : s'.waited = s.waited) (hconsumed : s'.consumed = s.consumed)
    (hshown : s'.shown = s.shown) : s'.Awake thresholds := by
  have hcases := Pipe.publish_cases hs.tidy pool
  rw [hpublish] at hcases
  rcases hcases with hprivate | halerts
  · exact h.of_private hprivate (by rw [hread]) (haway'.trans haway.symm) hwaited hconsumed hshown
  · exact h.of_alerts halerts hread haway haway'

/-- A step of a flush: it waits only when it has found no room. -/
theorem stepFlush {stage : FlushStage} {result : Staged FlushStage FlushOutcome} {pool : BlockPool}
    {pipe : Pipe} (hs : s.Sound) (h : s.Awake thresholds) (hstage : s.flush = some stage)
    (hstep : stage.step? s.pool s.pipe = some (result, pool, pipe)) :
    { s with pool, pipe, flush := result.next?, waited := s.waitedAfter stage : Conduit }.Awake
      thresholds := by
  have hflush := h.flush
  rw [hstage] at hflush
  cases Pipe.flush_step hstep with
  | dropped outcome hpublish =>
      exact h.publish hs s.pool (by rw [hpublish]) rfl (by rw [hstage]; rfl) rfl rfl rfl rfl
  | published hpublish =>
      exact h.publish hs s.pool (by rw [hpublish]) rfl (by rw [hstage]; rfl) rfl rfl rfl rfl
  | done waited outcome flushCanceled => exact ⟨h.thresholds_eq, h.read, hflush, h.seen⟩
  | idle waited hcrowded => exact ⟨h.thresholds_eq, h.read, ⟨hflush, fun _ => hcrowded⟩, h.seen⟩
  | permitted => exact ⟨h.thresholds_eq, h.read, rfl, h.seen⟩
  | waits hpermit => exact ⟨h.thresholds_eq, h.read, .inr ⟨rfl, hflush.2 hpermit⟩, h.seen⟩
  | woken => exact ⟨h.thresholds_eq, h.read, rfl, h.seen⟩

/-- A step of a read: it waits only when it has found nothing, and when it ends it has shown all
that is unread. -/
theorem stepRead {stage : ReadStage} {result : Staged ReadStage ReadOutcome} {pipe : Pipe}
    (h : s.Awake thresholds) (hstage : s.read = some stage)
    (hstep : stage.step? s.pipe = some (result, pipe)) :
    { s with pipe, read := result.next?, shown := s.shownAfter result : Conduit }.Awake
      thresholds := by
  have hread := h.read
  rw [hstage] at hread
  cases Pipe.read_step hstep with
  | done outcome unexamined readCanceled hbuffer =>
      refine ⟨h.thresholds_eq, hread, h.flush, fun _ _ => ?_⟩
      simp only [shownAfter, hbuffer, Nat.le_refl]
  | idle hquiet => exact ⟨h.thresholds_eq, ⟨hread, fun _ => hquiet⟩, h.flush, h.seen⟩
  | permitted => exact ⟨h.thresholds_eq, rfl, h.flush, h.seen⟩
  | waits hpermit => exact ⟨h.thresholds_eq, .inr ⟨rfl, hread.2 hpermit⟩, h.flush, h.seen⟩
  | woken => exact ⟨h.thresholds_eq, rfl, h.flush, h.seen⟩

/-- **Every turn keeps a conduit awake.** -/
theorem turn {t : Turn} (hs : s.Sound) (h : s.Awake thresholds) (hturn : s.turn? t = some s') :
    s'.Awake thresholds := by
  cases does_of_turn hturn with
  | writes bs => exact h.of_private (Pipe.write_private bs s.pool s.pipe) rfl rfl rfl rfl rfl
  | provides atLeast =>
      exact h.of_private (Pipe.ensureMemory_private atLeast s.pool s.pipe) rfl rfl rfl rfl rfl
  | fills bs => exact h.of_private rfl rfl rfl rfl rfl rfl
  | commits idle advance => exact h.of_private (Pipe.advance_private advance) rfl rfl rfl rfl rfl
  | flushes idle => exact h.of_private rfl rfl (by rw [idle]; rfl) rfl rfl rfl
  | completes idle =>
      exact h.of_alerts (Pipe.completeWriter_alerts s.pool s.pipe) rfl (by rw [idle]; rfl)
        (by rw [idle]; rfl)
  | reads idle => exact h.of_private rfl (by rw [idle]; rfl) rfl rfl rfl rfl
  | consumes idle consume => exact h.consume hs consume
  | stepsFlush begun step => exact h.stepFlush hs begun step
  | stepsRead begun step => exact h.stepRead begun step
  | dropsFlush => exact ⟨h.thresholds_eq, h.read, Signal.guards_abandon _, h.seen⟩
  | dropsRead => exact ⟨h.thresholds_eq, Signal.guards_abandon _, h.flush, h.seen⟩
  | completesWriter =>
      exact ⟨h.thresholds_eq, h.read.notify, h.flush, fun _ hopen => by cases hopen⟩
  | completesReader =>
      exact ⟨h.thresholds_eq, h.read, h.flush.notify,
        fun hold hopen => Nat.le_trans (Nat.le_add_right _ _) (h.seen hold hopen)⟩
  | cancelsFlush => exact ⟨h.thresholds_eq, h.read, h.flush.notify, h.seen⟩
  | cancelsRead => exact ⟨h.thresholds_eq, h.read.notify, h.flush, h.seen⟩
  | shares => exact ⟨h.thresholds_eq, h.read, h.flush, h.seen⟩

theorem run {turns : List Turn} (hs : s.Sound) (h : s.Awake thresholds)
    (hrun : s.run? turns = some s') : s'.Awake thresholds :=
  (invariant_run (P := fun s => s.Sound ∧ s.Awake thresholds)
    (fun h hturn => ⟨h.1.turn hturn, h.2.turn h.1 hturn⟩) ⟨hs, h⟩ hrun).2

end Awake

/-! ## 4. Nobody waits in vain -/

variable {s : Conduit}

/-- A flush that finds no room has at least as much unread as makes it wait, and more than it will
go on at if it has waited already. -/
theorem unread_of_crowded {waited : Bool} {p : Pipe} (h : p.Crowded waited) :
    0 < p.thresholds.pause ∧
      (waited = false → p.thresholds.pause ≤ p.unread.size) ∧
      (waited = true → p.thresholds.resume < p.unread.size) := by
  obtain ⟨-, -, hspace⟩ := h
  simp only [Pipe.mayProceed, Bool.or_eq_false_iff, beq_eq_false_iff_ne] at hspace
  obtain ⟨hpause, hsize⟩ := hspace
  refine ⟨Nat.pos_of_ne_zero hpause, fun hw => ?_, fun hw => ?_⟩
  · simpa [hw] using hsize
  · simpa [hw] using hsize

/-- **Nobody waits for what is there already**, in whatever order the two ends and those outside
take their turns. If a read waits and was not woken, then nothing was flushed that it has not seen,
the writer is not finished and no read is to be canceled. If a flush waits and was not woken, then
the reader is not finished, no flush is to be canceled and at least as much is unread as made the
flush wait, or more than it goes on at if it has looked again since. -/
theorem waiting_of_run (thresholds : Thresholds) (turns : List Turn)
    (hrun : (new thresholds).run? turns = some s) :
    (s.read = some .parked → s.pipe.dataSignal.waiter ≠ .woken →
      s.pipe.unexamined = false ∧ s.consumed.length + s.pipe.unread.size ≤ s.shown ∧
        s.pipe.writerCompleted = false ∧ s.pipe.readCanceled = false) ∧
    (s.flush = some .parked → s.pipe.spaceSignal.waiter ≠ .woken →
      s.pipe.readerCompleted = false ∧ s.pipe.flushCanceled = false ∧ 0 < thresholds.pause ∧
        (s.waited = false → thresholds.pause ≤ s.pipe.unread.size) ∧
        (s.waited = true ∨ thresholds.resume < thresholds.pause →
          thresholds.resume < s.pipe.unread.size)) := by
  have h := (Awake.new thresholds).run (sound_new thresholds) hrun
  refine ⟨fun hparked hwaiter => ?_, fun hparked hwaiter => ?_⟩
  · have hread := h.read
    rw [hparked] at hread
    obtain ⟨-, hnews, hopen, hcanceled⟩ := hread.resolve_left hwaiter
    exact ⟨hnews, h.seen hnews hopen, hopen, hcanceled⟩
  · have hflush := h.flush
    rw [hparked] at hflush
    obtain ⟨-, hcrowded⟩ := hflush.resolve_left hwaiter
    obtain ⟨hpause, hfresh, hagain⟩ := unread_of_crowded hcrowded
    rw [h.thresholds_eq] at hpause hfresh hagain
    refine ⟨hcrowded.1, hcrowded.2.1, hpause, hfresh, fun hresume => ?_⟩
    cases hwaited : s.waited with
    | true => exact hagain hwaited
    | false =>
        rw [hwaited] at hresume
        exact Nat.lt_of_lt_of_le (hresume.resolve_left Bool.false_ne_true) (hfresh hwaited)

/-- A flush waits, looks again in vain and waits on, and then the reader waits as well: it has seen
what is unread and does not consume it. -/
def waitTurns : List Turn :=
  [.writer (.write [1, 2, 3, 4]), .writer .flush, .stepFlush, .stepFlush, .stepFlush,
    .reader .read, .stepRead, .reader (.consume 1), .stepFlush, .stepFlush, .stepFlush,
    .reader .read, .stepRead, .stepRead, .stepRead, .stepRead]

theorem waiting_of_waitTurns : ∃ s, (new ⟨4, 2⟩).run? waitTurns = some s ∧
    s.read = some .parked ∧ s.flush = some .parked ∧
      s.pipe.unexamined = false ∧ s.pipe.writerCompleted = false ∧ s.pipe.readCanceled = false ∧
        s.pipe.readerCompleted = false ∧ s.pipe.flushCanceled = false ∧ 2 < s.pipe.unread.size := by
  have hseen : ((new ⟨4, 2⟩).run? waitTurns).map (fun s => (s.read, s.pipe.dataSignal, s.flush,
      s.pipe.spaceSignal, s.waited)) =
      some (some .parked, ⟨false, .waiting⟩, some .parked, ⟨false, .waiting⟩, true) := by
    decide +kernel
  obtain ⟨s, hrun, hs⟩ := Option.map_eq_some_iff.mp hseen
  simp only [Prod.mk.injEq] at hs
  obtain ⟨hread, hdata, hflush, hspace, hwaited⟩ := hs
  obtain ⟨hreads, hflushes⟩ := waiting_of_run ⟨4, 2⟩ waitTurns hrun
  obtain ⟨hnews, -, hopen, hcanceled⟩ := hreads hread (by rw [hdata]; decide)
  obtain ⟨hreader, hflushCanceled, -, -, hunread⟩ := hflushes hflush (by rw [hspace]; decide)
  exact ⟨s, hrun, hread, hflush, hnews, hopen, hcanceled, hreader, hflushCanceled,
    hunread (.inl hwaited)⟩

/-- A flush that has not looked again waits with no more unread than it would go on at, if that is
as much as makes it wait. -/
theorem waiting_not_above_resume : ∃ s, (new ⟨4, 4⟩).run? [.writer (.write [0, 0, 0, 0]),
      .writer .flush, .stepFlush, .stepFlush, .stepFlush] = some s ∧
    s.flush = some .parked ∧ s.pipe.spaceSignal = { permit := false, waiter := .waiting } ∧
      ¬ 4 < s.pipe.unread.size := by
  have hseen : ((new ⟨4, 4⟩).run? [.writer (.write [0, 0, 0, 0]), .writer .flush, .stepFlush,
      .stepFlush, .stepFlush]).map (fun s => (s.flush, s.pipe.spaceSignal, s.pipe.unread.size)) =
      some (some .parked, ⟨false, .waiting⟩, 4) := by
    decide +kernel
  obtain ⟨s, hrun, hs⟩ := Option.map_eq_some_iff.mp hseen
  simp only [Prod.mk.injEq] at hs
  obtain ⟨hflush, hspace, hsize⟩ := hs
  exact ⟨s, hrun, hflush, hspace, by rw [hsize]; decide⟩

end Conduit

end Courier
