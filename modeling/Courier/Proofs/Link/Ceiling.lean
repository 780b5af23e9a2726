import Courier.Config.Options
import Courier.Proofs.Link.Calm
import Courier.Proofs.Link.Tasks

/-!
Courier.Proofs.Link.Ceiling — how much may be unread in the input pipe.

The receiver gets memory of at most a block, fills it with what there is, and hands it over before
it looks at how much is unread. So what is unread may pass the size at which the receiver waits, but
not by a block. `Throttle` is a link whose input may also be read, finished and canceled by anybody
else, in whatever way and at any time; it remembers whether the flush has waited.

`ReceiverStage.Bounds` says at each stage how much may be unread and how much is behind, and is kept
by every step of the receiver; what all others do to the input pipe only eases it (`Pipe.Eases`).
-/

namespace Courier

/-! ## 1. Relief and pressure -/

namespace Pipe

variable {pool pool' : BlockPool} {p q : Pipe}

/-- No more is unread, nothing has been put into the pipe, and the thresholds are the same. -/
structure Eases (p q : Pipe) : Prop where
  thresholds_eq : q.thresholds = p.thresholds
  behind_eq : q.behind = p.behind
  size_le : q.unread.size ≤ p.unread.size
  tidy : p.Tidy → q.Tidy

theorem Eases.refl (p : Pipe) : p.Eases p := ⟨rfl, rfl, Nat.le_refl _, id⟩

theorem Keeps.eases (h : p.Keeps q) (hthresholds : q.thresholds = p.thresholds) : p.Eases q :=
  ⟨hthresholds, h.behind_eq, Nat.le_of_eq (congrArg Buffer.size h.unread_eq),
    fun ht => ht.of_keeps h⟩

theorem eases_of_read {stage : ReadStage} {result : Staged ReadStage ReadOutcome}
    (h : stage.step? p = some (result, q)) : p.Eases q := by
  refine (read_keeps h).1.eases ?_
  cases read_step h <;> rfl

theorem eases_of_consume {n : Nat} (h : p.consume n pool = .ok (pool', q)) : p.Eases q := by
  refine ⟨?_, (consume_steady h).2, ?_, fun ht => ht.consume h⟩
  · obtain ⟨-, -, rfl⟩ | ⟨-, -, -, rfl⟩ := consume_eq h <;> rfl
  · obtain ⟨-, -, rfl⟩ | ⟨-, -, -, rfl⟩ := consume_eq h
    · exact Nat.le_refl _
    · exact (Buffer.rest_drop n p.unread).size_le

theorem eases_completeReader (pool : BlockPool) (p : Pipe) : p.Eases (p.completeReader pool).2 :=
  ⟨rfl, rfl, Nat.zero_le _, fun ht => ht.completeReader pool⟩

theorem eases_cancelFlush (p : Pipe) : p.Eases p.cancelFlush :=
  Keeps.eases ⟨rfl, rfl, rfl, rfl, rfl⟩ rfl

/-- No more is unread than was in the pipe. -/
theorem Grows.size_le {bs : Bytes} {s s' : BlockPool × Pipe} (h : Grows bs s s')
    (hblank : s.1.Blank) (ht : s.2.Tidy) (ht' : s'.2.Tidy) :
    s'.2.unread.size ≤ s.2.unread.size + s.2.behind.length + bs.length := by
  cases hdone : s'.2.readerCompleted with
  | true =>
      rw [ht'.unread_of_completed hdone]
      exact Nat.zero_le _
  | false =>
      have hpending := congrArg List.length
        (h.pending hblank (h.readerCompleted_eq.symm.trans hdone))
      rw [pendingBytes_eq, pendingBytes_eq] at hpending
      simp only [List.length_append] at hpending
      rw [ht.sound.size_eq, ht'.sound.size_eq]
      omega

theorem total_flush_le {stage : FlushStage} {result : Staged FlushStage FlushOutcome}
    (hblank : pool.Blank) (ht : p.Tidy) (h : stage.step? pool p = some (result, pool', q)) :
    q.unread.size + q.behind.length ≤ p.unread.size + p.behind.length := by
  obtain hkeeps | hbehind := keeps_or_behind_of_flush h
  · exact Nat.le_of_eq (by rw [hkeeps.unread_eq, hkeeps.behind_eq])
  · rw [hbehind]
    exact (flush_grows h).size_le hblank ht (ht.flush h)

theorem total_completeWriter_le (hblank : pool.Blank) (ht : p.Tidy) :
    (p.completeWriter pool).2.unread.size + (p.completeWriter pool).2.behind.length ≤
      p.unread.size + p.behind.length := by
  rw [behind_completeWriter]
  exact (completeWriter_grows pool p).size_le hblank ht (ht.completeWriter pool)

theorem thresholds_flush {stage : FlushStage} {result : Staged FlushStage FlushOutcome}
    (h : stage.step? pool p = some (result, pool', q)) : q.thresholds = p.thresholds := by
  have hpublish : (p.publish pool).2.2.thresholds = p.thresholds := by
    have hprivate := stageCurrent_private pool p
    unfold Private at hprivate
    unfold publish
    dsimp only
    rw [hprivate]
    split
    · rfl
    · split <;> rfl
  cases flush_step h with
  | dropped outcome publish | published publish =>
      rw [publish] at hpublish
      exact hpublish
  | done | idle | permitted | waits | woken => rfl

theorem thresholds_completeWriter (pool : BlockPool) (p : Pipe) :
    (p.completeWriter pool).2.thresholds = p.thresholds := by
  have hprivate := stageCurrent_private pool p
  unfold Private at hprivate
  unfold completeWriter
  dsimp only
  rw [hprivate]
  split <;> rfl

/-- What is received fits into a block. -/
theorem behind_le_of_received {bs : Bytes} {n : Nat}
    (h : (p.fillMemory bs).advance n = .ok q) (hbehind : p.behind = []) :
    q.thresholds = p.thresholds ∧ q.unread = p.unread ∧ q.behind.length ≤ Block.capacity := by
  have hfill : (p.fillMemory bs).behind = [] := by
    rw [← hbehind]
    cases hcurrent : p.current <;> simp [behind, fillMemory, hcurrent, Block.writeSpare]
  obtain ⟨-, rfl⟩ | ⟨b, b', hcurrent, hb, rfl⟩ := advance_eq h
  · exact ⟨rfl, rfl, by rw [hfill]; exact Nat.zero_le _⟩
  · obtain ⟨hfits, rfl⟩ := Block.advance_eq hb
    rw [behind, List.append_eq_nil_iff] at hfill
    refine ⟨rfl, rfl, ?_⟩
    have hstaged : (p.fillMemory bs).staged.flatMap (·.bytes) = [] := hfill.1
    have hlength : (b.spare n).length = n := b.length_spare n
    simp only [behind, hstaged, List.nil_append, Option.map_some, Option.getD_some,
      List.length_append, hlength]
    exact hfits

/-- A flush that ends neither with its reader nor by being canceled has found room. -/
theorem mayProceed_of_flush {stage : FlushStage} {outcome : FlushOutcome}
    (h : stage.step? pool p = some (.done outcome, pool', q))
    (hcompleted : outcome.completed = false) (hcanceled : outcome.canceled = false) :
    ∃ waited, stage = .checking waited ∧ p.mayProceed waited = true ∧ q = p := by
  cases stage with
  | publishing =>
      simp only [FlushStage.step?] at h
      split at h <;> cases h
      next hpublish =>
      unfold publish at hpublish
      dsimp only at hpublish
      split at hpublish
      · cases hpublish
        cases hcompleted
      · split at hpublish <;> cases hpublish
  | checking waited =>
      simp only [FlushStage.step?] at h
      split at h <;> cases h
      next hcheck =>
      unfold checkSpace at hcheck
      split at hcheck
      · cases hcheck
        cases hcompleted
      · split at hcheck
        · cases hcheck
          cases hcanceled
        · split at hcheck <;> cases hcheck
          next hproceed => exact ⟨waited, rfl, hproceed, rfl⟩
  | parking | parked =>
      simp only [FlushStage.step?] at h
      split at h <;> cases h

/-- Where a writer waits once `m` bytes are unread, there is room below that, and below half of it
once it has waited. -/
theorem size_of_mayProceed {m : Nat} {waited : Bool} (hthresholds : p.thresholds = .ofMaxSize m)
    (hpos : 0 < m) (h : p.mayProceed waited = true) :
    p.unread.size < m ∧ (waited = true → p.unread.size ≤ m / 2) := by
  unfold mayProceed at h
  rw [hthresholds] at h
  have hpause : ((Thresholds.ofMaxSize m).pause == 0) = false := beq_false_of_ne (Nat.ne_of_gt hpos)
  rw [hpause, Bool.false_or] at h
  cases waited with
  | false => exact ⟨of_decide_eq_true h, fun hwaited => absurd hwaited Bool.false_ne_true⟩
  | true =>
      have hle : p.unread.size ≤ m / 2 := of_decide_eq_true h
      exact ⟨by omega, fun _ => hle⟩

end Pipe

/-- How much may be unread and how much may be behind, at each stage of a receiver that waits once
`m` bytes are unread. -/
def ReceiverStage.Bounds (m : Nat) (stage : ReceiverStage) (p : Pipe) : Prop :=
  match stage with
  | .expecting | .preparing | .receiving => p.unread.size < m ∧ p.behind = []
  | .flushing .publishing => p.unread.size < m ∧ p.behind.length ≤ Block.capacity
  | .flushing _ => p.unread.size < m + Block.capacity ∧ p.behind = []
  | _ => p.unread.size + p.behind.length < m + Block.capacity

namespace ReceiverStage.Bounds

variable {m : Nat} {stage : ReceiverStage} {p q : Pipe}

theorem eases (h : stage.Bounds m p) (heases : p.Eases q) : stage.Bounds m q := by
  have hsize := heases.size_le
  unfold Bounds at h ⊢
  rw [heases.behind_eq]
  split at h
  all_goals first | exact ⟨Nat.lt_of_le_of_lt hsize h.1, h.2⟩ | omega

/-- At no stage is there more than a byte less than a block above the mark. -/
theorem total_lt (h : stage.Bounds m p) :
    p.unread.size + p.behind.length < m + Block.capacity := by
  have hcapacity : 0 < Block.capacity := by decide
  unfold Bounds at h
  split at h
  · rw [h.2, List.length_nil]
    omega
  · rw [h.2, List.length_nil]
    omega
  · rw [h.2, List.length_nil]
    omega
  · omega
  · rw [h.2, List.length_nil]
    exact h.1
  · exact h

theorem first (carriage : Carriage) (hsize : p.unread.size < m) (hbehind : p.behind = []) :
    (ReceiverStage.first carriage).Bounds m p := by
  unfold ReceiverStage.first
  split <;> exact ⟨hsize, hbehind⟩

end ReceiverStage.Bounds

namespace Link

variable {l l' : Link}

/-! ## 2. The receiver and all others -/

/-- **What the main task does to the input pipe eases it.** -/
theorem Works.eases (hworks : l.Works l') :
    l'.receiver = l.receiver ∧ l.transport.input.Eases l'.transport.input := by
  have hshut (reason : CloseReason) : (l.shutDown reason).receiver = l.receiver ∧
      l.transport.input.Eases (l.shutDown reason).transport.input := by
    obtain ⟨hreceiver, hinput | hinput⟩ := shutDown_spares reason l
    · exact ⟨hreceiver, by rw [hinput]; exact .refl _⟩
    · exact ⟨hreceiver, by rw [hinput]; exact Pipe.eases_cancelFlush _⟩
  cases hworks with
  | looks stage step => exact ⟨rfl, Pipe.eases_of_read step⟩
  | takes stage step => exact ⟨rfl, Pipe.eases_of_read step⟩
  | settles stage consume => exact ⟨rfl, Pipe.eases_of_consume consume⟩
  | leaves | releases => exact ⟨rfl, Pipe.eases_completeReader l.memory _⟩
  | @cuts reason stage =>
      dsimp only
      cases reason.isError with
      | true => exact hshut reason
      | false => exact ⟨rfl, .refl _⟩
  | givesUp | shuts => exact hshut _
  | @readFrame portion f reader buffer stage read =>
      have hstream := (dispatch_spares f { portion with buffer } reader l).2
      have hd := dispatch_dispatches f { portion with buffer } reader l
      refine ⟨hstream.receiver_eq, ?_⟩
      rw [hd.transport_eq]
      exact .refl _
  | _ => exact ⟨rfl, .refl _⟩

/-- What is known of the input pipe of a link whose receiver waits once `m` bytes are unread. -/
structure Bounded (m : Nat) (l : Link) : Prop where
  blank : l.memory.Blank
  thresholds_eq : l.transport.input.thresholds = .ofMaxSize m
  tidy : l.transport.input.Tidy
  bounds : l.receiver.Bounds m l.transport.input

variable {m : Nat}

theorem Bounded.eases (h : l.Bounded m) (hblank : l'.memory.Blank)
    (hreceiver : l'.receiver = l.receiver)
    (heases : l.transport.input.Eases l'.transport.input) : l'.Bounded m where
  blank := hblank
  thresholds_eq := heases.thresholds_eq.trans h.thresholds_eq
  tidy := heases.tidy h.tidy
  bounds := by
    rw [hreceiver]
    exact h.bounds.eases heases

/-- The receiver leaves the pipe alone. -/
theorem Bounded.turn (h : l.Bounded m) (hmemory : l'.memory = l.memory)
    (hinput : l'.transport.input = l.transport.input)
    (hbounds : l'.receiver.Bounds m l.transport.input) : l'.Bounded m := by
  refine ⟨?_, ?_, ?_, ?_⟩
  · rw [hmemory]
    exact h.blank
  · rw [hinput]
    exact h.thresholds_eq
  · rw [hinput]
    exact h.tidy
  · rw [hinput]
    exact hbounds

/-- After a flush that found room the receiver goes on below the mark, and otherwise to its end. -/
theorem Bounded.flushed {flush : FlushStage} {outcome : FlushOutcome} {memory : BlockPool}
    {input : Pipe} (h : l.Bounded m) (hpos : 0 < m) (hstage : l.receiver = .flushing flush)
    (hstep : flush.step? l.memory l.transport.input = some (.done outcome, memory, input)) :
    (afterReceived l.setup.carriage outcome).Bounds m input := by
  have hbounds := h.bounds
  rw [hstage] at hbounds
  unfold afterReceived
  split
  · exact Nat.lt_of_le_of_lt (Pipe.total_flush_le h.blank h.tidy hstep) hbounds.total_lt
  · next hneither =>
    simp only [Bool.or_eq_true, not_or, Bool.not_eq_true] at hneither
    obtain ⟨waited, rfl, hproceed, rfl⟩ :=
      Pipe.mayProceed_of_flush hstep hneither.1 hneither.2
    exact .first _ (Pipe.size_of_mayProceed h.thresholds_eq hpos hproceed).1 hbounds.2

/-- Before it has handed over what it has received, the receiver does not look at what is unread. -/
theorem Bounded.flushes {flush flush' : FlushStage} {memory : BlockPool} {input : Pipe}
    (h : l.Bounded m) (hstage : l.receiver = .flushing flush)
    (hstep : flush.step? l.memory l.transport.input = some (.next flush', memory, input)) :
    (ReceiverStage.flushing flush').Bounds m input := by
  have hbounds := h.bounds
  rw [hstage] at hbounds
  cases Pipe.flush_step hstep with
  | published publish =>
      have hbehind := Pipe.behind_publish l.memory l.transport.input
      rw [publish] at hbehind
      have htotal := Pipe.total_flush_le h.blank h.tidy hstep
      rw [hbehind, List.length_nil] at htotal
      exact ⟨Nat.lt_of_le_of_lt htotal hbounds.total_lt, hbehind⟩
  | idle | permitted | waits | woken => exact hbounds

/-- **Every step of the receiver keeps the bounds.** -/
theorem Bounded.fetches {choice : Choice} (h : l.Bounded m) (hpos : 0 < m)
    (hfetches : l.Fetches choice l') : l'.Bounded m := by
  have hbounds := h.bounds
  have htotal := h.bounds.total_lt
  cases hfetches with
  | expects stage readable =>
      rw [stage] at hbounds
      exact h.turn rfl rfl hbounds
  | prepares stage =>
      rw [stage] at hbounds
      obtain ⟨hbehind, -⟩ := Pipe.ensureMemory_unflushed h.blank receiveSize l.transport.input
      have hprivate := Pipe.ensureMemory_private receiveSize l.memory l.transport.input
      refine ⟨(Pipe.ensureMemory_grows receiveSize l.memory _).blank h.blank,
        hprivate.thresholds_eq.trans h.thresholds_eq, h.tidy.ensureMemory h.blank receiveSize, ?_⟩
      refine ⟨?_, hbehind.trans hbounds.2⟩
      exact Nat.lt_of_le_of_lt (Nat.le_of_eq (congrArg Buffer.size hprivate.unread_eq)) hbounds.1
  | fails stage receive | finds stage receive | jams stage receive some_bytes =>
      exact h.turn rfl rfl htotal
  | takes stage receive some_bytes advance =>
      rw [stage] at hbounds
      obtain ⟨hthresholds, hunread, hbehind⟩ := Pipe.behind_le_of_received advance hbounds.2
      refine ⟨h.blank, hthresholds.trans h.thresholds_eq, (h.tidy.fillMemory _).advance advance, ?_⟩
      refine ⟨?_, hbehind⟩
      exact Nat.lt_of_le_of_lt (Nat.le_of_eq (congrArg Buffer.size hunread)) hbounds.1
  | @flushes flush flush' memory input stage step =>
      refine ⟨(Pipe.flush_grows step).blank h.blank,
        (Pipe.thresholds_flush step).trans h.thresholds_eq, h.tidy.flush step, ?_⟩
      exact h.flushes stage step
  | flushed stage step =>
      exact ⟨(Pipe.flush_grows step).blank h.blank,
        (Pipe.thresholds_flush step).trans h.thresholds_eq, h.tidy.flush step,
        h.flushed hpos stage step⟩
  | @leaves reason stage =>
      refine h.turn rfl ?_ htotal
      cases reason <;> rfl
  | completes stage =>
      have hcompleted : { l.setInput (l.transport.input.completeWriter l.memory).1
          (l.transport.input.completeWriter l.memory).2 with receiver := .finished }.Bounded m :=
        ⟨(Pipe.completeWriter_grows l.memory _).blank h.blank,
          (Pipe.thresholds_completeWriter l.memory _).trans h.thresholds_eq,
          h.tidy.completeWriter l.memory,
          Nat.lt_of_le_of_lt (Pipe.total_completeWriter_le h.blank h.tidy) htotal⟩
      unfold releaseWire
      split
      · exact ⟨hcompleted.blank, hcompleted.thresholds_eq, hcompleted.tidy, hcompleted.bounds⟩
      · exact hcompleted
  | stops => exact h.turn rfl rfl htotal
  | stopsFlushing =>
      exact ⟨h.blank, h.thresholds_eq, h.tidy.of_keeps ⟨rfl, rfl, rfl, rfl, rfl⟩, htotal⟩

theorem blank_move {a : Move} (hblank : l.memory.Blank) (hmove : l.move? a = some l') :
    l'.memory.Blank := by
  cases a with
  | main choice => exact (stepMain_queues hmove).output.blank hblank
  | start =>
      cases hmove
      exact (start_queues l).output.blank hblank
  | arrive bs =>
      cases hmove
      exact hblank
  | _ =>
      obtain ⟨-, hdraws⟩ := move_aside (fun _ => Move.noConfusion) Move.noConfusion hmove
      obtain ⟨bs, hdraws⟩ := hdraws fun _ => Move.noConfusion
      exact hdraws.input.blank hblank

/-- **But for the receiver, every move eases the input pipe.** -/
theorem move_eases {a : Move} (hmove : l.move? a = some l') : (∃ choice, l.Fetches choice l') ∨
    l'.receiver = l.receiver ∧ l.transport.input.Eases l'.transport.input := by
  cases a with
  | receiver choice most => exact .inl ⟨choice, fetches_of_stepReceiver hmove⟩
  | main choice =>
      cases choice with
      | work => exact .inr (works_of_workMain hmove).eases
      | stop =>
          obtain ⟨read, -, -, -, rfl⟩ := stopMain_eq hmove
          exact .inr ⟨rfl, Pipe.Keeps.eases ⟨rfl, rfl, rfl, rfl, rfl⟩ rfl⟩
  | start =>
      cases hmove
      unfold Link.start
      split <;> exact .inr ⟨rfl, .refl _⟩
  | _ =>
      obtain ⟨hreceiver, hinput | hinput⟩ := move_spares (fun _ => Move.noConfusion)
        Move.noConfusion (fun _ _ => Move.noConfusion) hmove
      · exact .inr ⟨hreceiver, by rw [hinput]; exact .refl _⟩
      · exact .inr ⟨hreceiver, by rw [hinput]; exact Pipe.eases_cancelFlush _⟩

/-- A flush looks for the first time when it has just handed over. -/
theorem Fetches.publishing {choice : Choice} (hfetches : l.Fetches choice l')
    (hstage : l'.receiver = .flushing (.checking false)) :
    l.receiver = .flushing .publishing := by
  cases hfetches with
  | flushes stage step =>
      cases hstage
      cases Pipe.flush_step step
      exact stage
  | flushed stage step =>
      dsimp only at hstage
      unfold afterReceived ReceiverStage.first at hstage
      split at hstage
      · cases hstage
      · split at hstage <;> cases hstage
  | completes stage =>
      unfold releaseWire at hstage
      split at hstage <;> cases hstage
  | expects | prepares | fails | finds | jams | takes | leaves | stops | stopsFlushing =>
      cases hstage

end Link

/-! ## 3. An input that anybody reads -/

/-- A link, and whether the flush of its receiver has waited since it was begun. -/
structure Throttle where
  link : Link
  suspended : Bool := false

namespace Throttle

/-- A link that is not started yet. -/
def new (o : ConnectionOptions) (setup : LinkSetup) (id peer : String) (wire : Wire) : Throttle :=
  { link := .new setup id peer o.maxPayload o.input o.output wire }

/-- What happens next: a move of the link, or what anybody else does who reads the input pipe, or
may finish and cancel its sides. -/
inductive Act where
  | move (m : Move)
  /-- a step of a read -/
  | read (stage : ReadStage)
  | dropRead
  | consume (n : Nat)
  | completeReader
  | completeWriter
  | cancelRead
  | cancelFlush
  /-- others take blocks from the pool, and give some back -/
  | share (memory : BlockPool)

/-- The link after an act, if it is possible. -/
def act? (a : Act) (l : Link) : Option Link :=
  match a with
  | .move m => l.move? m
  | .read stage =>
      (stage.step? l.transport.input).map fun (_, input) => l.setInput l.memory input
  | .dropRead => some (l.setInput l.memory l.transport.input.abandonRead)
  | .consume n =>
      match l.transport.input.consume n l.memory with
      | .error _ => none
      | .ok (memory, input) => some (l.setInput memory input)
  | .completeReader => some l.dropInput
  | .completeWriter => some (l.setInput l.memory l.transport.input.completeWriterOutside)
  | .cancelRead => some (l.setInput l.memory l.transport.input.cancelRead)
  | .cancelFlush => some (l.setInput l.memory l.transport.input.cancelFlush)
  | .share memory => if memory.Blank then some (l.setInput memory l.transport.input) else none

/-- Whether the flush has waited, once the receiver has come to a stage. -/
def suspendedAt (stage : ReceiverStage) (suspended : Bool) : Bool :=
  match stage with
  | .flushing .publishing => false
  | .flushing .parking | .flushing .parked => true
  | _ => suspended

/-- What is after an act, if it is possible. -/
def next? (a : Act) (t : Throttle) : Option Throttle :=
  (act? a t.link).map fun link => { link, suspended := suspendedAt link.receiver t.suspended }

/-- What is after some acts in a row. -/
def run? : List Act → Throttle → Option Throttle
  | [], t => some t
  | a :: acts, t =>
      match t.next? a with
      | none => none
      | some t => run? acts t

variable {m : Nat} {t t' : Throttle}

/-- Anybody but the receiver eases the input pipe. -/
theorem act_eases {a : Act} {l l' : Link} (hact : act? a l = some l') :
    (∃ choice, l.Fetches choice l') ∨
      l'.receiver = l.receiver ∧ l.transport.input.Eases l'.transport.input := by
  cases a with
  | move a => exact Link.move_eases hact
  | read stage =>
      obtain ⟨⟨result, input⟩, hstep, rfl⟩ := Option.map_eq_some_iff.mp hact
      exact .inr ⟨rfl, Pipe.eases_of_read hstep⟩
  | consume n =>
      simp only [act?] at hact
      split at hact <;> cases hact
      next hconsume => exact .inr ⟨rfl, Pipe.eases_of_consume hconsume⟩
  | completeReader =>
      cases hact
      exact .inr ⟨rfl, Pipe.eases_completeReader l.memory _⟩
  | share memory =>
      simp only [act?] at hact
      split at hact <;> cases hact
      exact .inr ⟨rfl, .refl _⟩
  | dropRead | completeWriter | cancelRead | cancelFlush =>
      cases hact
      exact .inr ⟨rfl, Pipe.Keeps.eases ⟨rfl, rfl, rfl, rfl, rfl⟩ rfl⟩

theorem blank_act {a : Act} {l l' : Link} (hblank : l.memory.Blank)
    (hact : act? a l = some l') : l'.memory.Blank := by
  cases a with
  | move a => exact Link.blank_move hblank hact
  | read stage =>
      obtain ⟨⟨result, input⟩, -, rfl⟩ := Option.map_eq_some_iff.mp hact
      exact hblank
  | consume n =>
      simp only [act?] at hact
      split at hact <;> cases hact
      next hconsume => exact Pipe.blank_consume hconsume hblank
  | completeReader =>
      cases hact
      exact Pipe.blank_completeReader _ hblank
  | share memory =>
      simp only [act?] at hact
      split at hact <;> cases hact
      next hshared => exact hshared
  | dropRead | completeWriter | cancelRead | cancelFlush =>
      cases hact
      exact hblank

/-- The bounds are kept, and a flush that has not waited is looked at as one that has not. -/
structure Kept (m : Nat) (t : Throttle) : Prop where
  bounded : t.link.Bounded m
  fresh : t.link.receiver = .flushing .publishing ∨ t.link.receiver = .flushing (.checking false) →
    t.suspended = false

theorem kept_new (o : ConnectionOptions) (hpos : 0 < o.maxReadBuffer) (setup : LinkSetup)
    (id peer : String) (wire : Wire) : (new o setup id peer wire).Kept o.maxReadBuffer where
  bounded := ⟨BlockPool.blank_empty, rfl, .new _, .first setup.carriage hpos rfl⟩
  fresh _ := rfl

/-- **Every act keeps this.** -/
theorem Kept.next {a : Act} (h : t.Kept m) (hpos : 0 < m) (hnext : t.next? a = some t') :
    t'.Kept m := by
  obtain ⟨l, hact, rfl⟩ := Option.map_eq_some_iff.mp hnext
  have hcases := act_eases hact
  refine ⟨?_, ?_⟩
  · obtain ⟨choice, hfetches⟩ | ⟨hreceiver, heases⟩ := hcases
    · exact h.bounded.fetches hpos hfetches
    · exact h.bounded.eases (blank_act h.bounded.blank hact) hreceiver heases
  · rintro ((hstage : l.receiver = _) | (hstage : l.receiver = _))
    · simp only [suspendedAt, hstage]
    · have hbefore : t.suspended = false := by
        obtain ⟨choice, hfetches⟩ | ⟨hreceiver, -⟩ := hcases
        · exact h.fresh (.inl (hfetches.publishing hstage))
        · exact h.fresh (.inr (hreceiver.symm.trans hstage))
      simp only [suspendedAt, hstage, hbefore]

theorem Kept.run {acts : List Act} (h : t.Kept m) (hpos : 0 < m)
    (hrun : t.run? acts = some t') : t'.Kept m := by
  induction acts generalizing t with
  | nil =>
      cases hrun
      exact h
  | cons a acts ih =>
      simp only [run?] at hrun
      split at hrun
      · cases hrun
      · next hnext => exact ih (h.next hpos hnext) hrun

/-- **What is unread never passes the size at which the receiver waits by a block.** Let the read
buffer of a link, on a stream or a socket, be limited: in no state of any run, however much the
receiver takes at once and whatever the main task or anybody else does to the input pipe, are more
bytes unread than one less than the limit and a block. A flush that ends neither with its reader nor
by being canceled leaves less than the limit unread, and no more than half of it if it has
waited. -/
theorem unread_le_of_run (o : ConnectionOptions) (hpos : 0 < o.maxReadBuffer) (setup : LinkSetup)
    (id peer : String) (wire : Wire) (acts : List Act)
    (hrun : (new o setup id peer wire).run? acts = some t) :
    t.link.transport.input.unread.toList.length ≤ o.maxReadBuffer - 1 + Block.capacity ∧
    ∀ flush outcome memory input, t.link.receiver = .flushing flush →
      flush.step? t.link.memory t.link.transport.input = some (.done outcome, memory, input) →
      outcome.completed = false → outcome.canceled = false →
        input.unread.toList.length < o.maxReadBuffer ∧
          (t.suspended = true → input.unread.toList.length ≤ o.maxReadBuffer / 2) := by
  obtain ⟨h, hfresh⟩ := (kept_new o hpos setup id peer wire).run hpos hrun
  refine ⟨?_, fun flush outcome memory input hstage hstep hcompleted hcanceled => ?_⟩
  · have htotal := h.bounds.total_lt
    rw [← h.tidy.sound.size_eq]
    omega
  · obtain ⟨waited, rfl, hproceed, rfl⟩ := Pipe.mayProceed_of_flush hstep hcompleted hcanceled
    obtain ⟨hlt, hhalf⟩ := Pipe.size_of_mayProceed h.thresholds_eq hpos hproceed
    rw [← h.tidy.sound.size_eq]
    refine ⟨hlt, fun hsuspended => hhalf ?_⟩
    cases waited with
    | true => rfl
    | false => cases (hfresh (.inr hstage)).symm.trans hsuspended

/-- Six bytes arrive where a receiver waits at four. Its flush waits until somebody has consumed
four of them. -/
def sixBytes : List Act :=
  [.move (.arrive [1, 2, 3, 4, 5, 6])] ++ List.replicate 5 (.move (.receiver .work 2048)) ++
    [.consume 4, .move (.receiver .work 2048)]

/-- Options with a read buffer of four bytes. -/
def fourBytes : ConnectionOptions :=
  { maxReadBuffer := 4 }

theorem unread_le_of_sixBytes : ∃ t memory input,
    (new fourBytes {} "near" "far" { capacity := 64 }).run? sixBytes = some t ∧
    t.link.receiver = .flushing (.checking true) ∧ t.suspended = true ∧
    (FlushStage.checking true).step? t.link.memory t.link.transport.input =
      some (.done {}, memory, input) ∧
    input.unread.toList.length ≤ 2 ∧
      t.link.transport.input.unread.toList.length ≤ 4 - 1 + Block.capacity := by
  have hseen : ((new fourBytes {} "near" "far" { capacity := 64 }).run? sixBytes).map
      (fun t => (t.link.receiver, t.suspended,
        ((FlushStage.checking true).step? t.link.memory t.link.transport.input).map (·.1))) =
      some (.flushing (.checking true), true, some (.done {})) := by
    decide +kernel
  obtain ⟨t, hrun, ht⟩ := Option.map_eq_some_iff.mp hseen
  simp only [Prod.mk.injEq] at ht
  obtain ⟨hstage, hsuspended, hstep⟩ := ht
  obtain ⟨⟨result, memory, input⟩, hstep, hresult⟩ := Option.map_eq_some_iff.mp hstep
  cases hresult
  obtain ⟨hceiling, hflush⟩ := unread_le_of_run fourBytes (by decide) {} "near" "far"
    { capacity := 64 } sixBytes hrun
  exact ⟨t, memory, input, hrun, hstage, hsuspended, hstep,
    (hflush _ _ _ _ hstage hstep rfl rfl).2 hsuspended, hceiling⟩

end Throttle

end Courier
