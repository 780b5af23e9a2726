import Courier.Proofs.Link.Calm
import Courier.Proofs.Link.Tasks

/-!
Courier.Proofs.Link.Reason — who records why a connection ends.

A reason that is recorded stays (`Link.reason_of_move`), so it is the first one that counts. Three
tasks can record one: the receiver at the end of the stream, the sender when it has ended, and the
main task once it has come to the end of its input. As long as nobody has, each task is where it is
for a cause: the writer leaves only when the end was asked for and the sender only behind the writer
(`Link.Outgoing`), and the receiver only at the end of the stream or behind the main task
(`Link.Incoming`).
-/

namespace Courier

/-! ## 1. A request to end stays -/

namespace Connection

/-- A connection that was asked to end is still asked to. -/
def Lasts (c c' : Connection) : Prop :=
  c.cancelled = true → c'.cancelled = true

theorem enqueue_cancelled {f : Frame} {c c' : Connection} (h : c.enqueue f = .ok c') :
    c'.cancelled = c.cancelled := by
  unfold enqueue at h
  split at h
  · cases h
  · split at h <;> cases h
    rfl

theorem perform_lasts (command : Command) (c : Connection) : c.Lasts (c.perform command).2 := by
  obtain ⟨r, h⟩ | ⟨-, h⟩ | ⟨f, c', -, henqueue, h⟩ := c.perform_cases command
  · rw [h]
    exact fun hasked => hasked
  · rw [h]
    exact fun _ => rfl
  · rw [h]
    exact (enqueue_cancelled henqueue).trans

theorem sendIfAny_cancelled {message : Option Bytes} {c c' : Connection}
    (h : Handshake.sendIfAny rawSender message c = .ok c') : c'.cancelled = c.cancelled := by
  obtain ⟨rfl, rfl⟩ | ⟨bs, rfl, henqueue⟩ := enqueue_of_sendIfAny h
  · rfl
  · exact enqueue_cancelled henqueue

theorem start_cancelled {h : Handshake} {c c' : Connection} {outcome : Except Fault Bool}
    (hstart : h.start rawSender c = (outcome, c')) : c'.cancelled = c.cancelled := by
  cases Handshake.starts_of_eq hstart with
  | failed | refused => rfl
  | opened opening sends => exact sendIfAny_cancelled sends

theorem examine_cancelled {h : Handshake} {b b' : Buffer} {c c' : Connection}
    {outcome : Except Fault Bool} (hexamine : h.examine rawSender b c = (outcome, b', c')) :
    c'.cancelled = c.cancelled := by
  cases Handshake.examines_of_eq hexamine with
  | pending | rejected | refused => rfl
  | completed judge sends => exact sendIfAny_cancelled sends

end Connection

theorem Job.step_lasts (job : Job) (c : Connection) : c.Lasts (job.step c).2.2 := by
  unfold Job.step
  split
  · split
    · exact id
    · next command commands hcommands =>
      have hperform := c.perform_lasts command
      split
      · next h =>
        rw [h] at hperform
        exact hperform
      · next h =>
        rw [h] at hperform
        exact hperform
  · exact id

namespace Link

section Lasting

variable {l l' : Link} {choice : Choice} {m : Move}

theorem Works.lasts (hworks : l.Works l') : l.connection.Lasts l'.connection := by
  cases hworks with
  | openFailed stage start | openCompleted stage start | openPending stage start =>
      exact (Connection.start_cancelled start).trans
  | examineFailed stage examine | examineCompleted stage examine | examineLong stage examine
    | examinePending stage examine => exact (Connection.examine_cancelled examine).trans
  | @readFrame portion f reader buffer stage read =>
      have hd := dispatch_dispatches f { portion with buffer } reader l
      rw [hd.connection_eq]
      exact id
  | handles stage => exact Job.step_lasts _ _
  | cancels stage => exact fun _ => rfl
  | cuts stage =>
      dsimp only
      split
      · rw [connection_shutDown]
        exact id
      · exact id
  | givesUp stage | shuts stage =>
      dsimp only
      rw [connection_shutDown]
      exact id
  | _ => exact id

theorem connection_stepJob {number : Nat} (hstep : l.stepJob number = some l') :
    ∃ job, l.jobs[number]? = some job ∧ l'.connection = (job.step l.connection).2.2 := by
  unfold stepJob goOn at hstep
  split at hstep
  · cases hstep
  · next job hjob =>
    refine ⟨job, hjob, ?_⟩
    dsimp only at hstep
    split at hstep
    all_goals
      next hl =>
      cases hstep
      rw [Prod.ext_iff] at hl
      obtain ⟨-, rfl⟩ := hl
      rfl

/-- **A connection that was asked to end is still asked to after every move.** -/
theorem move_lasts (hmove : l.move? m = some l') : l.connection.Lasts l'.connection := by
  cases m with
  | main choice =>
      cases choice with
      | work => exact (works_of_workMain hmove).lasts
      | stop =>
          obtain ⟨read, -, -, -, rfl⟩ := stopMain_eq hmove
          exact id
  | writer choice =>
      cases writes_of_stepWriter hmove <;> exact id
  | receiver choice most =>
      rw [(fetches_of_stepReceiver hmove).connection_eq]
      exact id
  | sender choice most =>
      rw [(delivers_of_stepSender hmove).connection_eq]
      exact id
  | job number =>
      obtain ⟨job, -, hconnection⟩ := connection_stepJob hmove
      rw [hconnection]
      exact job.step_lasts l.connection
  | call command =>
      cases hmove
      exact l.connection.perform_lasts command
  | start =>
      cases hmove
      unfold Link.start
      split <;> exact id
  | shutDown reason =>
      cases hmove
      rw [connection_shutDown]
      exact id
  | record _ | elapse _ | arrive _ | endArriving | depart _ | abandon | failRead _ | failWrite _ =>
      cases hmove
      exact id

/-! ## 2. The first reason stays -/

/-- The reason is still the one that was recorded, if one was. -/
def Remembers (l l' : Link) : Prop :=
  ∀ reason, l.transport.reason = some reason → l'.transport.reason = some reason

theorem Remembers.of_eq (h : l'.transport.reason = l.transport.reason) : l.Remembers l' :=
  fun _ hreason => h.trans hreason

theorem shutDown_remembers (reason : CloseReason) (l : Link) : l.Remembers (l.shutDown reason) := by
  intro first hfirst
  cases hbegun : l.transport.begun with
  | true => rw [shutDown_of_begun hbegun, hfirst]
  | false =>
      rw [shutDown_of_not_begun hbegun]
      simp [TransportCore.finish, TransportCore.record, hfirst]

theorem reason_releaseWire (l : Link) : l.releaseWire.transport = l.transport := by
  unfold releaseWire
  split <;> rfl

theorem Works.remembers (hworks : l.Works l') : l.Remembers l' := by
  cases hworks with
  | @readFrame portion f reader buffer stage read =>
      have hd := dispatch_dispatches f { portion with buffer } reader l
      exact .of_eq (by rw [hd.transport_eq])
  | records stage => exact fun first hfirst => by simp [TransportCore.record, hfirst]
  | @cuts reason stage =>
      dsimp only
      split
      · exact shutDown_remembers reason l
      · exact .of_eq rfl
  | givesUp stage | shuts stage => exact shutDown_remembers _ l
  | _ => exact .of_eq rfl

theorem Writes.remembers (hwrites : l.Writes choice l') : l.Remembers l' := by
  cases hwrites <;> exact .of_eq rfl

theorem Fetches.remembers (hfetches : l.Fetches choice l') : l.Remembers l' := by
  cases hfetches with
  | @leaves reason stage =>
      cases reason with
      | none => exact .of_eq rfl
      | some reason => exact fun first hfirst => by simp [recordOwn, TransportCore.record, hfirst]
  | completes stage => exact .of_eq (by rw [reason_releaseWire]; rfl)
  | _ => exact .of_eq rfl

theorem Delivers.remembers (hdelivers : l.Delivers choice l') : l.Remembers l' := by
  cases hdelivers with
  | @leaves fault stage | @reports fault stage =>
      cases fault with
      | none => exact .of_eq rfl
      | some fault => exact fun first hfirst => by simp [recordFault, TransportCore.record, hfirst]
  | shuts stage =>
      intro first hfirst
      rw [reason_releaseWire]
      exact shutDown_remembers .sendingEnded l first hfirst
  | _ => exact .of_eq rfl

theorem transport_stepJob {number : Nat} (hstep : l.stepJob number = some l') :
    l'.transport = l.transport := by
  unfold stepJob goOn at hstep
  split at hstep
  · cases hstep
  · dsimp only at hstep
    split at hstep
    all_goals
      next hl =>
      cases hstep
      rw [Prod.ext_iff] at hl
      obtain ⟨-, rfl⟩ := hl
      rfl

/-- **The reason that is recorded first is the one that counts.** -/
theorem move_remembers (hmove : l.move? m = some l') : l.Remembers l' := by
  cases m with
  | main choice =>
      cases choice with
      | work => exact (works_of_workMain hmove).remembers
      | stop =>
          obtain ⟨read, -, -, -, rfl⟩ := stopMain_eq hmove
          exact .of_eq rfl
  | writer choice => exact (writes_of_stepWriter hmove).remembers
  | receiver choice most => exact (fetches_of_stepReceiver hmove).remembers
  | sender choice most => exact (delivers_of_stepSender hmove).remembers
  | job number => exact .of_eq (by rw [transport_stepJob hmove])
  | start =>
      cases hmove
      unfold Link.start
      split <;> exact .of_eq rfl
  | record reason =>
      cases hmove
      exact fun first hfirst => by simp [TransportCore.record, hfirst]
  | shutDown reason =>
      cases hmove
      exact shutDown_remembers reason l
  | call _ | elapse _ | arrive _ | endArriving | depart _ | abandon | failRead _ | failWrite _ =>
      cases hmove
      exact .of_eq rfl

end Lasting

end Link

/-! ## 3. The sending side -/

namespace Pipe

variable {pool pool' : BlockPool} {p q : Pipe}

/-- A step of a flush that nobody cancels ends the flush early only if nobody reads any more. -/
theorem steady_of_flush {stage : FlushStage} {result : Staged FlushStage FlushOutcome}
    (hread : p.readCanceled = false) (hflush : p.flushCanceled = false)
    (hstep : stage.step? pool p = some (result, pool', q)) :
    p.Steady q ∧ ∀ outcome, result = .done outcome →
      (outcome.completed || outcome.canceled) = true → p.readerCompleted = true := by
  cases hreader : p.readerCompleted with
  | false =>
      obtain ⟨hsteady, houtcome⟩ := Going.stepFlush ⟨hreader, hread, hflush⟩ hstep
      exact ⟨hsteady, fun outcome hdone hends => by cases (houtcome outcome hdone).symm.trans hends⟩
  | true =>
      refine ⟨?_, fun _ _ _ => rfl⟩
      cases flush_step hstep with
      | dropped outcome publish | published publish =>
          have hsteady := publish_steady pool p
          rwa [publish] at hsteady
      | done waited outcome flushCanceled =>
          simp only [FlushStage.step?, checkSpace, hreader, if_true, Option.some.injEq,
            Prod.mk.injEq] at hstep
          exact ⟨rfl, rfl, rfl, (congrArg Pipe.flushCanceled hstep.2.2).symm⟩
      | idle | permitted | waits | woken => exact ⟨rfl, rfl, rfl, rfl⟩

end Pipe

/-- The sender has dropped the output. -/
def SenderStage.Dropped : SenderStage → Prop
  | .reporting _ | .shutting | .finished => True
  | _ => False

/-- What the sender ends for, if it has a reason of its own. -/
def SenderStage.fault? : SenderStage → Option IoError
  | .leaving fault | .reporting fault => fault
  | _ => none

theorem SenderStage.not_goesOn_of_dropped {stage : SenderStage} (h : stage.Dropped) :
    ¬ stage.GoesOn := by
  cases stage <;> first | exact h.elim | exact id

namespace Link

/-- The writer leaves only when the end was asked for, and the sender only behind the writer. -/
structure Outgoing (l : Link) : Prop where
  writer : ¬ l.writer.GoesOn → l.connection.cancelled = true
  sender : ¬ l.sender.GoesOn → l.transport.output.writerCompleted = true
  completed : l.transport.output.writerCompleted = true → l.writer = .finished
  dropped : l.transport.output.readerCompleted = true → l.sender.Dropped
  sound : l.sender.fault? = none
  read : l.transport.output.readCanceled = false
  flush : l.transport.output.flushCanceled = false

section Outgoing

variable {l l' : Link} {choice : Choice}

theorem Outgoing.going (h : l.Outgoing) (hdropped : ¬ l.sender.Dropped) :
    l.transport.output.Going := by
  refine ⟨?_, h.read, h.flush⟩
  cases hreader : l.transport.output.readerCompleted with
  | false => rfl
  | true => exact absurd (h.dropped hreader) hdropped

/-- As long as the writer has not finished, the sender reads. -/
theorem Outgoing.goesOn_of_writer (h : l.Outgoing) (hwriter : l.writer ≠ .finished) :
    l.sender.GoesOn :=
  Classical.byContradiction fun hsender => hwriter (h.completed (h.sender hsender))

theorem Outgoing.going_of_writer (h : l.Outgoing) (hwriter : l.writer ≠ .finished) :
    l.transport.output.Going :=
  h.going fun hdropped => SenderStage.not_goesOn_of_dropped hdropped (h.goesOn_of_writer hwriter)

theorem Outgoing.spares (h : l.Outgoing) (hs : l.SparesOutput l')
    (hlasts : l.connection.Lasts l'.connection) : l'.Outgoing where
  writer hleaves := hlasts (h.writer (by rwa [hs.writer_eq] at hleaves))
  sender hends := by
    rw [hs.output_eq]
    exact h.sender (by rwa [hs.sender_eq] at hends)
  completed hcompleted := by
    rw [hs.writer_eq]
    exact h.completed (by rwa [hs.output_eq] at hcompleted)
  dropped hreader := by
    rw [hs.sender_eq]
    exact h.dropped (by rwa [hs.output_eq] at hreader)
  sound := by
    rw [hs.sender_eq]
    exact h.sound
  read := by
    rw [hs.output_eq]
    exact h.read
  flush := by
    rw [hs.output_eq]
    exact h.flush

/-- The writer goes to another stage. -/
theorem Outgoing.turnWriter (h : l.Outgoing) (hcancelled : l'.connection.cancelled =
      l.connection.cancelled) (hsender : l'.sender = l.sender)
    (hsteady : l.transport.output.Steady l'.transport.output) (hne : l.writer ≠ .finished)
    (hgoes : ¬ l'.writer.GoesOn → l.connection.cancelled = true) : l'.Outgoing where
  writer hleaves := hcancelled.trans (hgoes hleaves)
  sender hends := by
    rw [hsender] at hends
    exact absurd (h.goesOn_of_writer hne) hends
  completed hcompleted :=
    absurd (h.completed (hsteady.writerCompleted_eq.symm.trans hcompleted)) hne
  dropped hreader := by
    rw [hsender]
    exact h.dropped (hsteady.readerCompleted_eq.symm.trans hreader)
  sound := by
    rw [hsender]
    exact h.sound
  read := hsteady.readCanceled_eq.trans h.read
  flush := hsteady.flushCanceled_eq.trans h.flush

/-- **A step of the writer.** -/
theorem Outgoing.writes (h : l.Outgoing) (hwrites : l.Writes choice l') : l'.Outgoing := by
  cases hwrites with
  | jams stage first pieces =>
      exact h.turnWriter rfl rfl (.refl _) (by obtain hs | hs := stage <;> simp [hs])
        fun hleaves => absurd trivial hleaves
  | @takes f queue pieces stage' stage first pieces_eq next =>
      refine h.turnWriter rfl rfl (writePieces_steady pieces (l.memory, l.transport.output))
        (by obtain hs | hs := stage <;> simp [hs]) fun hleaves => absurd ?_ hleaves
      obtain rfl | rfl := next <;> trivial
  | runsOut stage empty =>
      exact h.turnWriter rfl rfl (.refl _) (by simp [stage]) fun hleaves => absurd trivial hleaves
  | flushes stage step =>
      have hne : l.writer ≠ .finished := by simp [stage]
      exact h.turnWriter rfl rfl ((h.going_of_writer hne).stepFlush step).1 hne
        fun hleaves => absurd trivial hleaves
  | @flushed flush outcome memory output stage step =>
      have hne : l.writer ≠ .finished := by simp [stage]
      obtain ⟨hsteady, houtcome⟩ := (h.going_of_writer hne).stepFlush step
      refine h.turnWriter rfl rfl hsteady hne fun hleaves => absurd ?_ hleaves
      unfold afterFlush
      rw [if_neg (by rw [houtcome outcome rfl]; exact Bool.false_ne_true)]
      trivial
  | leaves stage =>
      exact h.turnWriter rfl rfl (.refl _) (by simp [stage]) fun _ =>
        h.writer (by rw [stage]; exact id)
  | completes stage =>
      have hsteady := Pipe.completeWriter_steady l.memory l.transport.output
      exact ⟨fun _ => h.writer (by rw [stage]; exact id), fun _ => hsteady.writerCompleted_eq,
        fun _ => rfl, fun hreader => h.dropped (hsteady.readerCompleted_eq.symm.trans hreader),
        h.sound, hsteady.readCanceled_eq.trans h.read, hsteady.flushCanceled_eq.trans h.flush⟩
  | stopsWaiting cancelled stage =>
      exact h.turnWriter rfl rfl (.refl _) (by simp [stage]) fun _ => cancelled
  | stopsFlushing cancelled stage =>
      exact h.turnWriter rfl rfl ⟨rfl, rfl, rfl, rfl⟩ (by simp [stage]) fun _ => cancelled

/-- The sender goes to another stage. -/
theorem Outgoing.turnSender (h : l.Outgoing) (hconnection : l'.connection = l.connection)
    (hwriter : l'.writer = l.writer)
    (hsteady : l.transport.output.Steady l'.transport.output)
    (hgoes : ¬ l'.sender.GoesOn → l.transport.output.writerCompleted = true)
    (hdropped : l.sender.Dropped → l'.sender.Dropped) (hsound : l'.sender.fault? = none) :
    l'.Outgoing where
  writer hleaves := by
    rw [hconnection]
    exact h.writer (by rwa [hwriter] at hleaves)
  sender hends := hsteady.writerCompleted_eq.trans (hgoes hends)
  completed hcompleted :=
    hwriter.trans (h.completed (hsteady.writerCompleted_eq.symm.trans hcompleted))
  dropped hreader := hdropped (h.dropped (hsteady.readerCompleted_eq.symm.trans hreader))
  sound := hsound
  read := hsteady.readCanceled_eq.trans h.read
  flush := hsteady.flushCanceled_eq.trans h.flush

/-- After the last output the sender comes to its end, and it drops nothing yet. -/
theorem turn_afterOutput (carriage : Carriage) (last : Bool) :
    (¬ (afterOutput carriage last).GoesOn → last = true) ∧
      (afterOutput carriage last).fault? = none := by
  cases last with
  | false => cases carriage <;> exact ⟨fun hends => absurd trivial hends, rfl⟩
  | true => cases carriage <;> exact ⟨fun _ => rfl, rfl⟩

theorem turn_takeOutput (carriage : Carriage) {outcome : ReadOutcome}
    (hcanceled : outcome.canceled = false) :
    (¬ (takeOutput carriage outcome).GoesOn → outcome.completed = true) ∧
      (takeOutput carriage outcome).fault? = none := by
  unfold takeOutput
  dsimp only
  rw [if_neg (by rw [hcanceled]; exact Bool.false_ne_true)]
  split
  · exact turn_afterOutput carriage outcome.completed
  · cases carriage with
    | stream => exact ⟨fun hends => by simpa [SenderStage.GoesOn] using hends, rfl⟩
    | socket expects breaks => exact ⟨fun hends => by simpa [SenderStage.GoesOn] using hends, rfl⟩

/-- The sender drops the output at its end. -/
theorem Outgoing.drops {stage : SenderStage} (h : l.Outgoing) (hends : ¬ l.sender.GoesOn)
    (hdropped : stage.Dropped) (hfault : stage.fault? = none) :
    { l.dropOutput with sender := stage }.Outgoing where
  writer := h.writer
  sender _ := h.sender hends
  completed := h.completed
  dropped _ := hdropped
  sound := hfault
  read := h.read
  flush := h.flush

/-- **A step of the sender**, as long as the stream does not fail and nobody has shut the transport
down. -/
theorem Outgoing.delivers (h : l.Outgoing) (hdelivers : l.Delivers choice l')
    (hstopped : l.transport.stopped = false) (hshutting : l.sender ≠ .shutting)
    (hsound : l'.sender.failing = false) : l'.Outgoing := by
  have hgoing : ∀ {read}, l.sender = .waiting read → l.transport.output.Going := fun hstage =>
    h.going (by rw [hstage]; exact id)
  have hkeeps : ∀ {stage : SenderStage}, l.sender = stage → (stage.GoesOn → False) →
      l.transport.output.writerCompleted = true := fun hstage hends =>
    h.sender (by rw [hstage]; exact hends)
  have hfault : ∀ {stage : SenderStage}, l.sender = stage → stage.fault? = none := fun hstage =>
    hstage ▸ h.sound
  cases hdelivers with
  | looks stage step =>
      exact h.turnSender rfl rfl ((hgoing stage).stepRead step).1
        (fun hends => absurd trivial hends) (by rw [stage]; exact False.elim) rfl
  | @takes read outcome output stage step =>
      obtain ⟨hsteady, houtcome⟩ := (hgoing stage).stepRead step
      obtain ⟨hcanceled, hcompleted⟩ := houtcome outcome rfl
      obtain ⟨hends, hfault⟩ := turn_takeOutput l.setup.carriage hcanceled
      exact h.turnSender rfl rfl hsteady (fun hleaves => hcompleted.symm.trans (hends hleaves))
        (by rw [stage]; exact False.elim) hfault
  | sent stage | sends stage send =>
      exact h.turnSender rfl rfl (.refl _) (fun hends => hkeeps stage hends)
        (by rw [stage]; exact False.elim) rfl
  | offered stage empty | offers stage send =>
      exact h.turnSender rfl rfl (.refl _) (fun hends => hkeeps stage hends)
        (by rw [stage]; exact False.elim) rfl
  | retries stage send =>
      exact h.turnSender rfl rfl (.refl _) (fun hends => h.sender hends) id h.sound
  | fails stage send => cases hsound
  | jams stage consume =>
      exact h.turnSender rfl rfl (.refl _) (fun hends => absurd trivial hends)
        (by rw [stage]; exact False.elim) rfl
  | @settles size last memory output stage consume =>
      obtain ⟨hends, hfault⟩ := turn_afterOutput l.setup.carriage last
      refine h.turnSender rfl rfl (Pipe.consume_steady consume).1
        (fun hleaves => hkeeps stage fun hgoes => ?_) (by rw [stage]; exact False.elim) hfault
      cases hgoes.symm.trans (hends hleaves)
  | closes stage =>
      exact h.turnSender rfl rfl (.refl _) (fun _ => hkeeps stage id)
        (by rw [stage]; exact False.elim) rfl
  | @leaves fault stage =>
      obtain rfl : fault = none := hfault stage
      exact h.turnSender rfl rfl (.refl _) (fun _ => hkeeps stage id)
        (by rw [stage]; exact False.elim) rfl
  | @drops fault stage =>
      obtain rfl : fault = none := hfault stage
      exact h.drops (by rw [stage]; exact id) trivial rfl
  | completes stage => exact h.drops (by rw [stage]; exact id) trivial rfl
  | @reports fault stage =>
      obtain rfl : fault = none := hfault stage
      exact h.turnSender rfl rfl (.refl _) (fun _ => hkeeps stage id) (fun _ => trivial) rfl
  | shuts stage => exact absurd stage hshutting
  | stopsWaiting stopped stage => cases hstopped.symm.trans stopped
  | stopsSending stopped stage => cases hstopped.symm.trans stopped

end Outgoing

end Link

/-! ## 4. The receiving side -/

theorem Wire.receive_cases {w w' : Wire} {most : Nat} {result : Except IoError Bytes}
    (hfault : w.readFault = none) (hreceive : w.receive? most = some (result, w')) :
    w'.readFault = none ∧ w'.arrivingEnded = w.arrivingEnded ∧
      ∃ bs, result = .ok bs ∧ (bs = [] → w.arrivingEnded = true) := by
  unfold Wire.receive? at hreceive
  rw [hfault] at hreceive
  dsimp only at hreceive
  split at hreceive
  · split at hreceive <;> cases hreceive
    next hended => exact ⟨hfault, rfl, [], rfl, fun _ => hended⟩
  · next hsome =>
    split at hreceive <;> cases hreceive
    next hpos =>
    refine ⟨rfl, rfl, _, rfl, fun hnil => ?_⟩
    rcases List.take_eq_nil_iff.mp hnil with hzero | hnone
    · exact absurd hzero hpos
    · exact absurd (List.isEmpty_iff.mpr hnone) hsome

namespace Link

/-- The receiver comes to its end at the end of the stream, or behind the main task; and the last
input that the main task takes is behind the receiver. -/
structure Incoming (ended : Bool) (l : Link) : Prop where
  read : l.transport.input.readCanceled = false
  flush : l.transport.input.flushCanceled = false
  taken : l.main.Takes = true → l.transport.input.readerCompleted = false
  fault : l.wire.readFault = none
  ended_eq : l.wire.arrivingEnded = ended
  done : l.receiver.Done → ended = true ∨ l.main.Takes = false
  own : ∀ reason, l.receiver = .leaving (some reason) → reason = .peerClosed ∧ ended = true
  completed : l.transport.input.writerCompleted = true → l.receiver = .finished
  last : ∀ portion, l.main.portion? = some portion → portion.last = true →
    l.transport.input.writerCompleted = true

section Incoming

variable {l l' : Link} {choice : Choice} {ended : Bool}

/-- What the other tasks do. -/
theorem Incoming.spares (h : l.Incoming ended) (hs : l.SparesStream l')
    (hinput : l'.transport.input = l.transport.input) (hmain : l'.main = l.main) :
    l'.Incoming ended where
  read := by rw [hinput]; exact h.read
  flush := by rw [hinput]; exact h.flush
  taken := by rw [hinput, hmain]; exact h.taken
  fault := hs.readFault_eq.trans h.fault
  ended_eq := hs.arrivingEnded_eq.trans h.ended_eq
  done := by rw [hs.receiver_eq, hmain]; exact h.done
  own := by rw [hs.receiver_eq]; exact h.own
  completed := by rw [hs.receiver_eq, hinput]; exact h.completed
  last := by rw [hmain, hinput]; exact h.last

/-- The receiver goes to another stage. -/
theorem Incoming.turn (h : l.Incoming ended) (hmain : l'.main = l.main)
    (hsteady : l.transport.input.Steady l'.transport.input) (hne : l.receiver ≠ .finished)
    (hfault : l'.wire.readFault = none) (hended : l'.wire.arrivingEnded = ended)
    (hdone : l'.receiver.Done → ended = true ∨ l.main.Takes = false)
    (hown : ∀ reason, l'.receiver = .leaving (some reason) → reason = .peerClosed ∧ ended = true) :
    l'.Incoming ended where
  read := hsteady.readCanceled_eq.trans h.read
  flush := hsteady.flushCanceled_eq.trans h.flush
  taken htakes := hsteady.readerCompleted_eq.trans (h.taken (by rwa [hmain] at htakes))
  fault := hfault
  ended_eq := hended
  done := by rw [hmain]; exact hdone
  own := hown
  completed hcompleted :=
    absurd (h.completed (hsteady.writerCompleted_eq.symm.trans hcompleted)) hne
  last := by
    rw [hmain, hsteady.writerCompleted_eq]
    exact h.last

/-- After a flush the receiver leaves only if that was ended early, and not for a reason of its
own. -/
theorem turn_afterReceived (carriage : Carriage) (outcome : FlushOutcome) :
    ((afterReceived carriage outcome).Done → (outcome.completed || outcome.canceled) = true) ∧
      ∀ reason, afterReceived carriage outcome ≠ .leaving (some reason) := by
  unfold afterReceived
  split
  · next hends => exact ⟨fun _ => hends, fun _ => by simp⟩
  · refine ⟨fun hdone => absurd hdone (not_done_first carriage), fun reason hleaving => ?_⟩
    exact not_done_first carriage (by rw [hleaving]; trivial)

/-- The receiver ends the input. -/
theorem Incoming.completes (h : l.Incoming ended) (hstage : l.receiver = .completing) :
    ({ l.setInput (l.transport.input.completeWriter l.memory).1
        (l.transport.input.completeWriter l.memory).2 with
      receiver := .finished }).releaseWire.Incoming ended := by
  have hsteady := Pipe.completeWriter_steady l.memory l.transport.input
  have hdone := h.done (by rw [hstage]; trivial)
  unfold releaseWire
  split
  all_goals exact ⟨hsteady.readCanceled_eq.trans h.read, hsteady.flushCanceled_eq.trans h.flush,
    fun htakes => hsteady.readerCompleted_eq.trans (h.taken htakes), h.fault, h.ended_eq,
    fun _ => hdone, fun _ => ReceiverStage.noConfusion, fun _ => rfl,
    fun _ _ _ => hsteady.writerCompleted_eq⟩

/-- **A step of the receiver**, as long as nobody has shut the transport down. -/
theorem Incoming.fetches (h : l.Incoming ended) (hfetches : l.Fetches choice l')
    (hstopped : l.transport.stopped = false) : l'.Incoming ended := by
  cases hfetches with
  | expects stage readable =>
      exact h.turn rfl (.refl _) (by simp [stage]) h.fault h.ended_eq False.elim
        (fun _ => ReceiverStage.noConfusion)
  | prepares stage =>
      exact h.turn rfl (Pipe.ensureMemory_private _ _ _).steady (by simp [stage]) h.fault h.ended_eq
        False.elim (fun _ => ReceiverStage.noConfusion)
  | fails stage receive =>
      obtain ⟨-, -, bs, hok, -⟩ := Wire.receive_cases h.fault receive
      cases hok
  | finds stage receive =>
      obtain ⟨hfault, hended, bs, hok, hnil⟩ := Wire.receive_cases h.fault receive
      cases hok
      have hended' : ended = true := h.ended_eq.symm.trans (hnil rfl)
      exact h.turn rfl (.refl _) (by simp [stage]) hfault (hended.trans h.ended_eq)
        (fun _ => .inl hended') fun reason hleaving => by cases hleaving; exact ⟨rfl, hended'⟩
  | jams stage receive some_bytes =>
      obtain ⟨hfault, hended, -⟩ := Wire.receive_cases h.fault receive
      exact h.turn rfl (.refl _) (by simp [stage]) hfault (hended.trans h.ended_eq) False.elim
        (fun _ => ReceiverStage.noConfusion)
  | takes stage receive some_bytes advance =>
      obtain ⟨hfault, hended, -⟩ := Wire.receive_cases h.fault receive
      have hprivate := (Pipe.fillMemory_private _ _).trans (Pipe.advance_private advance)
      exact h.turn rfl hprivate.steady (by simp [stage]) hfault (hended.trans h.ended_eq) False.elim
        (fun _ => ReceiverStage.noConfusion)
  | flushes stage step =>
      exact h.turn rfl (Pipe.steady_of_flush h.read h.flush step).1 (by simp [stage]) h.fault
        h.ended_eq False.elim (fun _ => ReceiverStage.noConfusion)
  | @flushed flush outcome memory input stage step =>
      obtain ⟨hsteady, hends⟩ := Pipe.steady_of_flush h.read h.flush step
      obtain ⟨hearly, hown⟩ := turn_afterReceived l.setup.carriage outcome
      refine h.turn rfl hsteady (by simp [stage]) h.fault h.ended_eq (fun hdone => .inr ?_)
        fun reason hleaving => absurd hleaving (hown reason)
      have hreader := hends outcome rfl (hearly hdone)
      cases htakes : l.main.Takes with
      | false => rfl
      | true => cases (h.taken htakes).symm.trans hreader
  | @leaves reason stage =>
      have hdone := h.done (by rw [stage]; trivial)
      cases reason <;>
        exact h.turn rfl (.refl _) (by simp [stage]) h.fault h.ended_eq (fun _ => hdone)
          (fun _ => ReceiverStage.noConfusion)
  | completes stage => exact h.completes stage
  | stops stopped stage => cases hstopped.symm.trans stopped
  | stopsFlushing stopped stage => cases hstopped.symm.trans stopped

/-- The main task has come to the end of its input. -/
theorem Incoming.leave (h : l.Incoming ended) (hs : l.SparesStream l')
    (htakes' : l'.main.Takes = false)
    (hread : l'.transport.input.readCanceled = l.transport.input.readCanceled)
    (hflush : l'.transport.input.flushCanceled = l.transport.input.flushCanceled)
    (hcompleted : l'.transport.input.writerCompleted = l.transport.input.writerCompleted) :
    l'.Incoming ended where
  read := hread.trans h.read
  flush := hflush.trans h.flush
  taken htakes := by cases htakes'.symm.trans htakes
  fault := hs.readFault_eq.trans h.fault
  ended_eq := hs.arrivingEnded_eq.trans h.ended_eq
  done _ := .inr htakes'
  own := by rw [hs.receiver_eq]; exact h.own
  completed := by rw [hs.receiver_eq, hcompleted]; exact h.completed
  last portion hportion := by
    have hnone : l'.main.portion? = none := by
      cases hstage : l'.main <;> first | rfl | (rw [hstage] at htakes'; cases htakes')
    cases hnone.symm.trans hportion

/-- Input is taken as before. -/
theorem Incoming.take (h : l.Incoming ended) (hworks : l.Works l') (htakes : l.main.Takes = true)
    (htakes' : l'.main.Takes = true) : l'.Incoming ended := by
  have hgoing : l.transport.input.Going := ⟨h.taken htakes, h.read, h.flush⟩
  have hsteady := hworks.steady htakes' hgoing
  obtain ⟨-, hstream⟩ := hworks.spares (MainStage.not_recorded_of_takes htakes')
  refine ⟨hsteady.readCanceled_eq.trans h.read, hsteady.flushCanceled_eq.trans h.flush,
    fun _ => hsteady.readerCompleted_eq.trans hgoing.reader, hstream.readFault_eq.trans h.fault,
    hstream.arrivingEnded_eq.trans h.ended_eq, fun hdone => ?_, ?_, ?_,
    fun portion' hportion' hlast => ?_⟩
  · rw [hstream.receiver_eq] at hdone
    obtain hended | hleft := h.done hdone
    · exact .inl hended
    · cases htakes.symm.trans hleft
  · rw [hstream.receiver_eq]
    exact h.own
  · rw [hstream.receiver_eq, hsteady.writerCompleted_eq]
    exact h.completed
  · rw [hsteady.writerCompleted_eq]
    obtain ⟨-, portion, hportion, -, hlast'⟩ | ⟨read, outcome, input, hstep, -, -, hlast'⟩ :=
      hworks.portion hportion'
    · exact h.last portion hportion (hlast'.symm.trans hlast)
    · obtain ⟨-, houtcome⟩ := hgoing.stepRead hstep
      obtain ⟨hcanceled, hcompleted⟩ := houtcome outcome rfl
      rw [hcanceled, Bool.or_false, hcompleted] at hlast'
      exact hlast'.symm.trans hlast

/-- The main task takes input only if it has taken it before. -/
theorem Works.takes_before (hworks : l.Works l') (htakes' : l'.main.Takes = true) :
    l.main.Takes = true := by
  cases hworks with
  | openFailed | examineFailed | examineLong | readFault | jams | leaves | concludes | notifies
    | records | cuts | cancels | seesWriter | drains | seesSender | givesUp | shuts | releases
    | seesReceiver | ends | tellsEnd | marksEnd => cases htakes'
  | openCompleted stage | openPending stage | marks stage | shows stage | tells stage
    | tellsWith stage | looks stage | takes stage | examineCompleted stage | examinePending stage
    | readNothing stage | readFrame stage | handles stage | settles stage =>
      rw [stage]
      rfl

/-- **A step of the main task** that records nothing. -/
theorem Incoming.works (h : l.Incoming ended) (hworks : l.Works l')
    (hbefore : l'.main.Recorded = false) : l'.Incoming ended := by
  cases htakes' : l'.main.Takes with
  | true => exact h.take hworks (hworks.takes_before htakes') htakes'
  | false =>
      obtain ⟨-, hstream⟩ := hworks.spares hbefore
      cases hworks with
      | settles stage consume =>
          have hsteady := (Pipe.consume_steady consume).1
          exact h.leave hstream htakes' hsteady.readCanceled_eq hsteady.flushCanceled_eq
            hsteady.writerCompleted_eq
      | openFailed | examineFailed | examineLong | readFault | jams | leaves | concludes
        | notifies => exact h.leave hstream htakes' rfl rfl rfl
      | takes stage step =>
          unfold takeInput at htakes'
          dsimp only at htakes'
          split at htakes' <;> cases htakes'
      | @readFrame portion f reader buffer stage read =>
          have hd := dispatch_dispatches f { portion with buffer } reader l
          obtain hmain | ⟨job, hmain⟩ := hd.main_eq <;> rw [hmain] at htakes' <;> cases htakes'
      | @handles job portion stage =>
          dsimp only at htakes'
          cases hleft : (l.goOn job).1 <;> rw [hleft] at htakes' <;> cases htakes'
      | records | cuts | cancels | seesWriter | drains | seesSender | givesUp | shuts | releases
        | seesReceiver | ends | tellsEnd | marksEnd => cases hbefore
      | _ => cases htakes'

end Incoming

end Link

end Courier
