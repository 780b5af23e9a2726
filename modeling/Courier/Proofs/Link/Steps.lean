import Courier.Proofs.Link.Timely

/-!
Courier.Proofs.Link.Steps — what a step of the main task can be, and what the others leave alone.

`Link.Works` says what the main task finds at each stage and what it makes of it: the handshake is
opened, input is shown to it, the input is read frame by frame, and at last the connection is closed
stage by stage. Whatever is kept by the main task is kept by each of these steps.

The state of the connection is the main task's own, and so is the log but for what handlers report
(`Link.Reserves`). The input pipe belongs to the main task and the receiver; the others do no more
to it than cancel a flush (`Link.Spares`).
-/

namespace Courier

/-! ## 1. What is left of a connection by its users -/

namespace Connection

/-- It is the same connection, in the same state and with the same marks of the handshake and of
the end. -/
structure Alike (c c' : Connection) : Prop where
  id_eq : c'.id = c.id
  state_eq : c'.state = c.state
  handshaked_eq : c'.handshaked = c.handshaked
  closed_eq : c'.closed = c.closed

theorem Alike.refl (c : Connection) : c.Alike c := ⟨rfl, rfl, rfl, rfl⟩

theorem Alike.trans {c c' c'' : Connection} (h : c.Alike c') (h' : c'.Alike c'') : c.Alike c'' :=
  ⟨h'.id_eq.trans h.id_eq, h'.state_eq.trans h.state_eq, h'.handshaked_eq.trans h.handshaked_eq,
    h'.closed_eq.trans h.closed_eq⟩

theorem enqueue_alike {f : Frame} {c c' : Connection} (h : c.enqueue f = .ok c') : c.Alike c' := by
  unfold enqueue at h
  split at h
  · cases h
  · split at h <;> cases h
    exact ⟨rfl, rfl, rfl, rfl⟩

theorem perform_alike (command : Command) (c : Connection) : c.Alike (c.perform command).2 := by
  obtain ⟨r, h⟩ | ⟨-, h⟩ | ⟨f, c', -, henqueue, h⟩ := c.perform_cases command
  · rw [h]
    exact .refl c
  · rw [h]
    exact ⟨rfl, rfl, rfl, rfl⟩
  · rw [h]
    exact enqueue_alike henqueue

theorem sendIfAny_alike {message : Option Bytes} {c c' : Connection}
    (h : Handshake.sendIfAny rawSender message c = .ok c') : c.Alike c' := by
  obtain ⟨rfl, rfl⟩ | ⟨bs, rfl, henqueue⟩ := enqueue_of_sendIfAny h
  · exact .refl c'
  · exact enqueue_alike henqueue

theorem start_alike (h : Handshake) (c : Connection) : c.Alike (h.start rawSender c).2 := by
  have hstarts := h.starts_start rawSender c
  generalize h.start rawSender c = result at hstarts ⊢
  cases hstarts with
  | failed | refused => exact .refl c
  | opened opening sends => exact sendIfAny_alike sends

theorem examine_alike (h : Handshake) (b : Buffer) (c : Connection) :
    c.Alike (h.examine rawSender b c).2.2 := by
  have hexamines := h.examines_examine rawSender b c
  generalize h.examine rawSender b c = result at hexamines ⊢
  cases hexamines with
  | pending | rejected | refused => exact .refl c
  | completed judge sends => exact sendIfAny_alike sends

end Connection

theorem Job.step_alike (job : Job) (c : Connection) : c.Alike (job.step c).2.2 := by
  unfold Job.step
  split
  · split
    · exact .refl c
    · next command commands hcommands =>
      have hperform := c.perform_alike command
      split
      · next h =>
        rw [h] at hperform
        exact hperform
      · next h =>
        rw [h] at hperform
        exact hperform
  · exact .refl c

namespace Link

/-! ## 2. The main task -/

/-- The stage after a step of a handler. -/
def afterHandler (portion : Portion) : Option Job → MainStage
  | none => .reading portion
  | some job => .handling job portion

/-- The steps of the main task. -/
inductive Works (l : Link) : Link → Prop where
  -- the handshake is opened
  | openFailed {cause : Fault} {connection : Connection} (stage : l.main = .opening)
      (start : l.setup.handshake.start Connection.rawSender (l.enter .handshaking).connection =
        (.error cause, connection)) :
      Works l { l with connection, main := .leaving (some cause) }
  | openCompleted {connection : Connection} (stage : l.main = .opening)
      (start : l.setup.handshake.start Connection.rawSender (l.enter .handshaking).connection =
        (.ok true, connection)) :
      Works l { l with connection, main := .marking none }
  | openPending {connection : Connection} (stage : l.main = .opening)
      (start : l.setup.handshake.start Connection.rawSender (l.enter .handshaking).connection =
        (.ok false, connection)) :
      Works l { l with connection, main := .waiting .looking }
  -- it is complete
  | marks {portion : Option Portion} (stage : l.main = .marking portion) :
      Works l { l with
        connection := { l.connection with handshaked := true }, main := .showing portion }
  | shows {portion : Option Portion} (stage : l.main = .showing portion) :
      Works l { l.enter .opened with main := .telling portion }
  | tells (stage : l.main = .telling none) :
      Works l { l.tell .handshaked with main := .waiting .looking }
  | tellsWith {portion : Portion} (stage : l.main = .telling (some portion)) :
      Works l { l.tell .handshaked with main := .reading portion }
  -- input is waited for
  | looks {read read' : ReadStage} {input : Pipe} (stage : l.main = .waiting read)
      (step : read.step? l.transport.input = some (.next read', input)) :
      Works l { l.setInput l.memory input with main := .waiting read' }
  | takes {read : ReadStage} {outcome : ReadOutcome} {input : Pipe} (stage : l.main = .waiting read)
      (step : read.step? l.transport.input = some (.done outcome, input)) :
      Works l ((l.setInput l.memory input).takeInput outcome)
  -- it is shown to the handshake
  | examineFailed {portion : Portion} {cause : Fault} {buffer : Buffer} {connection : Connection}
      (stage : l.main = .examining portion)
      (examine : l.setup.handshake.examine Connection.rawSender portion.buffer l.connection =
        (.error cause, buffer, connection)) :
      Works l { l with connection, main := .leaving (some cause) }
  | examineCompleted {portion : Portion} {buffer : Buffer} {connection : Connection}
      (stage : l.main = .examining portion)
      (examine : l.setup.handshake.examine Connection.rawSender portion.buffer l.connection =
        (.ok true, buffer, connection)) :
      Works l { l with connection, main := .marking (some { portion with buffer }) }
  | examineLong {portion : Portion} {buffer : Buffer} {connection : Connection}
      (stage : l.main = .examining portion)
      (examine : l.setup.handshake.examine Connection.rawSender portion.buffer l.connection =
        (.ok false, buffer, connection))
      (long : l.setup.maxHandshake < buffer.size) :
      Works l { l with
        connection, main := .leaving (some (.violation (.longHandshake l.setup.maxHandshake))) }
  | examinePending {portion : Portion} {buffer : Buffer} {connection : Connection}
      (stage : l.main = .examining portion)
      (examine : l.setup.handshake.examine Connection.rawSender portion.buffer l.connection =
        (.ok false, buffer, connection))
      (short : buffer.size ≤ l.setup.maxHandshake) :
      Works l { l with connection, main := .settling { portion with buffer } }
  -- it is read
  | readFault {portion : Portion} {cause : Fault} {reader : FrameReader} {buffer : Buffer}
      (stage : l.main = .reading portion)
      (read : l.reader.read portion.buffer = (.error cause, reader, buffer)) :
      Works l { l with reader, main := .leaving (some cause) }
  | readNothing {portion : Portion} {reader : FrameReader} {buffer : Buffer}
      (stage : l.main = .reading portion)
      (read : l.reader.read portion.buffer = (.ok none, reader, buffer)) :
      Works l { l with reader, main := .settling { portion with buffer } }
  | readFrame {portion : Portion} {f : Frame} {reader : FrameReader} {buffer : Buffer}
      (stage : l.main = .reading portion)
      (read : l.reader.read portion.buffer = (.ok (some f), reader, buffer)) :
      Works l ({ l with reader }.dispatch f { portion with buffer })
  | handles {job : Job} {portion : Portion} (stage : l.main = .handling job portion) :
      Works l { (l.goOn job).2 with main := afterHandler portion (l.goOn job).1 }
  -- what was consumed is given back
  | jams {portion : Portion} {misuse : Misuse} (stage : l.main = .settling portion)
      (consume : l.transport.input.consume (portion.size - portion.buffer.size) l.memory =
        .error misuse) :
      Works l { l with main := .crashed misuse }
  | settles {portion : Portion} {memory : BlockPool} {input : Pipe}
      (stage : l.main = .settling portion)
      (consume : l.transport.input.consume (portion.size - portion.buffer.size) l.memory =
        .ok (memory, input)) :
      Works l { l.setInput memory input with
        main := if portion.last then .leaving none else .waiting .looking }
  -- the connection is closed
  | leaves {cause : Option Fault} (stage : l.main = .leaving cause) :
      Works l { l.dropInput with main := .concluding cause }
  | concludes {cause : Option Fault} (stage : l.main = .concluding cause) :
      Works l { l.enter .closing with main := .notifying (l.closeReason cause) }
  | notifies {reason : CloseReason} (stage : l.main = .notifying reason) :
      Works l { l.tell .closing with main := .recording reason }
  | records {reason : CloseReason} (stage : l.main = .recording reason) :
      Works l { l with transport := l.transport.record reason, main := .cutting reason }
  | cuts {reason : CloseReason} (stage : l.main = .cutting reason) :
      Works l { if reason.isError then l.shutDown reason else l with main := .cancelling reason }
  | cancels {reason : CloseReason} (stage : l.main = .cancelling reason) :
      Works l { l with connection := l.connection.disconnect, main := .awaitingWriter reason }
  | seesWriter {reason : CloseReason} (stage : l.main = .awaitingWriter reason)
      (ended : l.writerEnded = true) :
      Works l { l with main := .draining reason }
  | drains {reason : CloseReason} (stage : l.main = .draining reason) :
      Works l { l.setOutput l.memory l.transport.output.completeWriterOutside with
        main := .awaitingSender reason (some (l.clock + drainTime)) }
  | seesSender {reason : CloseReason} {deadline : Option Nat}
      (stage : l.main = .awaitingSender reason deadline) (ended : l.senderEnded = true) :
      Works l { l with main := .shutting reason }
  | givesUp {reason : CloseReason} {deadline : Option Nat}
      (stage : l.main = .awaitingSender reason deadline) :
      Works l { l.shutDown .drainTimeout with main := .awaitingSender reason none }
  | shuts {reason : CloseReason} (stage : l.main = .shutting reason) :
      Works l { l.shutDown reason with main := .releasing }
  | releases (stage : l.main = .releasing) :
      Works l { l.dropInput with main := .awaitingReceiver }
  | seesReceiver (stage : l.main = .awaitingReceiver) (ended : l.receiverEnded = true) :
      Works l { l with main := .ending }
  | ends (stage : l.main = .ending) : Works l { l.enter .closed with main := .tellingEnd }
  | tellsEnd (stage : l.main = .tellingEnd) :
      Works l { l.tell .closed with main := .markingEnd }
  | marksEnd (stage : l.main = .markingEnd) :
      Works l { l with connection := { l.connection with closed := true }, main := .finished }

variable {l l' : Link}

theorem openHandshake_works (stage : l.main = .opening) :
    l.Works (l.enter .handshaking).openHandshake := by
  unfold openHandshake
  cases hstart : (l.enter .handshaking).setup.handshake.start Connection.rawSender
      (l.enter .handshaking).connection with
  | mk outcome connection =>
    cases outcome with
    | error cause => exact .openFailed stage hstart
    | ok complete =>
        cases complete with
        | true => exact .openCompleted stage hstart
        | false => exact .openPending stage hstart

theorem examine_works {portion : Portion} (stage : l.main = .examining portion) :
    l.Works (l.examine portion) := by
  unfold Link.examine
  cases hexamine :
      l.setup.handshake.examine Connection.rawSender portion.buffer l.connection with
  | mk outcome kept =>
    obtain ⟨buffer, connection⟩ := kept
    cases outcome with
    | error cause => exact .examineFailed stage hexamine
    | ok complete =>
        cases complete with
        | true => exact .examineCompleted stage hexamine
        | false =>
            dsimp only
            split
            · next hlong => exact .examineLong stage hexamine hlong
            · next hshort => exact .examinePending stage hexamine (Nat.le_of_not_lt hshort)

theorem readFrame_works {portion : Portion} (stage : l.main = .reading portion) :
    l.Works (l.readFrame portion) := by
  unfold Link.readFrame
  cases hread : l.reader.read portion.buffer with
  | mk outcome kept =>
    obtain ⟨reader, buffer⟩ := kept
    cases outcome with
    | error cause => exact .readFault stage hread
    | ok found =>
        cases found with
        | none => exact .readNothing stage hread
        | some f => exact .readFrame stage hread

theorem settle_works {portion : Portion} (stage : l.main = .settling portion) :
    l.Works (l.settle portion) := by
  unfold Link.settle
  cases hconsume :
      l.transport.input.consume (portion.size - portion.buffer.size) l.memory with
  | error misuse => exact .jams stage hconsume
  | ok result => exact .settles stage hconsume

theorem awaitSender_works {reason : CloseReason} {deadline : Option Nat}
    (stage : l.main = .awaitingSender reason deadline)
    (hstep : l.awaitSender reason deadline = some l') : l.Works l' := by
  unfold Link.awaitSender at hstep
  split at hstep
  · next hended =>
    cases hstep
    exact .seesSender stage hended
  · split at hstep
    · cases hstep
    · split at hstep <;> cases hstep
      exact .givesUp stage

/-- **Every step of the main task is one of these.** -/
theorem works_of_workMain (hwork : l.workMain = some l') : l.Works l' := by
  unfold workMain at hwork
  cases hstage : l.main with
  | unstarted | finished | crashed _ =>
      rw [hstage] at hwork
      cases hwork
  | opening =>
      rw [hstage] at hwork
      cases hwork
      exact openHandshake_works hstage
  | telling portion =>
      rw [hstage] at hwork
      cases portion with
      | none =>
          cases hwork
          exact .tells hstage
      | some portion =>
          cases hwork
          exact .tellsWith hstage
  | waiting read =>
      rw [hstage] at hwork
      dsimp only at hwork
      split at hwork
      · cases hwork
      · next hstep =>
        cases hwork
        exact .looks hstage hstep
      · next hstep =>
        cases hwork
        exact .takes hstage hstep
  | examining portion =>
      rw [hstage] at hwork
      cases hwork
      exact examine_works hstage
  | reading portion =>
      rw [hstage] at hwork
      cases hwork
      exact readFrame_works hstage
  | handling job portion =>
      rw [hstage] at hwork
      dsimp only at hwork
      have hhandles : l.Works { (l.goOn job).2 with main := afterHandler portion (l.goOn job).1 } :=
        .handles hstage
      split at hwork
      · next hgoOn =>
        cases hwork
        rwa [hgoOn] at hhandles
      · next hgoOn =>
        cases hwork
        rwa [hgoOn] at hhandles
  | settling portion =>
      rw [hstage] at hwork
      cases hwork
      exact settle_works hstage
  | awaitingWriter reason =>
      rw [hstage] at hwork
      dsimp only at hwork
      split at hwork <;> cases hwork
      next hended => exact .seesWriter hstage hended
  | awaitingReceiver =>
      rw [hstage] at hwork
      dsimp only at hwork
      split at hwork <;> cases hwork
      next hended => exact .seesReceiver hstage hended
  | awaitingSender reason deadline =>
      rw [hstage] at hwork
      exact awaitSender_works hstage hwork
  | marking portion =>
      rw [hstage] at hwork
      cases hwork
      exact .marks hstage
  | showing portion =>
      rw [hstage] at hwork
      cases hwork
      exact .shows hstage
  | leaving cause =>
      rw [hstage] at hwork
      cases hwork
      exact .leaves hstage
  | concluding cause =>
      rw [hstage] at hwork
      cases hwork
      exact .concludes hstage
  | notifying reason =>
      rw [hstage] at hwork
      cases hwork
      exact .notifies hstage
  | recording reason =>
      rw [hstage] at hwork
      cases hwork
      exact .records hstage
  | cutting reason =>
      rw [hstage] at hwork
      cases hwork
      exact .cuts hstage
  | cancelling reason =>
      rw [hstage] at hwork
      cases hwork
      exact .cancels hstage
  | draining reason =>
      rw [hstage] at hwork
      cases hwork
      exact .drains hstage
  | shutting reason =>
      rw [hstage] at hwork
      cases hwork
      exact .shuts hstage
  | releasing =>
      rw [hstage] at hwork
      cases hwork
      exact .releases hstage
  | ending =>
      rw [hstage] at hwork
      cases hwork
      exact .ends hstage
  | tellingEnd =>
      rw [hstage] at hwork
      cases hwork
      exact .tellsEnd hstage
  | markingEnd =>
      rw [hstage] at hwork
      cases hwork
      exact .marksEnd hstage

/-- The main task stops only at a read that it has begun. -/
theorem stopMain_eq (hstop : l.stopMain = some l') : ∃ read, l.main = .waiting read ∧
    read.interruptible = true ∧ l.connection.cancelled = true ∧
      l' = { l.setInput l.memory l.transport.input.abandonRead with main := .leaving none } := by
  unfold stopMain at hstop
  split at hstop
  · next read hstage =>
    split at hstop <;> cases hstop
    next hboth =>
    obtain ⟨hcancelled, hread⟩ := Bool.and_eq_true_iff.mp hboth
    exact ⟨read, hstage, hread, hcancelled, rfl⟩
  · cases hstop

/-! ## 3. The other tasks -/

/-- The state of the connection is left alone, and nothing is noted but what handlers report. -/
structure Reserves (l l' : Link) : Prop where
  connection : l.connection.Alike l'.connection
  log : ∃ reports : List Report, l'.log = l.log ++ reports.map .reported

/-- The input pipe and its writer are left alone, but for a flush that is canceled. -/
structure Spares (l l' : Link) : Prop where
  receiver_eq : l'.receiver = l.receiver
  input : l'.transport.input = l.transport.input ∨
    l'.transport.input = l.transport.input.cancelFlush

theorem Reserves.of_eq (hconnection : l.connection.Alike l'.connection)
    (hlog : l'.log = l.log) : l.Reserves l' :=
  ⟨hconnection, [], by rw [hlog, List.map_nil, List.append_nil]⟩

theorem Reserves.refl (l : Link) : l.Reserves l := .of_eq (.refl _) rfl

theorem Spares.refl (l : Link) : l.Spares l := ⟨rfl, .inl rfl⟩

theorem goOn_reserves (job : Job) (l : Link) : l.Reserves (l.goOn job).2 :=
  ⟨job.step_alike l.connection, _, rfl⟩

theorem shutDown_reserves (reason : CloseReason) (l : Link) : l.Reserves (l.shutDown reason) := by
  unfold shutDown
  split <;> exact .of_eq ⟨rfl, rfl, rfl, rfl⟩ rfl

theorem shutDown_spares (reason : CloseReason) (l : Link) : l.Spares (l.shutDown reason) := by
  unfold shutDown TransportCore.begin
  cases l.transport.begun with
  | true => exact .refl l
  | false => exact ⟨rfl, .inr rfl⟩

theorem Reserves.releaseWire (h : l.Reserves l') : l.Reserves l'.releaseWire := by
  unfold Link.releaseWire
  split <;> exact ⟨h.connection, h.log⟩

theorem Spares.releaseWire (h : l.Spares l') : l.Spares l'.releaseWire := by
  unfold Link.releaseWire
  split <;> exact ⟨h.receiver_eq, h.input⟩

theorem stepJob_reserves {number : Nat} (hstep : l.stepJob number = some l') :
    l.Reserves l' ∧ l.Spares l' := by
  unfold stepJob at hstep
  split at hstep
  · cases hstep
  · next job _ =>
    have hgoOn := goOn_reserves job l
    have hspares : l.Spares (l.goOn job).2 := ⟨rfl, .inl rfl⟩
    split at hstep
    · next hl =>
      cases hstep
      rw [hl] at hgoOn hspares
      exact ⟨⟨hgoOn.connection, hgoOn.log⟩, ⟨hspares.receiver_eq, hspares.input⟩⟩
    · next hl =>
      cases hstep
      rw [hl] at hgoOn hspares
      exact ⟨⟨hgoOn.connection, hgoOn.log⟩, ⟨hspares.receiver_eq, hspares.input⟩⟩

theorem writeNext_reserves {next : Link → WriterStage} (hstep : l.writeNext? next = some l') :
    l.Reserves l' ∧ l.Spares l' := by
  unfold writeNext? at hstep
  split at hstep
  · cases hstep
  · dsimp only at hstep
    split at hstep <;> cases hstep <;> exact ⟨.of_eq ⟨rfl, rfl, rfl, rfl⟩ rfl, ⟨rfl, .inl rfl⟩⟩

theorem stepWriter_reserves {choice : Choice} (hstep : l.stepWriter choice = some l') :
    l.Reserves l' ∧ l.Spares l' := by
  cases choice with
  | work =>
      have hwork : l.workWriter = some l' := hstep
      unfold workWriter at hwork
      cases hstage : l.writer with
      | waiting =>
          rw [hstage] at hwork
          exact writeNext_reserves hwork
      | batching =>
          rw [hstage] at hwork
          dsimp only at hwork
          split at hwork
          · next hnext =>
            cases hwork
            exact writeNext_reserves hnext
          · cases hwork
            exact ⟨.of_eq ⟨rfl, rfl, rfl, rfl⟩ rfl, ⟨rfl, .inl rfl⟩⟩
      | flushing flush =>
          rw [hstage] at hwork
          dsimp only at hwork
          split at hwork <;> cases hwork <;>
            exact ⟨.of_eq ⟨rfl, rfl, rfl, rfl⟩ rfl, ⟨rfl, .inl rfl⟩⟩
      | leaving | completing =>
          rw [hstage] at hwork
          cases hwork
          exact ⟨.of_eq ⟨rfl, rfl, rfl, rfl⟩ rfl, ⟨rfl, .inl rfl⟩⟩
      | unstarted | finished | crashed _ =>
          rw [hstage] at hwork
          cases hwork
  | stop =>
      have hstop : l.stopWriter = some l' := hstep
      unfold stopWriter at hstop
      split at hstop
      · split at hstop
        · cases hstop
          exact ⟨.of_eq ⟨rfl, rfl, rfl, rfl⟩ rfl, ⟨rfl, .inl rfl⟩⟩
        · split at hstop <;> cases hstop
          exact ⟨.of_eq ⟨rfl, rfl, rfl, rfl⟩ rfl, ⟨rfl, .inl rfl⟩⟩
        · cases hstop
      · cases hstop

theorem workSender_reserves {most : Nat} (hstep : l.workSender most = some l') :
    l.Reserves l' ∧ l.Spares l' := by
  unfold workSender at hstep
  cases hstage : l.sender with
  | waiting read =>
      rw [hstage] at hstep
      dsimp only at hstep
      split at hstep <;> cases hstep <;> exact ⟨.of_eq ⟨rfl, rfl, rfl, rfl⟩ rfl, ⟨rfl, .inl rfl⟩⟩
  | sending left size last =>
      rw [hstage] at hstep
      cases left with
      | nil =>
          cases hstep
          exact ⟨.of_eq ⟨rfl, rfl, rfl, rfl⟩ rfl, ⟨rfl, .inl rfl⟩⟩
      | cons segment left =>
          dsimp only at hstep
          split at hstep
          · cases hstep
          · split at hstep <;> cases hstep <;>
              exact ⟨.of_eq ⟨rfl, rfl, rfl, rfl⟩ rfl, ⟨rfl, .inl rfl⟩⟩
          · cases hstep
            exact ⟨.of_eq ⟨rfl, rfl, rfl, rfl⟩ rfl, ⟨rfl, .inl rfl⟩⟩
  | offering sender size last =>
      rw [hstage] at hstep
      dsimp only at hstep
      split at hstep
      · cases hstep
        exact ⟨.of_eq ⟨rfl, rfl, rfl, rfl⟩ rfl, ⟨rfl, .inl rfl⟩⟩
      · split at hstep <;> cases hstep <;> exact ⟨.of_eq ⟨rfl, rfl, rfl, rfl⟩ rfl, ⟨rfl, .inl rfl⟩⟩
  | settling size last =>
      rw [hstage] at hstep
      dsimp only at hstep
      split at hstep <;> cases hstep <;> exact ⟨.of_eq ⟨rfl, rfl, rfl, rfl⟩ rfl, ⟨rfl, .inl rfl⟩⟩
  | closing | completing =>
      rw [hstage] at hstep
      cases hstep
      exact ⟨.of_eq ⟨rfl, rfl, rfl, rfl⟩ rfl, ⟨rfl, .inl rfl⟩⟩
  | leaving fault =>
      rw [hstage] at hstep
      dsimp only at hstep
      split at hstep <;> cases hstep
      · cases fault <;> exact ⟨.of_eq ⟨rfl, rfl, rfl, rfl⟩ rfl, ⟨rfl, .inl rfl⟩⟩
      · exact ⟨.of_eq ⟨rfl, rfl, rfl, rfl⟩ rfl, ⟨rfl, .inl rfl⟩⟩
  | reporting fault =>
      rw [hstage] at hstep
      cases hstep
      cases fault <;> exact ⟨.of_eq ⟨rfl, rfl, rfl, rfl⟩ rfl, ⟨rfl, .inl rfl⟩⟩
  | shutting =>
      rw [hstage] at hstep
      cases hstep
      obtain ⟨hconnection, hlog⟩ := shutDown_reserves .sendingEnded l
      obtain ⟨hreceiver, hinput⟩ := shutDown_spares .sendingEnded l
      have hreserves : l.Reserves { l.shutDown .sendingEnded with sender := .finished } :=
        ⟨hconnection, hlog⟩
      have hspares : l.Spares { l.shutDown .sendingEnded with sender := .finished } :=
        ⟨hreceiver, hinput⟩
      exact ⟨hreserves.releaseWire, hspares.releaseWire⟩
  | finished | crashed _ =>
      rw [hstage] at hstep
      cases hstep

theorem stepSender_reserves {choice : Choice} {most : Nat}
    (hstep : l.stepSender choice most = some l') : l.Reserves l' ∧ l.Spares l' := by
  cases choice with
  | work => exact workSender_reserves hstep
  | stop =>
      have hstop : l.stopSender = some l' := hstep
      unfold stopSender at hstop
      split at hstop
      · split at hstop
        · split at hstop <;> cases hstop
          exact ⟨.of_eq ⟨rfl, rfl, rfl, rfl⟩ rfl, ⟨rfl, .inl rfl⟩⟩
        · cases hstop
          exact ⟨.of_eq ⟨rfl, rfl, rfl, rfl⟩ rfl, ⟨rfl, .inl rfl⟩⟩
        · cases hstop
          exact ⟨.of_eq ⟨rfl, rfl, rfl, rfl⟩ rfl, ⟨rfl, .inl rfl⟩⟩
        · cases hstop
      · cases hstop

theorem stepReceiver_reserves {choice : Choice} {most : Nat}
    (hstep : l.stepReceiver choice most = some l') : l.Reserves l' := by
  cases choice with
  | work =>
      have hwork : l.workReceiver most = some l' := hstep
      unfold workReceiver at hwork
      cases hstage : l.receiver with
      | expecting =>
          rw [hstage] at hwork
          dsimp only at hwork
          split at hwork <;> cases hwork
          exact .of_eq ⟨rfl, rfl, rfl, rfl⟩ rfl
      | preparing =>
          rw [hstage] at hwork
          cases hwork
          exact .of_eq ⟨rfl, rfl, rfl, rfl⟩ rfl
      | receiving =>
          rw [hstage] at hwork
          dsimp only at hwork
          split at hwork <;> cases hwork
          · exact .of_eq ⟨rfl, rfl, rfl, rfl⟩ rfl
          · unfold takeReceived
            split
            · exact .of_eq ⟨rfl, rfl, rfl, rfl⟩ rfl
            · split <;> exact .of_eq ⟨rfl, rfl, rfl, rfl⟩ rfl
      | flushing flush =>
          rw [hstage] at hwork
          dsimp only at hwork
          split at hwork <;> cases hwork <;> exact .of_eq ⟨rfl, rfl, rfl, rfl⟩ rfl
      | leaving reason =>
          rw [hstage] at hwork
          cases reason <;> cases hwork <;> exact .of_eq ⟨rfl, rfl, rfl, rfl⟩ rfl
      | completing =>
          rw [hstage] at hwork
          cases hwork
          have hcompleted : l.Reserves { l.setInput (l.transport.input.completeWriter l.memory).1
              (l.transport.input.completeWriter l.memory).2 with receiver := .finished } :=
            .of_eq ⟨rfl, rfl, rfl, rfl⟩ rfl
          exact hcompleted.releaseWire
      | finished | crashed _ =>
          rw [hstage] at hwork
          cases hwork
  | stop =>
      have hstop : l.stopReceiver = some l' := hstep
      unfold stopReceiver at hstop
      split at hstop
      · split at hstop
        · cases hstop
          exact .of_eq ⟨rfl, rfl, rfl, rfl⟩ rfl
        · cases hstop
          exact .of_eq ⟨rfl, rfl, rfl, rfl⟩ rfl
        · cases hstop
          exact .of_eq ⟨rfl, rfl, rfl, rfl⟩ rfl
        · split at hstop <;> cases hstop
          exact .of_eq ⟨rfl, rfl, rfl, rfl⟩ rfl
        · cases hstop
      · cases hstop

/-! ## 4. Every move but the main task's -/

variable {m : Move}

/-- **The state and the log belong to the main task.** -/
theorem move_reserves (hmain : ∀ choice, m ≠ .main choice) (hstart : m ≠ .start)
    (hmove : l.move? m = some l') : l.Reserves l' := by
  cases m with
  | main choice => exact absurd rfl (hmain choice)
  | start => exact absurd rfl hstart
  | writer choice => exact (stepWriter_reserves hmove).1
  | receiver choice most => exact stepReceiver_reserves hmove
  | sender choice most => exact (stepSender_reserves hmove).1
  | job number => exact (stepJob_reserves hmove).1
  | call command =>
      cases hmove
      exact .of_eq (l.connection.perform_alike command) rfl
  | shutDown reason =>
      cases hmove
      exact shutDown_reserves reason l
  | record _ | elapse _ | arrive _ | endArriving | depart _ | abandon | failRead _ | failWrite _ =>
      cases hmove
      exact .of_eq ⟨rfl, rfl, rfl, rfl⟩ rfl

/-- **The input pipe belongs to the main task and the receiver.** -/
theorem move_spares (hmain : ∀ choice, m ≠ .main choice) (hstart : m ≠ .start)
    (hreceiver : ∀ choice most, m ≠ .receiver choice most) (hmove : l.move? m = some l') :
    l.Spares l' := by
  cases m with
  | main choice => exact absurd rfl (hmain choice)
  | start => exact absurd rfl hstart
  | receiver choice most => exact absurd rfl (hreceiver choice most)
  | writer choice => exact (stepWriter_reserves hmove).2
  | sender choice most => exact (stepSender_reserves hmove).2
  | job number => exact (stepJob_reserves hmove).2
  | shutDown reason =>
      cases hmove
      exact shutDown_spares reason l
  | call _ | record _ | elapse _ | arrive _ | endArriving | depart _ | abandon | failRead _
    | failWrite _ =>
      cases hmove
      exact ⟨rfl, .inl rfl⟩

/-- What every move keeps is true after every run. -/
theorem invariant_run {P : Link → Prop} {moves : List Move}
    (hstep : ∀ {l l' : Link} {m : Move}, P l → l.move? m = some l' → P l') (h : P l)
    (hrun : l.run? moves = some l') : P l' := by
  induction moves generalizing l with
  | nil =>
      cases hrun
      exact h
  | cons m moves ih =>
      simp only [run?] at hrun
      split at hrun
      · cases hrun
      · next hmove => exact ih (hstep h hmove) hrun

end Link

end Courier
