import Courier.Proofs.Link.Steps

/-!
Courier.Proofs.Link.Tasks — what a step of the writer, the receiver or the sender can be.

What `Link.Works` is for the main task, `Link.Writes`, `Link.Fetches` and `Link.Delivers` are for
the other three: each says what the task finds at its stage and what it makes of it, whether it goes
on with its work or stops because it is asked to. What is kept by such a task is kept by each of
these steps.
-/

namespace Courier

namespace Link

/-! ## 1. The end of the transport -/

theorem shutDown_of_begun {l : Link} (h : l.transport.begun = true) (reason : CloseReason) :
    l.shutDown reason = l := by
  unfold shutDown TransportCore.begin
  rw [if_pos h]

/-- Whoever shuts the transport down first also records a reason, unless there is one. -/
theorem shutDown_of_not_begun {l : Link} (h : l.transport.begun = false) (reason : CloseReason) :
    l.shutDown reason = { l with
      transport := { l.transport.record reason with begun := true }.finish,
      wire := l.shutWire (l.transport.reason.getD reason) } := by
  unfold shutDown TransportCore.begin
  rw [if_neg (by rw [h]; exact Bool.false_ne_true)]
  rfl

theorem connection_shutDown (reason : CloseReason) (l : Link) :
    (l.shutDown reason).connection = l.connection := by
  cases h : l.transport.begun with
  | true => rw [shutDown_of_begun h]
  | false => rw [shutDown_of_not_begun h]

/-! ## 2. The writer -/

/-- The stage of the writer after a flush. -/
def afterFlush (outcome : FlushOutcome) : WriterStage :=
  if outcome.completed || outcome.canceled then .leaving else .waiting

/-- The steps of the writer. -/
inductive Writes (l : Link) : Choice → Link → Prop where
  -- it takes a frame from the queue
  | jams {f : Frame} {queue : List Frame} {misuse : Misuse}
      (stage : l.writer = .waiting ∨ l.writer = .batching)
      (first : l.connection.queue = f :: queue)
      (pieces : outgoingPieces l.setup.format f = .error misuse) :
      Writes l .work { l with
        connection := { l.connection with queue }, writer := .crashed misuse }
  | takes {f : Frame} {queue : List Frame} {pieces : List Bytes} {stage' : WriterStage}
      (stage : l.writer = .waiting ∨ l.writer = .batching)
      (first : l.connection.queue = f :: queue)
      (pieces_eq : outgoingPieces l.setup.format f = .ok pieces)
      (next : stage' = .batching ∨ stage' = .flushing .publishing) :
      Writes l .work { { l with connection := { l.connection with queue } }.writePieces pieces with
        writer := stage' }
  | runsOut (stage : l.writer = .batching) (empty : l.connection.queue = []) :
      Writes l .work { l with writer := .flushing .publishing }
  -- it flushes what it has written
  | flushes {flush flush' : FlushStage} {memory : BlockPool} {output : Pipe}
      (stage : l.writer = .flushing flush)
      (step : flush.step? l.memory l.transport.output = some (.next flush', memory, output)) :
      Writes l .work { l.setOutput memory output with writer := .flushing flush' }
  | flushed {flush : FlushStage} {outcome : FlushOutcome} {memory : BlockPool} {output : Pipe}
      (stage : l.writer = .flushing flush)
      (step : flush.step? l.memory l.transport.output = some (.done outcome, memory, output)) :
      Writes l .work { l.setOutput memory output with writer := afterFlush outcome }
  -- it comes to its end
  | leaves (stage : l.writer = .leaving) :
      Writes l .work { l with connection := l.connection.closeQueue, writer := .completing }
  | completes (stage : l.writer = .completing) :
      Writes l .work { l.setOutput (l.transport.output.completeWriter l.memory).1
        (l.transport.output.completeWriter l.memory).2 with writer := .finished }
  -- it is asked to stop
  | stopsWaiting (cancelled : l.connection.cancelled = true) (stage : l.writer = .waiting) :
      Writes l .stop { l with writer := .leaving }
  | stopsFlushing {flush : FlushStage} (cancelled : l.connection.cancelled = true)
      (stage : l.writer = .flushing flush) :
      Writes l .stop
        { l.setOutput l.memory l.transport.output.abandonFlush with writer := .leaving }

section Writer

variable {l l' : Link}

theorem writeNext_writes {next : Link → WriterStage}
    (hstage : l.writer = .waiting ∨ l.writer = .batching)
    (hnext : ∀ l, next l = .batching ∨ next l = .flushing .publishing)
    (hstep : l.writeNext? next = some l') : l.Writes .work l' := by
  unfold writeNext? at hstep
  split at hstep
  · cases hstep
  · next f queue hqueue =>
    dsimp only at hstep
    split at hstep
    · next hpieces =>
      cases hstep
      exact .jams hstage hqueue hpieces
    · next hpieces =>
      cases hstep
      exact .takes hstage hqueue hpieces (hnext _)

theorem writeNext_eq_none {next : Link → WriterStage} (h : l.writeNext? next = none) :
    l.connection.queue = [] := by
  unfold writeNext? at h
  split at h
  · assumption
  · dsimp only at h
    split at h <;> cases h

theorem workWriter_writes (hwork : l.workWriter = some l') : l.Writes .work l' := by
  unfold workWriter at hwork
  cases hstage : l.writer with
  | unstarted | finished | crashed _ =>
      rw [hstage] at hwork
      cases hwork
  | waiting =>
      rw [hstage] at hwork
      exact writeNext_writes (.inl hstage) (fun _ => .inl rfl) hwork
  | batching =>
      rw [hstage] at hwork
      dsimp only at hwork
      split at hwork
      · next hnext =>
        cases hwork
        refine writeNext_writes (.inr hstage) (fun l => ?_) hnext
        unfold afterFrame
        split
        · exact .inr rfl
        · exact .inl rfl
      · next hnone =>
        cases hwork
        exact .runsOut hstage (writeNext_eq_none hnone)
  | flushing flush =>
      rw [hstage] at hwork
      dsimp only at hwork
      split at hwork
      · cases hwork
      · next hstep =>
        cases hwork
        exact .flushes hstage hstep
      · next hstep =>
        cases hwork
        exact .flushed hstage hstep
  | leaving =>
      rw [hstage] at hwork
      cases hwork
      exact .leaves hstage
  | completing =>
      rw [hstage] at hwork
      cases hwork
      exact .completes hstage

/-- **Every step of the writer is one of these.** -/
theorem writes_of_stepWriter {choice : Choice} (hstep : l.stepWriter choice = some l') :
    l.Writes choice l' := by
  cases choice with
  | work => exact workWriter_writes hstep
  | stop =>
      have hstop : l.stopWriter = some l' := hstep
      unfold stopWriter at hstop
      split at hstop
      · next hcancelled =>
        split at hstop
        · next hstage =>
          cases hstop
          exact .stopsWaiting hcancelled hstage
        · next flush hstage =>
          split at hstop <;> cases hstop
          exact .stopsFlushing hcancelled hstage
        · cases hstop
      · cases hstop

end Writer

/-! ## 3. The receiver -/

/-- The stage of the receiver after a flush. -/
def afterReceived (carriage : Carriage) (outcome : FlushOutcome) : ReceiverStage :=
  if outcome.completed || outcome.canceled then .leaving none else .first carriage

/-- Records the reason of its own that a task ends for, if it has one. -/
def recordOwn (reason : Option CloseReason) (t : TransportCore) : TransportCore :=
  match reason with
  | none => t
  | some reason => t.record reason

/-- The steps of the receiver. -/
inductive Fetches (l : Link) : Choice → Link → Prop where
  -- it waits for bytes
  | expects (stage : l.receiver = .expecting) (readable : l.wire.readable = true) :
      Fetches l .work { l with receiver := .preparing }
  | prepares (stage : l.receiver = .preparing) :
      Fetches l .work { l.setInput (l.transport.input.ensureMemory receiveSize l.memory).1
        (l.transport.input.ensureMemory receiveSize l.memory).2 with receiver := .receiving }
  -- it finds a failure, the end of the stream, or bytes
  | fails {most : Nat} {fault : IoError} {wire : Wire} (stage : l.receiver = .receiving)
      (receive : l.wire.receive? most = some (.error fault, wire)) :
      Fetches l .work { l with wire, receiver := .leaving (some (.ofIoError fault)) }
  | finds {most : Nat} {wire : Wire} (stage : l.receiver = .receiving)
      (receive : l.wire.receive? most = some (.ok [], wire)) :
      Fetches l .work { l with wire, receiver := .leaving (some .peerClosed) }
  | jams {most : Nat} {bs : Bytes} {wire : Wire} {misuse : Misuse} (stage : l.receiver = .receiving)
      (receive : l.wire.receive? most = some (.ok bs, wire)) (some_bytes : bs ≠ []) :
      Fetches l .work { l with wire, receiver := .crashed misuse }
  | takes {most : Nat} {bs : Bytes} {wire : Wire} {input : Pipe} (stage : l.receiver = .receiving)
      (receive : l.wire.receive? most = some (.ok bs, wire)) (some_bytes : bs ≠ [])
      (advance : (l.transport.input.fillMemory bs).advance bs.length = .ok input) :
      Fetches l .work { { l with wire }.setInput l.memory input with
        receiver := .flushing .publishing }
  -- it hands them over
  | flushes {flush flush' : FlushStage} {memory : BlockPool} {input : Pipe}
      (stage : l.receiver = .flushing flush)
      (step : flush.step? l.memory l.transport.input = some (.next flush', memory, input)) :
      Fetches l .work { l.setInput memory input with receiver := .flushing flush' }
  | flushed {flush : FlushStage} {outcome : FlushOutcome} {memory : BlockPool} {input : Pipe}
      (stage : l.receiver = .flushing flush)
      (step : flush.step? l.memory l.transport.input = some (.done outcome, memory, input)) :
      Fetches l .work { l.setInput memory input with
        receiver := afterReceived l.setup.carriage outcome }
  -- it comes to its end
  | leaves {reason : Option CloseReason} (stage : l.receiver = .leaving reason) :
      Fetches l .work { l with transport := recordOwn reason l.transport, receiver := .completing }
  | completes (stage : l.receiver = .completing) :
      Fetches l .work { l.setInput (l.transport.input.completeWriter l.memory).1
        (l.transport.input.completeWriter l.memory).2 with receiver := .finished }.releaseWire
  -- it is asked to stop
  | stops (stopped : l.transport.stopped = true)
      (stage : l.receiver = .expecting ∨ l.receiver = .preparing ∨ l.receiver = .receiving) :
      Fetches l .stop { l with receiver := .leaving none }
  | stopsFlushing {flush : FlushStage} (stopped : l.transport.stopped = true)
      (stage : l.receiver = .flushing flush) :
      Fetches l .stop { l.setInput l.memory l.transport.input.abandonFlush with
        receiver := .leaving none }

section Receiver

variable {l l' : Link} {most : Nat}

theorem takeReceived_fetches {bs : Bytes} {wire : Wire} (hstage : l.receiver = .receiving)
    (hreceive : l.wire.receive? most = some (.ok bs, wire)) :
    l.Fetches .work ({ l with wire }.takeReceived bs) := by
  unfold takeReceived
  cases bs with
  | nil => exact .finds hstage hreceive
  | cons b rest =>
      dsimp only [List.isEmpty_cons]
      rw [if_neg Bool.false_ne_true]
      cases hadvance : (l.transport.input.fillMemory (b :: rest)).advance (b :: rest).length with
      | error misuse => exact .jams hstage hreceive (List.cons_ne_nil _ _)
      | ok input => exact .takes hstage hreceive (List.cons_ne_nil _ _) hadvance

theorem workReceiver_fetches (hwork : l.workReceiver most = some l') : l.Fetches .work l' := by
  unfold workReceiver at hwork
  cases hstage : l.receiver with
  | expecting =>
      rw [hstage] at hwork
      dsimp only at hwork
      split at hwork <;> cases hwork
      next hreadable => exact .expects hstage hreadable
  | preparing =>
      rw [hstage] at hwork
      cases hwork
      exact .prepares hstage
  | receiving =>
      rw [hstage] at hwork
      dsimp only at hwork
      split at hwork
      · cases hwork
      · next hreceive =>
        cases hwork
        exact .fails hstage hreceive
      · next hreceive =>
        cases hwork
        exact takeReceived_fetches hstage hreceive
  | flushing flush =>
      rw [hstage] at hwork
      dsimp only at hwork
      split at hwork
      · cases hwork
      · next hstep =>
        cases hwork
        exact .flushes hstage hstep
      · next hstep =>
        cases hwork
        exact .flushed hstage hstep
  | leaving reason =>
      rw [hstage] at hwork
      have hleaves := Fetches.leaves hstage
      cases reason <;> cases hwork <;> exact hleaves
  | completing =>
      rw [hstage] at hwork
      cases hwork
      exact .completes hstage
  | finished | crashed _ =>
      rw [hstage] at hwork
      cases hwork

/-- **Every step of the receiver is one of these.** -/
theorem fetches_of_stepReceiver {choice : Choice} (hstep : l.stepReceiver choice most = some l') :
    l.Fetches choice l' := by
  cases choice with
  | work => exact workReceiver_fetches hstep
  | stop =>
      have hstop : l.stopReceiver = some l' := hstep
      unfold stopReceiver at hstop
      split at hstop
      · next hstopped =>
        split at hstop
        · next hstage =>
          cases hstop
          exact .stops hstopped (.inl hstage)
        · next hstage =>
          cases hstop
          exact .stops hstopped (.inr (.inl hstage))
        · next hstage =>
          cases hstop
          exact .stops hstopped (.inr (.inr hstage))
        · next flush hstage =>
          split at hstop <;> cases hstop
          exact .stopsFlushing hstopped hstage
        · cases hstop
      · cases hstop

end Receiver

/-! ## 4. The sender -/

/-- The steps of the sender. -/
inductive Delivers (l : Link) : Choice → Link → Prop where
  -- it waits for output
  | looks {read read' : ReadStage} {output : Pipe} (stage : l.sender = .waiting read)
      (step : read.step? l.transport.output = some (.next read', output)) :
      Delivers l .work { l.setOutput l.memory output with sender := .waiting read' }
  | takes {read : ReadStage} {outcome : ReadOutcome} {output : Pipe}
      (stage : l.sender = .waiting read)
      (step : read.step? l.transport.output = some (.done outcome, output)) :
      Delivers l .work { l.setOutput l.memory output with
        sender := takeOutput l.setup.carriage outcome }
  -- it sends it
  | sent {size : Nat} {last : Bool} (stage : l.sender = .sending [] size last) :
      Delivers l .work { l with sender := .settling size last }
  | offered {sender : SocketSender} {size : Nat} {last : Bool}
      (stage : l.sender = .offering sender size last) (empty : sender.pending.isEmpty = true) :
      Delivers l .work { l with sender := .settling size last }
  | retries {segment : Bytes} {left : List Bytes} {size most : Nat} {last : Bool} {fault : IoError}
      {wire : Wire} (stage : l.sender = .sending (segment :: left) size last)
      (send : l.wire.send? most segment = some (.error fault, wire)) :
      Delivers l .work { l with wire }
  | fails {bs : Bytes} {most : Nat} {fault : IoError} {wire : Wire}
      (stage : (∃ left size last, l.sender = .sending left size last) ∨
        ∃ sender size last, l.sender = .offering sender size last)
      (send : l.wire.send? most bs = some (.error fault, wire)) :
      Delivers l .work { l with wire, sender := .leaving (some fault) }
  | sends {segment : Bytes} {left : List Bytes} {size most count : Nat} {last : Bool} {wire : Wire}
      (stage : l.sender = .sending (segment :: left) size last)
      (send : l.wire.send? most segment = some (.ok count, wire)) :
      Delivers l .work { l with
        wire,
        sender := .sending (if segment.length ≤ count then left else segment.drop count :: left)
          size last }
  | offers {sender : SocketSender} {size most count : Nat} {last : Bool} {wire : Wire}
      (stage : l.sender = .offering sender size last)
      (send : l.wire.send? most sender.offer = some (.ok count, wire)) :
      Delivers l .work { l with
        wire,
        sender := .offering { sender with pending := sender.pending.drop count } size last }
  -- it gives back what was sent
  | jams {size : Nat} {last : Bool} {misuse : Misuse} (stage : l.sender = .settling size last)
      (consume : l.transport.output.consume size l.memory = .error misuse) :
      Delivers l .work { l with sender := .crashed misuse }
  | settles {size : Nat} {last : Bool} {memory : BlockPool} {output : Pipe}
      (stage : l.sender = .settling size last)
      (consume : l.transport.output.consume size l.memory = .ok (memory, output)) :
      Delivers l .work { l.setOutput memory output with
        sender := afterOutput l.setup.carriage last }
  -- it comes to its end
  | closes (stage : l.sender = .closing) :
      Delivers l .work { l with wire := l.wire.endSending, sender := .leaving none }
  | leaves {fault : Option IoError} (stage : l.sender = .leaving fault) :
      Delivers l .work { l.recordFault fault with sender := .completing }
  | drops {fault : Option IoError} (stage : l.sender = .leaving fault) :
      Delivers l .work { l.dropOutput with sender := .reporting fault }
  | completes (stage : l.sender = .completing) :
      Delivers l .work { l.dropOutput with sender := .shutting }
  | reports {fault : Option IoError} (stage : l.sender = .reporting fault) :
      Delivers l .work { l.recordFault fault with sender := .shutting }
  | shuts (stage : l.sender = .shutting) :
      Delivers l .work { l.shutDown .sendingEnded with sender := .finished }.releaseWire
  -- it is asked to stop
  | stopsWaiting {read : ReadStage} (stopped : l.transport.stopped = true)
      (stage : l.sender = .waiting read) :
      Delivers l .stop { l.setOutput l.memory l.transport.output.abandonRead with
        sender := .leaving none }
  | stopsSending (stopped : l.transport.stopped = true)
      (stage : (∃ left size last, l.sender = .sending left size last) ∨
        ∃ sender size last, l.sender = .offering sender size last) :
      Delivers l .stop { l with sender := .leaving none }

section Sender

variable {l l' : Link} {most : Nat}

theorem workSender_delivers (hwork : l.workSender most = some l') : l.Delivers .work l' := by
  unfold workSender at hwork
  cases hstage : l.sender with
  | waiting read =>
      rw [hstage] at hwork
      dsimp only at hwork
      split at hwork
      · cases hwork
      · next hstep =>
        cases hwork
        exact .looks hstage hstep
      · next hstep =>
        cases hwork
        exact .takes hstage hstep
  | sending left size last =>
      rw [hstage] at hwork
      cases left with
      | nil =>
          cases hwork
          exact .sent hstage
      | cons segment left =>
          dsimp only at hwork
          split at hwork
          · cases hwork
          · next hsend =>
            split at hwork <;> cases hwork
            · rw [← hstage]
              exact .retries hstage hsend
            · exact .fails (.inl ⟨_, _, _, hstage⟩) hsend
          · next hsend =>
            cases hwork
            exact .sends hstage hsend
  | offering sender size last =>
      rw [hstage] at hwork
      dsimp only at hwork
      split at hwork
      · next hempty =>
        cases hwork
        exact .offered hstage hempty
      · split at hwork
        · cases hwork
        · next hsend =>
          cases hwork
          exact .fails (.inr ⟨_, _, _, hstage⟩) hsend
        · next hsend =>
          cases hwork
          exact .offers hstage hsend
  | settling size last =>
      rw [hstage] at hwork
      dsimp only at hwork
      split at hwork
      · next hconsume =>
        cases hwork
        exact .jams hstage hconsume
      · next hconsume =>
        cases hwork
        exact .settles hstage hconsume
  | closing =>
      rw [hstage] at hwork
      cases hwork
      exact .closes hstage
  | leaving fault =>
      rw [hstage] at hwork
      dsimp only at hwork
      split at hwork <;> cases hwork
      · exact .leaves hstage
      · exact .drops hstage
  | completing =>
      rw [hstage] at hwork
      cases hwork
      exact .completes hstage
  | reporting fault =>
      rw [hstage] at hwork
      cases hwork
      exact .reports hstage
  | shutting =>
      rw [hstage] at hwork
      cases hwork
      exact .shuts hstage
  | finished | crashed _ =>
      rw [hstage] at hwork
      cases hwork

/-- **Every step of the sender is one of these.** -/
theorem delivers_of_stepSender {choice : Choice} (hstep : l.stepSender choice most = some l') :
    l.Delivers choice l' := by
  cases choice with
  | work => exact workSender_delivers hstep
  | stop =>
      have hstop : l.stopSender = some l' := hstep
      unfold stopSender at hstop
      split at hstop
      · next hstopped =>
        split at hstop
        · next read hstage =>
          split at hstop <;> cases hstop
          exact .stopsWaiting hstopped hstage
        · next hstage =>
          cases hstop
          exact .stopsSending hstopped (.inl ⟨_, _, _, hstage⟩)
        · next hstage =>
          cases hstop
          exact .stopsSending hstopped (.inr ⟨_, _, _, hstage⟩)
        · cases hstop
      · cases hstop

end Sender

/-! ## 5. What they leave alone -/

section Alone

variable {l l' : Link} {choice : Choice}

theorem connection_releaseWire (l : Link) : l.releaseWire.connection = l.connection := by
  unfold releaseWire
  split <;> rfl

theorem writer_releaseWire (l : Link) : l.releaseWire.writer = l.writer := by
  unfold releaseWire
  split <;> rfl

theorem writer_shutDown (reason : CloseReason) (l : Link) :
    (l.shutDown reason).writer = l.writer := by
  cases h : l.transport.begun with
  | true => rw [shutDown_of_begun h]
  | false => rw [shutDown_of_not_begun h]

theorem Fetches.connection_eq (hfetches : l.Fetches choice l') : l'.connection = l.connection := by
  cases hfetches with
  | completes stage => exact connection_releaseWire _
  | _ => rfl

theorem Delivers.connection_eq (hdelivers : l.Delivers choice l') :
    l'.connection = l.connection := by
  cases hdelivers with
  | @leaves fault stage | @reports fault stage => cases fault <;> rfl
  | shuts stage => exact (connection_releaseWire _).trans (connection_shutDown _ l)
  | _ => rfl

theorem Fetches.writer_eq (hfetches : l.Fetches choice l') : l'.writer = l.writer := by
  cases hfetches with
  | completes stage => exact writer_releaseWire _
  | _ => rfl

theorem Delivers.writer_eq (hdelivers : l.Delivers choice l') : l'.writer = l.writer := by
  cases hdelivers with
  | @leaves fault stage | @reports fault stage => cases fault <;> rfl
  | shuts stage => exact (writer_releaseWire _).trans (writer_shutDown _ l)
  | _ => rfl

theorem writer_stepJob {number : Nat} (hstep : l.stepJob number = some l') :
    l'.writer = l.writer := by
  unfold stepJob goOn at hstep
  split at hstep
  · cases hstep
  · dsimp only at hstep
    split at hstep
    all_goals
      next hl =>
      cases hstep
      rw [Prod.ext_iff] at hl
      obtain ⟨-, rfl⟩ := hl
      rfl

end Alone

/-! ## 6. The start -/

section Start

variable {l l' : Link} {m : Move}

/-- The main task works only once it is started. -/
theorem Works.started (hworks : l.Works l') : l'.main ≠ .unstarted := by
  cases hworks with
  | @takes read outcome input stage step =>
      unfold takeInput
      dsimp only
      split <;> exact MainStage.noConfusion
  | @readFrame portion f reader buffer stage read =>
      unfold dispatch
      dsimp only
      split
      · exact MainStage.noConfusion
      · split <;> exact MainStage.noConfusion
  | @handles job portion stage =>
      dsimp only
      cases (l.goOn job).1 <;> exact MainStage.noConfusion
  | settles stage consume =>
      dsimp only
      split <;> exact MainStage.noConfusion
  | _ => exact MainStage.noConfusion

/-- A link that is not started was not started before. -/
theorem unstarted_of_move (hmove : l.move? m = some l') (hmain : l'.main = .unstarted) :
    l.main = .unstarted := by
  cases m with
  | main choice =>
      cases choice with
      | work => exact absurd hmain (works_of_workMain hmove).started
      | stop =>
          obtain ⟨read, -, -, -, rfl⟩ := stopMain_eq hmove
          cases hmain
  | start =>
      cases hmove
      unfold Link.start at hmain
      split at hmain
      · cases hmain
      · exact hmain
  | _ =>
      obtain ⟨haside, -⟩ := move_aside (fun _ => Move.noConfusion) Move.noConfusion hmove
      exact haside.main_eq.symm.trans hmain

/-- The writer is started with the main task. -/
theorem writer_unstarted_of_move (h : l.main = .unstarted → l.writer = .unstarted)
    (hmove : l.move? m = some l') (hmain : l'.main = .unstarted) : l'.writer = .unstarted := by
  have hunstarted := h (unstarted_of_move hmove hmain)
  cases m with
  | main choice =>
      cases choice with
      | work => exact absurd hmain (works_of_workMain hmove).started
      | stop =>
          obtain ⟨read, -, -, -, rfl⟩ := stopMain_eq hmove
          cases hmain
  | start =>
      cases hmove
      unfold Link.start at hmain ⊢
      split at hmain
      · cases hmain
      · exact hunstarted
  | writer choice =>
      have hwrites := writes_of_stepWriter hmove
      cases hwrites with
      | jams stage | takes stage => obtain hs | hs := stage <;> cases hunstarted.symm.trans hs
      | runsOut stage | flushes stage | flushed stage | leaves stage | completes stage
        | stopsWaiting cancelled stage | stopsFlushing cancelled stage =>
          cases hunstarted.symm.trans stage
  | receiver choice most =>
      exact (fetches_of_stepReceiver hmove).writer_eq.trans hunstarted
  | sender choice most => exact (delivers_of_stepSender hmove).writer_eq.trans hunstarted
  | job number => exact (writer_stepJob hmove).trans hunstarted
  | shutDown reason =>
      cases hmove
      exact (writer_shutDown reason l).trans hunstarted
  | call _ | record _ | elapse _ | arrive _ | endArriving | depart _ | abandon | failRead _
    | failWrite _ =>
      cases hmove
      exact hunstarted

end Start

end Link

end Courier
