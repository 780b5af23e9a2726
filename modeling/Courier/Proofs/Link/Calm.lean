import Courier.Proofs.Link.Course
import Courier.Proofs.Pipe.Steady

/-!
Courier.Proofs.Link.Calm — a link in whose way nothing gets.

As long as no disconnect is requested, the stream does not fail and the transport is not shut down
from outside, neither side of a link comes to its end before the main task does: what is queued gets
written and sent (`Link.Outbound`), and what arrives gets received until the stream has ended
(`Link.Inbound`). Then the last input that the main task takes is all that is left of what arrived.
Every move keeps this (`Link.Calm.move`).
-/

namespace Courier

/-! ## 1. Tasks at work -/

/-- The writer has not come to its end. -/
def WriterStage.GoesOn : WriterStage → Prop
  | .leaving | .completing | .finished => False
  | _ => True

/-- Nor has the sender, and there is more output to come. -/
def SenderStage.GoesOn : SenderStage → Prop
  | .waiting _ | .crashed _ => True
  | .sending _ _ last | .offering _ _ last | .settling _ last => last = false
  | _ => False

/-- The receiver comes to its end. -/
def ReceiverStage.Done : ReceiverStage → Prop
  | .leaving _ | .completing | .finished => True
  | _ => False

/-- The main task has recorded why the connection ends. -/
def MainStage.Recorded : MainStage → Bool
  | .cutting _ | .cancelling _ | .awaitingWriter _ | .draining _ | .awaitingSender _ _ | .shutting _
  | .releasing | .awaitingReceiver | .ending | .tellingEnd | .markingEnd | .finished => true
  | _ => false

/-- As long as it takes input it has not. -/
theorem MainStage.not_recorded_of_takes {stage : MainStage} (h : stage.Takes = true) :
    stage.Recorded = false := by
  cases stage <;> first | rfl | cases h

theorem SenderStage.goesOn_afterOutput (carriage : Carriage) :
    (Link.afterOutput carriage false).GoesOn := by
  cases carriage <;> trivial

/-- An output that is not the last one is sent. -/
theorem SenderStage.goesOn_takeOutput (carriage : Carriage) {outcome : ReadOutcome}
    (hcanceled : outcome.canceled = false) (hcompleted : outcome.completed = false) :
    (Link.takeOutput carriage outcome).GoesOn := by
  unfold Link.takeOutput
  dsimp only
  rw [if_neg (by rw [hcanceled]; exact Bool.false_ne_true), hcompleted]
  split
  · exact goesOn_afterOutput carriage
  · split <;> rfl

theorem Wire.arriving_side_send {w w' : Wire} {most : Nat} {bs : Bytes}
    {result : Except IoError Nat} (h : w.send? most bs = some (result, w')) :
    w'.arriving = w.arriving ∧ w'.arrivingEnded = w.arrivingEnded ∧
      w'.readFault = w.readFault := by
  unfold Wire.send? at h
  split at h
  · cases h
  · split at h
    · cases h
      exact ⟨rfl, rfl, rfl⟩
    · split at h
      · cases h
        exact ⟨rfl, rfl, rfl⟩
      · split at h
        · cases h
          exact ⟨rfl, rfl, rfl⟩
        · split at h <;> cases h
          exact ⟨rfl, rfl, rfl⟩

namespace Link

/-- What is queued gets written, and what is written gets sent. -/
structure Outbound (l : Link) : Prop where
  accepting : l.connection.accepting = true
  writer : l.writer.GoesOn
  sender : l.sender.GoesOn
  output : l.transport.output.Going
  more : l.transport.output.writerCompleted = false

/-- What arrives gets received, until the stream has `ended` and all of it was received. -/
structure Inbound (ended : Bool) (l : Link) : Prop where
  input : l.transport.input.Going
  running : l.transport.stopped = false
  fault : l.wire.readFault = none
  ended_eq : l.wire.arrivingEnded = ended
  done : l.receiver.Done → l.wire.arriving = [] ∧ ended = true
  completed : l.transport.input.writerCompleted = true →
    l.receiver = .finished ∧ l.transport.input.behind = []

/-- Nobody but the main task comes to an end, but for the receiver at the end of the stream; and the
last input that the main task takes is all that is left. -/
structure Calm (ended : Bool) (l : Link) : Prop where
  uncancelled : l.connection.cancelled = false
  outbound : l.Outbound
  inbound : l.Inbound ended
  last : ∀ portion, l.main.portion? = some portion → portion.last = true →
    l.transport.input.writerCompleted = true ∧ l.transport.input.unread.size = portion.size

/-- The sending side is left alone, but for the queue. -/
structure SparesOutput (l l' : Link) : Prop where
  accepting_eq : l'.connection.accepting = l.connection.accepting
  writer_eq : l'.writer = l.writer
  sender_eq : l'.sender = l.sender
  output_eq : l'.transport.output = l.transport.output

/-- The receiving side is left alone, but for its pipe. -/
structure SparesStream (l l' : Link) : Prop where
  receiver_eq : l'.receiver = l.receiver
  stopped_eq : l'.transport.stopped = l.transport.stopped
  arriving_eq : l'.wire.arriving = l.wire.arriving
  arrivingEnded_eq : l'.wire.arrivingEnded = l.wire.arrivingEnded
  readFault_eq : l'.wire.readFault = l.wire.readFault

section Calm

variable {l l' : Link} {ended : Bool}

theorem Outbound.spares (h : l.Outbound) (hs : l.SparesOutput l') : l'.Outbound where
  accepting := hs.accepting_eq.trans h.accepting
  writer := by
    rw [hs.writer_eq]
    exact h.writer
  sender := by
    rw [hs.sender_eq]
    exact h.sender
  output := by
    rw [hs.output_eq]
    exact h.output
  more := by
    rw [hs.output_eq]
    exact h.more

theorem Inbound.spares (h : l.Inbound ended) (hs : l.SparesStream l')
    (hsteady : l.transport.input.Steady l'.transport.input)
    (hbehind : l'.transport.input.behind = l.transport.input.behind) : l'.Inbound ended where
  input := h.input.steady hsteady
  running := hs.stopped_eq.trans h.running
  fault := hs.readFault_eq.trans h.fault
  ended_eq := hs.arrivingEnded_eq.trans h.ended_eq
  done hdone := by
    rw [hs.receiver_eq] at hdone
    rw [hs.arriving_eq]
    exact h.done hdone
  completed hcompleted := by
    rw [hsteady.writerCompleted_eq] at hcompleted
    rw [hs.receiver_eq, hbehind]
    exact h.completed hcompleted

/-- So it is if the pipe is left alone, too. -/
theorem Inbound.same (h : l.Inbound ended) (hs : l.SparesStream l')
    (hinput : l'.transport.input = l.transport.input) : l'.Inbound ended :=
  h.spares hs (by rw [hinput]; exact .refl _) (by rw [hinput])

/-! ## 2. The writer and the sender -/

theorem writePieces_steady (pieces : List Bytes) (s : BlockPool × Pipe) :
    s.2.Steady (pieces.foldl (fun s piece => s.2.write piece s.1) s).2 := by
  induction pieces generalizing s with
  | nil => exact .refl _
  | cons piece pieces ih => exact (Pipe.write_private piece s.1 s.2).steady.trans (ih _)

theorem goesOn_afterFrame (l : Link) : l.afterFrame.GoesOn := by
  unfold afterFrame
  split <;> trivial

/-- A frame is written. -/
theorem Outbound.writeNext {next : Link → WriterStage} (h : l.Outbound)
    (hnext : ∀ l, (next l).GoesOn) (hstep : l.writeNext? next = some l') :
    l'.Outbound ∧ l.SparesStream l' ∧ l'.transport.input = l.transport.input := by
  unfold writeNext? at hstep
  split at hstep
  · cases hstep
  · dsimp only at hstep
    split at hstep
    · cases hstep
      exact ⟨⟨h.accepting, trivial, h.sender, h.output, h.more⟩, ⟨rfl, rfl, rfl, rfl, rfl⟩, rfl⟩
    · next pieces _ =>
      cases hstep
      have hsteady := writePieces_steady pieces (l.memory, l.transport.output)
      exact ⟨⟨h.accepting, hnext _, h.sender, h.output.steady hsteady,
        hsteady.writerCompleted_eq.trans h.more⟩, ⟨rfl, rfl, rfl, rfl, rfl⟩, rfl⟩

/-- **The writer goes on** as long as the connection is not asked to end. -/
theorem Outbound.stepWriter {choice : Choice} (h : l.Outbound)
    (hcancelled : l.connection.cancelled = false) (hstep : l.stepWriter choice = some l') :
    l'.Outbound ∧ l.SparesStream l' ∧ l'.transport.input = l.transport.input := by
  cases choice with
  | stop =>
      have hstop : l.stopWriter = some l' := hstep
      unfold stopWriter at hstop
      rw [if_neg (by rw [hcancelled]; exact Bool.false_ne_true)] at hstop
      cases hstop
  | work =>
      have hwork : l.workWriter = some l' := hstep
      have hwriter := h.writer
      unfold workWriter at hwork
      cases hstage : l.writer with
      | waiting =>
          rw [hstage] at hwork
          exact h.writeNext (fun _ => by trivial) hwork
      | batching =>
          rw [hstage] at hwork
          dsimp only at hwork
          split at hwork
          · next hnext =>
            cases hwork
            exact h.writeNext goesOn_afterFrame hnext
          · cases hwork
            exact ⟨⟨h.accepting, trivial, h.sender, h.output, h.more⟩,
              ⟨rfl, rfl, rfl, rfl, rfl⟩, rfl⟩
      | flushing flush =>
          rw [hstage] at hwork
          dsimp only at hwork
          split at hwork
          · cases hwork
          · next hflush =>
            cases hwork
            obtain ⟨hsteady, -⟩ := h.output.stepFlush hflush
            exact ⟨⟨h.accepting, trivial, h.sender, h.output.steady hsteady,
              hsteady.writerCompleted_eq.trans h.more⟩, ⟨rfl, rfl, rfl, rfl, rfl⟩, rfl⟩
          · next hflush =>
            cases hwork
            obtain ⟨hsteady, houtcome⟩ := h.output.stepFlush hflush
            simp only [houtcome _ rfl, Bool.false_eq_true, if_false]
            exact ⟨⟨h.accepting, trivial, h.sender, h.output.steady hsteady,
              hsteady.writerCompleted_eq.trans h.more⟩, ⟨rfl, rfl, rfl, rfl, rfl⟩, rfl⟩
      | leaving | completing | finished =>
          rw [hstage] at hwriter
          exact hwriter.elim
      | unstarted | crashed _ =>
          rw [hstage] at hwork
          cases hwork

/-- **The sender goes on** as long as the stream does not fail and the transport is not shut
down. -/
theorem Outbound.stepSender {choice : Choice} {most : Nat} (h : l.Outbound)
    (hrunning : l.transport.stopped = false) (hstep : l.stepSender choice most = some l')
    (hsound : l'.sender.failing = false) :
    l'.Outbound ∧ l.SparesStream l' ∧ l'.transport.input = l.transport.input := by
  cases choice with
  | stop =>
      have hstop : l.stopSender = some l' := hstep
      unfold stopSender at hstop
      rw [if_neg (by rw [hrunning]; exact Bool.false_ne_true)] at hstop
      cases hstop
  | work =>
      have hwork : l.workSender most = some l' := hstep
      have hsender := h.sender
      unfold workSender at hwork
      cases hstage : l.sender with
      | waiting read =>
          rw [hstage] at hwork
          dsimp only at hwork
          split at hwork
          · cases hwork
          · next hread =>
            cases hwork
            obtain ⟨hsteady, -⟩ := h.output.stepRead hread
            exact ⟨⟨h.accepting, h.writer, trivial, h.output.steady hsteady,
              hsteady.writerCompleted_eq.trans h.more⟩, ⟨rfl, rfl, rfl, rfl, rfl⟩, rfl⟩
          · next hread =>
            cases hwork
            obtain ⟨hsteady, houtcome⟩ := h.output.stepRead hread
            obtain ⟨hcanceled, hcompleted⟩ := houtcome _ rfl
            exact ⟨⟨h.accepting, h.writer,
              SenderStage.goesOn_takeOutput _ hcanceled (hcompleted.trans h.more),
              h.output.steady hsteady, hsteady.writerCompleted_eq.trans h.more⟩,
              ⟨rfl, rfl, rfl, rfl, rfl⟩, rfl⟩
      | sending left size last =>
          rw [hstage] at hwork hsender
          cases left with
          | nil =>
              cases hwork
              exact ⟨⟨h.accepting, h.writer, hsender, h.output, h.more⟩,
                ⟨rfl, rfl, rfl, rfl, rfl⟩, rfl⟩
          | cons segment left =>
              dsimp only at hwork
              split at hwork
              · cases hwork
              · next hsend =>
                obtain ⟨harriving, hended, hfault⟩ := Wire.arriving_side_send hsend
                split at hwork
                · cases hwork
                  exact ⟨⟨h.accepting, h.writer, hsender, h.output, h.more⟩,
                    ⟨rfl, rfl, harriving, hended, hfault⟩, rfl⟩
                · cases hwork
                  cases hsound
              · next hsend =>
                obtain ⟨harriving, hended, hfault⟩ := Wire.arriving_side_send hsend
                cases hwork
                exact ⟨⟨h.accepting, h.writer, hsender, h.output, h.more⟩,
                  ⟨rfl, rfl, harriving, hended, hfault⟩, rfl⟩
      | offering sender size last =>
          rw [hstage] at hwork hsender
          dsimp only at hwork
          split at hwork
          · cases hwork
            exact ⟨⟨h.accepting, h.writer, hsender, h.output, h.more⟩,
              ⟨rfl, rfl, rfl, rfl, rfl⟩, rfl⟩
          · split at hwork
            · cases hwork
            · cases hwork
              cases hsound
            · next hsend =>
              obtain ⟨harriving, hended, hfault⟩ := Wire.arriving_side_send hsend
              cases hwork
              exact ⟨⟨h.accepting, h.writer, hsender, h.output, h.more⟩,
                ⟨rfl, rfl, harriving, hended, hfault⟩, rfl⟩
      | settling size last =>
          rw [hstage] at hwork hsender
          have hlast : last = false := hsender
          subst hlast
          dsimp only at hwork
          split at hwork
          · cases hwork
            exact ⟨⟨h.accepting, h.writer, trivial, h.output, h.more⟩,
              ⟨rfl, rfl, rfl, rfl, rfl⟩, rfl⟩
          · next hconsume =>
            cases hwork
            obtain ⟨hsteady, -⟩ := Pipe.consume_steady hconsume
            exact ⟨⟨h.accepting, h.writer, SenderStage.goesOn_afterOutput l.setup.carriage,
              h.output.steady hsteady, hsteady.writerCompleted_eq.trans h.more⟩,
              ⟨rfl, rfl, rfl, rfl, rfl⟩, rfl⟩
      | closing | leaving _ | completing | reporting _ | shutting | finished =>
          rw [hstage] at hsender
          exact hsender.elim
      | crashed _ =>
          rw [hstage] at hwork
          cases hwork

/-! ## 3. The receiver -/

theorem not_done_first (carriage : Carriage) : ¬ (ReceiverStage.first carriage).Done := by
  unfold ReceiverStage.first
  split <;> exact id

/-- A step of the receiver that does not end the input. -/
theorem Inbound.goes (h : l.Inbound ended) (hmore : l.transport.input.writerCompleted = false)
    (hsteady : l.transport.input.Steady l'.transport.input)
    (hstopped : l'.transport.stopped = l.transport.stopped)
    (hfault : l'.wire.readFault = none) (hended : l'.wire.arrivingEnded = ended)
    (hdone : l'.receiver.Done → l'.wire.arriving = [] ∧ ended = true) : l'.Inbound ended where
  input := h.input.steady hsteady
  running := hstopped.trans h.running
  fault := hfault
  ended_eq := hended
  done := hdone
  completed hcompleted := by
    cases (hsteady.writerCompleted_eq.trans hmore).symm.trans hcompleted

/-- Bytes are received, or the end of the stream. -/
theorem Inbound.receive {most : Nat} {result : Except IoError Bytes} {wire : Wire}
    (h : l.Inbound ended) (hreceive : l.wire.receive? most = some (result, wire)) :
    ∃ bs, result = .ok bs ∧ wire.readFault = none ∧ wire.arrivingEnded = ended ∧
      (bs = [] → wire.arriving = [] ∧ ended = true) := by
  unfold Wire.receive? at hreceive
  rw [h.fault] at hreceive
  dsimp only at hreceive
  split at hreceive
  · next hempty =>
    split at hreceive <;> cases hreceive
    next hended =>
    exact ⟨[], rfl, h.fault, h.ended_eq, fun _ =>
      ⟨List.isEmpty_iff.mp hempty, h.ended_eq.symm.trans hended⟩⟩
  · next hempty =>
    split at hreceive <;> cases hreceive
    next hpos =>
    refine ⟨_, rfl, rfl, h.ended_eq, fun hnil => ?_⟩
    rcases List.take_eq_nil_iff.mp hnil with hzero | hnone
    · exact absurd hzero hpos
    · exact absurd (List.isEmpty_iff.mpr hnone) hempty

/-- **The receiver goes on** until the stream has ended and all of it was received. -/
theorem Inbound.stepReceiver {choice : Choice} {most : Nat} (h : l.Inbound ended)
    (hstep : l.stepReceiver choice most = some l') :
    l'.Inbound ended ∧ l.SparesOutput l' ∧ l.transport.input.writerCompleted = false := by
  have hmore : l.receiver ≠ .finished → l.transport.input.writerCompleted = false := by
    intro hne
    cases hcompleted : l.transport.input.writerCompleted with
    | false => rfl
    | true => exact absurd (h.completed hcompleted).1 hne
  cases choice with
  | stop =>
      have hstop : l.stopReceiver = some l' := hstep
      unfold stopReceiver at hstop
      rw [if_neg (by rw [h.running]; exact Bool.false_ne_true)] at hstop
      cases hstop
  | work =>
      have hwork : l.workReceiver most = some l' := hstep
      have hdone := h.done
      unfold workReceiver at hwork
      cases hstage : l.receiver with
      | expecting =>
          have hopen := hmore (by rw [hstage]; exact ReceiverStage.noConfusion)
          rw [hstage] at hwork
          dsimp only at hwork
          split at hwork <;> cases hwork
          exact ⟨h.goes hopen (.refl _) rfl h.fault h.ended_eq False.elim, ⟨rfl, rfl, rfl, rfl⟩,
            hopen⟩
      | preparing =>
          have hopen := hmore (by rw [hstage]; exact ReceiverStage.noConfusion)
          rw [hstage] at hwork
          cases hwork
          exact ⟨h.goes hopen (Pipe.ensureMemory_private _ _ _).steady rfl h.fault h.ended_eq
            False.elim, ⟨rfl, rfl, rfl, rfl⟩, hopen⟩
      | receiving =>
          have hopen := hmore (by rw [hstage]; exact ReceiverStage.noConfusion)
          rw [hstage] at hwork
          dsimp only at hwork
          split at hwork
          · cases hwork
          · next hreceive =>
            obtain ⟨bs, hok, -⟩ := h.receive hreceive
            cases hok
          · next hreceive =>
            obtain ⟨bs, hok, hfault, hended, hnil⟩ := h.receive hreceive
            cases hok
            cases hwork
            unfold takeReceived
            split
            · next hempty =>
              exact ⟨h.goes hopen (.refl _) rfl hfault hended fun _ =>
                hnil (List.isEmpty_iff.mp hempty), ⟨rfl, rfl, rfl, rfl⟩, hopen⟩
            · split
              · exact ⟨h.goes hopen (.refl _) rfl hfault hended False.elim,
                  ⟨rfl, rfl, rfl, rfl⟩, hopen⟩
              · next hadvance =>
                have hprivate := (Pipe.fillMemory_private _ _).trans
                  (Pipe.advance_private hadvance)
                exact ⟨h.goes hopen hprivate.steady rfl hfault hended False.elim,
                  ⟨rfl, rfl, rfl, rfl⟩, hopen⟩
      | flushing flush =>
          have hopen := hmore (by rw [hstage]; exact ReceiverStage.noConfusion)
          rw [hstage] at hwork
          dsimp only at hwork
          split at hwork
          · cases hwork
          · next hflush =>
            cases hwork
            obtain ⟨hsteady, -⟩ := h.input.stepFlush hflush
            exact ⟨h.goes hopen hsteady rfl h.fault h.ended_eq False.elim, ⟨rfl, rfl, rfl, rfl⟩,
              hopen⟩
          · next hflush =>
            cases hwork
            obtain ⟨hsteady, houtcome⟩ := h.input.stepFlush hflush
            simp only [houtcome _ rfl, Bool.false_eq_true, if_false]
            exact ⟨h.goes hopen hsteady rfl h.fault h.ended_eq fun hdone =>
              absurd hdone (not_done_first _), ⟨rfl, rfl, rfl, rfl⟩, hopen⟩
      | leaving reason =>
          have hopen := hmore (by rw [hstage]; exact ReceiverStage.noConfusion)
          rw [hstage] at hwork hdone
          cases reason <;> cases hwork <;>
            exact ⟨h.goes hopen (.refl _) rfl h.fault h.ended_eq fun _ => hdone trivial,
              ⟨rfl, rfl, rfl, rfl⟩, hopen⟩
      | completing =>
          have hopen := hmore (by rw [hstage]; exact ReceiverStage.noConfusion)
          rw [hstage] at hwork hdone
          cases hwork
          unfold releaseWire
          split
          · exact ⟨⟨h.input.completeWriter l.memory, h.running, h.fault, h.ended_eq, fun _ =>
              hdone trivial, fun _ => ⟨rfl, Pipe.behind_completeWriter _ _⟩⟩,
              ⟨rfl, rfl, rfl, rfl⟩, hopen⟩
          · exact ⟨⟨h.input.completeWriter l.memory, h.running, h.fault, h.ended_eq, fun _ =>
              hdone trivial, fun _ => ⟨rfl, Pipe.behind_completeWriter _ _⟩⟩,
              ⟨rfl, rfl, rfl, rfl⟩, hopen⟩
      | finished | crashed _ =>
          rw [hstage] at hwork
          cases hwork

/-! ## 4. The main task -/

theorem goOn_spares (job : Job) (l : Link) :
    l.SparesOutput (l.goOn job).2 ∧ l.SparesStream (l.goOn job).2 :=
  ⟨⟨(job.step_grows l.connection).accepting, rfl, rfl, rfl⟩, ⟨rfl, rfl, rfl, rfl, rfl⟩⟩

theorem stepJob_spares {number : Nat} (hstep : l.stepJob number = some l') :
    l.SparesOutput l' ∧ l.SparesStream l' ∧ l'.transport.input = l.transport.input := by
  unfold stepJob at hstep
  split at hstep
  · cases hstep
  · next job _ =>
    obtain ⟨⟨haccepting, -, -, -⟩, -⟩ := goOn_spares job l
    split at hstep
    all_goals
      next hl =>
      cases hstep
      rw [Prod.ext_iff] at hl
      obtain ⟨-, rfl⟩ := hl
      exact ⟨⟨haccepting, rfl, rfl, rfl⟩, ⟨rfl, rfl, rfl, rfl, rfl⟩, rfl⟩

theorem dispatch_spares (f : Frame) (portion : Portion) (reader : FrameReader) (l : Link) :
    l.SparesOutput ({ l with reader }.dispatch f portion) ∧
      l.SparesStream ({ l with reader }.dispatch f portion) := by
  unfold dispatch
  dsimp only
  split
  · exact ⟨⟨rfl, rfl, rfl, rfl⟩, ⟨rfl, rfl, rfl, rfl, rfl⟩⟩
  · split <;> exact ⟨⟨rfl, rfl, rfl, rfl⟩, ⟨rfl, rfl, rfl, rfl, rfl⟩⟩

/-- **The main task leaves the others alone** until it has recorded its reason. -/
theorem Works.spares (hworks : l.Works l') (hbefore : l'.main.Recorded = false) :
    l.SparesOutput l' ∧ l.SparesStream l' := by
  have hstart : ∀ {outcome connection},
      l.setup.handshake.start Connection.rawSender (l.enter .handshaking).connection =
        (outcome, connection) → connection.accepting = l.connection.accepting := by
    intro outcome connection start
    obtain ⟨messages, hgrows⟩ :=
      Connection.start_grows l.setup.handshake (l.enter .handshaking).connection
    rw [start] at hgrows
    exact hgrows.accepting
  have hexamine : ∀ {b outcome buffer connection},
      l.setup.handshake.examine Connection.rawSender b l.connection =
        (outcome, buffer, connection) → connection.accepting = l.connection.accepting := by
    intro b outcome buffer connection examine
    obtain ⟨messages, hgrows⟩ := Connection.examine_grows l.setup.handshake b l.connection
    rw [examine] at hgrows
    exact hgrows.accepting
  cases hworks with
  | openFailed stage start | openCompleted stage start | openPending stage start =>
      exact ⟨⟨hstart start, rfl, rfl, rfl⟩, ⟨rfl, rfl, rfl, rfl, rfl⟩⟩
  | examineFailed stage examine | examineCompleted stage examine | examineLong stage examine
    | examinePending stage examine =>
      exact ⟨⟨hexamine examine, rfl, rfl, rfl⟩, ⟨rfl, rfl, rfl, rfl, rfl⟩⟩
  | readFrame stage read => exact dispatch_spares _ _ _ l
  | @handles job portion stage =>
      obtain ⟨houtput, hstream⟩ := goOn_spares job l
      exact ⟨⟨houtput.accepting_eq, houtput.writer_eq, houtput.sender_eq, houtput.output_eq⟩,
        ⟨hstream.receiver_eq, hstream.stopped_eq, hstream.arriving_eq, hstream.arrivingEnded_eq,
          hstream.readFault_eq⟩⟩
  | records | cuts | cancels | seesWriter | drains | seesSender | givesUp | shuts | releases
    | seesReceiver | ends | tellsEnd | marksEnd => cases hbefore
  | _ => exact ⟨⟨rfl, rfl, rfl, rfl⟩, ⟨rfl, rfl, rfl, rfl, rfl⟩⟩

/-- A part of the input that the main task works on is what it has worked on before, or what it
takes from the pipe. -/
theorem Works.portion {portion' : Portion} (hworks : l.Works l')
    (hportion' : l'.main.portion? = some portion') :
    l'.transport.input = l.transport.input ∧
        (∃ portion, l.main.portion? = some portion ∧ portion'.size = portion.size ∧
          portion'.last = portion.last) ∨
      ∃ (read : ReadStage) (outcome : ReadOutcome) (input : Pipe),
        read.step? l.transport.input = some (.done outcome, input) ∧
        l'.transport.input = input ∧ portion'.size = outcome.buffer.size ∧
        portion'.last = (outcome.completed || outcome.canceled) := by
  cases hworks with
  | marks stage | shows stage =>
      cases hportion'
      exact .inl ⟨rfl, _, congrArg MainStage.portion? stage, rfl, rfl⟩
  | tellsWith stage | examineCompleted stage examine | examinePending stage examine short
    | readNothing stage read =>
      cases hportion'
      exact .inl ⟨rfl, _, congrArg MainStage.portion? stage, rfl, rfl⟩
  | @readFrame portion f reader buffer stage read =>
      have hd := dispatch_dispatches f { portion with buffer } reader l
      refine .inl ⟨by rw [hd.transport_eq], portion, by rw [stage]; rfl, ?_⟩
      obtain hmain | ⟨job, hmain⟩ := hd.main_eq
      all_goals
        rw [hmain] at hportion'
        cases hportion'
        exact ⟨rfl, rfl⟩
  | @handles job portion stage =>
      refine .inl ⟨rfl, portion, by rw [stage]; rfl, ?_⟩
      dsimp only at hportion'
      cases hleft : (l.goOn job).1
      all_goals
        rw [hleft] at hportion'
        cases hportion'
        exact ⟨rfl, rfl⟩
  | @takes read outcome input stage step =>
      refine .inr ⟨read, outcome, input, step, rfl, ?_⟩
      unfold takeInput at hportion'
      dsimp only at hportion'
      split at hportion' <;> cases hportion' <;> exact ⟨rfl, rfl⟩
  | @settles portion memory input stage consume =>
      dsimp only at hportion'
      cases hlast : portion.last <;> rw [hlast] at hportion' <;> cases hportion'
  | _ => cases hportion'

/-- Nothing gets into the input pipe by it. -/
theorem Works.behind_eq (hworks : l.Works l') (htakes' : l'.main.Takes = true) :
    l'.transport.input.behind = l.transport.input.behind := by
  cases hworks with
  | looks stage step => exact Pipe.read_behind step
  | takes stage step => exact Pipe.read_behind step
  | settles stage consume => exact (Pipe.consume_steady consume).2
  | @readFrame portion f reader buffer stage read =>
      have hd := dispatch_dispatches f { portion with buffer } reader l
      rw [hd.transport_eq]
  | records | cuts | drains | givesUp | shuts | leaves | releases => cases htakes'
  | _ => rfl

theorem Works.steady (hworks : l.Works l') (htakes' : l'.main.Takes = true)
    (hgoing : l.transport.input.Going) : l.transport.input.Steady l'.transport.input := by
  cases hworks with
  | looks stage step => exact (hgoing.stepRead step).1
  | takes stage step => exact (hgoing.stepRead step).1
  | settles stage consume => exact (Pipe.consume_steady consume).1
  | @readFrame portion f reader buffer stage read =>
      have hd := dispatch_dispatches f { portion with buffer } reader l
      rw [hd.transport_eq]
      exact .refl _
  | records | cuts | drains | givesUp | shuts | leaves | releases => cases htakes'
  | _ => exact .refl _

/-- **A step of the main task** keeps the calm, unless it asks for the end. -/
theorem Calm.works (h : l.Calm ended) (hworks : l.Works l') (htakes' : l'.main.Takes = true)
    (hcancelled : l'.connection.cancelled = false) : l'.Calm ended := by
  obtain ⟨houtput, hstream⟩ := hworks.spares (MainStage.not_recorded_of_takes htakes')
  have hsteady := hworks.steady htakes' h.inbound.input
  refine ⟨hcancelled, h.outbound.spares houtput,
    h.inbound.spares hstream hsteady (hworks.behind_eq htakes'), ?_⟩
  intro portion' hportion' hlast
  obtain ⟨hinput, portion, hportion, hsize, hlast'⟩ | ⟨read, outcome, input, hstep, hinput, hsize,
    hlast'⟩ := hworks.portion hportion'
  · rw [hinput, hsize]
    exact h.last portion hportion (hlast'.symm.trans hlast)
  · obtain ⟨-, houtcome⟩ := h.inbound.input.stepRead hstep
    obtain ⟨hcanceled, hcompleted⟩ := houtcome outcome rfl
    obtain ⟨-, hbuffer⟩ := Pipe.read_grows hstep
    rw [hcanceled, Bool.or_false, hcompleted] at hlast'
    rw [hsteady.writerCompleted_eq, hinput, hsize, hbuffer outcome rfl]
    exact ⟨hlast'.symm.trans hlast, rfl⟩

/-! ## 5. Every move -/

variable {m : Move}

/-- What the other tasks do, and what comes from outside, keeps the calm if neither side ends. -/
theorem Calm.aside {ended' : Bool} (h : l.Calm ended) (ha : l.Aside l')
    (hcancelled : l'.connection.cancelled = false) (houtbound : l'.Outbound)
    (hinbound : l'.Inbound ended')
    (hinput : l.transport.input.writerCompleted = true → l'.transport.input = l.transport.input) :
    l'.Calm ended' := by
  refine ⟨hcancelled, houtbound, hinbound, fun portion hportion hlast => ?_⟩
  rw [ha.main_eq] at hportion
  obtain ⟨hcompleted, hsize⟩ := h.last portion hportion hlast
  rw [hinput hcompleted]
  exact ⟨hcompleted, hsize⟩

/-- What arrives, and the end of it, is for the receiver. -/
theorem Inbound.arriving {wire : Wire} {ended' : Bool} (h : l.Inbound ended)
    (hfault : wire.readFault = l.wire.readFault) (hended : wire.arrivingEnded = ended')
    (hdone : l.receiver.Done → wire.arriving = [] ∧ ended' = true) :
    { l with wire }.Inbound ended' where
  input := h.input
  running := h.running
  fault := hfault.trans h.fault
  ended_eq := hended
  done := hdone
  completed := h.completed

/-- **The calm lasts** as long as nothing gets in the way. -/
theorem Calm.move (h : l.Calm ended) (hmove : l.move? m = some l')
    (htakes' : l'.main.Takes = true) (hcalm : disturbs m l' = false)
    (hpermits : ∀ bs, m = .arrive bs → ended = false) : l'.Calm (ended || m.ends) := by
  unfold disturbs at hcalm
  rw [htakes', Bool.true_and] at hcalm
  have hclear : (l'.connection.cancelled || l'.sender.failing) = false := by
    cases m with
    | shutDown _ | failRead _ => cases hcalm
    | _ => exact hcalm
  rw [Bool.or_eq_false_iff] at hclear
  obtain ⟨hcancelled, hsound⟩ := hclear
  have hsame : (ended || false) = ended := Bool.or_false ended
  have haside : (∀ choice, m ≠ .main choice) → m ≠ .start → l.Aside l' := fun hmain hstart =>
    (move_aside hmain hstart hmove).1
  cases m with
  | main choice =>
      simp only [Move.ends, hsame]
      cases choice with
      | work => exact h.works (works_of_workMain hmove) htakes' hcancelled
      | stop =>
          obtain ⟨read, -, -, -, rfl⟩ := stopMain_eq hmove
          cases htakes'
  | start =>
      simp only [Move.ends, hsame]
      cases hmove
      unfold Link.start at hcancelled ⊢
      split
      · exact ⟨h.uncancelled, ⟨h.outbound.accepting, trivial, h.outbound.sender, h.outbound.output,
          h.outbound.more⟩, h.inbound.same ⟨rfl, rfl, rfl, rfl, rfl⟩ rfl, fun _ hp => by cases hp⟩
      · exact h
  | writer choice =>
      simp only [Move.ends, hsame]
      obtain ⟨houtbound, hstream, hinput⟩ := h.outbound.stepWriter h.uncancelled hmove
      exact h.aside (haside (fun _ => Move.noConfusion) Move.noConfusion) hcancelled houtbound
        (h.inbound.same hstream hinput) fun _ => hinput
  | sender choice most =>
      simp only [Move.ends, hsame]
      obtain ⟨houtbound, hstream, hinput⟩ :=
        h.outbound.stepSender h.inbound.running hmove hsound
      exact h.aside (haside (fun _ => Move.noConfusion) Move.noConfusion) hcancelled houtbound
        (h.inbound.same hstream hinput) fun _ => hinput
  | receiver choice most =>
      simp only [Move.ends, hsame]
      obtain ⟨hinbound, houtput, hopen⟩ := h.inbound.stepReceiver hmove
      exact h.aside (haside (fun _ => Move.noConfusion) Move.noConfusion) hcancelled
        (h.outbound.spares houtput) hinbound fun hcompleted => by cases hopen.symm.trans hcompleted
  | job number =>
      simp only [Move.ends, hsame]
      obtain ⟨houtput, hstream, hinput⟩ := stepJob_spares hmove
      exact h.aside (haside (fun _ => Move.noConfusion) Move.noConfusion) hcancelled
        (h.outbound.spares houtput) (h.inbound.same hstream hinput) fun _ => hinput
  | call command =>
      simp only [Move.ends, hsame]
      cases hmove
      have haccepting := (l.connection.perform_grows command).accepting
      exact h.aside (haside (fun _ => Move.noConfusion) Move.noConfusion) hcancelled
        (h.outbound.spares ⟨haccepting, rfl, rfl, rfl⟩)
        (h.inbound.same ⟨rfl, rfl, rfl, rfl, rfl⟩ rfl) fun _ => rfl
  | shutDown _ | failRead _ => cases hcalm
  | arrive bs =>
      have hended := hpermits bs rfl
      cases hmove
      refine h.aside (haside (fun _ => Move.noConfusion) Move.noConfusion) hcancelled
        (h.outbound.spares ⟨rfl, rfl, rfl, rfl⟩) ?_ fun _ => rfl
      refine h.inbound.arriving rfl (h.inbound.ended_eq.trans hsame.symm) fun hdone => ?_
      cases hended.symm.trans (h.inbound.done hdone).2
  | endArriving =>
      cases hmove
      refine h.aside (haside (fun _ => Move.noConfusion) Move.noConfusion) hcancelled
        (h.outbound.spares ⟨rfl, rfl, rfl, rfl⟩) ?_ fun _ => rfl
      exact h.inbound.arriving rfl (Bool.or_true ended).symm fun hdone =>
        ⟨(h.inbound.done hdone).1, Bool.or_true ended⟩
  | abandon =>
      cases hmove
      refine h.aside (haside (fun _ => Move.noConfusion) Move.noConfusion) hcancelled
        (h.outbound.spares ⟨rfl, rfl, rfl, rfl⟩) ?_ fun _ => rfl
      exact h.inbound.arriving rfl (Bool.or_true ended).symm fun hdone =>
        ⟨(h.inbound.done hdone).1, Bool.or_true ended⟩
  | record _ | elapse _ | depart _ | failWrite _ =>
      simp only [Move.ends, hsame]
      cases hmove
      exact h.aside (haside (fun _ => Move.noConfusion) Move.noConfusion) hcancelled
        (h.outbound.spares ⟨rfl, rfl, rfl, rfl⟩) (h.inbound.same ⟨rfl, rfl, rfl, rfl, rfl⟩ rfl)
        fun _ => rfl

theorem calm_new (setup : LinkSetup) (id peer : String) (limit : Nat) (input output : Thresholds)
    (capacity : Nat) :
    (Link.new setup id peer limit input output { capacity }).Calm false where
  uncancelled := rfl
  outbound := ⟨rfl, trivial, trivial, ⟨rfl, rfl, rfl⟩, rfl⟩
  inbound := ⟨⟨rfl, rfl, rfl⟩, rfl, rfl, rfl, fun hdone => absurd hdone (not_done_first _),
    fun hcompleted => by cases hcompleted⟩
  last _ hportion := by cases hportion

end Calm

end Link

end Courier
