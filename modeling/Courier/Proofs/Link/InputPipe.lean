import Courier.Proofs.Link.Receiving
import Courier.Proofs.Link.Steps
import Courier.Proofs.Pipe.Waking

/-!
Courier.Proofs.Link.InputPipe — the input pipe of a link is a pipe in use.

The receiver of a link is the writer of its input pipe, and the main task is the reader. So the pipe
and the stages of the two tasks are a `Conduit` (`Link.conduit`), and every move of the link is a
run of turns of it: what is known of every conduit is known of every link. `Link.Pumps` says so, and
ties what the main task has in its hands to what its last read has shown it.
-/

namespace Courier

/-! ## 1. The conduit of a link -/

/-- Where the flush is that a receiver has begun. -/
def ReceiverStage.flush? : ReceiverStage → Option FlushStage
  | .flushing flush => some flush
  | _ => none

theorem ReceiverStage.eq_of_flush {stage : ReceiverStage} {flush : FlushStage}
    (h : stage.flush? = some flush) : stage = .flushing flush := by
  cases stage <;> cases h
  rfl

/-- Where the read is that the main task has begun. -/
def MainStage.read? : MainStage → Option ReadStage
  | .waiting read => some read
  | _ => none

theorem MainStage.eq_of_read {stage : MainStage} {read : ReadStage} (h : stage.read? = some read) :
    stage = .waiting read := by
  cases stage <;> cases h
  rfl

/-- How much of its last input the main task keeps when it goes on to the next one. -/
def MainStage.keeps (kept : Nat) : MainStage → Nat
  | .settling portion => portion.buffer.size
  | _ => kept

theorem MainStage.keeps_of_portion {kept : Nat} {stage : MainStage} (h : stage.portion? = none) :
    stage.keeps kept = kept := by
  cases stage <;> first | rfl | cases h

/-- What a link does not remember of the use of its input pipe. -/
structure Gauge where
  waited : Bool := false
  written : Bytes := []
  consumed : Bytes := []
  shown : Nat := 0

/-- How much the last read has shown that is not consumed. -/
def Gauge.kept (g : Gauge) : Nat :=
  g.shown - g.consumed.length

namespace Link

/-- The input pipe, with the receiver at one end and the main task at the other. -/
def conduit (g : Gauge) (l : Link) : Conduit where
  pool := l.memory
  pipe := l.transport.input
  flush := l.receiver.flush?
  read := l.main.read?
  waited := g.waited
  written := g.written
  consumed := g.consumed
  shown := g.shown

/-- The input pipe is in use, and what the main task has in its hands is what its last read has
shown it. -/
structure Pumps (thresholds : Thresholds) (l : Link) (g : Gauge) : Prop where
  sound : (l.conduit g).Sound
  awake : (l.conduit g).Awake thresholds
  consumed_le : g.consumed.length ≤ g.shown
  portion : ∀ portion, l.main.portion? = some portion →
    portion.buffer.size ≤ portion.size ∧ g.kept = portion.size

section Pumps

variable {thresholds : Thresholds} {l l' : Link} {g g' : Gauge}

theorem pumps_new (setup : LinkSetup) (id peer : String) (maxPayload : Nat)
    (input output : Thresholds) (wire : Wire) :
    (Link.new setup id peer maxPayload input output wire).Pumps input {} := by
  have hfirst : (ReceiverStage.first setup.carriage).flush? = none := by
    unfold ReceiverStage.first
    split <;> rfl
  have hnew : (Link.new setup id peer maxPayload input output wire).conduit {} = .new input := by
    simp only [conduit, Link.new, hfirst]
    rfl
  refine ⟨?_, ?_, Nat.le_refl 0, fun _ h => by cases h⟩
  · rw [hnew]
    exact Conduit.sound_new input
  · rw [hnew]
    exact .new input

/-- The conduit has got on by some turns. -/
theorem Pumps.follow (h : l.Pumps thresholds g) (turns : List Conduit.Turn)
    (hrun : (l.conduit g).run? turns = some (l'.conduit g'))
    (hconsumed : g'.consumed.length ≤ g'.shown)
    (hportion : ∀ portion, l'.main.portion? = some portion →
      portion.buffer.size ≤ portion.size ∧ g'.kept = portion.size) : l'.Pumps thresholds g' :=
  ⟨h.sound.run hrun, h.awake.run h.sound hrun, hconsumed, hportion⟩

/-- The conduit has got on by some turns that are not the reader's. -/
theorem Pumps.beside (h : l.Pumps thresholds g) (turns : List Conduit.Turn) (g' : Gauge)
    (hrun : (l.conduit g).run? turns = some (l'.conduit g')) (hmain : l'.main = l.main)
    (hconsumed : g'.consumed = g.consumed) (hshown : g'.shown = g.shown) :
    ∃ g', l'.Pumps thresholds g' ∧ g'.kept = g.kept := by
  have hkept : g'.kept = g.kept := by rw [Gauge.kept, hconsumed, hshown, Gauge.kept]
  refine ⟨g', h.follow turns hrun ?_ fun portion hportion => ?_, hkept⟩
  · rw [hconsumed, hshown]
    exact h.consumed_le
  · rw [hkept]
    rw [hmain] at hportion
    exact h.portion portion hportion

/-! ## 2. The other tasks -/

theorem conduit_eq (hmemory : l'.memory = l.memory)
    (hinput : l'.transport.input = l.transport.input)
    (hflush : l'.receiver.flush? = l.receiver.flush?) (hread : l'.main.read? = l.main.read?) :
    l'.conduit g = l.conduit g := by
  rw [conduit, hmemory, hinput, hflush, hread, conduit]

/-- Other tasks take memory from the same pool, and may cancel a flush. -/
theorem Pumps.spares (h : l.Pumps thresholds g) (hs : l.Spares l') (hmain : l'.main = l.main)
    (hblank : l'.memory.Blank) : ∃ g', l'.Pumps thresholds g' ∧ g'.kept = g.kept := by
  have hflush : l'.receiver.flush? = l.receiver.flush? := by rw [hs.receiver_eq]
  have hread : l'.main.read? = l.main.read? := by rw [hmain]
  have hshare : ∀ s : Conduit,
      s.run? [.share l'.memory] = some { s with pool := l'.memory } := by
    intro s
    simp only [Conduit.run?, Conduit.turn?, if_pos hblank]
  obtain hinput | hinput := hs.input
  · refine h.beside [.share l'.memory] g ?_ hmain rfl rfl
    rw [hshare, conduit, conduit, hinput, hflush, hread]
  · refine h.beside [.cancelFlush, .share l'.memory] g ?_ hmain rfl rfl
    simp only [Conduit.run?, Conduit.turn?, if_pos hblank]
    rw [conduit, conduit, hinput, hflush, hread]

/-- The receiver does something else than to flush, and leaves the pipe alone. -/
theorem Pumps.idle (h : l.Pumps thresholds g) (hflush : l.receiver.flush? = none)
    (hflush' : l'.receiver.flush? = none) (hmemory : l'.memory = l.memory)
    (hinput : l'.transport.input = l.transport.input) (hmain : l'.main = l.main) :
    ∃ g', l'.Pumps thresholds g' ∧ g'.kept = g.kept := by
  refine h.beside [] g ?_ hmain rfl rfl
  rw [Conduit.run?, conduit_eq hmemory hinput (hflush'.trans hflush.symm) (by rw [hmain])]

/-- What is received fills the memory provided, and a flush is begun. -/
theorem Pumps.takeReceived {bs : Bytes} (h : l.Pumps thresholds g)
    (hstage : l.receiver = .receiving) :
    ∃ g', (l.takeReceived bs).Pumps thresholds g' ∧ g'.kept = g.kept := by
  have hnone : l.receiver.flush? = none := by rw [hstage]; rfl
  unfold Link.takeReceived
  split
  · exact h.idle hnone rfl rfl rfl rfl
  · split
    · exact h.idle hnone rfl rfl rfl rfl
    · next input hadvance =>
      refine h.beside
        [.writer (.fill bs), .writer (.commit bs.length), .writer .flush]
        { g with written := g.written ++ (l.transport.input.fillMemory bs).memory bs.length }
        ?_ rfl rfl rfl
      simp only [Conduit.run?, Conduit.turn?, Conduit.writerTurn?, conduit, hnone, if_true,
        hadvance]
      rfl

/-- **A step of the receiver** is some turns of the conduit's writer. -/
theorem Pumps.stepReceiver {choice : Choice} {most : Nat} (h : l.Pumps thresholds g)
    (hstep : l.stepReceiver choice most = some l') :
    ∃ g', l'.Pumps thresholds g' ∧ g'.kept = g.kept := by
  cases choice with
  | work =>
      have hwork : l.workReceiver most = some l' := hstep
      unfold workReceiver at hwork
      cases hstage : l.receiver with
      | expecting =>
          rw [hstage] at hwork
          dsimp only at hwork
          split at hwork <;> cases hwork
          exact h.idle (by rw [hstage]; rfl) rfl rfl rfl rfl
      | preparing =>
          rw [hstage] at hwork
          cases hwork
          refine h.beside [.writer (.provide receiveSize)] g ?_ rfl rfl rfl
          simp only [Conduit.run?, Conduit.turn?, Conduit.writerTurn?, conduit, hstage,
            ReceiverStage.flush?, if_true]
          rfl
      | receiving =>
          rw [hstage] at hwork
          dsimp only at hwork
          split at hwork
          · cases hwork
          · cases hwork
            exact h.idle (by rw [hstage]; rfl) rfl rfl rfl rfl
          · next wire _ =>
            cases hwork
            have hwire : { l with wire }.Pumps thresholds g :=
              ⟨h.sound, h.awake, h.consumed_le, h.portion⟩
            exact hwire.takeReceived hstage
      | flushing flush =>
          have hflush : (l.conduit g).flush = some flush := by simp only [conduit, hstage]; rfl
          rw [hstage] at hwork
          dsimp only at hwork
          split at hwork
          · cases hwork
          · next hflushed =>
            cases hwork
            refine h.beside [.stepFlush]
              { g with waited := (l.conduit g).waitedAfter flush } ?_ rfl rfl rfl
            have hstep : flush.step? (l.conduit g).pool (l.conduit g).pipe = _ := hflushed
            simp only [Conduit.run?, Conduit.turn?, Conduit.stepFlush?, hflush, hstep]
            rfl
          · next outcome memory input hflushed =>
            cases hwork
            have hnone : (if outcome.completed || outcome.canceled then .leaving none
                else ReceiverStage.first l.setup.carriage).flush? = none := by
              unfold ReceiverStage.first
              split
              · rfl
              · split <;> rfl
            refine h.beside [.stepFlush]
              { g with waited := (l.conduit g).waitedAfter flush } ?_ rfl rfl rfl
            have hstep : flush.step? (l.conduit g).pool (l.conduit g).pipe = _ := hflushed
            simp only [Conduit.run?, Conduit.turn?, Conduit.stepFlush?, hflush, hstep]
            simp only [conduit, setInput, hnone]
            rfl
      | leaving reason =>
          rw [hstage] at hwork
          cases reason <;> cases hwork <;>
            exact h.idle (by rw [hstage]; rfl) rfl rfl rfl rfl
      | completing =>
          rw [hstage] at hwork
          cases hwork
          have hreleased : ∀ l' : Link, l'.releaseWire.conduit g = l'.conduit g := by
            intro l'
            unfold releaseWire
            split <;> rfl
          refine h.beside [.writer .complete] g ?_ ?_ rfl rfl
          · rw [hreleased]
            simp only [Conduit.run?, Conduit.turn?, Conduit.writerTurn?, conduit, hstage,
              ReceiverStage.flush?, if_true]
            rfl
          · unfold releaseWire
            split <;> rfl
      | finished | crashed _ =>
          rw [hstage] at hwork
          cases hwork
  | stop =>
      have hstop : l.stopReceiver = some l' := hstep
      unfold stopReceiver at hstop
      split at hstop
      · split at hstop
        · next hstage =>
          cases hstop
          exact h.idle (by rw [hstage]; rfl) rfl rfl rfl rfl
        · next hstage =>
          cases hstop
          exact h.idle (by rw [hstage]; rfl) rfl rfl rfl rfl
        · next hstage =>
          cases hstop
          exact h.idle (by rw [hstage]; rfl) rfl rfl rfl rfl
        · next flush hstage =>
          split at hstop <;> cases hstop
          next hinterruptible =>
          refine h.beside [.dropFlush] g ?_ rfl rfl rfl
          simp only [Conduit.run?, Conduit.turn?, conduit, hstage, ReceiverStage.flush?,
            Option.any_some, hinterruptible, if_true]
          rfl
        · cases hstop
      · cases hstop

/-! ## 3. The main task -/

/-- The main task goes to another stage, and leaves the pipe alone. -/
theorem Pumps.turn (h : l.Pumps thresholds g) (hmemory : l'.memory = l.memory)
    (hinput : l'.transport.input = l.transport.input) (hreceiver : l'.receiver = l.receiver)
    (hread : l'.main.read? = l.main.read?)
    (hportion : ∀ portion, l'.main.portion? = some portion → ∃ before,
      l.main.portion? = some before ∧ portion.buffer.size ≤ before.buffer.size ∧
        portion.size = before.size) : l'.Pumps thresholds g := by
  refine h.follow [] ?_ h.consumed_le fun portion hp => ?_
  · rw [Conduit.run?, conduit_eq hmemory hinput (by rw [hreceiver]) hread]
  · obtain ⟨before, hbefore, hle, hsize⟩ := hportion portion hp
    obtain ⟨hbuffer, hkept⟩ := h.portion before hbefore
    rw [hsize]
    exact ⟨Nat.le_trans hle hbuffer, hkept⟩

/-- What the main task has in its hands stays there. -/
theorem same_portion {stage stage' : MainStage} (h : stage'.portion? = stage.portion?) :
    ∀ portion, stage'.portion? = some portion → ∃ before, stage.portion? = some before ∧
      portion.buffer.size ≤ before.buffer.size ∧ portion.size = before.size :=
  fun portion hp => ⟨portion, h.symm.trans hp, Nat.le_refl _, rfl⟩

/-- The main task begins a read. -/
theorem Pumps.beginRead (h : l.Pumps thresholds g) (hmemory : l'.memory = l.memory)
    (hinput : l'.transport.input = l.transport.input) (hreceiver : l'.receiver = l.receiver)
    (hread : l.main.read? = none) (hmain : l'.main = .waiting .looking) :
    l'.Pumps thresholds g := by
  refine h.follow [.reader .read] ?_ h.consumed_le fun portion hp => ?_
  · have hnone : (l.conduit g).read = none := hread
    simp only [Conduit.run?, Conduit.turn?, Conduit.readerTurn?, hnone, if_true]
    simp only [conduit, hmemory, hinput, hreceiver, hmain, MainStage.read?]
  · rw [hmain] at hp
    cases hp

/-- The transport is shut down by the main task on its way to the end. -/
theorem Pumps.shutDown (h : l.Pumps thresholds g) (reason : CloseReason) (stage : MainStage)
    (hread : l.main.read? = none) (hread' : stage.read? = none)
    (hportion : stage.portion? = none) :
    ∃ g', { l.shutDown reason with main := stage }.Pumps thresholds g' := by
  obtain ⟨-, haside, hdraws⟩ := shutDown_touches reason l
  obtain ⟨g', hdown, -⟩ := h.spares (shutDown_spares reason l) haside.main_eq
    (hdraws.input.blank h.sound.blank)
  have hnone : (l.shutDown reason).main.read? = none := by rw [haside.main_eq, hread]
  exact ⟨g', hdown.turn rfl rfl rfl (hread'.trans hnone.symm) fun portion hp => by
    cases hportion.symm.trans hp⟩

/-- The main task reads no more. -/
theorem Pumps.dropInput (h : l.Pumps thresholds g) (stage : MainStage)
    (hread : l.main.read? = none) (hread' : stage.read? = none)
    (hportion : stage.portion? = none) : { l.dropInput with main := stage }.Pumps thresholds g := by
  refine h.follow [.completeReader] ?_ h.consumed_le fun portion hp => by
    cases hportion.symm.trans hp
  simp only [Conduit.run?, Conduit.turn?]
  simp only [conduit, Link.dropInput, setInput, hread, hread']

/-- A read that has ended has shown all that is unread. -/
theorem Pumps.takeInput {read : ReadStage} {outcome : ReadOutcome} {input : Pipe}
    (h : l.Pumps thresholds g) (hstage : l.main = .waiting read)
    (hstep : read.step? l.transport.input = some (.done outcome, input)) :
    ∃ g', ((l.setInput l.memory input).takeInput outcome).Pumps thresholds g' := by
  have hread : (l.conduit g).read = some read := by simp only [conduit, hstage]; rfl
  have hread' : ((l.setInput l.memory input).takeInput outcome).main.read? = none := by
    unfold Link.takeInput
    dsimp only
    split <;> rfl
  refine ⟨{ g with shown := (l.conduit g).shownAfter (.done outcome) },
    h.follow [.stepRead] ?_ ?_ fun portion hp => ?_⟩
  · have hstep' : read.step? (l.conduit g).pipe = _ := hstep
    simp only [Conduit.run?, Conduit.turn?, Conduit.stepRead?, hread, hstep']
    rw [conduit, conduit, hread']
    rfl
  · exact Nat.le_add_right _ _
  · unfold Link.takeInput at hp
    dsimp only at hp
    split at hp <;> cases hp <;> exact ⟨Nat.le_refl _, Nat.add_sub_cancel_left _ _⟩

/-- What was worked off is consumed. -/
theorem Pumps.settle {portion : Portion} {memory : BlockPool} {input : Pipe}
    (h : l.Pumps thresholds g) (hstage : l.main = .settling portion)
    (hconsume : l.transport.input.consume (portion.size - portion.buffer.size) l.memory =
      .ok (memory, input)) (stage : MainStage)
    (hnext : stage = .leaving none ∨ stage = .waiting .looking) :
    ∃ g', { l.setInput memory input with main := stage }.Pumps thresholds g' ∧
      g'.kept = portion.buffer.size := by
  obtain ⟨hle, hkept⟩ := h.portion portion (by rw [hstage]; rfl)
  have hread : l.main.read? = none := by rw [hstage]; rfl
  have hbound : portion.size - portion.buffer.size ≤ l.transport.input.unread.size := by
    obtain ⟨hzero, -⟩ | ⟨-, hle, -⟩ := Pipe.consume_eq hconsume
    · omega
    · exact hle
  have hlength : (l.transport.input.unread.toList.take
      (portion.size - portion.buffer.size)).length = portion.size - portion.buffer.size := by
    have hsize : l.transport.input.unread.size = l.transport.input.unread.toList.length :=
      h.sound.tidy.sound.size_eq
    rw [List.length_take]
    omega
  have hshown := h.consumed_le
  unfold Gauge.kept at hkept
  have hturn : (l.conduit g).turn? (.reader (.consume (portion.size - portion.buffer.size))) =
      some { l.conduit g with
        pool := memory, pipe := input
        consumed := g.consumed ++
          l.transport.input.unread.toList.take (portion.size - portion.buffer.size) } := by
    simp only [Conduit.turn?, Conduit.readerTurn?, conduit, hread, if_true, hconsume]
  refine ⟨{ g with consumed := g.consumed ++
      l.transport.input.unread.toList.take (portion.size - portion.buffer.size) }, ?_, ?_⟩
  · obtain rfl | rfl := hnext
    · refine h.follow
        [.reader (.consume (portion.size - portion.buffer.size))] ?_ ?_ fun _ hp => by
          cases hp
      · simp only [Conduit.run?, hturn]
        simp only [conduit, hread]
        rfl
      · simp only [List.length_append, hlength]
        omega
    · refine h.follow
        [.reader (.consume (portion.size - portion.buffer.size)), .reader .read] ?_ ?_
          fun _ hp => by cases hp
      · have hnone : (l.conduit g).read = none := hread
        simp only [Conduit.run?, hturn]
        simp only [Conduit.turn?, Conduit.readerTurn?, hnone, if_true]
        rfl
      · simp only [List.length_append, hlength]
        omega
  · simp only [Gauge.kept, List.length_append, hlength]
    omega

/-- **A step of the main task** is some turns of the conduit's reader. What it keeps is settled when
it gives back the rest. -/
theorem Pumps.works (h : l.Pumps thresholds g) (hworks : l.Works l') :
    ∃ g', l'.Pumps thresholds g' ∧
      (l'.main.Takes = true → l'.main.portion? = none → g'.kept = l.main.keeps g.kept) := by
  cases hworks with
  | openFailed stage | examineFailed stage | examineLong stage | readFault stage =>
      exact ⟨g, h.turn rfl rfl rfl (by rw [stage]; rfl) (fun _ hp => by cases hp),
        fun htakes => by cases htakes⟩
  | jams stage =>
      exact ⟨g, h.turn rfl rfl rfl (by rw [stage]; rfl) (fun _ hp => by cases hp),
        fun htakes => by cases htakes⟩
  | openCompleted stage =>
      exact ⟨g, h.turn rfl rfl rfl (by rw [stage]; rfl) (fun _ hp => by cases hp),
        fun _ _ => by rw [stage]; rfl⟩
  | openPending stage | tells stage =>
      exact ⟨g, h.beginRead rfl rfl rfl (by rw [stage]; rfl) rfl, fun _ _ => by rw [stage]; rfl⟩
  | marks stage | shows stage =>
      exact ⟨g, h.turn rfl rfl rfl (by rw [stage]; rfl) (same_portion (by rw [stage]; rfl)),
        fun _ _ => by rw [stage]; rfl⟩
  | tellsWith stage =>
      exact ⟨g, h.turn rfl rfl rfl (by rw [stage]; rfl) (same_portion (by rw [stage]; rfl)),
        fun _ hnone => by cases hnone⟩
  | @looks read read' input stage step =>
      have hread : (l.conduit g).read = some read := by simp only [conduit, stage]; rfl
      have hstep : read.step? (l.conduit g).pipe = _ := step
      refine ⟨g, h.follow [.stepRead] ?_ h.consumed_le (fun _ hp => by cases hp),
        fun _ _ => by rw [stage]; rfl⟩
      simp only [Conduit.run?, Conduit.turn?, Conduit.stepRead?, hread, hstep]
      rfl
  | takes stage step =>
      obtain ⟨g', h'⟩ := h.takeInput stage step
      refine ⟨g', h', fun _ hnone => ?_⟩
      unfold Link.takeInput at hnone
      dsimp only at hnone
      split at hnone <;> cases hnone
  | @examineCompleted portion buffer connection stage examine =>
      have hrest := (examine_rest l.setup.handshake Connection.rawSender portion.buffer
        l.connection).1
      rw [examine] at hrest
      refine ⟨g, h.turn rfl rfl rfl (by rw [stage]; rfl) ?_, fun _ hnone => by cases hnone⟩
      intro portion' hp
      cases hp
      exact ⟨portion, by rw [stage]; rfl, hrest.size_le, rfl⟩
  | @examinePending portion buffer connection stage examine short =>
      have hrest := (examine_rest l.setup.handshake Connection.rawSender portion.buffer
        l.connection).1
      rw [examine] at hrest
      refine ⟨g, h.turn rfl rfl rfl (by rw [stage]; rfl) ?_, fun _ hnone => by cases hnone⟩
      intro portion' hp
      cases hp
      exact ⟨portion, by rw [stage]; rfl, hrest.size_le, rfl⟩
  | @readNothing portion reader buffer stage read =>
      have hrest := l.reader.rest_read portion.buffer
      rw [read] at hrest
      refine ⟨g, h.turn rfl rfl rfl (by rw [stage]; rfl) ?_, fun _ hnone => by cases hnone⟩
      intro portion' hp
      cases hp
      exact ⟨portion, by rw [stage]; rfl, hrest.size_le, rfl⟩
  | @readFrame portion f reader buffer stage read =>
      have hrest := l.reader.rest_read portion.buffer
      rw [read] at hrest
      have hd := dispatch_dispatches f { portion with buffer } reader l
      have hreceiver : ({ l with reader }.dispatch f { portion with buffer }).receiver =
          l.receiver := by
        unfold Link.dispatch
        dsimp only
        split
        · rfl
        · split <;> rfl
      have hmain : ∀ l₁ : Link, (l₁.main = .reading { portion with buffer } ∨
          ∃ job, l₁.main = .handling job { portion with buffer }) →
          l₁.main.read? = none ∧ l₁.main.portion? = some { portion with buffer } := by
        rintro l₁ (hmain | ⟨job, hmain⟩) <;> exact ⟨by rw [hmain]; rfl, by rw [hmain]; rfl⟩
      obtain ⟨hread, hportion⟩ := hmain _ hd.main_eq
      refine ⟨g, h.turn hd.memory_eq (by rw [hd.transport_eq]) hreceiver
        (by rw [hread, stage]; rfl) ?_, fun _ hnone => by cases hportion.symm.trans hnone⟩
      intro portion' hp
      cases hportion.symm.trans hp
      exact ⟨portion, by rw [stage]; rfl, hrest.size_le, rfl⟩
  | @handles job portion stage =>
      have hnext : ∀ left : Option Job, (afterHandler portion left).read? = none ∧
          (afterHandler portion left).portion? = some portion := by
        intro left
        cases left <;> exact ⟨rfl, rfl⟩
      obtain ⟨hread, hportion⟩ := hnext (l.goOn job).1
      exact ⟨g, h.turn rfl rfl rfl (hread.trans (by rw [stage]; rfl))
        (same_portion (hportion.trans (by rw [stage]; rfl))),
        fun _ hnone => by cases hportion.symm.trans hnone⟩
  | @settles portion memory input stage consume =>
      have hnext : (if portion.last then MainStage.leaving none else .waiting .looking) =
          .leaving none ∨
          (if portion.last then MainStage.leaving none else .waiting .looking) =
          .waiting .looking := by
        split
        · exact .inl rfl
        · exact .inr rfl
      obtain ⟨g', h', hkept⟩ := h.settle stage consume _ hnext
      exact ⟨g', h', fun _ _ => hkept.trans (by rw [stage]; rfl)⟩
  | leaves stage =>
      exact ⟨g, h.dropInput _ (by rw [stage]; rfl) rfl rfl, fun htakes => by cases htakes⟩
  | releases stage =>
      exact ⟨g, h.dropInput _ (by rw [stage]; rfl) rfl rfl, fun htakes => by cases htakes⟩
  | concludes stage | notifies stage | records stage | cancels stage | seesWriter stage
    | drains stage | seesSender stage | seesReceiver stage | ends stage | tellsEnd stage
    | marksEnd stage =>
      exact ⟨g, h.turn rfl rfl rfl (by rw [stage]; rfl) (fun _ hp => by cases hp),
        fun htakes => by cases htakes⟩
  | @cuts reason stage =>
      split
      · obtain ⟨g', h'⟩ := h.shutDown reason (.cancelling reason) (by rw [stage]; rfl) rfl rfl
        exact ⟨g', h', fun htakes => by cases htakes⟩
      · exact ⟨g, h.turn rfl rfl rfl (by rw [stage]; rfl) (fun _ hp => by cases hp),
          fun htakes => by cases htakes⟩
  | @givesUp reason deadline stage =>
      obtain ⟨g', h'⟩ := h.shutDown .drainTimeout (.awaitingSender reason none)
        (by rw [stage]; rfl) rfl rfl
      exact ⟨g', h', fun htakes => by cases htakes⟩
  | @shuts reason stage =>
      obtain ⟨g', h'⟩ := h.shutDown reason .releasing (by rw [stage]; rfl) rfl rfl
      exact ⟨g', h', fun htakes => by cases htakes⟩

/-- The main task gives up its read. -/
theorem Pumps.stopMain (h : l.Pumps thresholds g) (hstop : l.stopMain = some l') :
    l'.Pumps thresholds g ∧ l'.main.Takes = false := by
  obtain ⟨read, hstage, hinterruptible, -, rfl⟩ := stopMain_eq hstop
  refine ⟨h.follow [.dropRead] ?_ h.consumed_le (fun _ hp => by cases hp), rfl⟩
  simp only [Conduit.run?, Conduit.turn?, conduit, hstage, MainStage.read?, Option.any_some,
    hinterruptible, if_true]
  rfl

theorem Pumps.stepMain {choice : Choice} (h : l.Pumps thresholds g)
    (hstep : l.stepMain choice = some l') :
    ∃ g', l'.Pumps thresholds g' ∧
      (l'.main.Takes = true → l'.main.portion? = none → g'.kept = l.main.keeps g.kept) := by
  cases choice with
  | work => exact h.works (works_of_workMain hstep)
  | stop =>
      obtain ⟨h', htakes⟩ := h.stopMain hstep
      exact ⟨g, h', fun htakes' => by cases htakes.symm.trans htakes'⟩

theorem Pumps.start (h : l.Pumps thresholds g) : l.start.Pumps thresholds g := by
  unfold Link.start
  split
  · next hstage =>
    exact h.turn rfl rfl rfl (by rw [hstage]; rfl) (fun _ hp => by cases hp)
  · exact h

/-! ## 4. Every move -/

/-- **Every move of a link** is some turns of its input pipe. -/
theorem Pumps.move {m : Move} (h : l.Pumps thresholds g) (hmove : l.move? m = some l') :
    ∃ g', l'.Pumps thresholds g' ∧
      (l'.main.Takes = true → l'.main.portion? = none → g'.kept = l.main.keeps g.kept) := by
  have hbeside : l'.main = l.main → (∃ g', l'.Pumps thresholds g' ∧ g'.kept = g.kept) →
      ∃ g', l'.Pumps thresholds g' ∧
        (l'.main.Takes = true → l'.main.portion? = none → g'.kept = l.main.keeps g.kept) := by
    rintro hmain ⟨g', h', hkept⟩
    refine ⟨g', h', fun _ hnone => ?_⟩
    rw [hmain] at hnone
    rw [hkept, MainStage.keeps_of_portion hnone]
  have hspares : (∀ choice, m ≠ .main choice) → m ≠ .start →
      (∀ choice most, m ≠ .receiver choice most) → (∀ bs, m ≠ .arrive bs) →
      ∃ g', l'.Pumps thresholds g' ∧
        (l'.main.Takes = true → l'.main.portion? = none → g'.kept = l.main.keeps g.kept) := by
    intro hmain hstart hreceiver harrive
    obtain ⟨haside, hdraws⟩ := move_aside hmain hstart hmove
    obtain ⟨bs, hdraws⟩ := hdraws harrive
    exact hbeside haside.main_eq (h.spares (move_spares hmain hstart hreceiver hmove)
      haside.main_eq (hdraws.input.blank h.sound.blank))
  cases m with
  | main choice => exact h.stepMain hmove
  | start =>
      cases hmove
      have hkept : l.start.main.portion? = none → g.kept = l.main.keeps g.kept := by
        unfold Link.start
        split
        · next hstage => exact fun _ => by rw [hstage]; rfl
        · exact fun hnone => (MainStage.keeps_of_portion hnone).symm
      exact ⟨g, h.start, fun _ hnone => hkept hnone⟩
  | receiver choice most =>
      have haside := (move_aside (fun _ => Move.noConfusion) Move.noConfusion hmove).1
      exact hbeside haside.main_eq (h.stepReceiver hmove)
  | arrive bs =>
      cases hmove
      exact hbeside rfl ⟨g, ⟨h.sound, h.awake, h.consumed_le, h.portion⟩, rfl⟩
  | _ =>
      exact hspares (fun _ => Move.noConfusion) Move.noConfusion (fun _ _ => Move.noConfusion)
        (fun _ => Move.noConfusion)

end Pumps

end Link

end Courier
