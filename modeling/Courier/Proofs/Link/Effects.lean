import Courier.Link.Run
import Courier.Proofs.Link.Queueing
import Courier.Proofs.Link.Stream
import Courier.Proofs.Pipe.Content

/-!
Courier.Proofs.Link.Effects — what the tasks of a link do to one another.

Three relations say what is left of a link by the tasks that do not own it. On the sending side,
frames are queued and the way may be cut (`Link.Queues`); the things of the main task are left alone
(`Link.Aside`); on the receiving side, bytes go from the wire to the input pipe (`Link.Draws`).
A handler, the receiver and whoever shuts the transport down keep to all three (`Link.Touches`).
-/

namespace Courier

namespace Link

/-! ## 1. The three sides -/

/-- What the tasks other than the writer and the sender do to the sending side: `fs` are queued,
and the way may be cut. -/
structure Queues (fs : List Frame) (l l' : Link) : Prop where
  setup_eq : l'.setup = l.setup
  sender_eq : l'.sender = l.sender
  connection : Connection.Grows fs l.connection l'.connection
  output : Pipe.Grows [] (l.memory, l.transport.output) (l'.memory, l'.transport.output)
  wire : l.wire.Keeps l'.wire

/-- The frames that were dispatched, in order. -/
def heard (l : Link) : List Frame :=
  l.log.filterMap fun entry => match entry with
    | .dispatched f => some f
    | _ => none

/-- What the tasks other than the main task leave alone. -/
structure Aside (l l' : Link) : Prop where
  setup_eq : l'.setup = l.setup
  maxPayload_eq : l'.connection.maxPayload = l.connection.maxPayload
  handshaked_eq : l'.connection.handshaked = l.connection.handshaked
  reader_eq : l'.reader = l.reader
  main_eq : l'.main = l.main
  heard_eq : l'.heard = l.heard

/-- What the tasks other than the main task do to the receiving side: `bs` go from the wire to the
input pipe. -/
structure Draws (bs : Bytes) (l l' : Link) : Prop where
  arriving : l.wire.arriving = bs ++ l'.wire.arriving
  input : Pipe.Grows bs (l.memory, l.transport.input) (l'.memory, l'.transport.input)

/-- All of this together. -/
structure Touches (fs : List Frame) (bs : Bytes) (l l' : Link) : Prop where
  queues : l.Queues fs l'
  aside : l.Aside l'
  draws : l.Draws bs l'

/-- Nothing is changed but the pipes, the memory and the stages of the writer and the receiver, and
what may be recorded of the end. -/
structure Quiet (l l' : Link) : Prop where
  setup_eq : l'.setup = l.setup
  connection_eq : l'.connection = l.connection
  reader_eq : l'.reader = l.reader
  wire_eq : l'.wire = l.wire
  main_eq : l'.main = l.main
  sender_eq : l'.sender = l.sender
  log_eq : l'.log = l.log

section Effects

variable {l l' l₁ : Link} {fs gs : List Frame} {bs more : Bytes}

theorem Queues.trans (h : l.Queues fs l₁) (h' : l₁.Queues gs l') :
    l.Queues (fs ++ gs) l' :=
  ⟨h'.setup_eq.trans h.setup_eq, h'.sender_eq.trans h.sender_eq, h.connection.trans h'.connection,
    h.output.trans h'.output, h.wire.trans h'.wire⟩

/-- The sending side is left alone, but for what its pipe does not mind and for the wire. -/
theorem Queues.of_same (hsetup : l'.setup = l.setup) (hsender : l'.sender = l.sender)
    (hconnection : Connection.Grows [] l.connection l'.connection)
    (houtput : Pipe.Grows [] (l.memory, l.transport.output) (l'.memory, l'.transport.output))
    (hwire : l'.wire = l.wire) : l.Queues [] l' :=
  ⟨hsetup, hsender, hconnection, houtput, hwire ▸ .refl _⟩

theorem Aside.trans (h : l.Aside l₁) (h' : l₁.Aside l') : l.Aside l' :=
  ⟨h'.setup_eq.trans h.setup_eq, h'.maxPayload_eq.trans h.maxPayload_eq,
    h'.handshaked_eq.trans h.handshaked_eq, h'.reader_eq.trans h.reader_eq,
    h'.main_eq.trans h.main_eq, h'.heard_eq.trans h.heard_eq⟩

theorem Draws.trans (h : l.Draws bs l₁) (h' : l₁.Draws more l') :
    l.Draws (bs ++ more) l' :=
  ⟨by rw [h.arriving, h'.arriving, List.append_assoc], h.input.trans h'.input⟩

/-- Nothing is drawn. -/
theorem Draws.of_same (harriving : l'.wire.arriving = l.wire.arriving)
    (hinput : Pipe.Grows [] (l.memory, l.transport.input) (l'.memory, l'.transport.input)) :
    l.Draws [] l' :=
  ⟨harriving.symm, hinput⟩

theorem Touches.trans (h : l.Touches fs bs l₁) (h' : l₁.Touches gs more l') :
    l.Touches (fs ++ gs) (bs ++ more) l' :=
  ⟨h.queues.trans h'.queues, h.aside.trans h'.aside, h.draws.trans h'.draws⟩

/-- The deferred handlers are of no concern to anybody. -/
theorem Touches.withJobs (h : l.Touches fs bs l') (jobs : List Job) :
    l.Touches fs bs { l' with jobs } where
  queues := ⟨h.queues.setup_eq, h.queues.sender_eq, h.queues.connection, h.queues.output,
    h.queues.wire⟩
  aside := ⟨h.aside.setup_eq, h.aside.maxPayload_eq, h.aside.handshaked_eq, h.aside.reader_eq,
    h.aside.main_eq, h.aside.heard_eq⟩
  draws := ⟨h.draws.arriving, h.draws.input⟩

theorem Quiet.touches (h : l.Quiet l')
    (houtput : Pipe.Grows [] (l.memory, l.transport.output) (l'.memory, l'.transport.output))
    (hinput : Pipe.Grows [] (l.memory, l.transport.input) (l'.memory, l'.transport.input)) :
    l.Touches [] [] l' where
  queues := by
    refine .of_same h.setup_eq h.sender_eq ?_ houtput h.wire_eq
    rw [h.connection_eq]
    exact .refl _
  aside := by
    refine ⟨h.setup_eq, ?_, ?_, h.reader_eq, h.main_eq, ?_⟩
    · rw [h.connection_eq]
    · rw [h.connection_eq]
    · rw [heard, h.log_eq, heard]
  draws := .of_same (by rw [h.wire_eq]) hinput

/-- No frame is dispatched when something else is noted. -/
theorem heard_append (l : Link) (reports : List Report) :
    ({ l with log := l.log ++ reports.map .reported } : Link).heard = l.heard := by
  unfold heard
  rw [List.filterMap_append, List.filterMap_map]
  have hnone : reports.filterMap ((fun entry : Entry => match entry with
      | .dispatched f => some f
      | _ => none) ∘ Entry.reported) = [] := List.filterMap_eq_nil_iff.mpr fun _ _ => rfl
  rw [hnone, List.append_nil]

theorem heard_note_dispatched (f : Frame) (l : Link) :
    (l.note (.dispatched f)).heard = l.heard ++ [f] := by
  simp [heard, note]

theorem heard_tell (m : Milestone) (l : Link) : (l.tell m).heard = l.heard := by
  simp [heard, tell, note]

/-! ## 2. From outside -/

theorem shutWire_keeps (reason : CloseReason) (l : Link) : l.wire.Keeps (l.shutWire reason) := by
  unfold shutWire
  split
  · exact .refl _
  · split
    · exact l.wire.keeps_shutBreaking
    · exact l.wire.keeps_shut

theorem arriving_shutWire (reason : CloseReason) (l : Link) :
    (l.shutWire reason).arriving = l.wire.arriving := by
  unfold shutWire
  split
  · rfl
  · split <;> rfl

/-- The transport is shut down: both pipes are woken, and what is in them stays. -/
theorem shutDown_touches (reason : CloseReason) (l : Link) :
    l.Touches [] [] (l.shutDown reason) := by
  unfold shutDown TransportCore.begin
  cases l.transport.begun with
  | true => exact Quiet.touches ⟨rfl, rfl, rfl, rfl, rfl, rfl, rfl⟩ (.refl _) (.refl _)
  | false =>
      exact ⟨⟨rfl, rfl, .refl _, Pipe.cancelRead_grows _ _, shutWire_keeps _ l⟩,
        ⟨rfl, rfl, rfl, rfl, rfl, rfl⟩,
        .of_same (arriving_shutWire _ l) (Pipe.cancelFlush_grows _ _)⟩

theorem releaseWire_touches (l : Link) : l.Touches [] [] l.releaseWire := by
  unfold releaseWire
  split
  · exact ⟨⟨rfl, rfl, .refl _, .refl _, l.wire.keeps_release⟩, ⟨rfl, rfl, rfl, rfl, rfl, rfl⟩,
      .of_same rfl (.refl _)⟩
  · exact Quiet.touches ⟨rfl, rfl, rfl, rfl, rfl, rfl, rfl⟩ (.refl _) (.refl _)

theorem perform_touches (command : Command) (l : Link) :
    l.Touches (l.connection.accepts command) [] (l.perform command).2 where
  queues := ⟨rfl, rfl, l.connection.perform_grows command, .refl _, .refl _⟩
  aside := ⟨rfl, (l.connection.perform_grows command).maxPayload,
    l.connection.handshaked_perform command, rfl, rfl, rfl⟩
  draws := .of_same rfl (.refl _)

/-! ## 3. Handlers -/

/-- What a handler asks for is queued. -/
theorem goOn_touches (job : Job) (l : Link) :
    l.Touches (job.accepts l.connection) [] (l.goOn job).2 where
  queues := ⟨rfl, rfl, job.step_grows l.connection, .refl _, .refl _⟩
  aside := ⟨rfl, (job.step_grows l.connection).maxPayload, job.handshaked_step l.connection, rfl,
    rfl, heard_append l _⟩
  draws := .of_same rfl (.refl _)

/-- A deferred handler is a task of its own. -/
theorem stepJob_touches {number : Nat} (hstep : l.stepJob number = some l') :
    ∃ job, l.jobs[number]? = some job ∧ l.Touches (job.accepts l.connection) [] l' := by
  unfold stepJob at hstep
  split at hstep
  · cases hstep
  · next job hjob =>
    have hgoOn := goOn_touches job l
    refine ⟨job, hjob, ?_⟩
    split at hstep
    · next hl =>
      cases hstep
      rw [hl] at hgoOn
      exact hgoOn.withJobs _
    · next hl =>
      cases hstep
      rw [hl] at hgoOn
      exact hgoOn.withJobs _

/-! ## 4. The receiver -/

/-- What was received goes into the memory that was provided. -/
theorem takeReceived_touches {w : Wire} (hkeeps : l.wire.Keeps w)
    (harriving : l.wire.arriving = bs ++ w.arriving) (hroom : bs.length ≤ l.transport.input.room) :
    l.Touches [] bs ({ l with wire := w }.takeReceived bs) := by
  unfold takeReceived
  cases hbs : bs with
  | nil =>
      rw [hbs] at harriving
      exact ⟨⟨rfl, rfl, .refl _, .refl _, hkeeps⟩, ⟨rfl, rfl, rfl, rfl, rfl, rfl⟩, harriving,
        .refl _⟩
  | cons b rest =>
      obtain ⟨q, hq, hgrows⟩ := Pipe.fillMemory_advance_grows l.memory hroom
      rw [hbs] at harriving hq hgrows
      dsimp only [List.isEmpty_cons]
      rw [if_neg Bool.false_ne_true, hq]
      exact ⟨⟨rfl, rfl, .refl _, .refl _, hkeeps⟩, ⟨rfl, rfl, rfl, rfl, rfl, rfl⟩, harriving,
        hgrows⟩

/-- **A step of the receiver moves bytes from the wire to the input pipe**, and loses none. -/
theorem stepReceiver_touches {choice : Choice} {most : Nat}
    (hstep : l.stepReceiver choice most = some l') : ∃ bs, l.Touches [] bs l' := by
  cases choice with
  | work =>
      have hwork : l.workReceiver most = some l' := hstep
      unfold workReceiver at hwork
      cases hstage : l.receiver with
      | expecting =>
          rw [hstage] at hwork
          dsimp only at hwork
          split at hwork <;> cases hwork
          exact ⟨[], Quiet.touches ⟨rfl, rfl, rfl, rfl, rfl, rfl, rfl⟩ (.refl _) (.refl _)⟩
      | preparing =>
          rw [hstage] at hwork
          cases hwork
          have hgrows := Pipe.ensureMemory_grows
          exact ⟨[], Quiet.touches ⟨rfl, rfl, rfl, rfl, rfl, rfl, rfl⟩ ((hgrows _ _ _).beside _)
            (hgrows _ _ _)⟩
      | receiving =>
          rw [hstage] at hwork
          dsimp only at hwork
          split at hwork
          · cases hwork
          · next hreceive =>
            cases hwork
            exact ⟨[], ⟨rfl, rfl, .refl _, .refl _, Wire.keeps_receive hreceive⟩,
              ⟨rfl, rfl, rfl, rfl, rfl, rfl⟩,
              .of_same (Wire.arriving_receive_error hreceive) (.refl _)⟩
          · next bs wire hreceive =>
            cases hwork
            obtain ⟨harriving, hlength⟩ := Wire.arriving_receive hreceive
            exact ⟨bs, takeReceived_touches (Wire.keeps_receive hreceive) harriving
              (Nat.le_trans hlength (Nat.min_le_right _ _))⟩
      | flushing flush =>
          rw [hstage] at hwork
          dsimp only at hwork
          split at hwork
          · cases hwork
          · next hflush =>
            cases hwork
            have hgrows := Pipe.flush_grows hflush
            exact ⟨[], Quiet.touches ⟨rfl, rfl, rfl, rfl, rfl, rfl, rfl⟩ (hgrows.beside _) hgrows⟩
          · next hflush =>
            cases hwork
            have hgrows := Pipe.flush_grows hflush
            exact ⟨[], Quiet.touches ⟨rfl, rfl, rfl, rfl, rfl, rfl, rfl⟩ (hgrows.beside _) hgrows⟩
      | leaving reason =>
          rw [hstage] at hwork
          cases reason <;> cases hwork <;>
            exact ⟨[], Quiet.touches ⟨rfl, rfl, rfl, rfl, rfl, rfl, rfl⟩ (.refl _) (.refl _)⟩
      | completing =>
          rw [hstage] at hwork
          cases hwork
          have hgrows := Pipe.completeWriter_grows l.memory l.transport.input
          have hcompleted : l.Touches [] []
              { l.setInput (l.transport.input.completeWriter l.memory).1
                (l.transport.input.completeWriter l.memory).2 with receiver := .finished } :=
            Quiet.touches ⟨rfl, rfl, rfl, rfl, rfl, rfl, rfl⟩ (hgrows.beside _) hgrows
          exact ⟨[], hcompleted.trans (releaseWire_touches _)⟩
      | finished | crashed _ =>
          rw [hstage] at hwork
          cases hwork
  | stop =>
      have hstop : l.stopReceiver = some l' := hstep
      unfold stopReceiver at hstop
      refine ⟨[], ?_⟩
      split at hstop
      · split at hstop
        · cases hstop
          exact Quiet.touches ⟨rfl, rfl, rfl, rfl, rfl, rfl, rfl⟩ (.refl _) (.refl _)
        · cases hstop
          exact Quiet.touches ⟨rfl, rfl, rfl, rfl, rfl, rfl, rfl⟩ (.refl _) (.refl _)
        · cases hstop
          exact Quiet.touches ⟨rfl, rfl, rfl, rfl, rfl, rfl, rfl⟩ (.refl _) (.refl _)
        · split at hstop <;> cases hstop
          exact Quiet.touches ⟨rfl, rfl, rfl, rfl, rfl, rfl, rfl⟩ (.refl _)
            (Pipe.abandonFlush_grows _ _)
        · cases hstop
      · cases hstop

/-! ## 5. The writer -/

theorem writePieces_grows (pieces : List Bytes) (s : BlockPool × Pipe) :
    Pipe.Grows pieces.flatten s (pieces.foldl (fun s piece => s.2.write piece s.1) s) := by
  induction pieces generalizing s with
  | nil => exact .refl s
  | cons piece pieces ih => exact (Pipe.write_grows piece s.1 s.2).trans (ih _)

/-- A frame is taken from the queue and written, or cannot be written. -/
theorem writeNext_aside {next : Link → WriterStage} (hstep : l.writeNext? next = some l') :
    l.Aside l' ∧ l.Draws [] l' := by
  unfold writeNext? at hstep
  split at hstep
  · cases hstep
  · dsimp only at hstep
    split at hstep
    · cases hstep
      exact ⟨⟨rfl, rfl, rfl, rfl, rfl, rfl⟩, .of_same rfl (.refl _)⟩
    · cases hstep
      exact ⟨⟨rfl, rfl, rfl, rfl, rfl, rfl⟩,
        .of_same rfl ((writePieces_grows _ (l.memory, l.transport.output)).beside _)⟩

/-- All that a step of the writer can do: it writes a frame, closes the queue, or does something to
its end of the pipe. -/
theorem stepWriter_cases {choice : Choice} (hstep : l.stepWriter choice = some l') :
    (∃ next, l.writeNext? next = some l') ∨
    l' = { l with connection := l.connection.closeQueue, writer := .completing } ∨
    l.Touches [] [] l' := by
  cases choice with
  | work =>
      have hwork : l.workWriter = some l' := hstep
      unfold workWriter at hwork
      cases hstage : l.writer with
      | waiting =>
          rw [hstage] at hwork
          exact .inl ⟨_, hwork⟩
      | batching =>
          rw [hstage] at hwork
          dsimp only at hwork
          split at hwork
          · next hnext =>
            cases hwork
            exact .inl ⟨_, hnext⟩
          · cases hwork
            exact .inr (.inr
              (Quiet.touches ⟨rfl, rfl, rfl, rfl, rfl, rfl, rfl⟩ (.refl _) (.refl _)))
      | flushing flush =>
          rw [hstage] at hwork
          dsimp only at hwork
          split at hwork
          · cases hwork
          · next hflush =>
            cases hwork
            have hgrows := Pipe.flush_grows hflush
            exact .inr (.inr
              (Quiet.touches ⟨rfl, rfl, rfl, rfl, rfl, rfl, rfl⟩ hgrows (hgrows.beside _)))
          · next hflush =>
            cases hwork
            have hgrows := Pipe.flush_grows hflush
            exact .inr (.inr
              (Quiet.touches ⟨rfl, rfl, rfl, rfl, rfl, rfl, rfl⟩ hgrows (hgrows.beside _)))
      | leaving =>
          rw [hstage] at hwork
          cases hwork
          exact .inr (.inl rfl)
      | completing =>
          rw [hstage] at hwork
          cases hwork
          have hgrows := Pipe.completeWriter_grows l.memory l.transport.output
          exact .inr (.inr
            (Quiet.touches ⟨rfl, rfl, rfl, rfl, rfl, rfl, rfl⟩ hgrows (hgrows.beside _)))
      | unstarted | finished | crashed _ =>
          rw [hstage] at hwork
          cases hwork
  | stop =>
      have hstop : l.stopWriter = some l' := hstep
      unfold stopWriter at hstop
      split at hstop
      · split at hstop
        · cases hstop
          exact .inr (.inr
            (Quiet.touches ⟨rfl, rfl, rfl, rfl, rfl, rfl, rfl⟩ (.refl _) (.refl _)))
        · split at hstop <;> cases hstop
          exact .inr (.inr (Quiet.touches ⟨rfl, rfl, rfl, rfl, rfl, rfl, rfl⟩
            (Pipe.abandonFlush_grows _ _) (.refl _)))
        · cases hstop
      · cases hstop

theorem stepWriter_aside {choice : Choice} (hstep : l.stepWriter choice = some l') :
    l.Aside l' ∧ l.Draws [] l' := by
  obtain ⟨next, hnext⟩ | rfl | htouches := stepWriter_cases hstep
  · exact writeNext_aside hnext
  · exact ⟨⟨rfl, rfl, rfl, rfl, rfl, rfl⟩, .of_same rfl (.refl _)⟩
  · exact ⟨htouches.aside, htouches.draws⟩

end Effects

end Link

end Courier
