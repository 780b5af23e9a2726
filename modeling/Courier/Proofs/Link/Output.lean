import Courier.Proofs.Link.Calm
import Courier.Proofs.Link.Tasks

/-!
Courier.Proofs.Link.Output — what gets into the output pipe.

The writer takes frames from the queue, writes them one after another and hands over what it has
written whenever it flushes; it may be asked to stop while it waits, for a frame or inside a flush,
and completes the pipe when it comes to its end. `Outflow` keeps what this is judged by: the frames
that were queued, those that the writer has written, and the bytes that the reader of the pipe has
consumed.

`Outflow.Intact` says that the bytes which the pipe has received are whole frames, in the order of
the queue, and is kept by every move. So whatever happens, the pipe that the writer has completed
has received each frame that was written, and nothing of any other.
-/

namespace Courier

/-! ## 1. Whole frames -/

/-- The bytes that stand for a frame on the wire: the bare payload of a raw frame, and the encoding
of any other. -/
def WireFormat.WritesAs (format : WireFormat) (f : Frame) (bs : Bytes) : Prop :=
  if f.isRaw then bs = f.payload else format.encode f = .ok bs

theorem WireFormat.writesAs_of_outgoingPieces {format : WireFormat} {f : Frame}
    {pieces : List Bytes} (h : Link.outgoingPieces format f = .ok pieces) :
    format.outgoing f = pieces.flatten ∧ format.WritesAs f (format.outgoing f) := by
  have houtgoing : format.outgoing f = pieces.flatten := by rw [outgoing, h]
  refine ⟨houtgoing, ?_⟩
  rw [houtgoing]
  unfold Link.outgoingPieces at h
  unfold WritesAs
  split at h
  · next hraw =>
    cases h
    rw [if_pos hraw]
    simp
  · next hraw =>
    rw [if_neg hraw, encode, h]
    rfl

namespace Pipe

variable {pool : BlockPool} {p q : Pipe} {s s' : BlockPool × Pipe}

/-- Of all that was written a part is unread and the rest is behind; handing over moves everything
to the first part. -/
theorem Grows.unread_eq_of_behind {bs : Bytes} (h : Grows bs s s') (hblank : s.1.Blank)
    (hopen : s.2.readerCompleted = false) (hbehind : s'.2.behind = []) :
    s'.2.unread.toList = s.2.unread.toList ++ s.2.behind ++ bs := by
  have hpending := h.pending hblank hopen
  rwa [pendingBytes_eq, pendingBytes_eq, hbehind, List.append_nil] at hpending

end Pipe

/-- What is written goes behind, and the reader sees nothing of it yet. -/
theorem Link.unread_writePieces (pieces : List Bytes) (s : BlockPool × Pipe) :
    (pieces.foldl (fun s piece => s.2.write piece s.1) s).2.unread = s.2.unread := by
  induction pieces generalizing s with
  | nil => rfl
  | cons piece pieces ih =>
      have hprivate := Pipe.write_private piece s.1 s.2
      unfold Pipe.Private at hprivate
      rw [List.foldl_cons, ih, hprivate]

theorem Pipe.Grows.behind_eq {bs : Bytes} {s s' : BlockPool × Pipe} (h : Grows bs s s')
    (hblank : s.1.Blank) (hopen : s.2.readerCompleted = false)
    (hunread : s'.2.unread = s.2.unread) : s'.2.behind = s.2.behind ++ bs := by
  have hpending := h.pending hblank hopen
  rwa [pendingBytes_eq, pendingBytes_eq, hunread, List.append_assoc,
    List.append_cancel_left_eq] at hpending

/-- Of the `written` frames the reader of a pipe has got a front, of whose bytes it has `consumed`
some and can read the others; the rest of the frames is behind. -/
def WireFormat.Parts (format : WireFormat) (written : List Frame) (consumed : Bytes) (p : Pipe) :
    Prop :=
  ∃ handed held, written = handed ++ held ∧
    consumed ++ p.unread.toList = handed.flatMap format.outgoing ∧
    p.behind = held.flatMap format.outgoing

namespace WireFormat.Parts

variable {format : WireFormat} {written : List Frame} {consumed : Bytes} {p q : Pipe}
  {pool pool' : BlockPool}

theorem keeps (h : format.Parts written consumed p) (hq : p.Keeps q) :
    format.Parts written consumed q := by
  obtain ⟨handed, held, hwritten, hread, hbehind⟩ := h
  exact ⟨handed, held, hwritten, by rw [hq.unread_eq]; exact hread,
    by rw [hq.behind_eq]; exact hbehind⟩

/-- Nothing of them is lost. -/
theorem all (h : format.Parts written consumed p) :
    consumed ++ (p.unread.toList ++ p.behind) = written.flatMap format.outgoing := by
  obtain ⟨handed, held, rfl, hread, hbehind⟩ := h
  rw [← List.append_assoc, hread, hbehind, List.flatMap_append]

/-- Once nothing is behind, the reader has got all of them. -/
theorem of_behind (h : format.Parts written consumed p)
    (hgrows : Pipe.Grows [] (pool, p) (pool', q)) (hblank : pool.Blank)
    (hopen : p.readerCompleted = false) (hbehind : q.behind = []) :
    format.Parts written consumed q := by
  have hread := hgrows.unread_eq_of_behind hblank hopen hbehind
  refine ⟨written, [], (List.append_nil _).symm, ?_, hbehind⟩
  rw [← h.all, ← List.append_nil (p.unread.toList ++ p.behind)]
  exact congrArg (consumed ++ ·) hread

/-- A frame is written behind the others. -/
theorem write {f : Frame} (h : format.Parts written consumed p) (hunread : q.unread = p.unread)
    (hbehind : q.behind = p.behind ++ format.outgoing f) :
    format.Parts (written ++ [f]) consumed q := by
  obtain ⟨handed, held, rfl, hread, hrest⟩ := h
  refine ⟨handed, held ++ [f], List.append_assoc _ _ _, by rw [hunread]; exact hread, ?_⟩
  rw [hbehind, hrest, List.flatMap_append, List.flatMap_singleton]

/-- What was consumed was read before. -/
theorem consume {size : Nat} (h : format.Parts written consumed p)
    (hconsume : p.consume size pool = .ok (pool', q)) :
    format.Parts written (consumed ++ p.unread.toList.take size) q := by
  obtain ⟨handed, held, hwritten, hread, hbehind⟩ := h
  refine ⟨handed, held, hwritten, ?_, (Pipe.consume_steady hconsume).2.trans hbehind⟩
  obtain ⟨rfl, -, rfl⟩ | ⟨-, -, -, rfl⟩ := Pipe.consume_eq hconsume
  · rw [List.take_zero, List.append_nil]
    exact hread
  · rw [← hread, Buffer.toList_drop, List.append_assoc, List.take_append_drop]

end WireFormat.Parts

/-! ## 2. What a move does to the output -/

namespace Link

/-- The frame that a move takes from the queue and writes. -/
def writes (m : Move) (l : Link) : List Frame :=
  match m, l.writer, l.connection.queue with
  | .writer .work, .waiting, f :: _ | .writer .work, .batching, f :: _ =>
      match outgoingPieces l.setup.format f with
      | .ok _ => [f]
      | .error _ => []
  | _, _, _ => []

section Taken

variable {l : Link} {f : Frame} {queue : List Frame}

theorem writes_of_pieces {pieces : List Bytes}
    (hstage : l.writer = .waiting ∨ l.writer = .batching) (hfirst : l.connection.queue = f :: queue)
    (hpieces : outgoingPieces l.setup.format f = .ok pieces) :
    l.writes (.writer .work) = [f] := by
  obtain hstage | hstage := hstage <;> simp only [writes, hstage, hfirst, hpieces]

theorem writes_of_misuse {misuse : Misuse}
    (hstage : l.writer = .waiting ∨ l.writer = .batching) (hfirst : l.connection.queue = f :: queue)
    (hpieces : outgoingPieces l.setup.format f = .error misuse) :
    l.writes (.writer .work) = [] := by
  obtain hstage | hstage := hstage <;> simp only [writes, hstage, hfirst, hpieces]

theorem writes_of_empty (hempty : l.connection.queue = []) (m : Move) : l.writes m = [] := by
  unfold writes
  split
  · next hfirst => cases hempty.symm.trans hfirst
  · next hfirst => cases hempty.symm.trans hfirst
  · rfl

/-- A frame is taken from the queue to begin a batch or to go on with one. -/
theorem stage_of_writes {m : Move} (h : l.writes m ≠ []) :
    l.writer = .waiting ∨ l.writer = .batching := by
  unfold writes at h
  split at h
  · next hstage _ => exact .inl hstage
  · next hstage _ => exact .inr hstage
  · exact absurd rfl h

theorem writes_of_stage (hwaiting : l.writer ≠ .waiting) (hbatching : l.writer ≠ .batching)
    (m : Move) : l.writes m = [] := by
  by_contra h
  obtain hstage | hstage := stage_of_writes h
  · exact hwaiting hstage
  · exact hbatching hstage

end Taken

/-- The bytes of the output that a move gives back: they are not read again. -/
def consumes (m : Move) (l : Link) : Bytes :=
  match m, l.sender with
  | .sender _ _, .settling size _ =>
      match l.transport.output.consume size l.memory with
      | .ok _ => l.transport.output.unread.toList.take size
      | .error _ => []
  | _, _ => []

/-- The writer and what the output pipe holds are left alone. -/
structure SparesWriter (l l' : Link) : Prop where
  writer_eq : l'.writer = l.writer
  output : l.transport.output.Keeps l'.transport.output
  completed : l.transport.output.writerCompleted = true →
    l'.transport.output.writerCompleted = true

section Spares

variable {l l' : Link} {choice : Choice}

theorem SparesWriter.of_eq (hwriter : l'.writer = l.writer)
    (houtput : l'.transport.output = l.transport.output) : l.SparesWriter l' :=
  ⟨hwriter, by rw [houtput]; exact .refl _, by rw [houtput]; exact id⟩

theorem SparesWriter.refl (l : Link) : l.SparesWriter l := .of_eq rfl rfl

theorem shutDown_sparesWriter (reason : CloseReason) (l : Link) :
    l.SparesWriter (l.shutDown reason) := by
  unfold shutDown TransportCore.begin
  cases l.transport.begun with
  | true => exact .refl l
  | false => exact ⟨rfl, ⟨rfl, rfl, rfl, rfl, rfl⟩, id⟩

theorem SparesWriter.releaseWire (h : l.SparesWriter l') : l.SparesWriter l'.releaseWire := by
  unfold Link.releaseWire
  split <;> exact ⟨h.writer_eq, h.output, h.completed⟩

theorem SparesWriter.turnMain (h : l.SparesWriter l') (stage : MainStage) :
    l.SparesWriter { l' with main := stage } :=
  ⟨h.writer_eq, h.output, h.completed⟩

/-- The main task completes the output at most, once the writer is at its end. -/
theorem Works.sparesWriter (hworks : l.Works l') : l.SparesWriter l' := by
  cases hworks with
  | @readFrame portion f reader buffer stage read =>
      unfold dispatch
      dsimp only
      split
      · exact .of_eq rfl rfl
      · split <;> exact .of_eq rfl rfl
  | cuts stage =>
      split
      · exact (shutDown_sparesWriter _ l).turnMain _
      · exact .of_eq rfl rfl
  | givesUp stage => exact (shutDown_sparesWriter _ l).turnMain _
  | shuts stage => exact (shutDown_sparesWriter _ l).turnMain _
  | drains stage => exact ⟨rfl, ⟨rfl, rfl, rfl, rfl, rfl⟩, fun _ => rfl⟩
  | _ => exact .of_eq rfl rfl

theorem Fetches.sparesWriter (hfetches : l.Fetches choice l') : l.SparesWriter l' := by
  cases hfetches with
  | @leaves reason stage => cases reason <;> exact .of_eq rfl rfl
  | completes stage =>
      have hspares : l.SparesWriter { l.setInput (l.transport.input.completeWriter l.memory).1
          (l.transport.input.completeWriter l.memory).2 with receiver := .finished } :=
        .of_eq rfl rfl
      exact hspares.releaseWire
  | _ => exact .of_eq rfl rfl

/-- **The output is written by the writer alone.** -/
theorem move_sparesWriter {m : Move} (hwriter : ∀ choice, m ≠ .writer choice)
    (hsender : ∀ choice most, m ≠ .sender choice most) (hstart : m ≠ .start)
    (hmove : l.move? m = some l') : l.SparesWriter l' := by
  cases m with
  | writer choice => exact absurd rfl (hwriter choice)
  | sender choice most => exact absurd rfl (hsender choice most)
  | start => exact absurd rfl hstart
  | main choice =>
      cases choice with
      | work => exact (works_of_workMain hmove).sparesWriter
      | stop =>
          obtain ⟨read, -, -, -, rfl⟩ := stopMain_eq hmove
          exact .of_eq rfl rfl
  | receiver choice most => exact (fetches_of_stepReceiver hmove).sparesWriter
  | job number =>
      obtain ⟨houtput, -, -⟩ := stepJob_spares hmove
      exact .of_eq houtput.writer_eq houtput.output_eq
  | shutDown reason =>
      cases hmove
      exact shutDown_sparesWriter reason l
  | call _ | record _ | elapse _ | arrive _ | endArriving | depart _ | abandon | failRead _
    | failWrite _ =>
      cases hmove
      exact .of_eq rfl rfl

end Spares

/-- What a step of the sender does to the output: it gives back `bs`, or drops everything. -/
structure Gives (bs : Bytes) (l l' : Link) : Prop where
  setup_eq : l'.setup = l.setup
  connection_eq : l'.connection = l.connection
  main_eq : l'.main = l.main
  writer_eq : l'.writer = l.writer
  blank : l.memory.Blank → l'.memory.Blank
  completed : l.transport.output.writerCompleted = true →
    l'.transport.output.writerCompleted = true
  output : l'.transport.output.readerCompleted = false →
    l.transport.output.readerCompleted = false ∧
      (bs = [] ∧ l.transport.output.Keeps l'.transport.output ∨
        ∃ size pool, bs = l.transport.output.unread.toList.take size ∧
          l.transport.output.consume size l.memory = .ok (pool, l'.transport.output))

section Gives

variable {l l' : Link} {choice : Choice}

/-- Nothing is given back. -/
theorem Gives.of_spares (hs : l.SparesWriter l') (hsetup : l'.setup = l.setup)
    (hconnection : l'.connection = l.connection) (hmain : l'.main = l.main)
    (hblank : l.memory.Blank → l'.memory.Blank) : l.Gives [] l' where
  setup_eq := hsetup
  connection_eq := hconnection
  main_eq := hmain
  writer_eq := hs.writer_eq
  blank := hblank
  completed := hs.completed
  output hopen := ⟨hs.output.readerCompleted_eq.symm.trans hopen, .inl ⟨rfl, hs.output⟩⟩

theorem dropOutput_gives {stage : SenderStage} (l : Link) :
    l.Gives [] { l.dropOutput with sender := stage } where
  setup_eq := rfl
  connection_eq := rfl
  main_eq := rfl
  writer_eq := rfl
  blank := Pipe.blank_completeReader _
  completed := id
  output hopen := by cases hopen

theorem read_sparesWriter {read : ReadStage} {result : Staged ReadStage ReadOutcome} {output : Pipe}
    (stage : SenderStage) (hstep : read.step? l.transport.output = some (result, output)) :
    l.SparesWriter { l.setOutput l.memory output with sender := stage } := by
  refine ⟨rfl, (Pipe.read_keeps hstep).1, fun hcompleted => ?_⟩
  cases Pipe.read_step hstep <;> exact hcompleted

/-- The sender has ended: the transport is shut down, and the wire is let go. -/
theorem shutDown_gives (l : Link) :
    l.Gives [] { l.shutDown .sendingEnded with sender := .finished }.releaseWire := by
  have hshut := shutDown_touches .sendingEnded l
  have hspares : l.SparesWriter { l.shutDown .sendingEnded with sender := .finished } := by
    have h := shutDown_sparesWriter .sendingEnded l
    exact ⟨h.writer_eq, h.output, h.completed⟩
  refine .of_spares hspares.releaseWire ?_ ?_ ?_ ?_
  all_goals unfold releaseWire
  · split <;> exact hshut.aside.setup_eq
  · split <;> exact connection_shutDown .sendingEnded l
  · split <;> exact hshut.aside.main_eq
  · split <;> exact hshut.queues.output.blank

theorem recordFault_gives {stage : SenderStage} (fault : Option IoError) (l : Link) :
    l.Gives [] { l.recordFault fault with sender := stage } := by
  cases fault <;> exact .of_spares (.of_eq rfl rfl) rfl rfl rfl id

theorem consumes_eq_nil {m : Move} (h : ∀ size last, l.sender ≠ .settling size last) :
    l.consumes m = [] := by
  unfold consumes
  split
  · next size last hstage => exact absurd hstage (h size last)
  · rfl

/-- **The sender gives back what it has sent, and adds nothing.** -/
theorem Delivers.gives (most : Nat) (hdelivers : l.Delivers choice l') :
    l.Gives (l.consumes (.sender choice most)) l' := by
  cases hdelivers with
  | @settles size last memory output stage consume =>
      have hconsumes : l.consumes (.sender .work most) =
          l.transport.output.unread.toList.take size := by
        simp only [consumes, stage, consume]
      rw [hconsumes]
      refine ⟨rfl, rfl, rfl, rfl, Pipe.blank_consume consume, fun hcompleted => ?_,
        fun hopen => ⟨(Pipe.readerCompleted_consume consume).symm.trans hopen,
          .inr ⟨size, memory, rfl, consume⟩⟩⟩
      exact (Pipe.consume_steady consume).1.writerCompleted_eq.trans hcompleted
  | jams stage consume =>
      have hconsumes : l.consumes (.sender .work most) = [] := by
        simp only [consumes, stage, consume]
      rw [hconsumes]
      exact .of_spares (.of_eq rfl rfl) rfl rfl rfl id
  | looks stage step | takes stage step =>
      rw [consumes_eq_nil fun _ _ => by rw [stage]; exact SenderStage.noConfusion]
      exact .of_spares (read_sparesWriter _ step) rfl rfl rfl id
  | leaves stage | reports stage =>
      rw [consumes_eq_nil fun _ _ => by rw [stage]; exact SenderStage.noConfusion]
      exact recordFault_gives _ l
  | drops stage | completes stage =>
      rw [consumes_eq_nil fun _ _ => by rw [stage]; exact SenderStage.noConfusion]
      exact dropOutput_gives l
  | shuts stage =>
      rw [consumes_eq_nil fun _ _ => by rw [stage]; exact SenderStage.noConfusion]
      exact shutDown_gives l
  | stopsWaiting stopped stage =>
      rw [consumes_eq_nil fun _ _ => by rw [stage]; exact SenderStage.noConfusion]
      exact .of_spares ⟨rfl, ⟨rfl, rfl, rfl, rfl, rfl⟩, id⟩ rfl rfl rfl id
  | fails stage send | stopsSending stopped stage =>
      rw [consumes_eq_nil fun _ _ hsettling => by rw [hsettling] at stage; simp at stage]
      exact .of_spares (.of_eq rfl rfl) rfl rfl rfl id
  | sent stage | offered stage empty | retries stage send | sends stage send | offers stage send
    | closes stage =>
      rw [consumes_eq_nil fun _ _ => by rw [stage]; exact SenderStage.noConfusion]
      exact .of_spares (.of_eq rfl rfl) rfl rfl rfl id

end Gives

end Link

/-! ## 3. Histories -/

/-- A link, and what went through its queue and its output. -/
structure Outflow where
  link : Link
  /-- the frames that were queued, in order -/
  queued : List Frame := []
  /-- the frames that were written to the output, in order -/
  written : List Frame := []
  /-- the bytes of the output that the sender has given back -/
  consumed : Bytes := []

namespace Outflow

/-- What is known after a move that has led to `link`. -/
def follow (m : Move) (link : Link) (o : Outflow) : Outflow where
  link
  queued := o.queued ++ (o.link.greets m link ++ o.link.accepts m)
  written := o.written ++ o.link.writes m
  consumed := o.consumed ++ o.link.consumes m

/-- The outflow after a move, if it is possible. -/
def move? (m : Move) (o : Outflow) : Option Outflow :=
  (o.link.move? m).map fun link => o.follow m link

/-- The outflow after a row of moves, if all of them are possible. -/
def run? : List Move → Outflow → Option Outflow
  | [], o => some o
  | m :: moves, o =>
      match o.move? m with
      | none => none
      | some o => run? moves o

/-- The bytes that the output pipe has received for its reader, consumed or not. -/
def received (o : Outflow) : Bytes :=
  o.consumed ++ o.link.transport.output.unread.toList

/-- What is written is a front of what was queued, the others still wait in the queue as long as it
is open, and the bytes that the pipe has received are whole frames. -/
structure Intact (o : Outflow) : Prop where
  blank : o.link.memory.Blank
  unstarted : o.link.main = .unstarted → o.link.writer = .unstarted
  order : o.written <+: o.queued
  waiting : o.link.connection.accepting = true → (∀ misuse, o.link.writer ≠ .crashed misuse) →
    o.queued = o.written ++ o.link.connection.queue
  dropped : o.link.connection.accepting = false → o.link.connection.queue = []
  form : ∀ f ∈ o.written, o.link.setup.format.WritesAs f (o.link.setup.format.outgoing f)
  parts : o.link.transport.output.readerCompleted = false →
    o.link.setup.format.Parts o.written o.consumed o.link.transport.output
  completed : o.link.writer = .finished → o.link.transport.output.writerCompleted = true ∧
    (o.link.transport.output.readerCompleted = false → o.link.transport.output.behind = [])

section Intact

variable {o o' : Outflow} {m : Move} {l' : Link}

/-- Nothing went through a link that is not started. -/
theorem intact_new (setup : LinkSetup) (id peer : String) (limit : Nat) (input output : Thresholds)
    (capacity : Nat) :
    Intact { link := .new setup id peer limit input output { capacity } } where
  blank := BlockPool.blank_empty
  unstarted _ := rfl
  order := List.prefix_refl _
  waiting _ _ := rfl
  dropped h := by cases h
  form f hf := by cases hf
  parts _ := ⟨[], [], rfl, rfl, rfl⟩
  completed h := by cases h

/-- Frames are queued, and the writer and its pipe are left alone. -/
theorem Intact.queues {fs : List Frame} (h : o.Intact)
    (hconnection : Connection.Grows fs o.link.connection l'.connection)
    (hspares : o.link.SparesWriter l') (hsetup : l'.setup = o.link.setup)
    (hblank : o.link.memory.Blank → l'.memory.Blank)
    (hmain : l'.main = .unstarted → o.link.main = .unstarted) :
    Intact { o with link := l', queued := o.queued ++ fs } where
  blank := hblank h.blank
  unstarted hstage := hspares.writer_eq.trans (h.unstarted (hmain hstage))
  order := h.order.trans (List.prefix_append _ _)
  waiting hopen hsound := by
    have hwaiting := h.waiting (hconnection.accepting.symm.trans hopen) fun misuse hcrashed =>
      hsound misuse (hspares.writer_eq.trans hcrashed)
    show o.queued ++ fs = o.written ++ l'.connection.queue
    rw [hwaiting, hconnection.queue, List.append_assoc]
  dropped hclosed := by
    have hclosed' := hconnection.accepting.symm.trans hclosed
    have hfs : fs = [] := List.eq_nil_iff_forall_not_mem.mpr fun f hf => by
      cases (hconnection.accepted f hf).1.symm.trans hclosed'
    show l'.connection.queue = []
    rw [hconnection.queue, h.dropped hclosed', hfs, List.append_nil]
  form f hf := by
    show l'.setup.format.WritesAs f (l'.setup.format.outgoing f)
    rw [hsetup]
    exact h.form f hf
  parts hopen := by
    show l'.setup.format.Parts _ _ _
    rw [hsetup]
    exact (h.parts (hspares.output.readerCompleted_eq.symm.trans hopen)).keeps hspares.output
  completed hfinished := by
    obtain ⟨hcompleted, hbehind⟩ := h.completed (hspares.writer_eq.symm.trans hfinished)
    exact ⟨hspares.completed hcompleted, fun hopen => hspares.output.behind_eq.trans
      (hbehind (hspares.output.readerCompleted_eq.symm.trans hopen))⟩

/-- The sender gives back a part of the output. -/
theorem Intact.gives {bs : Bytes} (h : o.Intact) (hgives : o.link.Gives bs l') :
    Intact { o with link := l', consumed := o.consumed ++ bs } where
  blank := hgives.blank h.blank
  unstarted hstage := hgives.writer_eq.trans (h.unstarted (hgives.main_eq.symm.trans hstage))
  order := h.order
  waiting := by
    rw [hgives.connection_eq, hgives.writer_eq]
    exact h.waiting
  dropped := by
    rw [hgives.connection_eq]
    exact h.dropped
  form := by
    rw [hgives.setup_eq]
    exact h.form
  parts hopen := by
    obtain ⟨hopen', ⟨rfl, hkeeps⟩ | ⟨size, pool, rfl, hconsume⟩⟩ := hgives.output hopen
    · show l'.setup.format.Parts _ (o.consumed ++ []) _
      rw [hgives.setup_eq, List.append_nil]
      exact (h.parts hopen').keeps hkeeps
    · show l'.setup.format.Parts _ _ _
      rw [hgives.setup_eq]
      exact (h.parts hopen').consume hconsume
  completed hfinished := by
    obtain ⟨hcompleted, hbehind⟩ := h.completed (hgives.writer_eq.symm.trans hfinished)
    refine ⟨hgives.completed hcompleted, fun hopen => ?_⟩
    obtain ⟨hopen', ⟨-, hkeeps⟩ | ⟨size, pool, -, hconsume⟩⟩ := hgives.output hopen
    · exact hkeeps.behind_eq.trans (hbehind hopen')
    · exact (Pipe.consume_steady hconsume).2.trans (hbehind hopen')

/-- The writer goes to another stage, and what was written may become readable. -/
theorem Intact.turn {stage : WriterStage} {memory : BlockPool} {output : Pipe} (h : o.Intact)
    (hgrows : Pipe.Grows [] (o.link.memory, o.link.transport.output) (memory, output))
    (hkeeps : o.link.transport.output.Keeps output ∨ output.behind = [])
    (hmain : o.link.main ≠ .unstarted) (hsound : ∀ misuse, o.link.writer ≠ .crashed misuse)
    (hcompleted : stage = .finished → output.writerCompleted = true ∧
      (output.readerCompleted = false → output.behind = [])) :
    Intact { o with link := { o.link.setOutput memory output with writer := stage } } where
  blank := hgrows.blank h.blank
  unstarted hstage := absurd hstage hmain
  order := h.order
  waiting hopen _ := h.waiting hopen hsound
  dropped := h.dropped
  form := h.form
  parts hopen := by
    have hopen' : o.link.transport.output.readerCompleted = false :=
      hgrows.readerCompleted_eq.symm.trans hopen
    obtain hkeeps | hbehind := hkeeps
    · exact (h.parts hopen').keeps hkeeps
    · exact (h.parts hopen').of_behind hgrows h.blank hopen' hbehind
  completed := hcompleted

/-- The first frame of the queue is written. -/
theorem Intact.takes {f : Frame} {queue : List Frame} {pieces : List Bytes} {stage : WriterStage}
    (h : o.Intact) (hstage : o.link.writer = .waiting ∨ o.link.writer = .batching)
    (hfirst : o.link.connection.queue = f :: queue)
    (hpieces : Link.outgoingPieces o.link.setup.format f = .ok pieces)
    (hnext : stage = .batching ∨ stage = .flushing .publishing) :
    Intact { o with
      link :=
        { { o.link with connection := { o.link.connection with queue } }.writePieces pieces with
          writer := stage },
      written := o.written ++ [f] } := by
  obtain ⟨houtgoing, hform⟩ := WireFormat.writesAs_of_outgoingPieces hpieces
  have hgrows := Link.writePieces_grows pieces (o.link.memory, o.link.transport.output)
  have hunread := Link.unread_writePieces pieces (o.link.memory, o.link.transport.output)
  have hopen : o.link.connection.accepting = true := by
    cases hclosed : o.link.connection.accepting with
    | true => rfl
    | false => cases hfirst.symm.trans (h.dropped hclosed)
  have hsound : ∀ misuse, o.link.writer ≠ .crashed misuse := by
    intro misuse hcrashed
    obtain hstage | hstage := hstage <;> cases hstage.symm.trans hcrashed
  have hqueued : o.queued = o.written ++ [f] ++ queue := by
    rw [h.waiting hopen hsound, hfirst, List.append_assoc, List.singleton_append]
  refine ⟨hgrows.blank h.blank, fun hmain => ?_, ⟨queue, hqueued.symm⟩, fun _ _ => hqueued,
    fun hclosed => (by cases hopen.symm.trans hclosed), fun g hg => ?_, fun hread => ?_,
    fun hfinished => ?_⟩
  · have hunstarted := h.unstarted hmain
    obtain hstage | hstage := hstage <;> cases hstage.symm.trans hunstarted
  · rcases List.mem_append.mp hg with hg | hg
    · exact h.form g hg
    · rw [List.mem_singleton.mp hg]
      exact hform
  · have hread' : o.link.transport.output.readerCompleted = false :=
      hgrows.readerCompleted_eq.symm.trans hread
    refine (h.parts hread').write hunread ?_
    rw [houtgoing]
    exact hgrows.behind_eq h.blank hread' hunread
  · obtain hnext | hnext := hnext <;> cases hnext.symm.trans hfinished

/-- A frame that cannot be written is lost with the writer. -/
theorem Intact.jams {f : Frame} {queue : List Frame} {misuse : Misuse} (h : o.Intact)
    (hstage : o.link.writer = .waiting ∨ o.link.writer = .batching)
    (hfirst : o.link.connection.queue = f :: queue) :
    Intact { o with
      link := { o.link with
        connection := { o.link.connection with queue }, writer := .crashed misuse } } where
  blank := h.blank
  unstarted hmain := by
    have hunstarted := h.unstarted hmain
    obtain hstage | hstage := hstage <;> cases hstage.symm.trans hunstarted
  order := h.order
  waiting _ hsound := absurd rfl (hsound misuse)
  dropped hclosed := by cases hfirst.symm.trans (h.dropped hclosed)
  form := h.form
  parts := h.parts
  completed hfinished := by cases hfinished

/-- **A step of the writer** writes a whole frame, or hands over whole frames. -/
theorem Intact.writer {choice : Choice} (h : o.Intact) (hwrites : o.link.Writes choice l') :
    Intact { o with link := l', written := o.written ++ o.link.writes (.writer choice) } := by
  have hstarted : o.link.writer ≠ .unstarted → o.link.main ≠ .unstarted := fun hwriter hmain =>
    hwriter (h.unstarted hmain)
  have hturn : ∀ {stage memory output},
      Pipe.Grows [] (o.link.memory, o.link.transport.output) (memory, output) →
      (o.link.transport.output.Keeps output ∨ output.behind = []) →
      (o.link.writer ≠ .unstarted ∧ ∀ misuse, o.link.writer ≠ .crashed misuse) →
      (stage = .finished → output.writerCompleted = true ∧
        (output.readerCompleted = false → output.behind = [])) →
      Intact { o with
        link := { o.link.setOutput memory output with writer := stage },
        written := o.written ++ [] } := by
    intro stage memory output hgrows hkeeps hsound hcompleted
    rw [List.append_nil]
    exact h.turn hgrows hkeeps (hstarted hsound.1) hsound.2 hcompleted
  cases hwrites with
  | @jams f queue misuse hstage hfirst hpieces =>
      rw [Link.writes_of_misuse hstage hfirst hpieces, List.append_nil]
      exact h.jams hstage hfirst
  | @takes f queue pieces stage' hstage hfirst hpieces hnext =>
      rw [Link.writes_of_pieces hstage hfirst hpieces]
      exact h.takes hstage hfirst hpieces hnext
  | runsOut hstage hempty =>
      rw [Link.writes_of_empty hempty]
      exact hturn (.refl _) (.inl (.refl _)) (by simp [hstage]) WriterStage.noConfusion
  | flushes hstage hstep =>
      rw [Link.writes_of_stage (by simp [hstage]) (by simp [hstage])]
      exact hturn (Pipe.flush_grows hstep) (Pipe.keeps_or_behind_of_flush hstep)
        (by simp [hstage]) WriterStage.noConfusion
  | @flushed flush outcome memory output hstage hstep =>
      rw [Link.writes_of_stage (by simp [hstage]) (by simp [hstage])]
      refine hturn (Pipe.flush_grows hstep) (Pipe.keeps_or_behind_of_flush hstep)
        (by simp [hstage]) fun hfinished => ?_
      unfold Link.afterFlush at hfinished
      split at hfinished <;> cases hfinished
  | leaves hstage =>
      rw [Link.writes_of_stage (by simp [hstage]) (by simp [hstage]), List.append_nil]
      exact ⟨h.blank, fun hmain => absurd hmain (hstarted (by simp [hstage])), h.order,
        fun hopen => (by cases hopen), fun _ => rfl, h.form, h.parts, WriterStage.noConfusion⟩
  | completes hstage =>
      rw [Link.writes_of_stage (by simp [hstage]) (by simp [hstage])]
      have hbehind := Pipe.behind_completeWriter o.link.memory o.link.transport.output
      exact hturn (Pipe.completeWriter_grows _ _) (.inr hbehind) (by simp [hstage]) fun _ =>
        ⟨(Pipe.completeWriter_steady _ _).writerCompleted_eq, fun _ => hbehind⟩
  | stopsWaiting hcancelled hstage =>
      exact hturn (.refl _) (.inl (.refl _)) (by simp [hstage]) WriterStage.noConfusion
  | stopsFlushing hcancelled hstage =>
      exact hturn (Pipe.abandonFlush_grows _ _) (.inl ⟨rfl, rfl, rfl, rfl, rfl⟩) (by simp [hstage])
        WriterStage.noConfusion

/-- The writer waits for frames from the start on. -/
theorem Intact.start (h : o.Intact) : Intact { o with link := o.link.start } := by
  unfold Link.start
  split
  · next hmain =>
    have hunstarted := h.unstarted hmain
    exact ⟨h.blank, fun hopening => (by cases hopening), h.order,
      fun hopen _ => h.waiting hopen (by simp [hunstarted]), h.dropped, h.form, h.parts,
      WriterStage.noConfusion⟩
  · exact h

/-- All other moves write nothing and give nothing back. -/
theorem Intact.others {fs : List Frame} (h : o.Intact) (hwrites : o.link.writes m = [])
    (hconsumes : o.link.consumes m = [])
    (hconnection : Connection.Grows fs o.link.connection l'.connection)
    (hspares : o.link.SparesWriter l') (hsetup : l'.setup = o.link.setup)
    (hblank : o.link.memory.Blank → l'.memory.Blank)
    (hmain : l'.main = .unstarted → o.link.main = .unstarted) :
    Intact { o with
      link := l', queued := o.queued ++ fs, written := o.written ++ o.link.writes m,
      consumed := o.consumed ++ o.link.consumes m } := by
  rw [hwrites, hconsumes, List.append_nil, List.append_nil]
  exact h.queues hconnection hspares hsetup hblank hmain

/-- **Every move leaves the output intact.** -/
theorem Intact.move (h : o.Intact) (hmove : o.move? m = some o') : o'.Intact := by
  obtain ⟨l', hl', rfl⟩ := Option.map_eq_some_iff.mp hmove
  unfold follow
  cases m with
  | writer choice =>
      have hwriter := h.writer (Link.writes_of_stepWriter hl')
      show Intact { o with
        link := l', queued := o.queued ++ [], written := _, consumed := o.consumed ++ [] }
      rw [List.append_nil, List.append_nil]
      exact hwriter
  | sender choice most =>
      have hgives := h.gives ((Link.delivers_of_stepSender hl').gives most)
      show Intact
        { link := l', queued := o.queued ++ [], written := o.written ++ [], consumed := _ }
      rw [List.append_nil, List.append_nil]
      exact hgives
  | start =>
      cases hl'
      show Intact { o with
        link := o.link.start, queued := o.queued ++ [], written := o.written ++ [],
        consumed := o.consumed ++ [] }
      rw [List.append_nil, List.append_nil, List.append_nil]
      exact h.start
  | depart most =>
      cases hl'
      exact h.others rfl rfl (Connection.Grows.refl _) (.of_eq rfl rfl) rfl id id
  | _ =>
      have hqueues := Link.move_queues (fun _ => Move.noConfusion) (fun _ _ => Move.noConfusion)
        (fun _ => Move.noConfusion) hl'
      exact h.others rfl rfl hqueues.connection
        (Link.move_sparesWriter (fun _ => Move.noConfusion) (fun _ _ => Move.noConfusion)
          Move.noConfusion hl')
        hqueues.setup_eq hqueues.output.blank (Link.unstarted_of_move hl')

/-- What every move keeps is true after every run. -/
theorem invariant_run {P : Outflow → Prop} {moves : List Move}
    (hstep : ∀ {o o' : Outflow} {m : Move}, P o → o.move? m = some o' → P o') (h : P o)
    (hrun : o.run? moves = some o') : P o' := by
  induction moves generalizing o with
  | nil =>
      cases hrun
      exact h
  | cons m moves ih =>
      simp only [run?] at hrun
      split at hrun
      · cases hrun
      · next hmove => exact ih (hstep h hmove) hrun

theorem setup_of_move (hmove : o.move? m = some o') : o'.link.setup = o.link.setup := by
  obtain ⟨l', hl', rfl⟩ := Option.map_eq_some_iff.mp hmove
  exact (Link.move_keeps hl').1

end Intact

/-! ## 4. The output as a whole -/

/-- **The output is never torn.** Whatever is queued, whenever the writer is asked to stop and
whatever the other tasks do: as long as the output is read, the pipe has received whole frames, in
the order of the queue and without a gap, and holds those that were written since behind them. When
the writer has completed the pipe, nothing that was written is behind. -/
theorem received_whole_frames (setup : LinkSetup) (id peer : String) (limit : Nat)
    (input output : Thresholds) (capacity : Nat) (moves : List Move) {o : Outflow}
    (hrun : run? moves { link := .new setup id peer limit input output { capacity } } = some o)
    (hopen : o.link.transport.output.readerCompleted = false) :
    o.written <+: o.queued ∧
      (∀ f ∈ o.written, setup.format.WritesAs f (setup.format.outgoing f)) ∧
      (∃ handed held, o.written = handed ++ held ∧
        o.received = handed.flatMap setup.format.outgoing ∧
        o.link.transport.output.behind = held.flatMap setup.format.outgoing) ∧
      (o.link.writer = .finished → o.link.transport.output.writerCompleted = true ∧
        o.received = o.written.flatMap setup.format.outgoing ∧
        o.link.transport.output.behind = []) := by
  have hintact : o.Intact :=
    invariant_run Intact.move (intact_new setup id peer limit input output capacity) hrun
  have hsetup : o.link.setup = setup :=
    invariant_run (P := fun o => o.link.setup = setup)
      (fun h hmove => (setup_of_move hmove).trans h) rfl hrun
  have hform := hintact.form
  have hparts := hintact.parts hopen
  rw [hsetup] at hform hparts
  refine ⟨hintact.order, hform, hparts, fun hfinished => ?_⟩
  obtain ⟨hcompleted, hbehind⟩ := hintact.completed hfinished
  have hall := hparts.all
  rw [hbehind hopen, List.append_nil] at hall
  exact ⟨hcompleted, hall, hbehind hopen⟩

/-- The writer pauses at four unread bytes: the first frame is sent, the next two are handed over
and their flush waits, another one is queued, and the writer is asked to stop inside the flush. -/
def suspendedMoves : List Move :=
  let opening : List Move := .start :: List.replicate 4 (.main .work)
  let first : List Move := .call (.send "x" [7]) :: List.replicate 5 (.writer .work) ++
    List.replicate 4 (.sender .work 16) ++ List.replicate 2 (.writer .work)
  let second : List Move := [.call (.sendRaw [1, 2, 3, 4, 5]), .call (.sendRaw [])] ++
    List.replicate 6 (.writer .work)
  let stop : List Move := [.call (.send "y" [9]), .call .disconnect, .writer .stop, .writer .work,
    .writer .work]
  [opening, first, second, stop].flatten

/-- The pipe has received the three frames that were written, and not the one behind them. -/
theorem received_of_suspended : ∃ o,
    run? suspendedMoves
      { link := .new {} "near" "far" 16 {} { pause := 4 } { capacity := 64 } } = some o ∧
    o.link.transport.output.readerCompleted = false ∧ o.link.writer = .finished ∧
    o.queued = o.written ++ [.new "y" [9]] ∧ o.consumed = [0, 0, 0, 1, 120, 0, 0, 0, 1, 7] ∧
    o.received =
      [Frame.new "x" [7], .raw [1, 2, 3, 4, 5], .raw []].flatMap WireFormat.plain.outgoing ∧
    o.link.transport.output.behind = [] := by
  have hseen : (run? suspendedMoves
      { link := .new {} "near" "far" 16 {} { pause := 4 } { capacity := 64 } }).map (fun o =>
        (o.link.transport.output.readerCompleted, o.link.writer, o.consumed, o.written, o.queued)) =
      some (false, .finished, [0, 0, 0, 1, 120, 0, 0, 0, 1, 7],
        [.new "x" [7], .raw [1, 2, 3, 4, 5], .raw []],
        [.new "x" [7], .raw [1, 2, 3, 4, 5], .raw [], .new "y" [9]]) := by
    decide +kernel
  obtain ⟨o, hrun, ho⟩ := Option.map_eq_some_iff.mp hseen
  simp only [Prod.mk.injEq] at ho
  obtain ⟨hopen, hfinished, hconsumed, hwritten, hqueued⟩ := ho
  obtain ⟨-, -, -, hend⟩ :=
    received_whole_frames {} "near" "far" 16 {} { pause := 4 } 64 suspendedMoves hrun hopen
  obtain ⟨-, hreceived, hbehind⟩ := hend hfinished
  rw [hwritten] at hreceived
  exact ⟨o, hrun, hopen, hfinished, by rw [hqueued, hwritten]; rfl, hconsumed, hreceived, hbehind⟩

end Outflow

end Courier
