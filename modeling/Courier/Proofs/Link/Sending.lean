import Courier.Proofs.Link.Effects
import Courier.Proofs.Socket.Transmission

/-!
Courier.Proofs.Link.Sending — the way from the queue to the peer.

The bytes to be sent are those of all frames that were ever queued. `Link.Sends` says where they
are: the writer has written a front of them to the output pipe, the sender has sent a front of
that, and the peer has taken a front of that. As long as the queue is open, the output is read and
the stream goes on, nothing is lost in between.

The other tasks queue frames, and may cut the way (`Link.Queues`).
-/

namespace Courier

/-! ## 1. The sending side -/

/-- What the sender has in its hands: the part of an output that is not sent yet, and the size of
the output. -/
def SenderStage.lent : SenderStage → Option (Bytes × Nat)
  | .waiting _ => some ([], 0)
  | .sending left size _ => some (left.flatten, size)
  | .offering sender size _ => some (sender.pending.toList, size)
  | .settling size _ => some ([], size)
  | _ => none

/-- What a socket is still to be offered is counted right. -/
def SenderStage.Sound : SenderStage → Prop
  | .offering sender _ _ => sender.pending.Sound
  | _ => True

/-- The stages in which the main task may queue frames: for the handshake, or for a handler. -/
def MainStage.Talks : MainStage → Prop
  | .opening | .examining _ | .handling _ _ => True
  | _ => False

/-- What is written for a frame, in one piece. -/
def WireFormat.outgoing (format : WireFormat) (f : Frame) : Bytes :=
  match Link.outgoingPieces format f with
  | .ok pieces => pieces.flatten
  | .error _ => []

namespace Link

/-- The frames that a move queues because the connection was asked to send them. -/
def accepts (m : Move) (l : Link) : List Frame :=
  match m with
  | .call command => l.connection.accepts command
  | .job number =>
      match l.jobs[number]? with
      | none => []
      | some job => job.accepts l.connection
  | .main .work =>
      match l.main with
      | .handling job _ => job.accepts l.connection
      | _ => []
  | _ => []

/-- The frames that a move queues for the handshake. -/
def greets (m : Move) (l l' : Link) : List Frame :=
  match m, l.main with
  | .main .work, .opening | .main .work, .examining _ =>
      l'.connection.queue.drop l.connection.queue.length
  | _, _ => []

/-- The bytes of all frames that were queued are `all`; the writer has `written` a front of them,
the sender has `sent` a front of that, and the peer has `taken` a front of that. -/
structure Sends (l : Link) (all written sent taken : Bytes) : Prop where
  written_prefix : written <+: all
  queued : l.connection.accepting = true →
    all = written ++ l.connection.queue.flatMap l.setup.format.outgoing
  dropped : l.connection.accepting = false → l.connection.queue = []
  output : l.transport.output.Feeds written sent l.sender.lent
  sender_sound : l.sender.Sound
  wire : l.wire.Carries sent taken
  blank : l.memory.Blank

section Sending

variable {l l' : Link} {all written sent taken : Bytes}

theorem Sends.queues {fs : List Frame} (h : l.Sends all written sent taken) (hq : l.Queues fs l') :
    l'.Sends (all ++ fs.flatMap l.setup.format.outgoing) written sent taken where
  written_prefix := h.written_prefix.trans (List.prefix_append _ _)
  queued hopen := by
    rw [hq.connection.accepting] at hopen
    rw [hq.connection.queue, hq.setup_eq, List.flatMap_append, ← List.append_assoc,
      ← h.queued hopen]
  dropped hclosed := by
    rw [hq.connection.accepting] at hclosed
    have hfs : fs = [] := by
      cases fs with
      | nil => rfl
      | cons f fs =>
          have hopen := (hq.connection.accepted f (by simp)).1
          cases hopen.symm.trans hclosed
    rw [hq.connection.queue, h.dropped hclosed, hfs]
    rfl
  output := by
    rw [hq.sender_eq]
    exact h.output.same h.blank hq.output
  sender_sound := by rw [hq.sender_eq]; exact h.sender_sound
  wire := h.wire.keeps hq.wire
  blank := hq.output.blank h.blank

theorem Sends.same (h : l.Sends all written sent taken) (hq : l.Queues [] l') :
    l'.Sends all written sent taken := by
  have h' := h.queues hq
  rwa [List.flatMap_nil, List.append_nil] at h'

/-- The sender goes to another stage. -/
theorem Sends.turn {stage : SenderStage} (h : l.Sends all written sent taken)
    (houtput : l.transport.output.Feeds written sent stage.lent) (hsound : stage.Sound) :
    { l with sender := stage }.Sends all written sent taken :=
  ⟨h.written_prefix, h.queued, h.dropped, houtput, hsound, h.wire, h.blank⟩

/-- A new link has nothing to send. -/
theorem sends_new (setup : LinkSetup) (id peer : String) (maxPayload : Nat)
    (input output : Thresholds) (capacity : Nat) :
    (Link.new setup id peer maxPayload input output { capacity }).Sends [] [] [] [] where
  written_prefix := List.prefix_refl _
  queued _ := rfl
  dropped h := by cases h
  output := .new output
  sender_sound := trivial
  wire := ⟨List.prefix_refl _, fun _ _ => rfl⟩
  blank := BlockPool.blank_empty

/-! ## 2. The writer -/

/-- The first frame of the queue is written behind all that was written before. -/
theorem Sends.writeNext {next : Link → WriterStage} (h : l.Sends all written sent taken)
    (hstep : l.writeNext? next = some l') : ∃ written', l'.Sends all written' sent taken := by
  unfold writeNext? at hstep
  cases hqueue : l.connection.queue with
  | nil =>
      rw [hqueue] at hstep
      cases hstep
  | cons f queue =>
      rw [hqueue] at hstep
      have hopen : l.connection.accepting = true := by
        cases hclosed : l.connection.accepting with
        | true => rfl
        | false => cases hqueue.symm.trans (h.dropped hclosed)
      have hall : all = written ++ l.setup.format.outgoing f ++
          queue.flatMap l.setup.format.outgoing := by
        have hqueued := h.queued hopen
        rw [hqueue, List.flatMap_cons, ← List.append_assoc] at hqueued
        exact hqueued
      have hfront : written ++ l.setup.format.outgoing f <+: all := by
        rw [hall]
        exact List.prefix_append _ _
      refine ⟨written ++ l.setup.format.outgoing f, ?_⟩
      dsimp only at hstep
      cases hpieces : outgoingPieces l.setup.format f with
      | error m =>
          rw [hpieces] at hstep
          cases hstep
          have hnone : l.setup.format.outgoing f = [] := by rw [WireFormat.outgoing, hpieces]
          have houtput := h.output
          rw [← List.append_nil written, ← hnone] at houtput
          exact ⟨hfront, fun _ => hall, fun hclosed => (by cases hopen.symm.trans hclosed),
            houtput, h.sender_sound, h.wire, h.blank⟩
      | ok pieces =>
          rw [hpieces] at hstep
          cases hstep
          have hflatten : l.setup.format.outgoing f = pieces.flatten := by
            rw [WireFormat.outgoing, hpieces]
          have hgrows := writePieces_grows pieces (l.memory, l.transport.output)
          refine ⟨hfront, fun _ => hall, fun hclosed => (by cases hopen.symm.trans hclosed), ?_,
            h.sender_sound, h.wire, hgrows.blank h.blank⟩
          rw [hflatten]
          exact h.output.grows h.blank hgrows

/-- **A step of the writer loses nothing**, but that it may close the queue. -/
theorem Sends.stepWriter {choice : Choice} (h : l.Sends all written sent taken)
    (hstep : l.stepWriter choice = some l') : ∃ written', l'.Sends all written' sent taken := by
  obtain ⟨next, hnext⟩ | rfl | htouches := stepWriter_cases hstep
  · exact h.writeNext hnext
  · exact ⟨written, h.written_prefix, fun hopen => (by cases hopen), fun _ => rfl, h.output,
      h.sender_sound, h.wire, h.blank⟩
  · exact ⟨written, h.same htouches.queues⟩

/-! ## 3. The sender -/

/-- What a read returned is in the hands of the sender, unless it turns away from it. -/
theorem takeOutput_feeds {p : Pipe} (carriage : Carriage) {outcome : ReadOutcome}
    (h : p.Feeds written sent (some ([], 0))) (hbuffer : outcome.buffer = p.unread) :
    p.Feeds written sent (takeOutput carriage outcome).lent ∧
      (takeOutput carriage outcome).Sound := by
  have hlend := h.lend
  unfold takeOutput
  rw [hbuffer]
  dsimp only
  split
  · exact ⟨h.quit, trivial⟩
  · split
    · unfold afterOutput
      split
      · exact ⟨h, trivial⟩
      · exact ⟨h.quit, trivial⟩
      · exact ⟨h.quit, trivial⟩
    · cases carriage with
      | stream =>
          refine ⟨?_, trivial⟩
          show p.Feeds written sent
            (some ((p.unread.segments.map (·.bytes)).flatten, p.unread.size))
          rw [← List.flatMap_def]
          exact hlend
      | socket expects breaks =>
          refine ⟨?_, SocketSender.sound_load _ _⟩
          show p.Feeds written sent
            (some ((SocketSender.load p.unread {}).pending.toList, p.unread.size))
          rw [SocketSender.toList_load]
          exact hlend

/-- An output that was sent is given back. -/
theorem afterOutput_feeds {p : Pipe} (carriage : Carriage) (last : Bool)
    (h : p.Feeds written sent (some ([], 0))) :
    p.Feeds written sent (afterOutput carriage last).lent ∧ (afterOutput carriage last).Sound := by
  unfold afterOutput
  split
  · exact ⟨h, trivial⟩
  · exact ⟨h.quit, trivial⟩
  · exact ⟨h.quit, trivial⟩

theorem recordFault_queues (fault : Option IoError) (l : Link) :
    l.Queues [] (l.recordFault fault) := by
  cases fault <;> exact .of_same rfl rfl (.refl _) (.refl _) rfl

/-- The sender drops the output, and has nothing in its hands after it. -/
theorem Sends.dropOutput {stage : SenderStage} (h : l.Sends all written sent taken)
    (hlent : stage.lent = none) (hsound : stage.Sound) :
    { l.dropOutput with sender := stage }.Sends all written sent taken where
  written_prefix := h.written_prefix
  queued := h.queued
  dropped := h.dropped
  output := by rw [hlent]; exact h.output.close l.memory
  sender_sound := hsound
  wire := h.wire
  blank := Pipe.blank_completeReader _ h.blank

/-- A segment is sent to a stream as far as the wire takes it. -/
theorem Sends.sending {segment : Bytes} {left : List Bytes} {size n most : Nat} {last : Bool}
    {w : Wire} (h : l.Sends all written sent taken)
    (hstage : l.sender = .sending (segment :: left) size last)
    (hsend : l.wire.send? most segment = some (.ok n, w)) :
    { l with
      wire := w,
      sender := .sending (if segment.length ≤ n then left else segment.drop n :: left) size last
    }.Sends all written (sent ++ segment.take n) taken := by
  obtain ⟨hn, hwire⟩ := h.wire.send hsend
  have hleft : (segment :: left).flatten = segment.take n ++
      (if segment.length ≤ n then left else segment.drop n :: left).flatten := by
    split
    · next hall => rw [List.take_of_length_le hall, List.flatten_cons]
    · rw [List.flatten_cons, List.flatten_cons, ← List.append_assoc, List.take_append_drop]
  have houtput := h.output
  rw [hstage, SenderStage.lent, hleft] at houtput
  exact ⟨h.written_prefix, h.queued, h.dropped, houtput.use, trivial, hwire, h.blank⟩

/-- The front of what is left is sent to a socket as far as the wire takes it. -/
theorem Sends.offering {sender : SocketSender} {size n most : Nat} {last : Bool} {w : Wire}
    (h : l.Sends all written sent taken) (hstage : l.sender = .offering sender size last)
    (hsend : l.wire.send? most sender.offer = some (.ok n, w)) :
    { l with
      wire := w,
      sender := .offering { sender with pending := sender.pending.drop n } size last
    }.Sends all written (sent ++ sender.offer.take n) taken := by
  obtain ⟨hn, hwire⟩ := h.wire.send hsend
  obtain ⟨rest, hrest⟩ := sender.offer_prefix
  have hleft : sender.pending.toList = sender.offer.take n ++ (sender.pending.drop n).toList := by
    rw [Buffer.toList_drop, ← hrest, List.drop_append_of_le_length hn, ← List.append_assoc,
      List.take_append_drop]
  have hsound : sender.pending.Sound := by
    have hsender := h.sender_sound
    rwa [hstage] at hsender
  have houtput := h.output
  rw [hstage, SenderStage.lent, hleft] at houtput
  exact ⟨h.written_prefix, h.queued, h.dropped, houtput.use, hsound.drop n, hwire, h.blank⟩

/-- The wire fails: the sender tries again or ends, and what it has in its hands is not sent. -/
theorem Sends.failing {most : Nat} {bs : Bytes} {fault : IoError} {w : Wire}
    (h : l.Sends all written sent taken) (hsend : l.wire.send? most bs = some (.error fault, w)) :
    { l with wire := w }.Sends all written sent taken ∧
      { l with wire := w, sender := .leaving (some fault) }.Sends all written sent taken := by
  have hwire := h.wire.send_error hsend
  exact ⟨⟨h.written_prefix, h.queued, h.dropped, h.output, h.sender_sound, hwire, h.blank⟩,
    ⟨h.written_prefix, h.queued, h.dropped, h.output.quit, trivial, hwire, h.blank⟩⟩

/-- **A step of the sender loses nothing**, but that it may drop the output or end the stream. -/
theorem Sends.workSender {most : Nat} (h : l.Sends all written sent taken)
    (hstep : l.workSender most = some l') : ∃ sent', l'.Sends all written sent' taken := by
  have houtput := h.output
  have hsound := h.sender_sound
  unfold Link.workSender at hstep
  cases hstage : l.sender with
  | waiting read =>
      rw [hstage] at hstep houtput
      dsimp only at hstep
      split at hstep
      · cases hstep
      · next output hread =>
        cases hstep
        obtain ⟨hgrows, -⟩ := Pipe.read_grows hread
        have hsame : l.Queues [] (l.setOutput l.memory output) :=
          .of_same rfl rfl (.refl _) (hgrows l.memory) rfl
        have hfeeds := houtput.same h.blank (hgrows l.memory)
        exact ⟨sent, (h.same hsame).turn hfeeds trivial⟩
      · next outcome output hread =>
        cases hstep
        obtain ⟨hgrows, hbuffer⟩ := Pipe.read_grows hread
        have hsame : l.Queues [] (l.setOutput l.memory output) :=
          .of_same rfl rfl (.refl _) (hgrows l.memory) rfl
        have hfeeds := houtput.same h.blank (hgrows l.memory)
        obtain ⟨htaken, htakenSound⟩ :=
          takeOutput_feeds l.setup.carriage hfeeds (hbuffer outcome rfl)
        exact ⟨sent, (h.same hsame).turn htaken htakenSound⟩
  | sending left size last =>
      rw [hstage] at hstep houtput
      cases left with
      | nil =>
          cases hstep
          exact ⟨sent, h.turn houtput trivial⟩
      | cons segment left =>
          dsimp only at hstep
          split at hstep
          · cases hstep
          · next hsend =>
            obtain ⟨hagain, hleaving⟩ := h.failing hsend
            split at hstep
            · cases hstep
              rw [← hstage]
              exact ⟨sent, hagain⟩
            · cases hstep
              exact ⟨sent, hleaving⟩
          · next hsend =>
            cases hstep
            exact ⟨_, h.sending hstage hsend⟩
  | offering sender size last =>
      rw [hstage] at hstep houtput hsound
      dsimp only at hstep
      split at hstep
      · next hempty =>
        cases hstep
        rw [SenderStage.lent, (Buffer.Sound.isEmpty_iff hsound).mp hempty] at houtput
        exact ⟨sent, h.turn houtput trivial⟩
      · split at hstep
        · cases hstep
        · next hsend =>
          cases hstep
          exact ⟨sent, (h.failing hsend).2⟩
        · next hsend =>
          cases hstep
          exact ⟨_, h.offering hstage hsend⟩
  | settling size last =>
      rw [hstage] at hstep houtput
      dsimp only at hstep
      split at hstep
      · cases hstep
        exact ⟨sent, h.turn houtput.quit trivial⟩
      · next hconsume =>
        cases hstep
        obtain ⟨hafter, hafterSound⟩ :=
          afterOutput_feeds l.setup.carriage last (houtput.settle hconsume).1
        exact ⟨sent, h.written_prefix, h.queued, h.dropped, hafter, hafterSound, h.wire,
          Pipe.blank_consume hconsume h.blank⟩
  | closing =>
      rw [hstage] at hstep
      cases hstep
      exact ⟨sent, h.written_prefix, h.queued, h.dropped, h.output.quit, trivial,
        h.wire.keeps l.wire.keeps_endSending, h.blank⟩
  | leaving fault =>
      rw [hstage] at hstep
      dsimp only at hstep
      split at hstep
      · cases hstep
        have hrecorded := h.same (recordFault_queues fault l)
        exact ⟨sent, hrecorded.turn hrecorded.output.quit trivial⟩
      · cases hstep
        exact ⟨sent, h.dropOutput rfl trivial⟩
  | completing =>
      rw [hstage] at hstep
      cases hstep
      exact ⟨sent, h.dropOutput rfl trivial⟩
  | reporting fault =>
      rw [hstage] at hstep
      cases hstep
      have hrecorded := h.same (recordFault_queues fault l)
      exact ⟨sent, hrecorded.turn hrecorded.output.quit trivial⟩
  | shutting =>
      rw [hstage] at hstep
      cases hstep
      have hshut := h.same (shutDown_touches .sendingEnded l).queues
      have hfinished :
          { l.shutDown .sendingEnded with sender := .finished }.Sends all written sent taken :=
        hshut.turn hshut.output.quit trivial
      exact ⟨sent, hfinished.same (releaseWire_touches _).queues⟩
  | finished =>
      rw [hstage] at hstep
      cases hstep
  | crashed misuse =>
      rw [hstage] at hstep
      cases hstep

theorem Sends.stepSender {choice : Choice} {most : Nat} (h : l.Sends all written sent taken)
    (hstep : l.stepSender choice most = some l') : ∃ sent', l'.Sends all written sent' taken := by
  cases choice with
  | work => exact h.workSender hstep
  | stop =>
      have hstop : l.stopSender = some l' := hstep
      unfold stopSender at hstop
      split at hstop
      · split at hstop
        · split at hstop
          · cases hstop
            have hsame : l.Queues [] (l.setOutput l.memory l.transport.output.abandonRead) :=
              .of_same rfl rfl (.refl _) (Pipe.abandonRead_grows _ _) rfl
            have hafter := h.same hsame
            exact ⟨sent, hafter.turn hafter.output.quit trivial⟩
          · cases hstop
        · cases hstop
          exact ⟨sent, h.turn h.output.quit trivial⟩
        · cases hstop
          exact ⟨sent, h.turn h.output.quit trivial⟩
        · cases hstop
      · cases hstop

/-! ## 4. The other tasks -/

theorem Queues.turnMain {fs : List Frame} (h : l.Queues fs l') (stage : MainStage) :
    l.Queues fs { l' with main := stage } :=
  ⟨h.setup_eq, h.sender_eq, h.connection, h.output, h.wire⟩

theorem openHandshake_queues (l : Link) :
    ∃ messages : List Bytes, l.Queues (messages.map Frame.raw) l.openHandshake := by
  obtain ⟨messages, hgrows⟩ := Connection.start_grows l.setup.handshake l.connection
  refine ⟨messages, ?_⟩
  unfold openHandshake
  generalize l.setup.handshake.start Connection.rawSender l.connection = started at hgrows ⊢
  dsimp only
  split <;> exact ⟨rfl, rfl, hgrows, .refl _, .refl _⟩

theorem examine_queues (portion : Portion) (l : Link) :
    ∃ messages : List Bytes, l.Queues (messages.map Frame.raw) (l.examine portion) := by
  obtain ⟨messages, hgrows⟩ :=
    Connection.examine_grows l.setup.handshake portion.buffer l.connection
  refine ⟨messages, ?_⟩
  unfold examine
  generalize l.setup.handshake.examine Connection.rawSender portion.buffer l.connection =
    examined at hgrows ⊢
  dsimp only
  split
  · exact ⟨rfl, rfl, hgrows, .refl _, .refl _⟩
  · exact ⟨rfl, rfl, hgrows, .refl _, .refl _⟩
  · split <;> exact ⟨rfl, rfl, hgrows, .refl _, .refl _⟩

theorem readFrame_queues (portion : Portion) (l : Link) : l.Queues [] (l.readFrame portion) := by
  unfold readFrame dispatch
  dsimp only
  split
  · exact .of_same rfl rfl (.refl _) (.refl _) rfl
  · exact .of_same rfl rfl (.refl _) (.refl _) rfl
  · split
    · exact .of_same rfl rfl (.refl _) (.refl _) rfl
    · split <;> exact .of_same rfl rfl (.refl _) (.refl _) rfl

theorem settle_queues (portion : Portion) (l : Link) : l.Queues [] (l.settle portion) := by
  unfold settle
  split
  · exact .of_same rfl rfl (.refl _) (.refl _) rfl
  · next hconsume =>
    exact .of_same rfl rfl (.refl _) (.of_keeps (Pipe.blank_consume hconsume) (.refl _)) rfl

theorem dropInput_queues (l : Link) : l.Queues [] l.dropInput :=
  .of_same rfl rfl (.refl _) (.of_keeps (Pipe.blank_completeReader _) (.refl _)) rfl

theorem awaitSender_queues {reason : CloseReason} {deadline : Option Nat}
    (h : l.awaitSender reason deadline = some l') : l.Queues [] l' := by
  unfold awaitSender at h
  split at h
  · cases h
    exact .of_same rfl rfl (.refl _) (.refl _) rfl
  · split at h
    · cases h
    · split at h
      · cases h
      · cases h
        exact (shutDown_touches .drainTimeout l).queues.turnMain _

/-- In all other stages the main task queues nothing. -/
theorem workMain_queues_nil (hquiet : ¬ l.main.Talks) (hwork : l.workMain = some l') :
    l.Queues [] l' := by
  unfold workMain at hwork
  cases hstage : l.main with
  | opening | examining _ | handling _ _ =>
      rw [hstage] at hquiet
      exact absurd trivial hquiet
  | unstarted | finished | crashed _ =>
      rw [hstage] at hwork
      cases hwork
  | marking _ =>
      rw [hstage] at hwork
      cases hwork
      exact .of_same rfl rfl (.of_same rfl rfl rfl fun _ => rfl) (.refl _) rfl
  | showing _ | concluding _ | notifying _ | recording _ | cancelling _ | ending
    | tellingEnd | markingEnd =>
      rw [hstage] at hwork
      cases hwork
      exact .of_same rfl rfl (.of_same rfl rfl rfl id) (.refl _) rfl
  | telling portion =>
      rw [hstage] at hwork
      cases portion <;> cases hwork <;> exact .of_same rfl rfl (.refl _) (.refl _) rfl
  | waiting read =>
      rw [hstage] at hwork
      dsimp only at hwork
      split at hwork <;> cases hwork <;> exact .of_same rfl rfl (.refl _) (.refl _) rfl
  | reading portion =>
      rw [hstage] at hwork
      cases hwork
      exact readFrame_queues portion l
  | settling portion =>
      rw [hstage] at hwork
      cases hwork
      exact settle_queues portion l
  | leaving _ | releasing =>
      rw [hstage] at hwork
      cases hwork
      exact (dropInput_queues l).turnMain _
  | cutting reason =>
      rw [hstage] at hwork
      cases hwork
      dsimp only
      split
      · exact (shutDown_touches reason l).queues.turnMain _
      · exact .of_same rfl rfl (.refl _) (.refl _) rfl
  | awaitingWriter reason =>
      rw [hstage] at hwork
      dsimp only at hwork
      split at hwork <;> cases hwork
      exact .of_same rfl rfl (.refl _) (.refl _) rfl
  | draining reason =>
      rw [hstage] at hwork
      cases hwork
      exact .of_same rfl rfl (.refl _) (Pipe.completeWriterOutside_grows _ _) rfl
  | awaitingSender reason deadline =>
      rw [hstage] at hwork
      exact awaitSender_queues hwork
  | shutting reason =>
      rw [hstage] at hwork
      cases hwork
      exact (shutDown_touches reason l).queues.turnMain _
  | awaitingReceiver =>
      rw [hstage] at hwork
      dsimp only at hwork
      split at hwork <;> cases hwork
      exact .of_same rfl rfl (.refl _) (.refl _) rfl

/-- What the handshake sends is queued as raw frames. -/
theorem workMain_queues_of_handshake
    (hstage : l.main = .opening ∨ ∃ portion, l.main = .examining portion)
    (hwork : l.workMain = some l') :
    ∃ messages : List Bytes, l.Queues (messages.map Frame.raw) l' := by
  unfold workMain at hwork
  obtain hstage | ⟨portion, hstage⟩ := hstage
  · rw [hstage] at hwork
    cases hwork
    have henter : l.Queues [] (l.enter .handshaking) :=
      .of_same rfl rfl (.of_same rfl rfl rfl id) (.refl _) rfl
    obtain ⟨messages, hopen⟩ := openHandshake_queues (l.enter .handshaking)
    exact ⟨messages, henter.trans hopen⟩
  · rw [hstage] at hwork
    cases hwork
    exact examine_queues portion l

/-- What a handler asks for is queued. -/
theorem workMain_queues_of_handling {job : Job} {portion : Portion}
    (hstage : l.main = .handling job portion) (hwork : l.workMain = some l') :
    l.Queues (job.accepts l.connection) l' := by
  have hgoOn := (goOn_touches job l).queues
  unfold workMain at hwork
  rw [hstage] at hwork
  dsimp only at hwork
  split at hwork
  · next hl =>
    cases hwork
    rw [hl] at hgoOn
    exact hgoOn.turnMain _
  · next hl =>
    cases hwork
    rw [hl] at hgoOn
    exact hgoOn.turnMain _

theorem stopMain_queues (hstop : l.stopMain = some l') : l.Queues [] l' := by
  unfold stopMain at hstop
  split at hstop
  · split at hstop
    · cases hstop
      exact .of_same rfl rfl (.refl _) (.refl _) rfl
    · cases hstop
  · cases hstop

theorem start_queues (l : Link) : l.Queues [] l.start := by
  unfold start
  split <;> exact .of_same rfl rfl (.refl _) (.refl _) rfl

/-! ## 5. Every move -/

/-- A step of the main task queues frames for the handshake, or those that a handler asks for. -/
theorem stepMain_queues {choice : Choice} (hstep : l.stepMain choice = some l') :
    l.Queues (l.greets (.main choice) l' ++ l.accepts (.main choice)) l' := by
  cases choice with
  | stop => exact stopMain_queues hstep
  | work =>
      have hwork : l.workMain = some l' := hstep
      by_cases htalks : l.main.Talks
      · cases hstage : l.main with
        | opening | examining _ =>
            obtain ⟨messages, hqueues⟩ := workMain_queues_of_handshake (by simp [hstage]) hwork
            have hgreets : l.greets (.main .work) l' = messages.map Frame.raw := by
              simp only [greets, hstage]
              rw [hqueues.connection.queue, List.drop_left]
            have haccepts : l.accepts (.main .work) = [] := by simp only [accepts, hstage]
            rw [hgreets, haccepts, List.append_nil]
            exact hqueues
        | handling job portion =>
            have hgreets : l.greets (.main .work) l' = [] := by simp only [greets, hstage]
            have haccepts : l.accepts (.main .work) = job.accepts l.connection := by
              simp only [accepts, hstage]
            rw [hgreets, haccepts, List.nil_append]
            exact workMain_queues_of_handling hstage hwork
        | _ =>
            rw [hstage] at htalks
            exact htalks.elim
      · have hgreets : l.greets (.main .work) l' = [] := by
          unfold greets
          split
          · next hstage => exact absurd (by rw [hstage]; trivial) htalks
          · next hstage => exact absurd (by rw [hstage]; trivial) htalks
          · rfl
        have haccepts : l.accepts (.main .work) = [] := by
          unfold accepts
          dsimp only
          split
          · next hstage => exact absurd (by rw [hstage]; trivial) htalks
          · rfl
        rw [hgreets, haccepts]
        exact workMain_queues_nil htalks hwork

/-- **What a move queues**: the writer's and the sender's moves queue nothing, and the peer's taking
of bytes is not looked at here. -/
theorem move_queues {m : Move} (hwriter : ∀ choice, m ≠ .writer choice)
    (hsender : ∀ choice most, m ≠ .sender choice most) (hdepart : ∀ most, m ≠ .depart most)
    (hmove : l.move? m = some l') : l.Queues (l.greets m l' ++ l.accepts m) l' := by
  cases m with
  | writer choice => exact absurd rfl (hwriter choice)
  | sender choice most => exact absurd rfl (hsender choice most)
  | depart most => exact absurd rfl (hdepart most)
  | main choice => exact stepMain_queues hmove
  | receiver choice most =>
      obtain ⟨bs, htouches⟩ := stepReceiver_touches hmove
      exact htouches.queues
  | job number =>
      obtain ⟨job, hjob, htouches⟩ := stepJob_touches hmove
      have haccepts : l.accepts (.job number) = job.accepts l.connection := by
        simp only [accepts, hjob]
      rw [haccepts]
      exact htouches.queues
  | call command =>
      cases hmove
      exact (perform_touches command l).queues
  | start =>
      cases hmove
      exact start_queues l
  | shutDown reason =>
      cases hmove
      exact (shutDown_touches reason l).queues
  | record _ | elapse _ | arrive _ | endArriving | failRead _ | failWrite _ =>
      cases hmove
      exact ⟨rfl, rfl, .refl _, .refl _, .of_same rfl rfl rfl⟩
  | abandon =>
      cases hmove
      exact ⟨rfl, rfl, .refl _, .refl _, l.wire.keeps_abandon⟩

/-- The frames that are queued on request are within the limits. -/
theorem validate_of_mem_accepts {m : Move} {f : Frame} (hf : f ∈ l.accepts m) :
    f.validate l.connection.maxPayload = .ok () := by
  unfold accepts at hf
  split at hf
  · next command => exact ((l.connection.perform_grows command).accepted f hf).2
  · next number =>
    split at hf
    · cases hf
    · next job _ => exact ((job.step_grows l.connection).accepted f hf).2
  · split at hf
    · next job _ _ => exact ((job.step_grows l.connection).accepted f hf).2
    · cases hf
  · cases hf

/-- **No move loses a byte of what is to be sent**, as long as the way is not cut. -/
theorem Sends.move {m : Move} (h : l.Sends all written sent taken)
    (hdepart : ∀ most, m ≠ .depart most) (hmove : l.move? m = some l') :
    ∃ written' sent',
      l'.Sends (all ++ (l.greets m l' ++ l.accepts m).flatMap l.setup.format.outgoing) written'
        sent' taken := by
  by_cases hwriter : ∃ choice, m = .writer choice
  · obtain ⟨choice, rfl⟩ := hwriter
    obtain ⟨written', h'⟩ := h.stepWriter hmove
    refine ⟨written', sent, ?_⟩
    show l'.Sends (all ++ []) written' sent taken
    rwa [List.append_nil]
  · by_cases hsender : ∃ choice most, m = .sender choice most
    · obtain ⟨choice, most, rfl⟩ := hsender
      obtain ⟨sent', h'⟩ := h.stepSender hmove
      refine ⟨written, sent', ?_⟩
      show l'.Sends (all ++ []) written sent' taken
      rwa [List.append_nil]
    · have hqueues := move_queues (fun choice heq => hwriter ⟨choice, heq⟩)
        (fun choice most heq => hsender ⟨choice, most, heq⟩) hdepart hmove
      exact ⟨written, sent, h.queues hqueues⟩

/-- The peer takes some of what departs. -/
theorem Sends.depart (h : l.Sends all written sent taken) (most : Nat) :
    { l with wire := (l.wire.depart most).2 }.Sends all written sent
      (taken ++ (l.wire.depart most).1) :=
  ⟨h.written_prefix, h.queued, h.dropped, h.output, h.sender_sound, h.wire.depart most, h.blank⟩

/-! ## 6. What arrives is what was queued -/

/-- All that was queued was taken if nothing is left on the way, and the way was not cut. -/
theorem Sends.taken_eq_all (h : l.Sends all written sent taken)
    (haccepting : l.connection.accepting = true) (hqueue : l.connection.queue = [])
    (hopen : l.transport.output.readerCompleted = false)
    (houtput : l.transport.output.pendingBytes = []) (hgone : l.wire.peerGone = false)
    (hended : l.wire.departingEnded = false) (hdeparting : l.wire.departing = []) :
    taken = all := by
  have hwritten := h.queued haccepting
  rw [hqueue, List.flatMap_nil, List.append_nil] at hwritten
  have hsent := h.output.got_eq_put hopen houtput
  have htaken := h.wire.going hgone hended
  rw [hdeparting, List.append_nil] at htaken
  rw [htaken, hsent, hwritten]

theorem Sends.taken_prefix (h : l.Sends all written sent taken) : taken <+: all :=
  (List.prefix_append _ _).trans
    (h.wire.taken_prefix.trans (h.output.got_prefix.trans h.written_prefix))

end Sending

end Link

end Courier
