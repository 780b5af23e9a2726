import Courier.Link.Main
import Courier.Proofs.Handshake.Basic

/-!
Courier.Proofs.Link.Queueing — what is put into the queue of a connection.

`Connection.Grows` says that some frames were queued behind those that wait, and that each of them
was within the limits. This is all that a command, a handshake or a handler can do to the queue.
-/

namespace Courier

/-- The frame that is queued if a command is obeyed. -/
def Command.frame? : Command → Option Frame
  | .send identifier payload => some (.new identifier payload)
  | .sendValue identifier value =>
      some (.new (Frame.typedIdentifier identifier) (Bytes.ofString value.render))
  | .sendRaw payload => some (.raw payload)
  | .disconnect => none

namespace Connection

/-- A connection before and after `fs` are queued. -/
structure Grows (fs : List Frame) (c c' : Connection) : Prop where
  queue : c'.queue = c.queue ++ fs
  accepting : c'.accepting = c.accepting
  maxPayload : c'.maxPayload = c.maxPayload
  handshaked : c.handshaked = true → c'.handshaked = true
  accepted : ∀ f ∈ fs, c.accepting = true ∧ f.validate c.maxPayload = .ok ()

theorem Grows.refl (c : Connection) : Grows [] c c :=
  ⟨(List.append_nil _).symm, rfl, rfl, fun hmark => hmark, fun _ h => by cases h⟩

/-- The queue is left alone. -/
theorem Grows.of_same {c c' : Connection} (hqueue : c'.queue = c.queue)
    (haccepting : c'.accepting = c.accepting) (hmax : c'.maxPayload = c.maxPayload)
    (hmark : c.handshaked = true → c'.handshaked = true) : Grows [] c c' :=
  ⟨hqueue.trans (List.append_nil _).symm, haccepting, hmax, hmark, fun _ h => by cases h⟩

theorem Grows.trans {fs gs : List Frame} {c c₁ c₂ : Connection} (h : Grows fs c c₁)
    (h' : Grows gs c₁ c₂) : Grows (fs ++ gs) c c₂ where
  queue := by rw [h'.queue, h.queue, List.append_assoc]
  accepting := h'.accepting.trans h.accepting
  maxPayload := h'.maxPayload.trans h.maxPayload
  handshaked hmark := h'.handshaked (h.handshaked hmark)
  accepted f hf := by
    rcases List.mem_append.mp hf with hf | hf
    · exact h.accepted f hf
    · rw [← h.accepting, ← h.maxPayload]
      exact h'.accepted f hf

theorem enqueue_grows {f : Frame} {c c' : Connection} (h : c.enqueue f = .ok c') :
    Grows [f] c c' := by
  unfold enqueue at h
  split at h
  · cases h
  · next hvalid =>
    split at h
    · cases h
    · next hopen =>
      cases h
      simp only [Bool.or_eq_true, not_or, Bool.not_eq_true, Bool.not_eq_true'] at hopen
      refine ⟨rfl, rfl, rfl, fun hmark => hmark, fun g hg => ?_⟩
      rw [List.mem_singleton.mp hg]
      exact ⟨by simpa using hopen.2, hvalid⟩

theorem handshaked_enqueue {f : Frame} {c c' : Connection} (h : c.enqueue f = .ok c') :
    c'.handshaked = c.handshaked := by
  unfold enqueue at h
  split at h
  · cases h
  · split at h <;> cases h
    rfl

/-- The frames that are queued by a command: its frame, unless it is refused. -/
def accepts (command : Command) (c : Connection) : List Frame :=
  match (c.perform command).1 with
  | .ok () => command.frame?.toList
  | .error _ => []

/-- All that can come of a command: it is refused, or the end is asked for, or its frame is
queued. -/
theorem perform_cases (command : Command) (c : Connection) :
    (∃ r, c.perform command = (.error r, c)) ∨
    (command.frame? = none ∧ c.perform command = (.ok (), c.disconnect)) ∨
    (∃ f c', command.frame? = some f ∧ c.enqueue f = .ok c' ∧
      c.perform command = (.ok (), c')) := by
  unfold perform
  cases command with
  | disconnect => exact .inr (.inl ⟨rfl, rfl⟩)
  | sendRaw payload =>
      dsimp only [sendRaw]
      cases henqueue : c.enqueue (.raw payload) with
      | error r => exact .inl ⟨r, rfl⟩
      | ok c' => exact .inr (.inr ⟨_, c', rfl, henqueue, rfl⟩)
  | send identifier payload =>
      dsimp only [send]
      cases checkIdentifier identifier with
      | error r => exact .inl ⟨r, rfl⟩
      | ok u =>
          dsimp only [bind, Except.bind]
          cases henqueue : c.enqueue (.new identifier payload) with
          | error r => exact .inl ⟨r, rfl⟩
          | ok c' => exact .inr (.inr ⟨_, c', rfl, henqueue, rfl⟩)
  | sendValue identifier value =>
      dsimp only [sendValue]
      cases checkIdentifier identifier with
      | error r => exact .inl ⟨r, rfl⟩
      | ok u =>
          dsimp only [bind, Except.bind]
          cases henqueue : c.enqueue
              (.new (Frame.typedIdentifier identifier) (Bytes.ofString value.render)) with
          | error r => exact .inl ⟨r, rfl⟩
          | ok c' => exact .inr (.inr ⟨_, c', rfl, henqueue, rfl⟩)

/-- A payload is queued if nothing speaks against it. -/
theorem perform_send {identifier : String} {payload : Bytes} {c : Connection}
    (hid : checkIdentifier identifier = .ok ())
    (hvalid : (Frame.new identifier payload).validate c.maxPayload = .ok ())
    (hopen : (c.cancelled || !c.accepting) = false) :
    c.perform (.send identifier payload) =
      (.ok (), { c with queue := c.queue ++ [.new identifier payload] }) := by
  have hsend : c.send identifier payload =
      .ok { c with queue := c.queue ++ [.new identifier payload] } := by
    unfold send enqueue
    rw [hid, hvalid, hopen]
    rfl
  unfold perform
  dsimp only
  rw [hsend]

/-- **A command that is obeyed queues its frame, and one that is refused queues nothing.** -/
theorem perform_grows (command : Command) (c : Connection) :
    Grows (c.accepts command) c (c.perform command).2 := by
  unfold accepts
  obtain ⟨r, h⟩ | ⟨hframe, h⟩ | ⟨f, c', hframe, henqueue, h⟩ := c.perform_cases command
  · rw [h]
    exact .refl c
  · rw [h, hframe]
    exact .of_same rfl rfl rfl fun hmark => hmark
  · rw [h, hframe]
    exact enqueue_grows henqueue

theorem handshaked_perform (command : Command) (c : Connection) :
    (c.perform command).2.handshaked = c.handshaked := by
  obtain ⟨r, h⟩ | ⟨-, h⟩ | ⟨f, c', -, henqueue, h⟩ := c.perform_cases command
  · rw [h]
  · rw [h]
    rfl
  · rw [h]
    exact handshaked_enqueue henqueue

/-- What a handshake sends is queued as a raw frame, or refused. -/
theorem sendIfAny_cases (message : Option Bytes) (c : Connection) :
    message = none ∧ Handshake.sendIfAny rawSender message c = .ok c ∨
      ∃ bs, message = some bs ∧
        ((∃ c', c.enqueue (.raw bs) = .ok c' ∧
            Handshake.sendIfAny rawSender message c = .ok c') ∨
          ∃ r, c.enqueue (.raw bs) = .error r ∧
            Handshake.sendIfAny rawSender message c = .error (.refused r)) := by
  cases message with
  | none => exact .inl ⟨rfl, rfl⟩
  | some bs =>
      refine .inr ⟨bs, rfl, ?_⟩
      unfold Handshake.sendIfAny rawSender sendRaw
      dsimp only
      cases henqueue : c.enqueue (.raw bs) with
      | ok c' => exact .inl ⟨c', rfl, rfl⟩
      | error r => exact .inr ⟨r, rfl, rfl⟩

theorem enqueue_of_sendIfAny {message : Option Bytes} {c c' : Connection}
    (h : Handshake.sendIfAny rawSender message c = .ok c') :
    message = none ∧ c' = c ∨ ∃ bs, message = some bs ∧ c.enqueue (.raw bs) = .ok c' := by
  obtain ⟨hnone, hsend⟩ | ⟨bs, hsome, ⟨c₁, henqueue, hsend⟩ | ⟨r, -, hsend⟩⟩ :=
    sendIfAny_cases message c
  · cases hsend.symm.trans h
    exact .inl ⟨hnone, rfl⟩
  · cases hsend.symm.trans h
    exact .inr ⟨bs, hsome, henqueue⟩
  · cases hsend.symm.trans h

theorem sendIfAny_grows {message : Option Bytes} {c c' : Connection}
    (h : Handshake.sendIfAny rawSender message c = .ok c') :
    Grows (message.toList.map Frame.raw) c c' := by
  obtain ⟨rfl, rfl⟩ | ⟨bs, rfl, henqueue⟩ := enqueue_of_sendIfAny h
  · exact .refl c'
  · exact enqueue_grows henqueue

theorem handshaked_sendIfAny {message : Option Bytes} {c c' : Connection}
    (h : Handshake.sendIfAny rawSender message c = .ok c') : c'.handshaked = c.handshaked := by
  obtain ⟨rfl, rfl⟩ | ⟨bs, rfl, henqueue⟩ := enqueue_of_sendIfAny h
  · rfl
  · exact handshaked_enqueue henqueue

theorem start_grows (h : Handshake) (c : Connection) :
    ∃ messages : List Bytes, Grows (messages.map Frame.raw) c (h.start rawSender c).2 := by
  have hstarts := h.starts_start rawSender c
  generalize h.start rawSender c = result at hstarts ⊢
  cases hstarts with
  | failed | refused => exact ⟨[], .refl c⟩
  | opened opening sends => exact ⟨_, sendIfAny_grows sends⟩

theorem handshaked_start (h : Handshake) (c : Connection) :
    (h.start rawSender c).2.handshaked = c.handshaked := by
  have hstarts := h.starts_start rawSender c
  generalize h.start rawSender c = result at hstarts ⊢
  cases hstarts with
  | failed | refused => rfl
  | opened opening sends => exact handshaked_sendIfAny sends

theorem examine_grows (h : Handshake) (b : Buffer) (c : Connection) :
    ∃ messages : List Bytes, Grows (messages.map Frame.raw) c (h.examine rawSender b c).2.2 := by
  have hexamines := h.examines_examine rawSender b c
  generalize h.examine rawSender b c = result at hexamines ⊢
  cases hexamines with
  | pending | rejected | refused => exact ⟨[], .refl c⟩
  | completed judge sends => exact ⟨_, sendIfAny_grows sends⟩

theorem handshaked_examine (h : Handshake) (b : Buffer) (c : Connection) :
    (h.examine rawSender b c).2.2.handshaked = c.handshaked := by
  have hexamines := h.examines_examine rawSender b c
  generalize h.examine rawSender b c = result at hexamines ⊢
  cases hexamines with
  | pending | rejected | refused => rfl
  | completed judge sends => exact handshaked_sendIfAny sends

end Connection

/-- The command that a handler is about to give. -/
def Job.asks? (job : Job) : Option Command :=
  if job.begun then job.commands.head? else none

/-- The frames that are queued by what a handler does next. -/
def Job.accepts (job : Job) (c : Connection) : List Frame :=
  match job.asks? with
  | none => []
  | some command => c.accepts command

theorem Job.step_grows (job : Job) (c : Connection) :
    Connection.Grows (job.accepts c) c (job.step c).2.2 := by
  unfold Job.accepts Job.asks? Job.step
  cases job.begun with
  | false => exact .refl c
  | true =>
      cases job.commands with
      | nil => exact .refl c
      | cons command commands =>
          have hperform := c.perform_grows command
          simp only [if_true, List.head?_cons]
          generalize c.accepts command = fs at hperform ⊢
          split
          · next h =>
            rw [h] at hperform
            exact hperform
          · next h =>
            rw [h] at hperform
            exact hperform

theorem Job.handshaked_step (job : Job) (c : Connection) :
    (job.step c).2.2.handshaked = c.handshaked := by
  unfold Job.step
  cases job.begun with
  | false => rfl
  | true =>
      cases job.commands with
      | nil => rfl
      | cons command commands =>
          have hperform := c.handshaked_perform command
          simp only [if_true]
          split
          · next h =>
            rw [h] at hperform
            exact hperform
          · next h =>
            rw [h] at hperform
            exact hperform

end Courier
