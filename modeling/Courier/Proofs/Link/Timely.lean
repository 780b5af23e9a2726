import Courier.Proofs.Link.Sending

/-!
Courier.Proofs.Link.Timely — the handshake is marked before the first frame is read.

What comes from outside and what the tasks other than the main task do leaves the main task alone
(`Link.move_aside`), so only the main task's own steps are to be looked at. The stages up to the
mark and those right after it go with the mark (`Link.Timely`): no frame is read before the
handshake is complete, and the handshake sends nothing after it.
-/

namespace Courier

namespace Link

/-! ## 1. The sender leaves the main task alone -/

section Sender

variable {l l' : Link}

theorem dropOutput_draws (l : Link) : l.Draws [] l.dropOutput :=
  .of_same rfl (.of_keeps (Pipe.blank_completeReader _) (.refl _))

/-- A sender's step. -/
theorem workSender_aside {most : Nat} (hstep : l.workSender most = some l') :
    l.Aside l' ∧ l.Draws [] l' := by
  unfold Link.workSender at hstep
  cases hstage : l.sender with
  | waiting read =>
      rw [hstage] at hstep
      dsimp only at hstep
      split at hstep <;> cases hstep <;>
        exact ⟨⟨rfl, rfl, rfl, rfl, rfl, rfl⟩, .of_same rfl (.refl _)⟩
  | sending left size last =>
      rw [hstage] at hstep
      cases left with
      | nil =>
          cases hstep
          exact ⟨⟨rfl, rfl, rfl, rfl, rfl, rfl⟩, .of_same rfl (.refl _)⟩
      | cons segment left =>
          dsimp only at hstep
          split at hstep
          · cases hstep
          · next hsend =>
            split at hstep <;> cases hstep <;>
              exact ⟨⟨rfl, rfl, rfl, rfl, rfl, rfl⟩, .of_same (Wire.arriving_send hsend) (.refl _)⟩
          · next hsend =>
            cases hstep
            exact ⟨⟨rfl, rfl, rfl, rfl, rfl, rfl⟩, .of_same (Wire.arriving_send hsend) (.refl _)⟩
  | offering sender size last =>
      rw [hstage] at hstep
      dsimp only at hstep
      split at hstep
      · cases hstep
        exact ⟨⟨rfl, rfl, rfl, rfl, rfl, rfl⟩, .of_same rfl (.refl _)⟩
      · split at hstep
        · cases hstep
        · next hsend =>
          cases hstep
          exact ⟨⟨rfl, rfl, rfl, rfl, rfl, rfl⟩, .of_same (Wire.arriving_send hsend) (.refl _)⟩
        · next hsend =>
          cases hstep
          exact ⟨⟨rfl, rfl, rfl, rfl, rfl, rfl⟩, .of_same (Wire.arriving_send hsend) (.refl _)⟩
  | settling size last =>
      rw [hstage] at hstep
      dsimp only at hstep
      split at hstep
      · cases hstep
        exact ⟨⟨rfl, rfl, rfl, rfl, rfl, rfl⟩, .of_same rfl (.refl _)⟩
      · next hconsume =>
        cases hstep
        exact ⟨⟨rfl, rfl, rfl, rfl, rfl, rfl⟩,
          .of_same rfl (.of_keeps (Pipe.blank_consume hconsume) (.refl _))⟩
  | closing =>
      rw [hstage] at hstep
      cases hstep
      exact ⟨⟨rfl, rfl, rfl, rfl, rfl, rfl⟩, .of_same rfl (.refl _)⟩
  | leaving fault =>
      rw [hstage] at hstep
      dsimp only at hstep
      split at hstep
      · cases hstep
        cases fault <;> exact ⟨⟨rfl, rfl, rfl, rfl, rfl, rfl⟩, .of_same rfl (.refl _)⟩
      · cases hstep
        exact ⟨⟨rfl, rfl, rfl, rfl, rfl, rfl⟩, ⟨rfl, l.dropOutput_draws.input⟩⟩
  | completing =>
      rw [hstage] at hstep
      cases hstep
      exact ⟨⟨rfl, rfl, rfl, rfl, rfl, rfl⟩, ⟨rfl, l.dropOutput_draws.input⟩⟩
  | reporting fault =>
      rw [hstage] at hstep
      cases hstep
      cases fault <;> exact ⟨⟨rfl, rfl, rfl, rfl, rfl, rfl⟩, .of_same rfl (.refl _)⟩
  | shutting =>
      rw [hstage] at hstep
      cases hstep
      obtain ⟨-, haside, hdraws⟩ := shutDown_touches .sendingEnded l
      have haside' : l.Aside { l.shutDown .sendingEnded with sender := .finished } :=
        ⟨haside.setup_eq, haside.maxPayload_eq, haside.handshaked_eq, haside.reader_eq,
          haside.main_eq, haside.heard_eq⟩
      have hdraws' : l.Draws [] { l.shutDown .sendingEnded with sender := .finished } :=
        ⟨hdraws.arriving, hdraws.input⟩
      have hrelease := releaseWire_touches { l.shutDown .sendingEnded with sender := .finished }
      exact ⟨haside'.trans hrelease.aside, hdraws'.trans hrelease.draws⟩
  | finished | crashed _ =>
      rw [hstage] at hstep
      cases hstep

theorem stepSender_aside {choice : Choice} {most : Nat}
    (hstep : l.stepSender choice most = some l') : l.Aside l' ∧ l.Draws [] l' := by
  cases choice with
  | work => exact workSender_aside hstep
  | stop =>
      have hstop : l.stopSender = some l' := hstep
      unfold stopSender at hstop
      split at hstop
      · split at hstop
        · split at hstop <;> cases hstop
          exact ⟨⟨rfl, rfl, rfl, rfl, rfl, rfl⟩, .of_same rfl (.refl _)⟩
        · cases hstop
          exact ⟨⟨rfl, rfl, rfl, rfl, rfl, rfl⟩, .of_same rfl (.refl _)⟩
        · cases hstop
          exact ⟨⟨rfl, rfl, rfl, rfl, rfl, rfl⟩, .of_same rfl (.refl _)⟩
        · cases hstop
      · cases hstop

end Sender

end Link

/-! ## 2. The handshake is marked in time -/

/-- The stages before the handshake is complete, and those that come right after it or are reached
by reading only. -/
def MainStage.Early : MainStage → Prop
  | .unstarted | .opening | .examining _ | .marking _ => True
  | _ => False

def MainStage.Late : MainStage → Prop
  | .showing _ | .telling _ | .reading _ | .handling _ _ => True
  | _ => False

namespace Link

/-- The main task and the mark of the handshake go together. -/
structure Timely (l : Link) : Prop where
  early : l.main.Early → l.connection.handshaked = false
  late : l.main.Late → l.connection.handshaked = true

section Timely

variable {l l' : Link}

theorem Timely.aside (h : l.Timely) (ha : l.Aside l') : l'.Timely where
  early hearly := by
    rw [ha.handshaked_eq]
    rw [ha.main_eq] at hearly
    exact h.early hearly
  late hlate := by
    rw [ha.handshaked_eq]
    rw [ha.main_eq] at hlate
    exact h.late hlate

/-- A stage that is neither before the handshake nor right after it goes with both. -/
theorem timely_of_neither (hearly : ¬ l.main.Early) (hlate : ¬ l.main.Late) : l.Timely :=
  ⟨fun h => absurd h hearly, fun h => absurd h hlate⟩

theorem timely_of_early (hhandshaked : l.connection.handshaked = false) (hlate : ¬ l.main.Late) :
    l.Timely :=
  ⟨fun _ => hhandshaked, fun h => absurd h hlate⟩

theorem timely_of_late (hhandshaked : l.connection.handshaked = true) (hearly : ¬ l.main.Early) :
    l.Timely :=
  ⟨fun h => absurd h hearly, fun _ => hhandshaked⟩

theorem timely_openHandshake (h : l.connection.handshaked = false) : l.openHandshake.Timely := by
  have hsame := Connection.handshaked_start l.setup.handshake l.connection
  unfold openHandshake
  generalize l.setup.handshake.start Connection.rawSender l.connection = started at hsame ⊢
  dsimp only
  split
  · exact timely_of_neither id id
  · exact timely_of_early (hsame.trans h) id
  · exact timely_of_neither id id

theorem timely_examine (portion : Portion) (h : l.connection.handshaked = false) :
    (l.examine portion).Timely := by
  have hsame := Connection.handshaked_examine l.setup.handshake portion.buffer l.connection
  unfold examine
  generalize l.setup.handshake.examine Connection.rawSender portion.buffer l.connection =
    examined at hsame ⊢
  dsimp only
  split
  · exact timely_of_neither id id
  · exact timely_of_early (hsame.trans h) id
  · split <;> exact timely_of_neither id id

theorem timely_takeInput (outcome : ReadOutcome) (l : Link) : (l.takeInput outcome).Timely := by
  unfold takeInput
  cases hmark : l.connection.handshaked with
  | true => exact timely_of_late hmark id
  | false => exact timely_of_early hmark id

theorem timely_readFrame (portion : Portion) (h : l.connection.handshaked = true) :
    (l.readFrame portion).Timely := by
  unfold readFrame dispatch
  dsimp only
  split
  · exact timely_of_neither id id
  · exact timely_of_neither id id
  · split
    · exact timely_of_late h id
    · split <;> exact timely_of_late h id

theorem Timely.workMain (h : l.Timely) (hwork : l.workMain = some l') : l'.Timely := by
  have hearly := h.early
  have hlate := h.late
  unfold Link.workMain at hwork
  cases hstage : l.main with
  | unstarted | finished | crashed _ =>
      rw [hstage] at hwork
      cases hwork
  | opening =>
      rw [hstage] at hwork hearly
      cases hwork
      exact timely_openHandshake (l := l.enter .handshaking) (hearly trivial)
  | examining portion =>
      rw [hstage] at hwork hearly
      cases hwork
      exact timely_examine portion (hearly trivial)
  | marking portion =>
      rw [hstage] at hwork
      cases hwork
      exact timely_of_late rfl id
  | showing portion =>
      rw [hstage] at hwork hlate
      cases hwork
      exact timely_of_late (hlate trivial) id
  | telling portion =>
      rw [hstage] at hwork hlate
      cases portion with
      | none =>
          cases hwork
          exact timely_of_neither id id
      | some portion =>
          cases hwork
          exact timely_of_late (hlate trivial) id
  | waiting read =>
      rw [hstage] at hwork
      dsimp only at hwork
      split at hwork
      · cases hwork
      · cases hwork
        exact timely_of_neither id id
      · cases hwork
        exact timely_takeInput _ _
  | reading portion =>
      rw [hstage] at hwork hlate
      cases hwork
      exact timely_readFrame portion (hlate trivial)
  | handling job portion =>
      have haside := (goOn_touches job l).aside
      rw [hstage] at hwork hlate
      dsimp only at hwork
      split at hwork
      · next hl =>
        cases hwork
        rw [hl] at haside
        exact timely_of_late (haside.handshaked_eq.trans (hlate trivial)) id
      · next hl =>
        cases hwork
        rw [hl] at haside
        exact timely_of_late (haside.handshaked_eq.trans (hlate trivial)) id
  | settling portion =>
      rw [hstage] at hwork
      cases hwork
      unfold settle
      split
      · exact timely_of_neither id id
      · dsimp only
        split <;> exact timely_of_neither id id
  | awaitingWriter _ | awaitingReceiver =>
      rw [hstage] at hwork
      dsimp only at hwork
      split at hwork <;> cases hwork
      exact timely_of_neither id id
  | awaitingSender reason deadline =>
      rw [hstage] at hwork
      dsimp only [awaitSender] at hwork
      split at hwork
      · cases hwork
        exact timely_of_neither id id
      · split at hwork
        · cases hwork
        · split at hwork <;> cases hwork
          exact timely_of_neither id id
  | cutting reason =>
      rw [hstage] at hwork
      cases hwork
      exact timely_of_neither id id
  | leaving _ | releasing | concluding _ | notifying _ | recording _ | cancelling _ | draining _
    | shutting _ | ending | tellingEnd | markingEnd =>
      rw [hstage] at hwork
      cases hwork
      exact timely_of_neither id id

theorem Timely.stepMain {choice : Choice} (h : l.Timely) (hstep : l.stepMain choice = some l') :
    l'.Timely := by
  cases choice with
  | work => exact h.workMain hstep
  | stop =>
      have hstop : l.stopMain = some l' := hstep
      unfold stopMain at hstop
      split at hstop
      · split at hstop <;> cases hstop
        exact timely_of_neither id id
      · cases hstop

theorem Timely.start (h : l.Timely) : l.start.Timely := by
  unfold Link.start
  split
  · next hstage => exact timely_of_early (h.early (by rw [hstage]; trivial)) id
  · exact h

end Timely

/-! ## 3. Every move -/

section Moves

variable {l l' : Link}

/-- **What comes from outside and what the other tasks do** leaves the main task's things alone, and
but for the arrival of bytes it loses none of those that arrived. -/
theorem move_aside {m : Move} (hmain : ∀ choice, m ≠ .main choice) (hstart : m ≠ .start)
    (hmove : l.move? m = some l') :
    l.Aside l' ∧ ((∀ bs, m ≠ .arrive bs) → ∃ bs, l.Draws bs l') := by
  have hnone : l.Aside l' ∧ l.Draws [] l' →
      l.Aside l' ∧ ((∀ bs, m ≠ .arrive bs) → ∃ bs, l.Draws bs l') :=
    fun h => ⟨h.1, fun _ => ⟨[], h.2⟩⟩
  have htouching : ∀ {fs bs}, l.Touches fs bs l' →
      l.Aside l' ∧ ((∀ bs, m ≠ .arrive bs) → ∃ bs, l.Draws bs l') :=
    fun h => ⟨h.aside, fun _ => ⟨_, h.draws⟩⟩
  cases m with
  | main choice => exact absurd rfl (hmain choice)
  | start => exact absurd rfl hstart
  | writer choice => exact hnone (stepWriter_aside hmove)
  | sender choice most => exact hnone (stepSender_aside hmove)
  | receiver choice most =>
      obtain ⟨bs, htouches⟩ := stepReceiver_touches hmove
      exact htouching htouches
  | job number =>
      obtain ⟨job, -, htouches⟩ := stepJob_touches hmove
      exact htouching htouches
  | call command =>
      cases hmove
      exact htouching (perform_touches command l)
  | shutDown reason =>
      cases hmove
      exact htouching (shutDown_touches reason l)
  | arrive bs =>
      cases hmove
      exact ⟨⟨rfl, rfl, rfl, rfl, rfl, rfl⟩, fun harrive => absurd rfl (harrive bs)⟩
  | record _ | elapse _ | endArriving | depart _ | abandon | failRead _ | failWrite _ =>
      cases hmove
      exact hnone ⟨⟨rfl, rfl, rfl, rfl, rfl, rfl⟩, .of_same rfl (.refl _)⟩

/-- What a link is set up with stays, and a handshake that is complete stays so. -/
theorem move_keeps {m : Move} (hmove : l.move? m = some l') :
    l'.setup = l.setup ∧ l'.connection.maxPayload = l.connection.maxPayload ∧
      (l.connection.handshaked = true → l'.connection.handshaked = true) := by
  have hqueues : ∀ {fs}, l.Queues fs l' →
      l'.setup = l.setup ∧ l'.connection.maxPayload = l.connection.maxPayload ∧
        (l.connection.handshaked = true → l'.connection.handshaked = true) :=
    fun h => ⟨h.setup_eq, h.connection.maxPayload, h.connection.handshaked⟩
  cases m with
  | main choice => exact hqueues (stepMain_queues hmove)
  | start =>
      cases hmove
      exact hqueues (start_queues l)
  | _ =>
      obtain ⟨haside, -⟩ := move_aside (fun _ => Move.noConfusion) Move.noConfusion hmove
      exact ⟨haside.setup_eq, haside.maxPayload_eq, haside.handshaked_eq.trans⟩

/-- Once the handshake is complete it sends nothing more. -/
theorem Timely.greets_eq_nil {m : Move} (h : l.Timely) (hmark : l.connection.handshaked = true) :
    l.greets m l' = [] := by
  have hearly : ¬ l.main.Early := by
    intro hearly
    cases (h.early hearly).symm.trans hmark
  unfold greets
  split
  · next hstage => exact absurd (by rw [hstage]; trivial) hearly
  · next hstage => exact absurd (by rw [hstage]; trivial) hearly
  · rfl

theorem Timely.move {m : Move} (h : l.Timely) (hmove : l.move? m = some l') : l'.Timely := by
  cases m with
  | main choice => exact h.stepMain hmove
  | start =>
      cases hmove
      exact h.start
  | _ => exact h.aside (move_aside (fun _ => Move.noConfusion) Move.noConfusion hmove).1

end Moves

end Link

end Courier
