import Courier.Proofs.Host.Names

/-!
Courier.Proofs.Host.Stopping — what is quiet after a call that stops a server.

Such a call waits until the run takes in no more connections, empties the registry, and waits until
the connections that were in it are closed. It sees those that are in the registry then and those
that have left it; after the call they dispatch no more frames, and listeners are not told that they
are ready. A connection that was taken in but has not entered the registry by then is overlooked: it
may enter it after the call has returned. If none is overlooked the server is quiet
(`Server.quiet_of_run`).
-/

namespace Courier

namespace Server

variable {s s' : Server} {m : ServerMove} {config : ServerConfig} {n : Nat} {a : AttendedLink}

/-! ## 1. Connections that have left -/

/-- The connection has begun to close, and its id was taken out of the registry. -/
def Left (n : Nat) (s : Server) : Prop :=
  ∃ id done, s.record? n = some (id, done) ∧ .strike ∈ done

/-- The frames of a connection that were dispatched. -/
def heard (n : Nat) (s : Server) : List Frame :=
  (s.link? n).elim [] Link.heard

/-- Whoever has left does not come back. -/
theorem Left.move (h : s.Left n) (hrecorded : s.Recorded config) (hmove : s.move? m = some s') :
    s'.Left n := by
  obtain ⟨id, done, hrecord, hstruck⟩ := h
  cases books_of_move hrecorded hmove with
  | rests records reserved_eq registry_eq
    | clears move stage records reserved_eq registry_eq =>
      exact ⟨id, done, (records n).trans hrecord, hstruck⟩
  | accepts move found records reserved_eq registry_eq =>
      have hn : n ≠ s.guests.length := Nat.ne_of_lt (record_lt hrecord)
      exact ⟨id, done, (records n).trans ((if_neg hn).trans hrecord), hstruck⟩
  | @fails guest name before records reserved_eq registry_eq =>
      by_cases hn : n = guest
      · exact ⟨name, _, (records n).trans (if_pos hn), by simp [ServerDuty.at]⟩
      · exact ⟨id, done, (records n).trans ((if_neg hn).trans hrecord), hstruck⟩
  | @attends guest name before' duty move before records reserved_eq registry_eq =>
      by_cases hn : n = guest
      · subst hn
        cases before.symm.trans hrecord
        exact ⟨id, _, (records n).trans (if_pos rfl), List.mem_append_left _ hstruck⟩
      · exact ⟨id, done, (records n).trans ((if_neg hn).trans hrecord), hstruck⟩

theorem Left.not_live (h : s.Left n) (hexact : s.Exact) : n ∉ s.live := by
  intro hlive
  obtain ⟨id, done, hrecord, hstruck⟩ := h
  obtain ⟨e, he, rfl⟩ := List.mem_map.mp hlive
  obtain ⟨done', hrecord', -, hheld⟩ := hexact e he
  cases hrecord.symm.trans hrecord'
  exact hheld hstruck

theorem Left.fulfilled (h : s.Left n) (hrecorded : s.Recorded config)
    (hlink : s.forum.links n = some a) : .strike ∈ a.fulfilled ServerDuty.at := by
  obtain ⟨id, done, hrecord, hstruck⟩ := h
  cases hrecord.symm.trans (hrecorded.record_eq hlink)
  exact hstruck

/-- All that is left to do for it is to tell listeners of the end. -/
theorem Left.duty_eq {duty : ServerDuty} (h : s.Left n) (hrecorded : s.Recorded config)
    (hlink : s.forum.links n = some a) (hduty : a.duty? ServerDuty.at = some duty) :
    duty = .announceEnd := by
  have hages : (a.doneWith a.link).link.Ages := hrecorded.orderly.ages n a hlink
  have hbegun : ServerDuty.Begun (a.fulfilled ServerDuty.at ++ [duty]) := by
    rw [← AttendedLink.fulfilled_doneWith hduty]
    exact ⟨_, AttendedLink.fulfilled_front hages⟩
  exact hbegun.eq_announceEnd (h.fulfilled hrecorded hlink)

/-- **Listeners are not told that it is ready.** -/
theorem Left.tells (h : s.Left n) (hrecorded : s.Recorded config) (m : ServerMove) :
    ∀ e ∈ (s.tells m).about n, e.milestone ≠ .handshaked := by
  intro e he
  cases m with
  | attend guest =>
      have he : e ∈ (s.forum.attending ServerDuty.at ServerDuty.topic? guest).about n := he
      unfold Forum.attending at he
      split at he
      · cases he
      · next b hlink =>
        split at he
        · cases he
        · next duty hduty =>
          rw [Forum.about_tag] at he
          split at he
          · next hn =>
            subst hn
            obtain rfl := h.duty_eq hrecorded hlink hduty
            have he : e ∈ b.link.news .closed := by simpa [ServerDuty.topic?] using he
            unfold Link.news at he
            dsimp only at he
            split at he
            · rw [List.mem_singleton.mp he]
              exact Milestone.noConfusion
            · cases he
          · cases he
  | _ => cases he

/-- No duty is done for a connection before its transport is set up. -/
theorem Left.not_settingUp {g : Guest} (h : s.Left n) (hg : s.guests[n]? = some g) :
    g.stage ≠ .settingUp := by
  intro hstage
  obtain ⟨id, done, hrecord, hstruck⟩ := h
  rw [record_eq hg, Guest.done, hstage] at hrecord
  cases hrecord
  cases hstruck

theorem heard_eq {g : Guest} (hg : s.guests[n]? = some g) :
    s.heard n = g.link?.elim [] Link.heard := by
  unfold heard link?
  rw [hg, Option.bind_some]

theorem heard_linked {g : Guest} (hg : s.guests[n]? = some g) (hstage : g.stage = .linked a) :
    s.heard n = a.link.heard := by
  rw [heard_eq hg, Guest.link?, hstage]
  rfl

theorem heard_congr (hguests : s'.guests[n]? = s.guests[n]?) : s'.heard n = s.heard n := by
  unfold heard link?
  rw [hguests]

/-- **No more of its frames are dispatched.** -/
theorem Left.heard_move (h : s.Left n) (hrecorded : s.Recorded config)
    (hmove : s.move? m = some s') : s'.heard n = s.heard n := by
  have ⟨_, _, hrecord, _⟩ := h
  obtain ⟨g, hg, -⟩ := Option.map_eq_some_iff.mp hrecord
  cases acts_of_move hmove with
  | asks guests reserved_eq registry_eq =>
      obtain ⟨g', hg', asked⟩ := guests.after hg
      cases asked with
      | rests => exact heard_congr (hg'.trans hg.symm)
      | asked stage stands =>
          rw [heard_linked hg' rfl, heard_linked hg stage]
          exact stands.heard_eq
  | clears move stage guests_eq reserved_eq registry_eq =>
      exact heard_congr (by rw [guests_eq])
  | accepts move found guests_eq reserved_eq registry_eq =>
      refine heard_congr ?_
      rw [guests_eq, getElem?_concat, if_neg (Nat.ne_of_lt (record_lt hrecord))]
  | @opens guest b wire before stage guests_eq reserved_eq registry_eq
    | @fails guest b before stage guests_eq reserved_eq registry_eq =>
      have hn : n ≠ guest := by
        rintro rfl
        exact h.not_settingUp before stage
      exact heard_congr ((guests_set before guests_eq n).trans (if_neg hn))
  | @attends guest b a duty move before stage duty_eq guests_eq reserved_eq registry_eq =>
      have hset := guests_set before guests_eq n
      by_cases hn : n = guest
      · subst hn
        rw [heard_linked (hset.trans (if_pos rfl)) rfl, heard_linked before stage]
        rfl
      · exact heard_congr (hset.trans (if_neg hn))
  | @moves guest b a a' linkMove move before stage step guests_eq reserved_eq registry_eq =>
      have hset := guests_set before guests_eq n
      by_cases hn : n = guest
      · subst hn
        have hcloses := AttendedLink.closes_of_fulfilled (hrecorded.ages before stage)
          (h.fulfilled hrecorded (forum_of_stage before stage)) (by simp [ServerDuty.at])
        rw [heard_linked (hset.trans (if_pos rfl)) rfl, heard_linked before stage]
        exact hcloses.heard_eq (AttendedLink.move_link step)
      · exact heard_congr (hset.trans (if_neg hn))

/-! ## 2. Connections that are closed -/

/-- Links that are marked as closed are at their end, whatever happens on a server. -/
theorem sealed_move (h : s.Linked fun _ l => l.Sealed) (hrecorded : s.Recorded config)
    (hmove : s.move? m = some s') : s'.Linked fun _ l => l.Sealed := by
  refine h.move hrecorded.orderly ?_ ?_ ?_ hmove
  · intro id l l' hsealed hstands
    exact hsealed.alike hstands.connection hstands.main_eq
  · intro id l l' m hages hsealed hstep
    exact hsealed.move hstep
  · intro g wire
    unfold linkFor
    dsimp only
    generalize ((s.runs[g.run]?).map (·.cancelled)).getD true = cancelled
    exact Link.sealed_of_not_closed rfl

/-- A connection that is closed has left. -/
theorem left_of_closed {l : Link} (hrecorded : s.Recorded config)
    (hsealed : s.Linked fun _ l => l.Sealed) (hlink : s.link? n = some l)
    (hclosed : l.connection.closed = true) : s.Left n := by
  rw [link?_eq] at hlink
  obtain ⟨a, ha, rfl⟩ := Option.map_eq_some_iff.mp hlink
  obtain ⟨g, hg, hstage⟩ := stage_of_forum ha
  have hages := hrecorded.ages hg hstage
  have hstate := hages.state_eq
  rw [hsealed n g a hg hstage hclosed] at hstate
  exact ⟨_, _, hrecorded.record_eq ha,
    AttendedLink.fulfilled_of_closed hages hstate (by simp [ServerDuty.at])⟩

/-! ## 3. Calls -/

/-- No run takes in connections unless one did before. -/
def Tires (s s' : Server) : Prop :=
  ∀ r' ∈ s'.runs, r'.accepting = true → ∃ r ∈ s.runs, r.accepting = true

/-- No run takes in connections. -/
def Idle (s : Server) : Prop :=
  ∀ r ∈ s.runs, r.accepting = false

theorem tires_of_runs (hruns : s'.runs = s.runs) : s.Tires s' := by
  intro r hr haccepting
  rw [hruns] at hr
  exact ⟨r, hr, haccepting⟩

theorem tires_cancelRun (run : Nat) (s : Server) : s.Tires (s.cancelRun run) := by
  intro r' hr' haccepting
  obtain ⟨k, hk⟩ := List.mem_iff_getElem?.mp hr'
  unfold cancelRun at hk
  dsimp only at hk
  rw [List.getElem?_modify] at hk
  obtain ⟨r, hr, rfl⟩ := Option.map_eq_some_iff.mp hk
  refine ⟨r, List.mem_of_getElem? hr, ?_⟩
  split at haccepting <;> exact haccepting

theorem Idle.tires (h : s.Idle) (htires : s.Tires s') : s'.Idle := by
  intro r' hr'
  cases haccepting : r'.accepting with
  | false => rfl
  | true =>
      obtain ⟨r, hr, hbefore⟩ := htires r' hr' haccepting
      cases (h r hr).symm.trans hbefore

/-- What a move does to the runs of a server and to the calls that stop it. -/
inductive Calls (s : Server) (m : ServerMove) (s' : Server) : Prop where
  | rests (tires : s.Tires s') (stops_eq : s'.stops = s.stops)
  | starts {bound : Except IoError SocketAddress} (move : m = .start bound)
      (stops_eq : s'.stops = s.stops)
  | begins {stage : StopStage} (tires : s.Tires s') (stops_eq : s'.stops = s.stops ++ [stage])
  | goesOn {call : Nat} {stage stage' : StopStage} {s₁ : Server} (move : m = .goOnStopping call)
      (before : s.stops[call]? = some stage) (step : s.stepStop? stage = some (stage', s₁))
      (tires : s.Tires s') (stops_eq : s'.stops = s.stops.set call stage')

theorem calls_askEach (command : Command) (guests : List Nat) (s : Server) :
    (s.askEach command guests).2.runs = s.runs ∧
      (s.askEach command guests).2.stops = s.stops := by
  induction guests generalizing s with
  | nil => exact ⟨rfl, rfl⟩
  | cons guest guests ih =>
      unfold askEach
      split
      · exact ih s
      · split
        · exact ih _
        · split
          · exact ih s
          · exact ⟨rfl, rfl⟩

theorem calls_fulfil (duty : ServerDuty) (guest : Nat) (l : Link) (s : Server) :
    (s.fulfil duty guest l).runs = s.runs ∧ (s.fulfil duty guest l).stops = s.stops := by
  cases duty with
  | announceEnd =>
      unfold fulfil
      dsimp only
      split <;> exact ⟨rfl, rfl⟩
  | _ => exact ⟨rfl, rfl⟩

/-- A step of a call leaves all other calls alone. -/
theorem calls_stepStop {stage stage' : StopStage} (hstep : s.stepStop? stage = some (stage', s')) :
    s.Tires s' ∧ s'.stops = s.stops := by
  unfold stepStop? at hstep
  split at hstep
  · cases hstep
    exact ⟨tires_cancelRun _ s, rfl⟩
  · split at hstep
    · cases hstep
    · split at hstep <;> cases hstep
      exact ⟨tires_of_runs rfl, rfl⟩
  · cases hstep
    exact ⟨tires_of_runs rfl, rfl⟩
  · cases hstep
    exact ⟨tires_of_runs rfl, rfl⟩
  · cases hstep
    exact ⟨tires_of_runs rfl, rfl⟩
  · cases hstep
    exact ⟨tires_of_runs rfl, rfl⟩
  · split at hstep
    · cases hstep
    · split at hstep <;> cases hstep
      exact ⟨tires_of_runs rfl, rfl⟩
  · cases hstep

theorem calls_of_move (hmove : s.move? m = some s') : s.Calls m s' := by
  cases m with
  | register identifier handler =>
      unfold move? at hmove
      dsimp only at hmove
      split at hmove
      · next hok =>
        cases hmove
        unfold register at hok
        cases hrouter : s.router.register identifier handler with
        | error r =>
            rw [hrouter] at hok
            cases hok
        | ok router =>
            rw [hrouter] at hok
            cases hok
            exact .rests (tires_of_runs rfl) rfl
      · cases hmove
        exact .rests (tires_of_runs rfl) rfl
  | start bound =>
      cases hmove
      refine .starts rfl ?_
      unfold start
      split <;> rfl
  | stop =>
      cases hmove
      unfold stop
      split <;> exact .begins (tires_of_runs rfl) rfl
  | goOnStopping call =>
      have hstep : s.goOnStopping? call = some s' := hmove
      unfold goOnStopping? at hstep
      split at hstep
      · cases hstep
      · next stage hstage =>
        obtain ⟨⟨stage', s₁⟩, hstop, rfl⟩ := Option.map_eq_some_iff.mp hstep
        obtain ⟨htires, hstops⟩ := calls_stepStop hstop
        exact .goesOn rfl hstage hstop htires (congrArg (·.set call stage') hstops)
  | abandon =>
      cases hmove
      unfold abandon
      split
      · exact .rests (tires_of_runs rfl) rfl
      · exact .rests (tires_cancelRun _ s) rfl
  | accept run peer attempts =>
      have hstep : s.accept? run peer attempts = some s' := hmove
      unfold accept? at hstep
      split at hstep
      · cases hstep
      · split at hstep
        · dsimp only at hstep
          split at hstep
          · cases hstep
          · cases hstep
            exact .rests (tires_of_runs rfl) rfl
        · cases hstep
  | endAccepting run =>
      have hstep : s.endAccepting? run = some s' := hmove
      unfold endAccepting? at hstep
      split at hstep
      · cases hstep
      · split at hstep <;> cases hstep
        refine .rests (fun r' hr' haccepting => ?_) rfl
        rcases List.mem_or_eq_of_mem_set hr' with hold | rfl
        · exact ⟨r', hold, haccepting⟩
        · cases haccepting
  | setUp guest wire =>
      have hstep : s.setUp? guest wire = some s' := hmove
      unfold setUp? at hstep
      split at hstep <;> cases hstep
      exact .rests (tires_of_runs rfl) rfl
  | failSetUp guest =>
      have hstep : s.failSetUp? guest = some s' := hmove
      unfold failSetUp? at hstep
      split at hstep <;> cases hstep
      exact .rests (tires_of_runs rfl) rfl
  | attend guest =>
      have hstep : s.attend? guest = some s' := hmove
      unfold attend? at hstep
      split at hstep
      · obtain ⟨duty, -, rfl⟩ := Option.map_eq_some_iff.mp hstep
        obtain ⟨hruns, hstops⟩ := calls_fulfil duty guest _ s
        exact .rests (tires_of_runs hruns) hstops
      · cases hstep
  | onLink guest linkMove =>
      have hstep : s.moveLink? guest linkMove = some s' := hmove
      unfold moveLink? at hstep
      split at hstep
      · obtain ⟨a', -, rfl⟩ := Option.map_eq_some_iff.mp hstep
        exact .rests (tires_of_runs rfl) rfl
      · cases hstep
  | broadcast command order =>
      unfold move? at hmove
      dsimp only at hmove
      split at hmove <;> cases hmove
      obtain ⟨hruns, hstops⟩ := s.calls_askEach command order
      exact .rests (tires_of_runs hruns) hstops

/-! ## 4. What a call waits for -/

/-- A server, its registry, and its connections that are closed. -/
structure Sound (config : ServerConfig) (s : Server) : Prop where
  recorded : s.Recorded config
  exact : s.Exact
  closed : s.Linked fun _ l => l.Sealed

theorem Sound.move (h : s.Sound config) (hmove : s.move? m = some s') : s'.Sound config where
  recorded := h.recorded.move hmove
  exact := h.exact.move h.recorded hmove
  closed := sealed_move h.closed h.recorded hmove

theorem Sound.run {moves : List ServerMove} (h : s.Sound config)
    (hrun : s.run? moves = some s') : s'.Sound config :=
  invariant_run (P := fun s => s.Sound config) (fun h hmove => h.move hmove) h hrun

theorem sound_new {source : RandomSource} (hnew : Server.new config source = .ok s) :
    s.Sound config := by
  refine ⟨recorded_new hnew, exact_new hnew, fun n g a hg => ?_⟩
  rw [(guests_new hnew).1] at hg
  cases hg

/-- How far a call has come that was to wait for these connections: all for which it need not wait
any more have left. -/
inductive Awaits (awaited : List Nat) (s : Server) : StopStage → Prop where
  | disconnecting (left : List Nat) : Awaits awaited s (.disconnecting left awaited)
  | waiting {left : List Nat} (gone : ∀ n ∈ awaited, n ∈ left ∨ s.Left n) :
      Awaits awaited s (.awaitingGuests left)
  | returned (gone : ∀ n ∈ awaited, s.Left n) : Awaits awaited s .returned

theorem Awaits.mono {awaited : List Nat} {stage : StopStage} (h : s.Awaits awaited stage)
    (hleft : ∀ n, s.Left n → s'.Left n) : s'.Awaits awaited stage := by
  cases h with
  | disconnecting left => exact .disconnecting left
  | waiting gone => exact .waiting fun n hn => (gone n hn).imp_right (hleft n)
  | returned gone => exact .returned fun n hn => hleft n (gone n hn)

/-- A step of the call. -/
theorem Awaits.step {awaited : List Nat} {stage stage' : StopStage} (h : s.Awaits awaited stage)
    (hsound : s.Sound config) (hstep : s.stepStop? stage = some (stage', s')) :
    s.Awaits awaited stage' := by
  cases h with
  | disconnecting left =>
      cases left with
      | nil =>
          cases hstep
          exact .waiting fun n hn => .inl hn
      | cons guest left =>
          cases hstep
          exact .disconnecting left
  | @waiting left gone =>
      cases left with
      | nil =>
          cases hstep
          exact .returned fun n hn => (gone n hn).resolve_left List.not_mem_nil
      | cons guest left =>
          unfold stepStop? at hstep
          dsimp only at hstep
          split at hstep
          · cases hstep
          · next l hlink =>
            split at hstep
            · next hclosed =>
              cases hstep
              refine .waiting fun n hn => ?_
              rcases gone n hn with hwaits | hleft
              · rcases List.mem_cons.mp hwaits with rfl | hlater
                · exact .inr (left_of_closed hsound.recorded hsound.closed hlink hclosed)
                · exact .inl hlater
              · exact .inr hleft
            · cases hstep
  | returned gone => cases hstep

theorem Awaits.move {awaited : List Nat} {stage : StopStage} {call : Nat}
    (h : s.Awaits awaited stage) (hsound : s.Sound config)
    (hstage : s.stops[call]? = some stage) (hmove : s.move? m = some s') :
    ∃ stage', s'.stops[call]? = some stage' ∧ s'.Awaits awaited stage' := by
  have hlt : call < s.stops.length := (List.getElem?_eq_some_iff.mp hstage).1
  have hleft (n : Nat) (hn : s.Left n) : s'.Left n := hn.move hsound.recorded hmove
  cases calls_of_move hmove with
  | rests tires stops_eq | starts move stops_eq =>
      exact ⟨stage, stops_eq ▸ hstage, h.mono hleft⟩
  | begins tires stops_eq =>
      refine ⟨stage, ?_, h.mono hleft⟩
      rw [stops_eq, List.getElem?_append_left hlt]
      exact hstage
  | @goesOn other stage₁ stage₂ s₁ move before step tires stops_eq =>
      by_cases hcall : other = call
      · subst hcall
        cases before.symm.trans hstage
        refine ⟨stage₂, ?_, (h.step hsound step).mono hleft⟩
        rw [stops_eq, List.getElem?_set_self hlt]
      · refine ⟨stage, ?_, h.mono hleft⟩
        rw [stops_eq, List.getElem?_set_ne hcall]
        exact hstage

theorem Awaits.run {awaited : List Nat} {stage : StopStage} {call : Nat} {moves : List ServerMove}
    (h : s.Awaits awaited stage) (hsound : s.Sound config)
    (hstage : s.stops[call]? = some stage) (hrun : s.run? moves = some s') :
    ∃ stage', s'.stops[call]? = some stage' ∧ s'.Awaits awaited stage' := by
  refine (invariant_run (P := fun s => s.Sound config ∧
    ∃ stage, s.stops[call]? = some stage ∧ s.Awaits awaited stage) ?_
    ⟨hsound, stage, hstage, h⟩ hrun).2
  rintro m s s' ⟨hsound, stage, hstage, h⟩ hmove
  exact ⟨hsound.move hmove, h.move hsound hstage hmove⟩

/-- A call that is about to empty the registry sees the connection: it is in the registry, or has
left it. -/
def Sees (n : Nat) (s : Server) : Prop :=
  n ∈ s.live ∨ s.Left n

theorem Left.run {moves : List ServerMove} (h : s.Left n) (hsound : s.Sound config)
    (hrun : s.run? moves = some s') :
    s'.Left n ∧ s'.heard n = s.heard n ∧
      ∀ e ∈ (s.tidings moves).about n, e.milestone ≠ .handshaked := by
  induction moves generalizing s with
  | nil =>
      cases hrun
      exact ⟨h, rfl, fun e he => by cases he⟩
  | cons m moves ih =>
      unfold run? at hrun
      split at hrun
      · cases hrun
      · next s₁ hmove =>
        rw [tidings, hmove]
        obtain ⟨hleft, hheard, hnews⟩ :=
          ih (h.move hsound.recorded hmove) (hsound.move hmove) hrun
        refine ⟨hleft, hheard.trans (h.heard_move hsound.recorded hmove), fun e he => ?_⟩
        dsimp only at he
        rw [Forum.about_append] at he
        rcases List.mem_append.mp he with hnow | hlater
        · exact h.tells hsound.recorded m e hnow
        · exact hnews e hlater

/-- **When a call returns, all connections that it saw have left.** -/
theorem left_of_returned {call : Nat} {between : List ServerMove} (hsound : s.Sound config)
    (hclearing : s.stops[call]? = some .clearing)
    (hstop : s.run? (.goOnStopping call :: between) = some s')
    (hreturned : s'.stops[call]? = some .returned) (hsees : s.Sees n) : s'.Left n := by
  rcases hsees with hlive | hleft
  · unfold run? at hstop
    split at hstop
    · cases hstop
    · next s₁ hmove =>
      have hstage : s₁.stops[call]? = some (.disconnecting s.live s.live) := by
        have hstep : s.goOnStopping? call = some s₁ := hmove
        unfold goOnStopping? at hstep
        rw [hclearing] at hstep
        cases hstep
        exact List.getElem?_set_self (List.getElem?_eq_some_iff.mp hclearing).1
      obtain ⟨stage, hstage', hawaits⟩ :=
        (Awaits.disconnecting s.live).run (hsound.move hmove) hstage hstop
      cases hreturned.symm.trans hstage'
      cases hawaits with
      | returned gone => exact gone n hlive
  · exact (hleft.run hsound hstop).1

/-! ## 5. All connections -/

/-- There are no connections but such that have left. -/
def Deserted (s : Server) : Prop :=
  ∀ n, s.record? n = none ∨ s.Left n

theorem heard_of_none (h : s.record? n = none) : s.heard n = [] := by
  unfold heard link?
  rw [Option.map_eq_none_iff.mp h]
  rfl

theorem tells_of_none (h : s.record? n = none) (m : ServerMove) : (s.tells m).about n = [] := by
  have hlink : s.forum.links n = none := by
    unfold forum
    dsimp only
    rw [Option.map_eq_none_iff.mp h]
    rfl
  cases m with
  | attend guest =>
      change (s.forum.attending ServerDuty.at ServerDuty.topic? guest).about n = []
      unfold Forum.attending
      split
      · rfl
      · next a ha =>
        split
        · rfl
        · rw [Forum.about_tag, if_neg]
          intro hn
          rw [hn, hlink] at ha
          cases ha
  | _ => rfl

theorem accept_of_idle {run attempts : Nat} {peer : String} (h : s.Idle) :
    s.accept? run peer attempts = none := by
  unfold accept?
  split
  · rfl
  · next r hr => rw [h r (List.mem_of_getElem? hr), if_neg Bool.false_ne_true]

/-- No connections are taken in as long as the server is not started. -/
theorem Idle.move (h : s.Idle) (hrecorded : s.Recorded config)
    (hstart : ∀ bound, m ≠ .start bound) (hmove : s.move? m = some s') :
    s'.Idle ∧ ∀ n, s.record? n = none → s'.record? n = none := by
  constructor
  · cases calls_of_move hmove with
    | starts move stops_eq => exact absurd move (hstart _)
    | rests tires stops_eq | begins tires stops_eq
      | goesOn move before step tires stops_eq => exact h.tires tires
  · intro n hn
    cases books_of_move hrecorded hmove with
    | rests records reserved_eq registry_eq
      | clears move stage records reserved_eq registry_eq => exact (records n).trans hn
    | accepts move found records reserved_eq registry_eq =>
        subst move
        cases (accept_of_idle h).symm.trans hmove
    | fails before records reserved_eq registry_eq
      | attends move before records reserved_eq registry_eq =>
        refine (records n).trans ((if_neg ?_).trans hn)
        rintro rfl
        cases hn.symm.trans before

/-- Nobody is told of connections that are not there. -/
theorem Idle.run {moves : List ServerMove} (h : s.Idle) (hrecorded : s.Recorded config)
    (hstart : ∀ m ∈ moves, ∀ bound, m ≠ .start bound) (hrun : s.run? moves = some s') :
    s'.Idle ∧ ∀ n, s.record? n = none →
      s'.record? n = none ∧ (s.tidings moves).about n = [] := by
  induction moves generalizing s with
  | nil =>
      cases hrun
      exact ⟨h, fun _ hn => ⟨hn, rfl⟩⟩
  | cons m moves ih =>
      unfold run? at hrun
      split at hrun
      · cases hrun
      · next s₁ hmove =>
        rw [tidings, hmove]
        obtain ⟨hidle, hnone⟩ := h.move hrecorded (hstart m (List.mem_cons_self ..)) hmove
        obtain ⟨hidle', hrest⟩ := ih hidle (hrecorded.move hmove)
          (fun m hm => hstart m (List.mem_cons_of_mem _ hm)) hrun
        refine ⟨hidle', fun n hn => ?_⟩
        obtain ⟨hnone', hsilent⟩ := hrest n (hnone n hn)
        refine ⟨hnone', ?_⟩
        dsimp only
        rw [Forum.about_append, tells_of_none hn, hsilent]
        rfl

/-- **A server that all connections have left is quiet until it is started.** -/
theorem Deserted.run {moves : List ServerMove} (h : s.Deserted) (hidle : s.Idle)
    (hsound : s.Sound config) (hstart : ∀ m ∈ moves, ∀ bound, m ≠ .start bound)
    (hrun : s.run? moves = some s') :
    s'.connectionCount = 0 ∧ (∀ e ∈ s.tidings moves, e.2.milestone ≠ .handshaked) ∧
      ∀ n, s'.heard n = s.heard n := by
  have hfreshly := (hidle.run hsound.recorded hstart hrun).2
  refine ⟨?_, fun e he => ?_, fun n => ?_⟩
  · refine List.length_eq_zero_iff.mpr (List.eq_nil_iff_forall_not_mem.mpr fun e he => ?_)
    have hexact := (hsound.run hrun).exact
    rcases h e.2 with hfresh | hleft
    · obtain ⟨done, hrecord, -⟩ := hexact e he
      cases (hfreshly e.2 hfresh).1.symm.trans hrecord
    · exact (hleft.run hsound hrun).1.not_live hexact (List.mem_map_of_mem he)
  · have habout : e.2 ∈ (s.tidings moves).about e.1 :=
      List.mem_filterMap.mpr ⟨e, he, if_pos rfl⟩
    rcases h e.1 with hfresh | hleft
    · rw [(hfreshly e.1 hfresh).2] at habout
      cases habout
    · exact (hleft.run hsound hrun).2.2 e.2 habout
  · rcases h n with hfresh | hleft
    · rw [heard_of_none hfresh, heard_of_none (hfreshly n hfresh).1]
    · exact (hleft.run hsound hrun).2.1

/-! ## 6. Runs -/

/-- **After a call that stops a server has returned**, no connection that it saw is in the registry,
listeners are not told that any of them is ready, and no frame of theirs is dispatched. If it saw
all connections, and no run took in any more when it emptied the registry, the same holds of the
server as long as it is not started. -/
theorem quiet_of_run {config : ServerConfig} {source : RandomSource} {s₀ s₁ s₂ : Server}
    {before between later : List ServerMove} {call : Nat}
    (hnew : Server.new config source = .ok s₀) (hbefore : s₀.run? before = some s₁)
    (hclearing : s₁.stops[call]? = some .clearing)
    (hstop : s₁.run? (.goOnStopping call :: between) = some s₂)
    (hreturned : s₂.stops[call]? = some .returned) (hlater : s₂.run? later = some s) :
    (∀ n, s₁.Sees n → n ∉ s.live ∧
      (∀ e ∈ (s₂.tidings later).about n, e.milestone ≠ .handshaked) ∧ s.heard n = s₂.heard n) ∧
    ((∀ n < s₁.guests.length, s₁.Sees n) → s₁.Idle →
      (∀ m ∈ between ++ later, ∀ bound, m ≠ .start bound) →
      s.connectionCount = 0 ∧ (∀ e ∈ s₂.tidings later, e.2.milestone ≠ .handshaked) ∧
        ∀ n, s.heard n = s₂.heard n) := by
  have hsound₁ := (sound_new hnew).run hbefore
  have hsound₂ := hsound₁.run hstop
  have hleft : ∀ n, s₁.Sees n → s₂.Left n :=
    fun n hsees => left_of_returned hsound₁ hclearing hstop hreturned hsees
  refine ⟨fun n hsees => ?_, fun hall hidle hstart => ?_⟩
  · obtain ⟨hstays, hheard, hnews⟩ := (hleft n hsees).run hsound₂ hlater
    exact ⟨hstays.not_live (hsound₂.run hlater).exact, hnews, hheard⟩
  · have hstart₁ : ∀ m ∈ ServerMove.goOnStopping call :: between, ∀ bound, m ≠ .start bound := by
      intro m hm bound
      rcases List.mem_cons.mp hm with rfl | hm
      · exact ServerMove.noConfusion
      · exact hstart m (List.mem_append_left _ hm) bound
    obtain ⟨hidle₂, hfreshly⟩ := hidle.run hsound₁.recorded hstart₁ hstop
    have hdeserted : s₂.Deserted := by
      intro n
      cases hn : s₁.record? n with
      | none => exact .inl (hfreshly n hn).1
      | some record => exact .inr (hleft n (hall n (record_lt hn)))
    exact hdeserted.run hidle₂ hsound₂
      (fun m hm => hstart m (List.mem_append_right _ hm)) hlater

end Server

/-- A connection is in the registry when a call that stops the server empties it, and comes to its
end while the call waits. Somebody broadcasts after that. -/
def awaitedGuest : List ServerMove × List ServerMove × List ServerMove :=
  let main (n : Nat) : List ServerMove := List.replicate n (.onLink 0 (.main .work))
  let writer : List ServerMove :=
    [.onLink 0 (.writer .stop), .onLink 0 (.writer .work), .onLink 0 (.writer .work)]
  let receiver : List ServerMove :=
    [.onLink 0 (.receiver .stop 2048), .onLink 0 (.receiver .work 2048),
      .onLink 0 (.receiver .work 2048)]
  ([.start (.ok { ip := .short [127, 0, 0, 1], port := 7 }), .accept 0 "far" 1,
      .setUp 0 { capacity := 64 }] ++ main 3 ++ List.replicate 3 (.attend 0) ++
      [.stop, .goOnStopping 0, .endAccepting 0, .goOnStopping 0],
    List.replicate 2 (.goOnStopping 0) ++ main 3 ++ [.onLink 0 (.main .stop)] ++ main 2 ++
      List.replicate 2 (.attend 0) ++ main 4 ++ writer ++ main 2 ++
      List.replicate 5 (.onLink 0 (.sender .work 2048)) ++ main 3 ++ receiver ++ main 2 ++
      [.attend 0] ++ main 2 ++ List.replicate 2 (.goOnStopping 0),
    [.broadcast (.send "t" [21]) []])

theorem quiet_of_awaitedGuest :
    ∃ s₀ s₁ s₂ s, Server.new lifeServer lifeSource = .ok s₀ ∧
      s₀.run? awaitedGuest.1 = some s₁ ∧ s₁.live = [0] ∧
      s₁.run? (.goOnStopping 0 :: awaitedGuest.2.1) = some s₂ ∧
      s₂.stops[0]? = some .returned ∧ s₂.run? awaitedGuest.2.2 = some s ∧
      (0 ∉ s.live ∧ s.heard 0 = s₂.heard 0) ∧ s.connectionCount = 0 ∧
      ∀ e ∈ s₂.tidings awaitedGuest.2.2, e.2.milestone ≠ .handshaked := by
  have hseen : ((Server.new lifeServer lifeSource).toOption.bind fun s₀ =>
      (s₀.run? awaitedGuest.1).bind fun s₁ =>
        (s₁.run? (.goOnStopping 0 :: awaitedGuest.2.1)).bind fun s₂ =>
          (s₂.run? awaitedGuest.2.2).map fun _ =>
            ((s₁.stops, s₁.live), s₁.guests.length, s₁.runs.all (!·.accepting), s₂.stops)) =
      some (([.clearing], [0]), 1, true, [.returned]) := by
    decide +kernel
  obtain ⟨s₀, hs₀, hlife⟩ := Option.bind_eq_some_iff.mp hseen
  obtain ⟨s₁, hbefore, hlife⟩ := Option.bind_eq_some_iff.mp hlife
  obtain ⟨s₂, hstop, hlife⟩ := Option.bind_eq_some_iff.mp hlife
  obtain ⟨s, hlater, hobserved⟩ := Option.map_eq_some_iff.mp hlife
  simp only [Prod.mk.injEq, List.all_eq_true, Bool.not_eq_true'] at hobserved
  obtain ⟨⟨hclearing, hlive⟩, hguests, hidle, hreturned⟩ := hobserved
  have hnew := eq_ok_of_toOption hs₀
  have hclearing' : s₁.stops[0]? = some .clearing := by rw [hclearing]; rfl
  have hreturned' : s₂.stops[0]? = some .returned := by rw [hreturned]; rfl
  have hsees : ∀ n < s₁.guests.length, s₁.Sees n := by
    intro n hn
    rw [hguests] at hn
    refine .inl ?_
    rw [hlive, Nat.lt_one_iff.mp hn]
    exact List.mem_singleton_self 0
  obtain ⟨hone, hall⟩ :=
    Server.quiet_of_run hnew hbefore hclearing' hstop hreturned' hlater
  obtain ⟨hgone, -, hheard⟩ := hone 0 (hsees 0 (by rw [hguests]; decide))
  obtain ⟨hcount, hnews, -⟩ := hall hsees hidle (by
    intro m hm bound
    rintro rfl
    simp [awaitedGuest] at hm)
  exact ⟨s₀, s₁, s₂, s, hnew, hbefore, hlive, hstop, hreturned', hlater, ⟨hgone, hheard⟩, hcount,
    hnews⟩

/-- A handler of this name was called. -/
def Entry.calls (name : String) : Entry → Bool
  | .reported (.called handler _) => handler == name
  | _ => false

/-- A connection is taken in before a call that stops the server, and its transport is set up after
the call has returned. Then its peer sends a frame. -/
def overlookedGuest : List ServerMove × List ServerMove × List ServerMove :=
  ([.register "t" { name := "listener" },
      .start (.ok { ip := .short [127, 0, 0, 1], port := 7 }), .accept 0 "far" 1, .stop,
      .goOnStopping 0, .endAccepting 0, .goOnStopping 0],
    List.replicate 2 (.goOnStopping 0),
    .setUp 0 { capacity := 64 } :: (lifeInput ++ lifeMoves.1).map (.onLink 0) ++
      List.replicate 3 (.attend 0) ++ (lifeMoves.2.1.take 10).map (.onLink 0))

/-- **A server that was stopped is not quiet**: the call did not wait for a connection that was
taken in but was not in the registry yet. It enters the registry after the call has returned,
listeners are told that it is ready, and a handler is called with a frame of its peer. -/
theorem roused_by_overlookedGuest :
    ∃ s₀ s₁ s₂ s l, Server.new lifeServer lifeSource = .ok s₀ ∧
      s₀.run? overlookedGuest.1 = some s₁ ∧ s₁.stops = [.clearing] ∧
      s₁.run? (.goOnStopping 0 :: overlookedGuest.2.1) = some s₂ ∧ s₂.stops = [.returned] ∧
      s₂.connectionCount = 0 ∧ s₂.run? overlookedGuest.2.2 = some s ∧ s.isRunning = false ∧
      s.connectionCount = 1 ∧
      (s₂.tidings overlookedGuest.2.2).map (·.2.milestone) = [.handshaked] ∧
      s.link? 0 = some l ∧ l.log.any (Entry.calls "listener") = true := by
  have hseen : ((Server.new lifeServer lifeSource).toOption.bind fun s₀ =>
      (s₀.run? overlookedGuest.1).bind fun s₁ =>
        (s₁.run? (.goOnStopping 0 :: overlookedGuest.2.1)).bind fun s₂ =>
          (s₂.run? overlookedGuest.2.2).map fun s =>
            ((s₁.stops, s₂.stops, s₂.connectionCount),
              (s.isRunning, s.connectionCount),
              (s₂.tidings overlookedGuest.2.2).map (·.2.milestone),
              (s.link? 0).map (·.log.any (Entry.calls "listener")))) =
      some (([.clearing], [.returned], 0), (false, 1), [.handshaked], some true) := by
    decide +kernel
  obtain ⟨s₀, hs₀, hlife⟩ := Option.bind_eq_some_iff.mp hseen
  obtain ⟨s₁, hbefore, hlife⟩ := Option.bind_eq_some_iff.mp hlife
  obtain ⟨s₂, hstop, hlife⟩ := Option.bind_eq_some_iff.mp hlife
  obtain ⟨s, hlater, hobserved⟩ := Option.map_eq_some_iff.mp hlife
  simp only [Prod.mk.injEq] at hobserved
  obtain ⟨⟨hclearing, hreturned, hempty⟩, ⟨hrunning, hcount⟩, hnews, hlink⟩ := hobserved
  obtain ⟨l, hl, hcalled⟩ := Option.map_eq_some_iff.mp hlink
  exact ⟨s₀, s₁, s₂, s, l, eq_ok_of_toOption hs₀, hbefore, hclearing, hstop, hreturned, hempty,
    hlater, hrunning, hcount, hnews, hl, hcalled⟩

end Courier
