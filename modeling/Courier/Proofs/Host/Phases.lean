import Courier.Proofs.Host.News
import Courier.Proofs.Link.States

/-!
Courier.Proofs.Host.Phases — what a client shows as its state.

A client shows the state of its connection, or what its loop has noted for the time without one. The
loop notes that an attempt begins, and after the connection has come to its end whether there will
be another. But the client lets go of a connection as soon as it closes. So between the closing of a
connection and what the loop notes next, the client shows once more what was noted before: that it
is connecting (`ClientPhase.lapsed`). Apart from this the states that it shows follow each other as
they are meant to (`Client.shows_of_run`), as long as it is not asked to connect before an earlier
loop has finished.
-/

namespace Courier

/-! ## 1. Phases -/

/-- The phases of a client. -/
inductive ClientPhase where
  | idle
  | connecting
  | handshaking
  | opened
  | closing
  /-- the attempt has failed, or the connection was let go of, and the loop has not noted this -/
  | lapsed
  | reconnecting
  deriving DecidableEq, Repr, Inhabited

namespace ClientPhase

/-- What a client shows in a phase. -/
def shown : ClientPhase → ConnectionState
  | .idle => .closed
  | .connecting | .lapsed => .connecting
  | .handshaking => .handshaking
  | .opened => .opened
  | .closing => .closing
  | .reconnecting => .reconnecting

/-- The phase of a client whose connection shows a state. -/
def ofState : ConnectionState → ClientPhase
  | .connecting => .connecting
  | .handshaking => .handshaking
  | .opened => .opened
  | .closing => .closing
  | .closed => .idle
  | .reconnecting => .reconnecting

/-- The phases that may come next. -/
inductive Leads : ClientPhase → ClientPhase → Prop where
  | begins : Leads .idle .connecting
  | opens : Leads .connecting .handshaking
  | fails : Leads .connecting .lapsed
  | completes : Leads .handshaking .opened
  | breaks : Leads .handshaking .closing
  | closes : Leads .opened .closing
  | lapses : Leads .closing .lapsed
  | pauses : Leads .lapsed .reconnecting
  | rests : Leads .lapsed .idle
  | resumes : Leads .reconnecting .connecting
  | ends : Leads .reconnecting .idle

/-- Phases from this one on show the states. -/
inductive Shows : ClientPhase → List ConnectionState → Prop where
  | last (p : ClientPhase) : Shows p [p.shown]
  | stays {p : ClientPhase} {states : List ConnectionState} (rest : Shows p states) :
      Shows p (p.shown :: states)
  | leads {p q : ClientPhase} {states : List ConnectionState} (next : p.Leads q)
      (rest : Shows q states) : Shows p (p.shown :: states)

/-- How far a client has come with an attempt. -/
def progress : ClientPhase → Nat
  | .lapsed => ConnectionState.closed.toNat
  | p => p.shown.toNat

variable {p q : ClientPhase} {states : List ConnectionState}

@[simp] theorem shown_ofState (s : ConnectionState) : (ofState s).shown = s := by
  cases s <;> rfl

theorem shown_le_progress (p : ClientPhase) : p.shown.toNat ≤ p.progress := by
  cases p <;> decide

theorem progress_le_shown (h : p.shown ≠ .connecting) : p.progress ≤ p.shown.toNat := by
  cases p with
  | lapsed => exact absurd rfl h
  | _ => exact Nat.le_refl _

/-- Within an attempt a client does not go back. -/
theorem Leads.progress_le (h : p.Leads q) (hidle : p.shown ≠ .closed)
    (hpause : p.shown ≠ .reconnecting) : p.progress ≤ q.progress := by
  cases h with
  | begins => exact absurd rfl hidle
  | resumes | ends => exact absurd rfl hpause
  | _ => decide

/-- The state of a connection that is not closed takes its client to the next phase. -/
theorem leads_ofState {s t : ConnectionState} (h : s.Leads t) (hopen : t ≠ .closed) :
    (ofState s).Leads (ofState t) := by
  cases h with
  | opens => exact .opens
  | completes => exact .completes
  | fails => exact .breaks
  | closes => exact .closes
  | ends => exact absurd rfl hopen

theorem Shows.exists_of_append {before after : List ConnectionState} {s : ConnectionState}
    (h : p.Shows (before ++ s :: after)) :
    ∃ q : ClientPhase, q.Shows (s :: after) ∧ q.shown = s := by
  generalize hstates : before ++ s :: after = states at h
  induction h generalizing before with
  | last p =>
      cases before with
      | nil =>
          cases hstates
          exact ⟨p, .last p, rfl⟩
      | cons b before =>
          have hnil := (List.cons.inj hstates).2
          simp at hnil
  | @stays p states rest ih =>
      cases before with
      | nil =>
          cases hstates
          exact ⟨p, .stays rest, rfl⟩
      | cons b before => exact ih (List.cons.inj hstates).2
  | @leads p q states next rest ih =>
      cases before with
      | nil =>
          cases hstates
          exact ⟨p, .leads next rest, rfl⟩
      | cons b before => exact ih (List.cons.inj hstates).2

/-- As long as an attempt lasts, a client that does not show that it is connecting shows how far it
has come. -/
theorem Shows.progress_le (h : p.Shows states) {between after : List ConnectionState}
    {s : ConnectionState} (hstates : states = between ++ s :: after)
    (hbetween : ∀ t ∈ between, t ≠ .closed ∧ t ≠ .reconnecting) (hs : s ≠ .connecting) :
    p.progress ≤ s.toNat := by
  induction h generalizing between with
  | last p =>
      cases between with
      | nil =>
          cases hstates
          exact progress_le_shown hs
      | cons b between =>
          have hnil := (List.cons.inj hstates).2
          simp at hnil
  | stays rest ih =>
      cases between with
      | nil =>
          cases hstates
          exact progress_le_shown hs
      | cons b between =>
          exact ih (List.cons.inj hstates).2 fun t ht => hbetween t (List.mem_cons_of_mem b ht)
  | @leads p q states next rest ih =>
      cases between with
      | nil =>
          cases hstates
          exact progress_le_shown hs
      | cons b between =>
          obtain ⟨hb, hrest⟩ := List.cons.inj hstates
          obtain ⟨hidle, hpause⟩ := hbetween b (List.mem_cons_self ..)
          rw [← hb] at hidle hpause
          have hq := ih hrest fun t ht => hbetween t (List.mem_cons_of_mem b ht)
          exact Nat.le_trans (next.progress_le hidle hpause) hq

/-- **Nothing that was passed is shown again but that the client is connecting**, before it shows
that it reconnects or is closed. -/
theorem Shows.exists_between (h : p.Shows states) {before between after : List ConnectionState}
    {s t : ConnectionState} (hstates : states = before ++ s :: between ++ t :: after)
    (hs : s.toNat < ConnectionState.closed.toNat) (ht : t ≠ .connecting)
    (hback : t.toNat < s.toNat) : ∃ u ∈ between, u = .closed ∨ u = .reconnecting := by
  rw [List.append_assoc, List.cons_append] at hstates
  obtain ⟨q, hq, hshown⟩ := exists_of_append (hstates ▸ h)
  by_cases hnone : ∃ u ∈ between, u = .closed ∨ u = .reconnecting
  · exact hnone
  exfalso
  have hahead : ∀ u ∈ s :: between, u ≠ .closed ∧ u ≠ .reconnecting := by
    intro u hu
    rcases List.mem_cons.mp hu with rfl | hu
    · constructor <;> intro heq <;> rw [heq] at hs <;> exact absurd hs (by decide)
    · exact ⟨fun heq => hnone ⟨u, hu, .inl heq⟩, fun heq => hnone ⟨u, hu, .inr heq⟩⟩
  have hle := hq.progress_le (List.cons_append ..).symm hahead ht
  have hfar := q.shown_le_progress
  rw [hshown] at hfar
  omega

end ClientPhase

/-! ## 2. The connection -/

/-- The connection goes on by one state at most, and no duty is done. -/
def AttendedLink.Moves (a a' : AttendedLink) : Prop :=
  a.link.Ages → a'.link.Ages ∧ a'.fulfilled ClientDuty.at = a.fulfilled ClientDuty.at ∧
    (a'.link.connection.state = a.link.connection.state ∨
      a.link.connection.state.Leads a'.link.connection.state)

namespace AttendedLink

variable {a a' : AttendedLink}

theorem Moves.refl (a : AttendedLink) : a.Moves a :=
  fun h => ⟨h, rfl, .inl rfl⟩

theorem moves_of_stands {link : Link} (h : a.link.Stands link) : a.Moves { a with link } := by
  intro hages
  obtain ⟨hages', -, hfulfilled⟩ := goes_of_stands h hages
  exact ⟨hages', hfulfilled, .inl h.connection.state_eq⟩

theorem moves_start (a : AttendedLink) : a.Moves { a with link := a.link.start } := by
  intro hages
  obtain ⟨hages', -, hfulfilled⟩ := a.goes_start hages
  refine ⟨hages', hfulfilled, .inl ?_⟩
  unfold Link.start
  split <;> rfl

end AttendedLink

namespace Client

/-- The stage of the loop of a number; one that was not begun is as good as one that has
finished. -/
def stageOf (number : Nat) (c : Client) : LoopStage :=
  ((c.loops[number]?).map (·.stage)).getD .finished

/-- Connections go on, and no loop does anything. -/
structure Carries (c c' : Client) : Prop where
  current_eq : c'.current = c.current
  noted_eq : c'.noted = c.noted
  stages : ∀ n, c'.stageOf n = c.stageOf n
  links : ∀ n a, c.forum.links n = some a → ∃ a', c'.forum.links n = some a' ∧ a.Moves a'

variable {c c' : Client}

theorem stageOf_eq {number : Nat} {loop : ClientLoop} (hloop : c.loops[number]? = some loop) :
    c.stageOf number = loop.stage := by
  unfold stageOf
  rw [hloop]
  rfl

theorem stageOf_of_loops (hloops : c'.loops = c.loops) (n : Nat) : c'.stageOf n = c.stageOf n := by
  unfold stageOf
  rw [hloops]

theorem stageOf_cancelLoop (loop n : Nat) (c : Client) :
    (c.cancelLoop loop).stageOf n = c.stageOf n := by
  unfold stageOf cancelLoop
  dsimp only
  rw [List.getElem?_modify]
  cases c.loops[n]? with
  | none => rfl
  | some l => by_cases h : loop = n <;> simp [h]

theorem stageOf_set {number : Nat} {loop loop' : ClientLoop} (hloop : c.loops[number]? = some loop)
    (hloops : c'.loops = c.loops.set number loop') (n : Nat) :
    c'.stageOf n = if n = number then loop'.stage else c.stageOf n := by
  have hlt : number < c.loops.length := (List.getElem?_eq_some_iff.mp hloop).1
  unfold stageOf
  rw [hloops]
  split
  · next h =>
    rw [h, List.getElem?_set_self hlt]
    rfl
  · next h => rw [List.getElem?_set_ne (Ne.symm h)]

theorem carries_of_attempts (hcurrent : c'.current = c.current) (hnoted : c'.noted = c.noted)
    (hloops : c'.loops = c.loops) (hattempts : c'.attempts = c.attempts) : c.Carries c' := by
  refine ⟨hcurrent, hnoted, stageOf_of_loops hloops, fun n a ha => ⟨a, ?_, .refl a⟩⟩
  unfold forum at *
  rw [hattempts]
  exact ha

theorem carries_of_map {f : Attempt → Attempt} (hcurrent : c'.current = c.current)
    (hnoted : c'.noted = c.noted) (hstages : ∀ n, c'.stageOf n = c.stageOf n)
    (hattempts : c'.attempts = c.attempts.map f) (hf : ∀ a : Attempt, a.link.Moves (f a).link) :
    c.Carries c' := by
  refine ⟨hcurrent, hnoted, hstages, fun n a ha => ?_⟩
  obtain ⟨b, hb, rfl⟩ := Option.map_eq_some_iff.mp ha
  refine ⟨(f b).link, ?_, hf b⟩
  unfold forum
  dsimp only
  rw [hattempts, List.getElem?_map, hb]
  rfl

theorem carries_mapLink {attempt : Nat} {change : Link → Link}
    (hchange : ∀ a, c.forum.links attempt = some a →
      a.Moves { a with link := change a.link }) : c.Carries (c.mapLink attempt change) := by
  refine ⟨rfl, rfl, fun _ => rfl, fun n a ha => ?_⟩
  obtain ⟨b, hb, rfl⟩ := Option.map_eq_some_iff.mp ha
  unfold forum mapLink
  dsimp only
  rw [List.getElem?_modify, hb]
  by_cases hn : attempt = n
  · subst hn
    exact ⟨_, by simp [Attempt.mapLink], hchange b.link ha⟩
  · exact ⟨b.link, by simp [hn], .refl _⟩

theorem carries_register {identifier : String} {h : Handler}
    (hok : c.register identifier h = .ok c') : c.Carries c' := by
  unfold register at hok
  cases hrouter : c.router.register identifier h with
  | error r =>
      rw [hrouter] at hok
      cases hok
  | ok router =>
      rw [hrouter] at hok
      cases hok
      exact carries_of_map rfl rfl (fun _ => rfl) rfl fun a => AttendedLink.moves_of_stands
        (a.link.link.stands_setup { a.link.link.setup with router })

theorem carries_cancelLoop (loop : Nat) (c : Client) : c.Carries (c.cancelLoop loop) := by
  refine carries_of_map rfl rfl (c.stageOf_cancelLoop loop) rfl fun a => ?_
  split
  · exact AttendedLink.moves_of_stands (a.link.link.stands_cancelled true)
  · exact .refl _

theorem carries_goOnParting {call : Nat} (hstep : c.goOnParting? call = some c') :
    c.Carries c' := by
  unfold goOnParting? at hstep
  split at hstep
  · cases hstep
  · next stage _ =>
    obtain ⟨⟨stage', c₁⟩, hpart, rfl⟩ := Option.map_eq_some_iff.mp hstep
    have hcarries : c.Carries c₁ := by
      unfold stepParting? at hpart
      split at hpart
      · cases hpart
        exact carries_cancelLoop _ c
      · split at hpart
        · cases hpart
        · split at hpart <;> cases hpart
          exact carries_of_attempts rfl rfl rfl rfl
      · cases hpart
    exact ⟨hcarries.current_eq, hcarries.noted_eq, hcarries.stages, hcarries.links⟩

theorem carries_perform (command : Command) (c : Client) :
    c.Carries (c.perform command).2 := by
  unfold perform
  split
  · next attempt l hcurrent hl =>
    split
    · refine carries_mapLink fun a ha => ?_
      have hlink : l = a.link := by
        unfold link? at hl
        rw [hcurrent] at hl
        obtain ⟨b, hb, rfl⟩ := Option.map_eq_some_iff.mp hl
        obtain ⟨b', hb', rfl⟩ := Option.map_eq_some_iff.mp ha
        cases hb.symm.trans hb'
        rfl
      subst hlink
      exact AttendedLink.moves_of_stands (Link.perform_stands command a.link)
    · exact carries_of_attempts rfl rfl rfl rfl
  · exact carries_of_attempts rfl rfl rfl rfl

theorem carries_moveLink {attempt : Nat} {m : Move} (hstep : c.moveLink? attempt m = some c') :
    c.Carries c' := by
  unfold moveLink? at hstep
  split at hstep
  · cases hstep
  · next b hb =>
    obtain ⟨link, hmove, rfl⟩ := Option.map_eq_some_iff.mp hstep
    refine ⟨rfl, rfl, fun _ => rfl, fun n a ha => ?_⟩
    rw [forum_set hb rfl rfl n]
    split
    · next hn =>
      refine ⟨link, rfl, ?_⟩
      unfold forum at ha
      dsimp only at ha
      rw [hn, hb] at ha
      cases ha
      intro hages
      obtain ⟨hages', -, hfulfilled⟩ := AttendedLink.goes_move hmove hages
      exact ⟨hages', hfulfilled, hages.state_leads (AttendedLink.move_link hmove)⟩
    · exact ⟨a, ha, .refl a⟩

/-! ## 3. The loop -/

/-- The steps of a loop of a number: the stage after each, and the client. -/
inductive Turns (c : Client) (number : Nat) (loop : ClientLoop) : LoopStage → Client → Prop where
  | begins (stage : loop.stage = .beginning) : Turns c number loop .reaching (c.note .connecting)
  | reaches (stage : loop.stage = .reaching) :
      Turns c number loop (.settingUp c.queues.next.1) { c with queues := c.queues.next.2 }
  | setsUp {queue : Nat} {wire : Wire} {l : Link} {source : RandomSource}
      (stage : loop.stage = .settingUp queue)
      (made : c.linkFor loop queue wire = some (l, source)) :
      Turns c number loop (.launching c.attempts.length) { c with
        source, current := some c.attempts.length
        attempts := c.attempts ++ [{ loop := number, link := { link := l } }] }
  | launches {attempt : Nat} (stage : loop.stage = .launching attempt) :
      Turns c number loop (.serving attempt) (c.mapLink attempt Link.start)
  | serves {attempt : Nat} (stage : loop.stage = .serving attempt)
      (ended : c.hasEnded attempt = true) : Turns c number loop .deciding c
  | fails (stage : loop.stage = .reaching ∨ ∃ queue, loop.stage = .settingUp queue) :
      Turns c number loop .deciding c
  | decides (stage : loop.stage = .deciding) :
      Turns c number loop (if loop.cancelled then .ending else .pausing) c
  | pauses (stage : loop.stage = .pausing) :
      Turns c number loop .sleeping (c.note .reconnecting)
  | wakes (stage : loop.stage = .sleeping) : Turns c number loop .beginning c
  | stops (stage : loop.stage = .sleeping) : Turns c number loop .ending c
  | ends (stage : loop.stage = .ending) : Turns c number loop .finished (c.note .closed)

theorem turns_of_stepLoop {number : Nat} {loop : ClientLoop} {m : LoopMove} {stage' : LoopStage}
    (hstep : c.stepLoop? number loop m = some (stage', c')) : c.Turns number loop stage' c' := by
  unfold stepLoop? at hstep
  split at hstep
  · next hstage =>
    cases hstep
    exact .begins hstage
  · next hstage =>
    cases hstep
    exact .reaches hstage
  · next hstage =>
    obtain ⟨⟨l, source⟩, hmade, hc⟩ := Option.map_eq_some_iff.mp hstep
    cases hc
    exact .setsUp hstage hmade
  · next hstage =>
    cases hstep
    exact .launches hstage
  · next hstage =>
    split at hstep <;> cases hstep
    next hended => exact .serves hstage hended
  · next hstage =>
    cases hstep
    exact .decides hstage
  · next hstage =>
    cases hstep
    exact .pauses hstage
  · next hstage =>
    cases hstep
    exact .wakes hstage
  · next hstage =>
    cases hstep
    exact .ends hstage
  · next hstage =>
    cases hstep
    exact .fails (.inl hstage)
  · next queue hstage =>
    cases hstep
    exact .fails (.inr ⟨queue, hstage⟩)
  · next hstage =>
    split at hstep <;> cases hstep
    exact .fails (.inl hstage)
  · next queue hstage =>
    split at hstep <;> cases hstep
    exact .fails (.inr ⟨queue, hstage⟩)
  · next hstage =>
    split at hstep <;> cases hstep
    exact .stops hstage
  · cases hstep

theorem Turns.loops_eq {number : Nat} {loop : ClientLoop} {stage' : LoopStage}
    (h : c.Turns number loop stage' c') : c'.loops = c.loops := by
  cases h <;> rfl

/-- What is noted at a stage of the loop, and the phase that this shows while there is no
connection. -/
inductive Notes : LoopStage → ConnectionState → ClientPhase → Prop where
  | begins : Notes .beginning .closed .idle
  | resumes : Notes .beginning .reconnecting .reconnecting
  | reaches : Notes .reaching .connecting .connecting
  | setsUp {queue : Nat} : Notes (.settingUp queue) .connecting .connecting
  | launches {attempt : Nat} : Notes (.launching attempt) .connecting .lapsed
  | serves {attempt : Nat} : Notes (.serving attempt) .connecting .lapsed
  | decides : Notes .deciding .connecting .lapsed
  | pauses : Notes .pausing .connecting .lapsed
  | sleeps : Notes .sleeping .reconnecting .reconnecting
  | ends : Notes .ending .connecting .lapsed
  | wakes : Notes .ending .reconnecting .reconnecting
  | finished : Notes .finished .closed .idle

/-- A client whose loop is at a stage is in a phase. -/
inductive Tracks (c : Client) (stage : LoopStage) (p : ClientPhase) : Prop where
  | alone (current_eq : c.current = none) (notes : Notes stage c.noted p)
  /-- it has not let go of its connection -/
  | attached {attempt : Nat} {a : AttendedLink}
      (stage_eq : stage = .launching attempt ∨ stage = .serving attempt)
      (current_eq : c.current = some attempt) (noted_eq : c.noted = .connecting)
      (link_eq : c.forum.links attempt = some a) (ages : a.link.Ages)
      (held : .detach ∉ a.fulfilled ClientDuty.at)
      (phase_eq : p = .ofState a.link.connection.state)

/-- One loop at most is at work, and it is at a stage. -/
def Paces (c : Client) (stage : LoopStage) : Prop :=
  ∃ number, c.stageOf number = stage ∧ ∀ k, k ≠ number → c.stageOf k = .finished

/-- A client is in a phase. -/
def InPhase (c : Client) (p : ClientPhase) : Prop :=
  ∃ stage, c.Tracks stage p ∧ c.Paces stage

variable {stage stage' : LoopStage} {p : ClientPhase}

theorem Notes.shown_eq {noted : ConnectionState} (h : Notes stage noted p) : p.shown = noted := by
  cases h <;> rfl

/-- **A client shows its phase.** -/
theorem Tracks.state_eq (h : c.Tracks stage p) : c.state = p.shown := by
  unfold state link?
  cases h with
  | alone current_eq notes =>
      rw [current_eq, notes.shown_eq]
      rfl
  | attached stage_eq current_eq noted_eq link_eq ages held phase_eq =>
      obtain ⟨b, hb, rfl⟩ := Option.map_eq_some_iff.mp link_eq
      rw [current_eq, Option.bind_some, hb, phase_eq, ClientPhase.shown_ofState]
      rfl

/-- As the connection goes on, the client follows. -/
theorem Tracks.carries (h : c.Tracks stage p) (hcarries : c.Carries c') :
    ∃ q, c'.Tracks stage q ∧ (q = p ∨ p.Leads q) := by
  obtain ⟨hcurrent, hnoted, -, hlinks⟩ := hcarries
  cases h with
  | alone current_eq notes =>
      exact ⟨p, .alone (hcurrent.trans current_eq) (hnoted ▸ notes), .inl rfl⟩
  | attached stage_eq current_eq noted_eq link_eq ages held phase_eq =>
      obtain ⟨a', ha', hmoves⟩ := hlinks _ _ link_eq
      obtain ⟨hages', hfulfilled, hstate⟩ := hmoves ages
      rw [← hfulfilled] at held
      refine ⟨_, .attached stage_eq (hcurrent.trans current_eq) (hnoted.trans noted_eq) ha' hages'
        held rfl, ?_⟩
      rcases hstate with hsame | hnext
      · rw [phase_eq, hsame]
        exact .inl rfl
      · rw [phase_eq]
        refine .inr (ClientPhase.leads_ofState hnext fun hclosed => held ?_)
        exact AttendedLink.fulfilled_of_closed hages' hclosed (List.mem_singleton.mpr rfl)

theorem Tracks.same (h : c.Tracks stage p) (hcurrent : c'.current = c.current)
    (hnoted : c'.noted = c.noted) (hforum : c'.forum.links = c.forum.links) :
    c'.Tracks stage p := by
  cases h with
  | alone current_eq notes => exact .alone (hcurrent.trans current_eq) (hnoted ▸ notes)
  | attached stage_eq current_eq noted_eq link_eq ages held phase_eq =>
      rw [← hforum] at link_eq
      exact .attached stage_eq (hcurrent.trans current_eq) (hnoted.trans noted_eq) link_eq ages held
        phase_eq

/-- The loop waits for the end of a connection that the client has not let go of. -/
theorem not_hasEnded {attempt : Nat} {a : AttendedLink} (hlink : c.forum.links attempt = some a)
    (hages : a.link.Ages) (hheld : .detach ∉ a.fulfilled ClientDuty.at) :
    c.hasEnded attempt = false := by
  obtain ⟨b, hb, rfl⟩ := Option.map_eq_some_iff.mp hlink
  have hstate := hages.state_eq
  unfold hasEnded
  rw [hb]
  dsimp only
  split
  · next hmain =>
    rw [hmain] at hstate
    exact absurd (AttendedLink.fulfilled_of_closed hages hstate (List.mem_singleton.mpr rfl)) hheld
  · next misuse hmain => exact absurd hmain (hages.sane.ne_crashed misuse)
  · rfl

/-- A loop without a connection. -/
theorem Tracks.notes (h : c.Tracks stage p) (hlaunching : ∀ n, stage ≠ .launching n)
    (hserving : ∀ n, stage ≠ .serving n) : c.current = none ∧ Notes stage c.noted p := by
  cases h with
  | alone current_eq notes => exact ⟨current_eq, notes⟩
  | @attached attempt a stage_eq current_eq noted_eq link_eq ages held phase_eq =>
      rcases stage_eq with h | h
      · exact absurd h (hlaunching attempt)
      · exact absurd h (hserving attempt)

/-- A new connection becomes the present one. -/
theorem tracks_launch {number queue : Nat} {loop : ClientLoop} {wire : Wire} {l : Link}
    {source : RandomSource} (hnoted : c.noted = .connecting)
    (hmade : c.linkFor loop queue wire = some (l, source)) :
    Tracks { c with
      source, current := some c.attempts.length
      attempts := c.attempts ++ [{ loop := number, link := { link := l } }] }
      (.launching c.attempts.length) .connecting := by
  have hages := (linkFor_ages hmade).1
  have hlink : ((c.attempts ++ [({ loop := number, link := { link := l } } : Attempt)])[
      c.attempts.length]?).map (·.link) = some { link := l } := by
    rw [List.getElem?_concat_length]
    rfl
  unfold linkFor at hmade
  obtain ⟨id, -, hl⟩ := Option.map_eq_some_iff.mp hmade
  cases hl
  exact .attached (.inl rfl) rfl hnoted hlink hages List.not_mem_nil rfl

/-- The connection is started. -/
theorem Tracks.start {attempt : Nat} (h : c.Tracks (.launching attempt) p) :
    c.Tracks (.serving attempt) p := by
  cases h with
  | alone current_eq notes =>
      generalize hnoted : c.noted = noted at notes
      cases notes
      exact .alone current_eq (hnoted ▸ .serves)
  | attached stage_eq current_eq noted_eq link_eq ages held phase_eq =>
      rcases stage_eq with h | h <;> cases h
      exact .attached (.inr rfl) current_eq noted_eq link_eq ages held phase_eq

/-- The loop waits for the end of its connection, which the client has let go of. -/
theorem Tracks.lapsed {attempt : Nat} (h : c.Tracks (.serving attempt) p)
    (hended : c.hasEnded attempt = true) :
    c.current = none ∧ c.noted = .connecting ∧ p = .lapsed := by
  cases h with
  | alone current_eq notes =>
      generalize hnoted : c.noted = noted at notes
      cases notes
      exact ⟨current_eq, rfl, rfl⟩
  | attached stage_eq current_eq noted_eq link_eq ages held phase_eq =>
      rcases stage_eq with h | h <;> cases h
      cases hended.symm.trans (not_hasEnded link_eq ages held)

/-- **A step of the loop** takes the client to the next phase, or leaves it in its phase. -/
theorem Tracks.turns {number : Nat} {loop : ClientLoop} (h : c.Tracks loop.stage p)
    (hturns : c.Turns number loop stage' c') : ∃ q, c'.Tracks stage' q ∧ (q = p ∨ p.Leads q) := by
  generalize hnoted : c.noted = noted
  cases hturns with
  | begins stage =>
      rw [stage] at h
      obtain ⟨hcurrent, hnotes⟩ := h.notes (by simp) (by simp)
      rw [hnoted] at hnotes
      refine ⟨.connecting, .alone hcurrent .reaches, ?_⟩
      cases hnotes with
      | begins => exact .inr .begins
      | resumes => exact .inr .resumes
  | reaches stage =>
      rw [stage] at h
      obtain ⟨hcurrent, hnotes⟩ := h.notes (by simp) (by simp)
      rw [hnoted] at hnotes
      cases hnotes
      exact ⟨.connecting, .alone hcurrent (hnoted ▸ .setsUp), .inl rfl⟩
  | setsUp stage made =>
      rw [stage] at h
      obtain ⟨hcurrent, hnotes⟩ := h.notes (by simp) (by simp)
      rw [hnoted] at hnotes
      cases hnotes
      exact ⟨.connecting, tracks_launch hnoted made, .inl rfl⟩
  | launches stage =>
      rw [stage] at h
      obtain ⟨q, hq, hnext⟩ := h.carries (carries_mapLink fun a _ => a.moves_start)
      exact ⟨q, hq.start, hnext⟩
  | serves stage ended =>
      rw [stage] at h
      obtain ⟨hcurrent, hconnecting, rfl⟩ := h.lapsed ended
      exact ⟨.lapsed, .alone hcurrent (hconnecting ▸ .decides), .inl rfl⟩
  | fails stage =>
      have hnotes : c.current = none ∧ c.noted = .connecting ∧ p = .connecting := by
        rcases stage with hstage | ⟨queue, hstage⟩
        all_goals
          rw [hstage] at h
          obtain ⟨hcurrent, hnotes⟩ := h.notes (by simp) (by simp)
          rw [hnoted] at hnotes ⊢
          cases hnotes
          exact ⟨hcurrent, rfl, rfl⟩
      obtain ⟨hcurrent, hconnecting, rfl⟩ := hnotes
      exact ⟨.lapsed, .alone hcurrent (hconnecting ▸ .decides), .inr .fails⟩
  | decides stage =>
      rw [stage] at h
      obtain ⟨hcurrent, hnotes⟩ := h.notes (by simp) (by simp)
      rw [hnoted] at hnotes
      cases hnotes
      cases loop.cancelled with
      | true => exact ⟨.lapsed, .alone hcurrent (hnoted ▸ .ends), .inl rfl⟩
      | false => exact ⟨.lapsed, .alone hcurrent (hnoted ▸ .pauses), .inl rfl⟩
  | pauses stage =>
      rw [stage] at h
      obtain ⟨hcurrent, hnotes⟩ := h.notes (by simp) (by simp)
      rw [hnoted] at hnotes
      cases hnotes
      exact ⟨.reconnecting, .alone hcurrent .sleeps, .inr .pauses⟩
  | wakes stage =>
      rw [stage] at h
      obtain ⟨hcurrent, hnotes⟩ := h.notes (by simp) (by simp)
      rw [hnoted] at hnotes
      cases hnotes
      exact ⟨.reconnecting, .alone hcurrent (hnoted ▸ .resumes), .inl rfl⟩
  | stops stage =>
      rw [stage] at h
      obtain ⟨hcurrent, hnotes⟩ := h.notes (by simp) (by simp)
      rw [hnoted] at hnotes
      cases hnotes
      exact ⟨.reconnecting, .alone hcurrent (hnoted ▸ .wakes), .inl rfl⟩
  | ends stage =>
      rw [stage] at h
      obtain ⟨hcurrent, hnotes⟩ := h.notes (by simp) (by simp)
      rw [hnoted] at hnotes
      refine ⟨.idle, .alone hcurrent .finished, ?_⟩
      cases hnotes with
      | ends => exact .inr .rests
      | wakes => exact .inr .ends

theorem current_fulfil (duty : ClientDuty) (attempt : Nat) (l : Link) (c : Client) :
    (c.fulfil duty attempt l).current =
      if duty = .detach ∧ c.current = some attempt then none else c.current := by
  unfold fulfil
  cases duty with
  | announce => simp [publish]
  | detach => by_cases h : c.current = some attempt <;> simp [h]
  | announceEnd => cases l.connection.handshaked <;> simp [publish]

theorem noted_fulfil (duty : ClientDuty) (attempt : Nat) (l : Link) (c : Client) :
    (c.fulfil duty attempt l).noted = c.noted ∧ (c.fulfil duty attempt l).loops = c.loops := by
  unfold fulfil
  cases duty with
  | announce => exact ⟨rfl, rfl⟩
  | detach => by_cases h : c.current = some attempt <;> simp [h]
  | announceEnd => cases l.connection.handshaked <;> simp [publish]

/-- A duty is done for a connection. -/
structure Attends (c : Client) (attempt : Nat) (a : AttendedLink) (duty : ClientDuty)
    (c' : Client) : Prop where
  link_eq : c.forum.links attempt = some a
  duty_eq : a.duty? ClientDuty.at = some duty
  current_eq : c'.current =
    if duty = .detach ∧ c.current = some attempt then none else c.current
  noted_eq : c'.noted = c.noted
  loops_eq : c'.loops = c.loops
  links_eq : ∀ n, c'.forum.links n =
    if n = attempt then some (a.doneWith a.link) else c.forum.links n

theorem attends_of_attend {attempt : Nat} (hstep : c.attend? attempt = some c') :
    ∃ a duty, c.Attends attempt a duty c' := by
  unfold attend? at hstep
  split at hstep
  · cases hstep
  · next b hb =>
    obtain ⟨duty, hduty, rfl⟩ := Option.map_eq_some_iff.mp hstep
    have hattempts := congrArg (·.set attempt { b with link := b.link.doneWith b.link.link })
      (c.attempts_fulfil duty attempt b.link.link)
    obtain ⟨hnoted, hloops⟩ := c.noted_fulfil duty attempt b.link.link
    have hlink : c.forum.links attempt = some b.link := by
      unfold forum
      dsimp only
      rw [hb]
      rfl
    exact ⟨b.link, duty, hlink, hduty, c.current_fulfil duty attempt b.link.link, hnoted, hloops,
      forum_set hb hattempts rfl⟩

/-- **A duty for a connection**: the client lets go of it when it closes. -/
theorem Tracks.attend {attempt : Nat} {b : AttendedLink} {duty : ClientDuty} (h : c.Tracks stage p)
    (hattends : c.Attends attempt b duty c') : ∃ q, c'.Tracks stage q ∧ (q = p ∨ p.Leads q) := by
  obtain ⟨hlink, hduty, hcurrent, hnoted, -, hlinks⟩ := hattends
  cases h with
  | alone current_eq notes =>
      rw [current_eq, if_neg (by simp)] at hcurrent
      exact ⟨p, .alone hcurrent (hnoted ▸ notes), .inl rfl⟩
  | @attached n a stage_eq current_eq noted_eq link_eq ages held phase_eq =>
      have hlinks := hlinks n
      rw [current_eq] at hcurrent
      by_cases hn : n = attempt
      · subst hn
        cases link_eq.symm.trans hlink
        rw [if_pos rfl] at hlinks
        by_cases hdetach : duty = .detach
        · subst hdetach
          rw [if_pos ⟨rfl, rfl⟩] at hcurrent
          have hnotes : Notes stage c'.noted .lapsed := by
            rw [hnoted, noted_eq]
            rcases stage_eq with rfl | rfl
            · exact .launches
            · exact .serves
          have hclosing := AttendedLink.state_of_duty ages hduty (by simp [ClientDuty.at])
            (by simp [ClientDuty.at])
          refine ⟨.lapsed, .alone hcurrent hnotes, ?_⟩
          rw [phase_eq, hclosing]
          exact .inr .lapses
        · rw [if_neg fun hboth => hdetach hboth.1] at hcurrent
          have hheld : .detach ∉ (b.doneWith b.link).fulfilled ClientDuty.at := by
            rw [AttendedLink.fulfilled_doneWith hduty]
            simp [held, Ne.symm hdetach]
          exact ⟨p, .attached stage_eq hcurrent (hnoted.trans noted_eq) hlinks ages hheld phase_eq,
            .inl rfl⟩
      · rw [if_neg fun hboth => hn (Option.some.inj hboth.2)] at hcurrent
        rw [if_neg hn] at hlinks
        exact ⟨p, .attached stage_eq hcurrent (hnoted.trans noted_eq) (hlinks.trans link_eq) ages
          held phase_eq, .inl rfl⟩

/-! ## 4. All loops -/

/-- A loop is begun only after those before it have finished. -/
def admits (m : ClientMove) (c : Client) : Bool :=
  match m with
  | .connect => c.looping.isSome || c.loops.all (·.stage == .finished)
  | _ => true

/-- **A step of any loop**: only the one at work has any. -/
theorem InPhase.moveLoop {number : Nat} {m : LoopMove} (h : c.InPhase p)
    (hstep : c.moveLoop? number m = some c') : ∃ q, c'.InPhase q ∧ (q = p ∨ p.Leads q) := by
  obtain ⟨stage, htracks, present, hat, hothers⟩ := h
  unfold moveLoop? at hstep
  split at hstep
  · cases hstep
  · next loop hloop =>
    obtain ⟨⟨stage', c₁⟩, hturn, rfl⟩ := Option.map_eq_some_iff.mp hstep
    have hturns := turns_of_stepLoop hturn
    have hstage := stageOf_eq hloop
    have hpresent : number = present := by
      by_cases heq : number = present
      · exact heq
      · rw [hothers number heq] at hstage
        cases hturns with
        | fails stage => rcases stage with h | ⟨queue, h⟩ <;> cases hstage.trans h
        | _ => simp_all
    subst hpresent
    obtain rfl := hat.symm.trans hstage
    obtain ⟨q, hq, hnext⟩ := htracks.turns hturns
    have hloops : c₁.loops.set number { loop with stage := stage' } =
        c.loops.set number { loop with stage := stage' } := by rw [hturns.loops_eq]
    refine ⟨q, ⟨stage', hq.same rfl rfl rfl, number, ?_, fun k hk => ?_⟩, hnext⟩
    · exact (stageOf_set hloop hloops number).trans (if_pos rfl)
    · exact (stageOf_set hloop hloops k).trans ((if_neg hk).trans (hothers k hk))

theorem Paces.of_stages (h : c.Paces stage) (hstages : ∀ n, c'.stageOf n = c.stageOf n) :
    c'.Paces stage := by
  obtain ⟨number, hat, hothers⟩ := h
  exact ⟨number, (hstages number).trans hat, fun k hk => (hstages k).trans (hothers k hk)⟩

theorem InPhase.carries (h : c.InPhase p) (hcarries : c.Carries c') :
    ∃ q, c'.InPhase q ∧ (q = p ∨ p.Leads q) := by
  obtain ⟨stage, htracks, hpaces⟩ := h
  obtain ⟨q, hq, hnext⟩ := htracks.carries hcarries
  exact ⟨q, ⟨stage, hq, hpaces.of_stages hcarries.stages⟩, hnext⟩

/-- A loop is begun after all others have finished. -/
theorem InPhase.connect (h : c.InPhase p) (hadmits : c.admits .connect = true) :
    c.connect.InPhase p := by
  unfold Client.connect
  split
  · exact h
  · next hlooping =>
    obtain ⟨stage, htracks, number, hat, hothers⟩ := h
    have hfinished (n : Nat) : c.stageOf n = .finished := by
      have hall : c.loops.all (·.stage == .finished) = true := by
        simpa [admits, hlooping] using hadmits
      unfold stageOf
      cases hn : c.loops[n]? with
      | none => rfl
      | some loop =>
          have hloop := List.all_eq_true.mp hall loop (List.mem_of_getElem? hn)
          simpa using hloop
    obtain rfl := (hfinished number).symm.trans hat
    obtain ⟨hcurrent, hnotes⟩ := htracks.notes (by simp) (by simp)
    have hphase : c.noted = .closed ∧ p = .idle := by
      generalize hnoted : c.noted = noted at hnotes
      cases hnotes
      exact ⟨rfl, rfl⟩
    obtain ⟨hnoted, rfl⟩ := hphase
    refine ⟨.beginning, .alone hcurrent (hnoted ▸ .begins), c.loops.length, ?_, fun k hk => ?_⟩
    · unfold stageOf
      rw [List.getElem?_concat_length]
      rfl
    · have hsame : (c.loops ++ [({} : ClientLoop)])[k]? = c.loops[k]? := by
        rw [getElem?_concat, if_neg hk]
      unfold stageOf
      rw [hsame]
      exact hfinished k

/-- **Every move takes a client to the next phase, or leaves it in its phase.** -/
theorem InPhase.move {m : ClientMove} (h : c.InPhase p) (hadmits : c.admits m = true)
    (hmove : c.move? m = some c') : ∃ q, c'.InPhase q ∧ (q = p ∨ p.Leads q) := by
  cases m with
  | register identifier handler =>
      unfold move? at hmove
      dsimp only at hmove
      split at hmove
      · next hok =>
        cases hmove
        exact h.carries (carries_register hok)
      · cases hmove
        exact ⟨p, h, .inl rfl⟩
  | connect =>
      cases hmove
      exact ⟨p, h.connect hadmits, .inl rfl⟩
  | disconnect =>
      cases hmove
      unfold disconnect
      split <;> exact h.carries (carries_of_attempts rfl rfl rfl rfl)
  | goOnParting call => exact h.carries (carries_goOnParting hmove)
  | abandon =>
      cases hmove
      unfold abandon
      split
      · exact ⟨p, h, .inl rfl⟩
      · next loop hloop =>
        have hcarries := c.carries_cancelLoop loop
        exact h.carries ⟨hcarries.current_eq, hcarries.noted_eq, hcarries.stages, hcarries.links⟩
  | onLoop loop m => exact h.moveLoop hmove
  | attend attempt =>
      obtain ⟨stage, htracks, hpaces⟩ := h
      obtain ⟨a, duty, hattends⟩ := attends_of_attend hmove
      obtain ⟨q, hq, hnext⟩ := htracks.attend hattends
      exact ⟨q, ⟨stage, hq, hpaces.of_stages (stageOf_of_loops hattends.loops_eq)⟩, hnext⟩
  | onLink attempt m => exact h.carries (carries_moveLink hmove)
  | perform command =>
      cases hmove
      exact h.carries (c.carries_perform command)

/-! ## 5. Runs -/

/-- The states that a client shows from here on, one before each move and one at the end. -/
def shows : List ClientMove → Client → List ConnectionState
  | [], c => [c.state]
  | m :: moves, c =>
      c.state ::
        match c.move? m with
        | none => []
        | some c' => shows moves c'

/-- Loops are begun one after another. -/
def takesTurns : List ClientMove → Client → Bool
  | [], _ => true
  | m :: moves, c =>
      c.admits m &&
        match c.move? m with
        | none => true
        | some c' => takesTurns moves c'

theorem InPhase.state_eq (h : c.InPhase p) : c.state = p.shown := by
  obtain ⟨stage, htracks, -⟩ := h
  exact htracks.state_eq

/-- **A client shows one phase after another.** -/
theorem InPhase.shows {moves : List ClientMove} (h : c.InPhase p)
    (hrun : c.run? moves = some c') (hturns : c.takesTurns moves = true) :
    p.Shows (c.shows moves) := by
  induction moves generalizing c p with
  | nil =>
      unfold Client.shows
      rw [h.state_eq]
      exact .last p
  | cons m moves ih =>
      unfold run? at hrun
      split at hrun
      · cases hrun
      · next c₁ hmove =>
        unfold takesTurns at hturns
        unfold Client.shows
        rw [Bool.and_eq_true, hmove] at hturns
        rw [hmove]
        obtain ⟨hadmits, hturns⟩ := hturns
        obtain ⟨q, hq, hnext⟩ := h.move hadmits hmove
        have hrest := ih hq hrun hturns
        rw [h.state_eq]
        rcases hnext with rfl | hnext
        · exact .stays hrest
        · exact .leads hnext hrest

theorem inPhase_new {config : ClientConfig} {source : RandomSource}
    (hnew : Client.new config source = .ok c) : c.InPhase .idle := by
  unfold Client.new at hnew
  cases hvalid : config.validate with
  | error r =>
      rw [hvalid] at hnew
      cases hnew
  | ok u =>
      rw [hvalid] at hnew
      cases haddress : config.serverAddress with
      | error r =>
          rw [haddress] at hnew
          cases hnew
      | ok address =>
          rw [haddress] at hnew
          cases hnew
          exact ⟨.finished, .alone rfl .finished, 0, rfl, fun _ _ => rfl⟩

/-- **The states that a client shows** are those of phases, each of which may come after the one
before. So whatever an attempt has passed is shown again only after the client has shown that it
reconnects or is closed; that it is connecting is shown before that, too, when the client has let go
of a connection that closes. -/
theorem shows_of_run {config : ClientConfig} {source : RandomSource} {c₀ : Client}
    {moves : List ClientMove} (hnew : Client.new config source = .ok c₀)
    (hrun : c₀.run? moves = some c) (hturns : c₀.takesTurns moves = true) :
    ClientPhase.idle.Shows (c₀.shows moves) ∧
    ∀ before between after s t, c₀.shows moves = before ++ s :: between ++ t :: after →
      s.toNat < ConnectionState.closed.toNat → t ≠ .connecting → t.toNat < s.toNat →
      ∃ u ∈ between, u = .closed ∨ u = .reconnecting := by
  have hshows := (inPhase_new hnew).shows hrun hturns
  exact ⟨hshows, fun before between after s t hstates hs ht hback =>
    hshows.exists_between hstates hs ht hback⟩

end Client

/-- The connection of a client comes to its end, and the client begins another attempt, which
fails. -/
def lifeAgain : List ClientMove :=
  clientLife ++ [.onLoop 0 .proceed, .onLoop 0 .proceed, .onLoop 0 .proceed, .onLoop 0 .wake,
    .onLoop 0 .proceed, .onLoop 0 .fail, .disconnect, .goOnParting 0, .onLoop 0 .proceed,
    .onLoop 0 .proceed]

theorem shows_of_lifeAgain :
    ∃ c₀ c, Client.new lifeClient lifeSource = .ok c₀ ∧ c₀.run? lifeAgain = some c ∧
      c₀.takesTurns lifeAgain = true ∧
      (c₀.shows lifeAgain).eraseReps = [.closed, .connecting, .handshaking, .opened, .closing,
        .connecting, .reconnecting, .connecting, .closed] ∧
      ClientPhase.idle.Shows (c₀.shows lifeAgain) := by
  have hseen : ((Client.new lifeClient lifeSource).toOption.bind fun c₀ =>
      (c₀.run? lifeAgain).map fun _ =>
        (c₀.takesTurns lifeAgain, (c₀.shows lifeAgain).eraseReps)) =
      some (true, [.closed, .connecting, .handshaking, .opened, .closing, .connecting,
        .reconnecting, .connecting, .closed]) := by
    decide +kernel
  obtain ⟨c₀, hc₀, hlife⟩ := Option.bind_eq_some_iff.mp hseen
  obtain ⟨c, hrun, hobserved⟩ := Option.map_eq_some_iff.mp hlife
  obtain ⟨hturns, hstates⟩ := Prod.mk.inj hobserved
  have hnew := eq_ok_of_toOption hc₀
  exact ⟨c₀, c, hnew, hrun, hturns, hstates, (Client.shows_of_run hnew hrun hturns).1⟩

/-- **A client shows that it is connecting while its connection closes**: it has let go of it, and
its loop waits for the end. -/
theorem shows_connecting_of_closing :
    ∃ c₀ c a, Client.new lifeClient lifeSource = .ok c₀ ∧ c₀.run? (clientLife.take 36) = some c ∧
      c₀.takesTurns (clientLife.take 36) = true ∧
      (c₀.shows (clientLife.take 36)).eraseReps =
        [.closed, .connecting, .handshaking, .opened, .closing, .connecting] ∧
      c.forum.links 0 = some a ∧ a.link.connection.state = .closing := by
  have hseen : ((Client.new lifeClient lifeSource).toOption.bind fun c₀ =>
      (c₀.run? (clientLife.take 36)).map fun c =>
        (c₀.takesTurns (clientLife.take 36), (c₀.shows (clientLife.take 36)).eraseReps,
          (c.forum.links 0).map (·.link.connection.state))) =
      some (true, [.closed, .connecting, .handshaking, .opened, .closing, .connecting],
        some .closing) := by
    decide +kernel
  obtain ⟨c₀, hc₀, hlife⟩ := Option.bind_eq_some_iff.mp hseen
  obtain ⟨c, hrun, hobserved⟩ := Option.map_eq_some_iff.mp hlife
  simp only [Prod.mk.injEq] at hobserved
  obtain ⟨hturns, hstates, hlink⟩ := hobserved
  obtain ⟨a, ha, hclosing⟩ := Option.map_eq_some_iff.mp hlink
  exact ⟨c₀, c, a, eq_ok_of_toOption hc₀, hrun, hturns, hstates, ha, hclosing⟩

end Courier
