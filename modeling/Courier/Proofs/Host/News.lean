import Courier.Client.Run
import Courier.Proofs.Link.News
import Courier.Server.Run

/-!
Courier.Proofs.Host.News — what servers and clients tell their listeners.

Whatever happens on a server or a client is for its connections one of three things: links go on, a
new link is there, or the next duty at a milestone is attended to (`Forum.Step`). Only the last
tells listeners anything. So listeners hear of each connection that it is ready and then that it is
gone, once each, and of none that it is gone that was not ready before.
-/

namespace Courier

theorem getElem?_concat (xs : List α) (x : α) (n : Nat) :
    (xs ++ [x])[n]? = if n = xs.length then some x else xs[n]? := by
  split
  · next h => rw [h, List.getElem?_concat_length]
  · next h =>
    rcases Nat.lt_or_gt_of_ne h with hlt | hgt
    · rw [List.getElem?_append_left hlt]
    · rw [List.getElem?_eq_none (Nat.le_of_lt hgt), List.getElem?_eq_none]
      rw [List.length_append]
      exact hgt

/-! ## 1. Servers -/

/-- The milestone whose news a duty tells. -/
def ServerDuty.topic? : ServerDuty → Option Milestone
  | .announce => some .handshaked
  | .announceEnd => some .closed
  | _ => none

theorem ServerDuty.heralds : AttendedLink.Heralds ServerDuty.at ServerDuty.topic? := by
  intro m
  cases m <;> rfl

/-- The link of an accepted connection and its duties, if it has come so far. -/
def Guest.attended? (g : Guest) : Option AttendedLink :=
  match g.stage with
  | .linked a => some a
  | _ => none

namespace Server

/-- The events of a server and the links of its connections. -/
def forum (s : Server) : Forum where
  events := s.events
  links n := (s.guests[n]?).bind Guest.attended?

/-- What listeners are told by a move, and of which connection. -/
def tells (m : ServerMove) (s : Server) : Tidings :=
  match m with
  | .attend guest => s.forum.attending ServerDuty.at ServerDuty.topic? guest
  | _ => []

/-- What listeners are told by a row of moves. -/
def tidings : List ServerMove → Server → Tidings
  | [], _ => []
  | m :: moves, s =>
      match s.move? m with
      | none => []
      | some s' => s.tells m ++ tidings moves s'

/-- A move of a server, as its connections and its listeners see it. -/
abbrev Steps (s s' : Server) (news : Tidings) : Prop :=
  Forum.Step ServerDuty.at ServerDuty.topic? s.forum s'.forum news

abbrev Goes (s s' : Server) : Prop :=
  Forum.Goes ServerDuty.at s.forum s'.forum

variable {s s' : Server}

theorem goes_of_guests (hevents : s'.events = s.events) (hguests : s'.guests = s.guests) :
    s.Goes s' := by
  refine Forum.goes_of_same hevents ?_
  unfold forum
  rw [hguests]

theorem goes_mapLink {change : Link → Link} (g : Guest)
    (hchange : ∀ a, g.attended? = some a → a.link.Stands (change a.link)) :
    Option.Rel (AttendedLink.Goes ServerDuty.at) g.attended? (g.mapLink change).attended? := by
  unfold Guest.mapLink
  split
  · next a hstage =>
    have hg : g.attended? = some a := by rw [Guest.attended?, hstage]
    rw [hg]
    exact .some (AttendedLink.goes_of_stands (hchange a hg))
  · exact Forum.goes_rfl _

/-- Links are changed in a way that nobody sees. -/
theorem goes_of_map {f : Guest → Guest} (hevents : s'.events = s.events)
    (hguests : s'.guests = s.guests.map f)
    (hf : ∀ g, Option.Rel (AttendedLink.Goes ServerDuty.at) g.attended? (f g).attended?) :
    s.Goes s' := by
  refine ⟨hevents, fun n => ?_⟩
  unfold forum
  dsimp only
  rw [hguests, List.getElem?_map]
  cases s.guests[n]? with
  | none => exact .none
  | some g => exact hf g

/-- The link of one connection is changed in a way that nobody sees. -/
theorem goes_of_mapLink {guest : Nat} {change : Link → Link}
    (hchange : ∀ a, s.forum.links guest = some a → a.link.Stands (change a.link)) :
    s.Goes (s.mapLink guest change) := by
  refine ⟨rfl, fun n => ?_⟩
  unfold forum mapLink at *
  dsimp only at *
  rw [List.getElem?_modify]
  cases hn : s.guests[n]? with
  | none => exact .none
  | some g =>
      dsimp only [Option.map_eq_map, Option.map_some, Option.bind_some]
      split
      · next heq =>
        subst heq
        refine goes_mapLink g fun a ha => hchange a ?_
        rw [hn]
        exact ha
      · exact Forum.goes_rfl _

theorem forum_set {guest : Nat} {g g' : Guest} {x : Option AttendedLink}
    (hg : s.guests[guest]? = some g) (hguests : s'.guests = s.guests.set guest g')
    (hx : g'.attended? = x) (n : Nat) :
    s'.forum.links n = if n = guest then x else s.forum.links n := by
  subst hx
  unfold forum
  dsimp only
  rw [hguests]
  split
  · next h =>
    have hlt : guest < s.guests.length := (List.getElem?_eq_some_iff.mp hg).1
    rw [h, List.getElem?_set_self hlt]
    rfl
  · next h => rw [List.getElem?_set_ne (Ne.symm h)]

theorem link?_eq (guest : Nat) (s : Server) :
    s.link? guest = (s.forum.links guest).map (·.link) := by
  unfold link? forum
  dsimp only
  cases s.guests[guest]? with
  | none => rfl
  | some g =>
      dsimp only [Option.bind_some]
      unfold Guest.link? Guest.attended?
      cases g.stage <;> rfl

/-- A broadcast asks one connection after another. -/
theorem goes_askEach (command : Command) (guests : List Nat) (s : Server) :
    s.Goes (s.askEach command guests).2 := by
  induction guests generalizing s with
  | nil => exact goes_of_guests rfl rfl
  | cons guest guests ih =>
      unfold askEach
      split
      · exact ih s
      · next l hlink =>
        have hstands := Link.perform_stands command l
        split
        · next l' hperform =>
          rw [hperform] at hstands
          refine .trans (goes_of_mapLink fun a ha => ?_) (ih _)
          rw [link?_eq, ha] at hlink
          cases hlink
          exact hstands
        · split
          · exact ih s
          · exact goes_of_guests rfl rfl

theorem goes_register {identifier : String} {h : Handler} (hok : s.register identifier h = .ok s') :
    s.Goes s' := by
  unfold register at hok
  cases hrouter : s.router.register identifier h with
  | error r =>
      rw [hrouter] at hok
      cases hok
  | ok router =>
      rw [hrouter] at hok
      cases hok
      exact goes_of_map rfl rfl fun g =>
        goes_mapLink g fun a _ => a.link.stands_setup { a.link.setup with router }

theorem goes_cancelRun (run : Nat) (s : Server) : s.Goes (s.cancelRun run) := by
  refine goes_of_map rfl rfl fun g => ?_
  split
  · exact goes_mapLink g fun a _ => a.link.stands_cancelled true
  · exact Forum.goes_rfl _

theorem goes_stepStop {stage stage' : StopStage} (hstep : s.stepStop? stage = some (stage', s')) :
    s.Goes s' := by
  unfold stepStop? at hstep
  split at hstep
  · cases hstep
    exact goes_cancelRun _ s
  · split at hstep
    · cases hstep
    · split at hstep <;> cases hstep
      exact goes_of_guests rfl rfl
  · cases hstep
    exact goes_of_guests rfl rfl
  · cases hstep
    exact goes_of_guests rfl rfl
  · cases hstep
    exact goes_of_mapLink fun a _ => Link.perform_stands .disconnect a.link
  · cases hstep
    exact goes_of_guests rfl rfl
  · split at hstep
    · cases hstep
    · split at hstep <;> cases hstep
      exact goes_of_guests rfl rfl
  · cases hstep

theorem goes_goOnStopping {call : Nat} (hstep : s.goOnStopping? call = some s') : s.Goes s' := by
  unfold goOnStopping? at hstep
  split at hstep
  · cases hstep
  · obtain ⟨⟨stage', s₁⟩, hstop, rfl⟩ := Option.map_eq_some_iff.mp hstep
    have hgoes := goes_stepStop hstop
    exact ⟨hgoes.events_eq, hgoes.links⟩

theorem goes_accept {run attempts : Nat} {peer : String}
    (hstep : s.accept? run peer attempts = some s') : s.Goes s' := by
  unfold accept? at hstep
  split at hstep
  · cases hstep
  · split at hstep
    · dsimp only at hstep
      split at hstep
      · cases hstep
      · cases hstep
        refine Forum.goes_of_same rfl (funext fun n => ?_)
        unfold forum
        dsimp only
        rw [getElem?_concat]
        split
        · next h =>
          rw [h, List.getElem?_eq_none (Nat.le_refl _)]
          rfl
        · rfl
    · cases hstep

/-- The link of a connection is as old as if it had been made by itself. -/
theorem linkFor_ages (g : Guest) (wire : Wire) (s : Server) :
    (s.linkFor g wire).Ages ∧ (s.linkFor g wire).connection.handshaked = false := by
  unfold linkFor
  dsimp only
  generalize ((s.runs[g.run]?).map (·.cancelled)).getD true = cancelled
  exact ⟨((Link.ages_new _ _ _ _ _ _ wire).stands (Link.stands_cancelled _ cancelled)).start.1, rfl⟩

theorem steps_setUp {guest : Nat} {wire : Wire} (hstep : s.setUp? guest wire = some s') :
    s.Steps s' [] := by
  unfold setUp? at hstep
  split at hstep
  · next run id peer queue hg =>
    cases hstep
    have hages := s.linkFor_ages { run, id, peer, queue } wire
    refine .opens rfl ?_ (forum_set hg rfl rfl) (AttendedLink.heard_nil hages.1 hages.2)
    unfold forum
    dsimp only
    rw [hg]
    rfl
  · cases hstep

theorem goes_failSetUp {guest : Nat} (hstep : s.failSetUp? guest = some s') : s.Goes s' := by
  unfold failSetUp? at hstep
  split at hstep
  · cases hstep
  · next run id peer queue _ hg _ =>
    cases hstep
    refine Forum.goes_of_same rfl (funext fun n => ?_)
    rw [forum_set hg rfl rfl n]
    split
    · next h =>
      unfold forum
      dsimp only
      rw [h, hg]
      rfl
    · rfl
  · cases hstep

/-- Only telling listeners changes the events. -/
theorem events_fulfil (duty : ServerDuty) (guest : Nat) (l : Link) (s : Server) :
    (s.fulfil duty guest l).events =
      (duty.topic?.toList.flatMap l.news).foldl (fun feed e => feed.publish e) s.events := by
  cases duty with
  | announceEnd =>
      cases hmark : l.connection.handshaked <;>
        simp [fulfil, hmark, ServerDuty.topic?, Link.news, publish]
  | _ => rfl

theorem guests_fulfil (duty : ServerDuty) (guest : Nat) (l : Link) (s : Server) :
    (s.fulfil duty guest l).guests = s.guests := by
  cases duty with
  | announceEnd =>
      unfold fulfil
      dsimp only
      split <;> rfl
  | _ => rfl

theorem steps_attend {guest : Nat} (hstep : s.attend? guest = some s') :
    s.Steps s' (s.tells (.attend guest)) := by
  unfold attend? at hstep
  split at hstep
  · next run id peer queue a hg =>
    obtain ⟨duty, hduty, rfl⟩ := Option.map_eq_some_iff.mp hstep
    have hlink : s.forum.links guest = some a := by
      unfold forum
      dsimp only
      rw [hg]
      rfl
    have hguests := congrArg (·.set guest
      { run, id, peer, queue, stage := .linked (a.doneWith a.link) : Guest })
      (guests_fulfil duty guest a.link s)
    refine .attends hlink hduty ?_ (forum_set hg hguests rfl)
    rw [Forum.attending_eq hlink hduty, List.foldl_map]
    exact events_fulfil duty guest a.link s
  · cases hstep

theorem goes_moveLink {guest : Nat} {m : Move} (hstep : s.moveLink? guest m = some s') :
    s.Goes s' := by
  unfold moveLink? at hstep
  split at hstep
  · next run id peer queue a hg =>
    obtain ⟨a', hmove, rfl⟩ := Option.map_eq_some_iff.mp hstep
    have hlink : s.forum.links guest = some a := by
      unfold forum
      dsimp only
      rw [hg]
      rfl
    exact Forum.goes_of_one rfl hlink (AttendedLink.goes_move hmove) (forum_set hg rfl rfl)
  · cases hstep

/-- **Whatever happens on a server, listeners are told the next news of one connection or
nothing.** -/
theorem steps_move {m : ServerMove} (hmove : s.move? m = some s') : s.Steps s' (s.tells m) := by
  cases m with
  | register identifier h =>
      unfold move? at hmove
      dsimp only at hmove
      split at hmove
      · next hok =>
        cases hmove
        exact .goes (goes_register hok)
      · cases hmove
        exact .goes (goes_of_guests rfl rfl)
  | start bound =>
      cases hmove
      unfold start
      split <;> exact .goes (goes_of_guests rfl rfl)
  | stop =>
      cases hmove
      unfold stop
      split <;> exact .goes (goes_of_guests rfl rfl)
  | goOnStopping call => exact .goes (goes_goOnStopping hmove)
  | abandon =>
      cases hmove
      unfold abandon
      split
      · exact .goes (goes_of_guests rfl rfl)
      · next run hrun =>
        have hgoes := goes_cancelRun run s
        exact .goes ⟨hgoes.events_eq, hgoes.links⟩
  | accept run peer attempts => exact .goes (goes_accept hmove)
  | endAccepting run =>
      have hend : s.endAccepting? run = some s' := hmove
      unfold endAccepting? at hend
      split at hend
      · cases hend
      · split at hend <;> cases hend
        exact .goes (goes_of_guests rfl rfl)
  | setUp guest wire => exact steps_setUp hmove
  | failSetUp guest => exact .goes (goes_failSetUp hmove)
  | attend guest => exact steps_attend hmove
  | onLink guest m => exact .goes (goes_moveLink hmove)
  | broadcast command order =>
      unfold move? at hmove
      dsimp only at hmove
      split at hmove <;> cases hmove
      exact .goes (goes_askEach command order s)

/-- **Listeners of a server are told the news of each connection**, whatever happens. -/
theorem told_run {moves : List ServerMove} {start : EventFeed ConnectionEvent} {t : Tidings}
    (h : s.forum.Told ServerDuty.at ServerDuty.topic? start t) (hrun : s.run? moves = some s') :
    s'.forum.Told ServerDuty.at ServerDuty.topic? start (t ++ s.tidings moves) := by
  induction moves generalizing s t with
  | nil =>
      cases hrun
      rw [tidings, List.append_nil]
      exact h
  | cons m moves ih =>
      unfold run? at hrun
      split at hrun
      · cases hrun
      · next s₁ hmove =>
        have htold := ih (h.step ServerDuty.heralds (steps_move hmove)) hrun
        rw [List.append_assoc] at htold
        rw [tidings, hmove]
        exact htold

/-- Nobody is told anything before a server has a connection. -/
theorem told_new {config : ServerConfig} {source : RandomSource}
    (hnew : Server.new config source = .ok s) :
    s.forum.Told ServerDuty.at ServerDuty.topic? {} [] := by
  unfold Server.new at hnew
  cases hvalid : config.validate with
  | error r =>
      rw [hvalid] at hnew
      cases hnew
  | ok u =>
      rw [hvalid] at hnew
      cases hnew
      exact Forum.told_nil rfl fun n => rfl

end Server

/-! ## 2. Clients -/

/-- The milestone whose news a duty tells. -/
def ClientDuty.topic? : ClientDuty → Option Milestone
  | .announce => some .handshaked
  | .announceEnd => some .closed
  | .detach => none

theorem ClientDuty.heralds : AttendedLink.Heralds ClientDuty.at ClientDuty.topic? := by
  intro m
  cases m <;> rfl

namespace Client

/-- The events of a client and the links of its connections. -/
def forum (c : Client) : Forum where
  events := c.events
  links n := (c.attempts[n]?).map (·.link)

/-- What listeners are told by a move, and of which connection. -/
def tells (m : ClientMove) (c : Client) : Tidings :=
  match m with
  | .attend attempt => c.forum.attending ClientDuty.at ClientDuty.topic? attempt
  | _ => []

/-- What listeners are told by a row of moves. -/
def tidings : List ClientMove → Client → Tidings
  | [], _ => []
  | m :: moves, c =>
      match c.move? m with
      | none => []
      | some c' => c.tells m ++ tidings moves c'

/-- A move of a client, as its connections and its listeners see it. -/
abbrev Steps (c c' : Client) (news : Tidings) : Prop :=
  Forum.Step ClientDuty.at ClientDuty.topic? c.forum c'.forum news

abbrev Goes (c c' : Client) : Prop :=
  Forum.Goes ClientDuty.at c.forum c'.forum

variable {c c' : Client}

theorem goes_of_attempts (hevents : c'.events = c.events) (hattempts : c'.attempts = c.attempts) :
    c.Goes c' := by
  refine Forum.goes_of_same hevents ?_
  unfold forum
  rw [hattempts]

/-- Links are changed in a way that nobody sees. -/
theorem goes_of_map {f : Attempt → Attempt} (hevents : c'.events = c.events)
    (hattempts : c'.attempts = c.attempts.map f)
    (hf : ∀ a, AttendedLink.Goes ClientDuty.at a.link (f a).link) : c.Goes c' := by
  refine ⟨hevents, fun n => ?_⟩
  unfold forum
  dsimp only
  rw [hattempts, List.getElem?_map]
  cases c.attempts[n]? with
  | none => exact .none
  | some a => exact .some (hf a)

/-- The link of one connection goes on. -/
theorem goes_of_mapLink {attempt : Nat} {change : Link → Link}
    (hchange : ∀ a, c.attempts[attempt]? = some a →
      AttendedLink.Goes ClientDuty.at a.link { a.link with link := change a.link.link }) :
    c.Goes (c.mapLink attempt change) := by
  refine ⟨rfl, fun n => ?_⟩
  unfold forum mapLink
  dsimp only
  rw [List.getElem?_modify]
  cases hn : c.attempts[n]? with
  | none => exact .none
  | some a =>
      dsimp only [Option.map_eq_map, Option.map_some]
      split
      · next heq =>
        subst heq
        exact .some (hchange a hn)
      · exact .some (.refl _)

theorem forum_set {attempt : Nat} {a a' : Attempt} {x : AttendedLink}
    (ha : c.attempts[attempt]? = some a) (hattempts : c'.attempts = c.attempts.set attempt a')
    (hx : a'.link = x) (n : Nat) :
    c'.forum.links n = if n = attempt then some x else c.forum.links n := by
  subst hx
  unfold forum
  dsimp only
  rw [hattempts]
  split
  · next h =>
    have hlt : attempt < c.attempts.length := (List.getElem?_eq_some_iff.mp ha).1
    rw [h, List.getElem?_set_self hlt]
    rfl
  · next h => rw [List.getElem?_set_ne (Ne.symm h)]

theorem goes_register {identifier : String} {h : Handler} (hok : c.register identifier h = .ok c') :
    c.Goes c' := by
  unfold register at hok
  cases hrouter : c.router.register identifier h with
  | error r =>
      rw [hrouter] at hok
      cases hok
  | ok router =>
      rw [hrouter] at hok
      cases hok
      exact goes_of_map rfl rfl fun a =>
        AttendedLink.goes_of_stands (a.link.link.stands_setup { a.link.link.setup with router })

theorem goes_cancelLoop (loop : Nat) (c : Client) : c.Goes (c.cancelLoop loop) := by
  refine goes_of_map rfl rfl fun a => ?_
  split
  · exact AttendedLink.goes_of_stands (a.link.link.stands_cancelled true)
  · exact .refl _

theorem goes_goOnParting {call : Nat} (hstep : c.goOnParting? call = some c') : c.Goes c' := by
  unfold goOnParting? at hstep
  split at hstep
  · cases hstep
  · obtain ⟨⟨stage', c₁⟩, hpart, rfl⟩ := Option.map_eq_some_iff.mp hstep
    have hgoes : c.Goes c₁ := by
      unfold stepParting? at hpart
      split at hpart
      · cases hpart
        exact goes_cancelLoop _ c
      · split at hpart
        · cases hpart
        · split at hpart <;> cases hpart
          exact goes_of_attempts rfl rfl
      · cases hpart
    exact ⟨hgoes.events_eq, hgoes.links⟩

theorem linkFor_ages {loop : ClientLoop} {queue : Nat} {wire : Wire} {l : Link}
    {source : RandomSource} (hmade : c.linkFor loop queue wire = some (l, source)) :
    l.Ages ∧ l.connection.handshaked = false := by
  unfold linkFor at hmade
  obtain ⟨id, -, hl⟩ := Option.map_eq_some_iff.mp hmade
  cases hl
  exact ⟨(Link.ages_new _ _ _ _ _ _ wire).stands (Link.stands_cancelled _ loop.cancelled), rfl⟩

theorem steps_launch {number queue : Nat} {loop : ClientLoop} {wire : Wire} {stage : LoopStage}
    (hlaunch : c.launch? number loop queue wire = some (stage, c')) : c.Steps c' [] := by
  obtain ⟨⟨l, source⟩, hmade, hc⟩ := Option.map_eq_some_iff.mp hlaunch
  cases hc
  obtain ⟨hages, hmark⟩ := linkFor_ages hmade
  refine .opens (n := c.attempts.length) rfl ?_ (fun n => ?_) (AttendedLink.heard_nil hages hmark)
  · unfold forum
    dsimp only
    rw [List.getElem?_eq_none (Nat.le_refl _)]
    rfl
  · unfold forum
    dsimp only
    rw [getElem?_concat]
    split <;> rfl

theorem steps_stepLoop {number : Nat} {loop : ClientLoop} {m : LoopMove} {stage : LoopStage}
    (hstep : c.stepLoop? number loop m = some (stage, c')) : c.Steps c' [] := by
  unfold stepLoop? at hstep
  split at hstep
  case h_3 => exact steps_launch hstep
  case h_4 attempt _ _ =>
    cases hstep
    exact .goes (goes_of_mapLink fun a _ => AttendedLink.goes_start a.link)
  all_goals
    first
    | cases hstep
      exact .goes (goes_of_attempts rfl rfl)
    | split at hstep <;> cases hstep
      exact .goes (goes_of_attempts rfl rfl)
    | cases hstep

theorem steps_moveLoop {number : Nat} {m : LoopMove} (hstep : c.moveLoop? number m = some c') :
    c.Steps c' [] := by
  unfold moveLoop? at hstep
  split at hstep
  · cases hstep
  · next loop _ =>
    obtain ⟨⟨stage, c₁⟩, hloop, rfl⟩ := Option.map_eq_some_iff.mp hstep
    have hsteps := steps_stepLoop hloop
    exact hsteps

/-- Only telling listeners changes the events. -/
theorem events_fulfil (duty : ClientDuty) (attempt : Nat) (l : Link) (c : Client) :
    (c.fulfil duty attempt l).events =
      (duty.topic?.toList.flatMap l.news).foldl (fun feed e => feed.publish e) c.events := by
  cases duty with
  | announce => rfl
  | detach =>
      unfold fulfil
      dsimp only
      split <;> rfl
  | announceEnd =>
      cases hmark : l.connection.handshaked <;>
        simp [fulfil, hmark, ClientDuty.topic?, Link.news, publish]

theorem attempts_fulfil (duty : ClientDuty) (attempt : Nat) (l : Link) (c : Client) :
    (c.fulfil duty attempt l).attempts = c.attempts := by
  cases duty with
  | announce => rfl
  | detach | announceEnd =>
      unfold fulfil
      dsimp only
      split <;> rfl

theorem steps_attend {attempt : Nat} (hstep : c.attend? attempt = some c') :
    c.Steps c' (c.tells (.attend attempt)) := by
  unfold attend? at hstep
  split at hstep
  · cases hstep
  · next a ha =>
    obtain ⟨duty, hduty, rfl⟩ := Option.map_eq_some_iff.mp hstep
    have hlink : c.forum.links attempt = some a.link := by
      unfold forum
      dsimp only
      rw [ha]
      rfl
    have hattempts := congrArg (·.set attempt { a with link := a.link.doneWith a.link.link })
      (attempts_fulfil duty attempt a.link.link c)
    refine .attends hlink hduty ?_ (forum_set ha hattempts rfl)
    rw [Forum.attending_eq hlink hduty, List.foldl_map]
    exact events_fulfil duty attempt a.link.link c

theorem goes_moveLink {attempt : Nat} {m : Move} (hstep : c.moveLink? attempt m = some c') :
    c.Goes c' := by
  unfold moveLink? at hstep
  split at hstep
  · cases hstep
  · next a ha =>
    obtain ⟨link, hmove, rfl⟩ := Option.map_eq_some_iff.mp hstep
    have hlink : c.forum.links attempt = some a.link := by
      unfold forum
      dsimp only
      rw [ha]
      rfl
    exact Forum.goes_of_one rfl hlink (AttendedLink.goes_move hmove) (forum_set ha rfl rfl)

theorem goes_perform (command : Command) (c : Client) : c.Goes (c.perform command).2 := by
  unfold perform
  split
  · next attempt l hcurrent hl =>
    split
    · have hfind : (c.attempts[attempt]?).map (·.link.link) = some l := by
        unfold link? at hl
        rw [hcurrent] at hl
        exact hl
      obtain ⟨a, ha, rfl⟩ := Option.map_eq_some_iff.mp hfind
      refine goes_of_mapLink fun b hb => ?_
      rw [ha] at hb
      cases hb
      exact AttendedLink.goes_of_stands (Link.perform_stands command a.link.link)
    · exact goes_of_attempts rfl rfl
  · exact goes_of_attempts rfl rfl

/-- **Whatever happens on a client, listeners are told the next news of one connection or
nothing.** -/
theorem steps_move {m : ClientMove} (hmove : c.move? m = some c') : c.Steps c' (c.tells m) := by
  cases m with
  | register identifier h =>
      unfold move? at hmove
      dsimp only at hmove
      split at hmove
      · next hok =>
        cases hmove
        exact .goes (goes_register hok)
      · cases hmove
        exact .goes (goes_of_attempts rfl rfl)
  | connect =>
      cases hmove
      unfold connect
      split <;> exact .goes (goes_of_attempts rfl rfl)
  | disconnect =>
      cases hmove
      unfold disconnect
      split <;> exact .goes (goes_of_attempts rfl rfl)
  | goOnParting call => exact .goes (goes_goOnParting hmove)
  | abandon =>
      cases hmove
      unfold abandon
      split
      · exact .goes (goes_of_attempts rfl rfl)
      · next loop hloop =>
        have hgoes := goes_cancelLoop loop c
        exact .goes ⟨hgoes.events_eq, hgoes.links⟩
  | onLoop loop m => exact steps_moveLoop hmove
  | attend attempt => exact steps_attend hmove
  | onLink attempt m => exact .goes (goes_moveLink hmove)
  | perform command =>
      cases hmove
      exact .goes (goes_perform command c)

/-- **Listeners of a client are told the news of each connection**, whatever happens. -/
theorem told_run {moves : List ClientMove} {start : EventFeed ConnectionEvent} {t : Tidings}
    (h : c.forum.Told ClientDuty.at ClientDuty.topic? start t) (hrun : c.run? moves = some c') :
    c'.forum.Told ClientDuty.at ClientDuty.topic? start (t ++ c.tidings moves) := by
  induction moves generalizing c t with
  | nil =>
      cases hrun
      rw [tidings, List.append_nil]
      exact h
  | cons m moves ih =>
      unfold run? at hrun
      split at hrun
      · cases hrun
      · next c₁ hmove =>
        have htold := ih (h.step ClientDuty.heralds (steps_move hmove)) hrun
        rw [List.append_assoc] at htold
        rw [tidings, hmove]
        exact htold

/-- Nobody is told anything before a client has a connection. -/
theorem told_new {config : ClientConfig} {source : RandomSource}
    (hnew : Client.new config source = .ok c) :
    c.forum.Told ClientDuty.at ClientDuty.topic? {} [] := by
  unfold Client.new at hnew
  cases hvalid : config.validate with
  | error r =>
      rw [hvalid] at hnew
      cases hnew
  | ok u =>
      rw [hvalid] at hnew
      cases haddress : config.serverAddress with
      | error r =>
          rw [haddress] at hnew
          cases hnew
      | ok address =>
          rw [haddress] at hnew
          cases hnew
          exact Forum.told_nil rfl fun n => rfl

end Client

/-! ## 3. The life of connections -/

/-- What every connection goes through. -/
structure Link.Lives (l : Link) : Prop where
  /-- the owner saw the front of this: the handshake and the frames, if it came to that, and then
  the closing and the end -/
  outline_front : l.outline <+: l.script
  /-- at the end the owner saw all of it -/
  outline_eq : l.main = .finished → l.outline = l.script
  milestones_front : l.milestones <+:
    (if l.connection.handshaked then [.handshaked] else []) ++ [.closing, .closed]
  ne_crashed : ∀ misuse, l.main ≠ .crashed misuse
  state_le : l.connection.state.toNat ≤ ConnectionState.closed.toNat
  handshaked : l.connection.state = .opened → l.connection.handshaked = true
  /-- whatever comes after, the state does not go back and the handshake is not forgotten -/
  advances : ∀ (moves : List Move) (l' : Link), l.run? moves = some l' →
    l.connection.state.toNat ≤ l'.connection.state.toNat ∧
      (l.connection.handshaked = true → l'.connection.handshaked = true)

theorem Link.Ages.lives {l : Link} (h : l.Ages) : l.Lives where
  outline_front := h.outline_front
  outline_eq hfinished := h.outline_eq_script (by rw [hfinished]; rfl)
  milestones_front := by
    have hscript : l.script.filterMap Moment.milestone? =
        (if l.connection.handshaked then [.handshaked] else []) ++ [.closing, .closed] := by
      have hnone : (l.heard.map Moment.dispatched).filterMap Moment.milestone? = [] := by
        rw [List.filterMap_map]
        exact List.filterMap_eq_nil_iff.mpr fun _ _ => rfl
      unfold Link.script
      cases l.connection.handshaked <;> simp [Moment.milestone?, hnone]
    rw [← hscript]
    exact h.outline_front.filterMap _
  ne_crashed := h.sane.ne_crashed
  state_le := h.state_le
  handshaked := h.handshaked_of_opened
  advances _ _ hrun := ⟨(h.run hrun).2.state_le, (h.run hrun).2.handshaked⟩

/-- What is published of connections by whoever has them: listeners were told the tidings. -/
structure Forum.Announces (t : Tidings) (v : Forum) : Prop where
  events_eq : v.events = t.foldl (fun feed e => feed.publish e.2) {}
  /-- of no connection anything but that it is ready and then that it is gone, once each -/
  milestones_front : ∀ n, (t.about n).map ConnectionEvent.milestone <+: [.handshaked, .closed]
  silent : ∀ n, v.links n = none → t.about n = []
  id_eq : ∀ n a, v.links n = some a → ∀ e ∈ t.about n, e.connection.id = a.link.connection.id
  /-- at the end both, if its handshake was ever complete, and otherwise nothing -/
  milestones_eq : ∀ n a, v.links n = some a → a.link.main = .finished →
    (t.about n).map ConnectionEvent.milestone = a.link.tale
  lives : ∀ n a, v.links n = some a → a.link.Lives

theorem Forum.Told.announces {δ : Type} {duties : Milestone → List δ}
    {topic : δ → Option Milestone} {t : Tidings} {v : Forum}
    (hheralds : AttendedLink.Heralds duties topic) (h : v.Told duties topic {} t) :
    v.Announces t where
  events_eq := h.events_eq
  milestones_front n := by
    cases hlink : v.links n with
    | none =>
        rw [h.silent n hlink]
        exact List.nil_prefix
    | some a => exact (h.heard n a hlink).milestones_front hheralds
  silent := h.silent
  id_eq n a hlink := (h.heard n a hlink).id_eq
  milestones_eq n a hlink hfinished :=
    (h.heard n a hlink).milestones_of_gone hheralds (by rw [hfinished]; rfl)
  lives n a hlink := (h.heard n a hlink).ages.lives

/-- **The life of connections.** The owner of a connection sees the handshake, the frames, the
closing and the end, in this order, or only the last two; the state goes forward only. Of the
connections of a server or a client, listeners are told that one is gone if and only if they were
told before that it was ready. -/
theorem lives_and_announces :
    (∀ (setup : LinkSetup) (id peer : String) (maxPayload : Nat) (input output : Thresholds)
      (wire : Wire) (moves : List Move) (l : Link),
      (Link.new setup id peer maxPayload input output wire).run? moves = some l → l.Lives) ∧
    (∀ (config : ServerConfig) (source : RandomSource) (s₀ s : Server) (moves : List ServerMove),
      Server.new config source = .ok s₀ → s₀.run? moves = some s →
        s.forum.Announces (s₀.tidings moves)) ∧
    (∀ (config : ClientConfig) (source : RandomSource) (c₀ c : Client) (moves : List ClientMove),
      Client.new config source = .ok c₀ → c₀.run? moves = some c →
        c.forum.Announces (c₀.tidings moves)) := by
  refine ⟨fun setup id peer maxPayload input output wire moves l hrun => ?_,
    fun config source s₀ s moves hnew hrun => ?_, fun config source c₀ c moves hnew hrun => ?_⟩
  · exact ((Link.ages_new setup id peer maxPayload input output wire).run hrun).1.lives
  · exact (Server.told_run (Server.told_new hnew) hrun).announces ServerDuty.heralds
  · exact (Client.told_run (Client.told_new hnew) hrun).announces ClientDuty.heralds

/-- The tasks of a link in an order in which it comes to its end, in four parts: until the handshake
is complete, until the connection closes, until it is closed, and the rest. -/
def lifeMoves : List Move × List Move × List Move × List Move :=
  (List.replicate 3 (.main .work),
    List.replicate 3 (.main .work) ++ List.replicate 3 (.receiver .work 2048) ++
      List.replicate 7 (.main .work) ++ List.replicate 5 (.receiver .work 2048) ++
      List.replicate 6 (.main .work),
    List.replicate 4 (.main .work) ++ List.replicate 2 (.sender .work 2048) ++
      [.writer .stop, .writer .work, .writer .work, .main .work, .main .work] ++
      List.replicate 6 (.sender .work 2048) ++ List.replicate 5 (.main .work),
    List.replicate 2 (.main .work))

/-- A frame arrives, and nothing after it. -/
def lifeInput : List Move :=
  [.arrive [0, 0, 0, 1, 116, 0, 0, 0, 1, 21], .endArriving]

def linkLife : List Move :=
  .start :: lifeInput ++ lifeMoves.1 ++ lifeMoves.2.1 ++ lifeMoves.2.2.1 ++ lifeMoves.2.2.2

/-- A server takes in one connection, and attends to its duties. -/
def serverLife : List ServerMove :=
  [.start (.ok { ip := .short [127, 0, 0, 1], port := 7 }), .accept 0 "far" 1,
    .setUp 0 { capacity := 64 }] ++ (lifeInput ++ lifeMoves.1).map (.onLink 0) ++
    List.replicate 3 (.attend 0) ++ lifeMoves.2.1.map (.onLink 0) ++
    List.replicate 2 (.attend 0) ++ lifeMoves.2.2.1.map (.onLink 0) ++ [.attend 0] ++
    lifeMoves.2.2.2.map (.onLink 0)

/-- A client makes one connection, and attends to its duties. -/
def clientLife : List ClientMove :=
  [.connect, .onLoop 0 .proceed, .onLoop 0 .reach, .onLoop 0 (.setUp { capacity := 64 }),
    .onLoop 0 .proceed] ++ (lifeInput ++ lifeMoves.1).map (.onLink 0) ++ [.attend 0] ++
    lifeMoves.2.1.map (.onLink 0) ++ [.attend 0] ++ lifeMoves.2.2.1.map (.onLink 0) ++
    [.attend 0] ++ lifeMoves.2.2.2.map (.onLink 0)

def lifeServer : ServerConfig :=
  { address := "127.0.0.1", port := 0, transport := .stream }

def lifeClient : ClientConfig :=
  { address := "127.0.0.1", port := 7, transport := .stream }

def lifeSource : RandomSource :=
  { byte := fun _ => 0 }

theorem eq_ok_of_toOption {x : Except ε α} {a : α} (h : x.toOption = some a) : x = .ok a := by
  cases x <;> cases h
  rfl

theorem lives_and_announces_of_life :
    (∃ l, (Link.new {} "near" "far" 100 {} {} { capacity := 64 }).run? linkLife = some l ∧
      l.outline = [.told .handshaked,
        .dispatched { (Frame.new "t" [21]) with direction := .receiving },
        .told .closing, .told .closed] ∧ l.Lives) ∧
    (∃ s₀ s, Server.new lifeServer lifeSource = .ok s₀ ∧ s₀.run? serverLife = some s ∧
      ((s₀.tidings serverLife).about 0).map ConnectionEvent.milestone = [.handshaked, .closed] ∧
      s.forum.Announces (s₀.tidings serverLife)) ∧
    (∃ c₀ c, Client.new lifeClient lifeSource = .ok c₀ ∧ c₀.run? clientLife = some c ∧
      ((c₀.tidings clientLife).about 0).map ConnectionEvent.milestone = [.handshaked, .closed] ∧
      c.forum.Announces (c₀.tidings clientLife)) := by
  refine ⟨?_, ?_, ?_⟩
  · have hseen : ((Link.new {} "near" "far" 100 {} {} { capacity := 64 }).run? linkLife).map
        Link.outline = some [.told .handshaked,
          .dispatched { (Frame.new "t" [21]) with direction := .receiving },
          .told .closing, .told .closed] := by
      decide +kernel
    obtain ⟨l, hrun, houtline⟩ := Option.map_eq_some_iff.mp hseen
    exact ⟨l, hrun, houtline, lives_and_announces.1 _ _ _ _ _ _ _ _ _ hrun⟩
  · have hseen : ((Server.new lifeServer lifeSource).toOption.bind fun s₀ =>
        (s₀.run? serverLife).map fun _ =>
          ((s₀.tidings serverLife).about 0).map ConnectionEvent.milestone) =
        some [.handshaked, .closed] := by
      decide +kernel
    obtain ⟨s₀, hs₀, hlife⟩ := Option.bind_eq_some_iff.mp hseen
    obtain ⟨s, hrun, hnews⟩ := Option.map_eq_some_iff.mp hlife
    have hnew := eq_ok_of_toOption hs₀
    exact ⟨s₀, s, hnew, hrun, hnews, lives_and_announces.2.1 _ _ _ _ _ hnew hrun⟩
  · have hseen : ((Client.new lifeClient lifeSource).toOption.bind fun c₀ =>
        (c₀.run? clientLife).map fun _ =>
          ((c₀.tidings clientLife).about 0).map ConnectionEvent.milestone) =
        some [.handshaked, .closed] := by
      decide +kernel
    obtain ⟨c₀, hc₀, hlife⟩ := Option.bind_eq_some_iff.mp hseen
    obtain ⟨c, hrun, hnews⟩ := Option.map_eq_some_iff.mp hlife
    have hnew := eq_ok_of_toOption hc₀
    exact ⟨c₀, c, hnew, hrun, hnews, lives_and_announces.2.2 _ _ _ _ _ hnew hrun⟩

end Courier
