import Courier.Proofs.Host.Registry
import Courier.Proofs.Link.States

/-!
Courier.Proofs.Host.Guests — what a move of a server does to its connections and their ids.

A move takes in a connection, sets its transport up or fails to, does one duty for it, lets its link
go on by one move, empties the registry, or asks something of connections that nobody sees
(`Server.Acts`). So for each connection the record of its id and of the duties that are done for it
changes only when it is taken in, when its transport cannot be set up, and when a duty is done
(`Server.Books`); and with it the reserved ids and the registry.
-/

namespace Courier

/-! ## 1. Connections -/

namespace Guest

/-- Something is asked of a connection, or its setup is changed, in a way that nobody sees. -/
inductive Asked (g : Guest) : Guest → Prop where
  | rests : Asked g g
  | asked {a : AttendedLink} {link : Link} (stage : g.stage = .linked a)
      (stands : a.link.Stands link) : Asked g { g with stage := .linked { a with link } }

variable {g g' g'' : Guest}

theorem Asked.trans (h : g.Asked g') (h' : g'.Asked g'') : g.Asked g'' := by
  cases h with
  | rests => exact h'
  | @asked a link stage stands =>
      cases h' with
      | rests => exact .asked stage stands
      | asked stage' stands' =>
          cases stage'
          exact .asked (a := a) stage (stands.trans stands')

theorem asked_mapLink {change : Link → Link}
    (hchange : ∀ l, g.link? = some l → l.Stands (change l)) : g.Asked (g.mapLink change) := by
  unfold mapLink
  split
  · next a hstage =>
    refine .asked hstage (hchange a.link ?_)
    unfold link?
    rw [hstage]
  · exact .rests

theorem asked_rfl : ∀ x : Option Guest, Option.Rel Asked x x
  | none => .none
  | some _ => .some .rests

theorem asked_trans : ∀ {x y z : Option Guest}, Option.Rel Asked x y → Option.Rel Asked y z →
    Option.Rel Asked x z
  | _, _, _, .none, .none => .none
  | _, _, _, .some h, .some h' => .some (h.trans h')

end Guest

/-! ## 2. Moves -/

namespace Server

/-- Something is asked of connections. -/
def Asks (s s' : Server) : Prop :=
  ∀ n : Nat, Option.Rel Guest.Asked s.guests[n]? s'.guests[n]?

/-- What a move does to the connections of a server, to the reserved ids and to the registry. -/
inductive Acts (s : Server) (m : ServerMove) (s' : Server) : Prop where
  | asks (guests : s.Asks s') (reserved_eq : s'.reserved = s.reserved)
      (registry_eq : s'.registry = s.registry)
  /-- the registry is emptied by a call that stops the server -/
  | clears {call : Nat} (move : m = .goOnStopping call) (stage : s.stops[call]? = some .clearing)
      (guests_eq : s'.guests = s.guests) (reserved_eq : s'.reserved = s.reserved)
      (registry_eq : s'.registry = {})
  | accepts {run attempts queue : Nat} {peer id : String} (move : m = .accept run peer attempts)
      (found : (Token.freshId s.isTaken attempts s.source).found = some id)
      (guests_eq : s'.guests = s.guests ++ [{ run, id, peer, queue : Guest }])
      (reserved_eq : s'.reserved = s.reserved ++ [id]) (registry_eq : s'.registry = s.registry)
  | opens {guest : Nat} {g : Guest} {wire : Wire} (before : s.guests[guest]? = some g)
      (stage : g.stage = .settingUp)
      (guests_eq : s'.guests =
        s.guests.set guest { g with stage := .linked { link := s.linkFor g wire } })
      (reserved_eq : s'.reserved = s.reserved) (registry_eq : s'.registry = s.registry)
  | fails {guest : Nat} {g : Guest} (before : s.guests[guest]? = some g)
      (stage : g.stage = .settingUp)
      (guests_eq : s'.guests = s.guests.set guest { g with stage := .failed })
      (reserved_eq : s'.reserved = s.reserved.filter (· != g.id))
      (registry_eq : s'.registry = s.registry)
  | attends {guest : Nat} {g : Guest} {a : AttendedLink} {duty : ServerDuty}
      (move : m = .attend guest) (before : s.guests[guest]? = some g) (stage : g.stage = .linked a)
      (duty_eq : a.duty? ServerDuty.at = some duty)
      (guests_eq : s'.guests = s.guests.set guest { g with stage := .linked (a.doneWith a.link) })
      (reserved_eq : s'.reserved = (s.fulfil duty guest a.link).reserved)
      (registry_eq : s'.registry = (s.fulfil duty guest a.link).registry)
  | moves {guest : Nat} {g : Guest} {a a' : AttendedLink} {linkMove : Move}
      (move : m = .onLink guest linkMove) (before : s.guests[guest]? = some g)
      (stage : g.stage = .linked a) (step : a.move? ServerDuty.at linkMove = some a')
      (guests_eq : s'.guests = s.guests.set guest { g with stage := .linked a' })
      (reserved_eq : s'.reserved = s.reserved) (registry_eq : s'.registry = s.registry)

variable {s s' s'' : Server} {m : ServerMove}

theorem asks_of_guests (hguests : s'.guests = s.guests) : s.Asks s' := by
  intro n
  rw [hguests]
  exact Guest.asked_rfl _

theorem Asks.trans (h : s.Asks s') (h' : s'.Asks s'') : s.Asks s'' :=
  fun n => Guest.asked_trans (h n) (h' n)

theorem Asks.after {n : Nat} {g : Guest} (h : s.Asks s') (hg : s.guests[n]? = some g) :
    ∃ g', s'.guests[n]? = some g' ∧ g.Asked g' := by
  have hn := h n
  rw [hg] at hn
  cases hg' : s'.guests[n]? with
  | none =>
      rw [hg'] at hn
      cases hn
  | some g' =>
      rw [hg'] at hn
      cases hn with
      | some asked => exact ⟨g', rfl, asked⟩

theorem Asks.before {n : Nat} {g' : Guest} (h : s.Asks s') (hg' : s'.guests[n]? = some g') :
    ∃ g, s.guests[n]? = some g ∧ g.Asked g' := by
  have hn := h n
  rw [hg'] at hn
  cases hg : s.guests[n]? with
  | none =>
      rw [hg] at hn
      cases hn
  | some g =>
      rw [hg] at hn
      cases hn with
      | some asked => exact ⟨g, rfl, asked⟩

theorem asks_of_map {f : Guest → Guest} (hguests : s'.guests = s.guests.map f)
    (hf : ∀ g : Guest, g.Asked (f g)) : s.Asks s' := by
  intro n
  rw [hguests, List.getElem?_map]
  cases s.guests[n]? with
  | none => exact .none
  | some g => exact .some (hf g)

theorem asks_mapLink {guest : Nat} {change : Link → Link}
    (hchange : ∀ l, s.link? guest = some l → l.Stands (change l)) :
    s.Asks (s.mapLink guest change) := by
  intro n
  unfold mapLink
  dsimp only
  rw [List.getElem?_modify]
  cases hn : s.guests[n]? with
  | none => exact .none
  | some g =>
      by_cases heq : guest = n
      · subst heq
        have hg : g.Asked (g.mapLink change) := by
          refine Guest.asked_mapLink fun l hl => hchange l ?_
          unfold link?
          rw [hn]
          exact hl
        simpa using Option.Rel.some hg
      · simpa [heq] using Option.Rel.some (Guest.Asked.rests (g := g))

/-- Everything but the connections is left alone by a broadcast. -/
theorem asks_askEach (command : Command) (guests : List Nat) (s : Server) :
    s.Asks (s.askEach command guests).2 ∧ (s.askEach command guests).2.reserved = s.reserved ∧
      (s.askEach command guests).2.registry = s.registry := by
  induction guests generalizing s with
  | nil => exact ⟨asks_of_guests rfl, rfl, rfl⟩
  | cons guest guests ih =>
      unfold askEach
      split
      · exact ih s
      · next l hlink =>
        have hstands := Link.perform_stands command l
        split
        · next l' hperform =>
          rw [hperform] at hstands
          obtain ⟨hasks, hreserved, hregistry⟩ := ih (s.mapLink guest fun _ => l')
          refine ⟨.trans (asks_mapLink fun k hk => ?_) hasks, hreserved, hregistry⟩
          cases hlink.symm.trans hk
          exact hstands
        · split
          · exact ih s
          · exact ⟨asks_of_guests rfl, rfl, rfl⟩

theorem asks_cancelRun (run : Nat) (s : Server) : s.Asks (s.cancelRun run) := by
  refine asks_of_map rfl fun g => ?_
  split
  · exact Guest.asked_mapLink fun l _ => l.stands_cancelled true
  · exact .rests

theorem acts_register {identifier : String} {h : Handler}
    (hok : s.register identifier h = .ok s') : s.Acts m s' := by
  unfold register at hok
  cases hrouter : s.router.register identifier h with
  | error r =>
      rw [hrouter] at hok
      cases hok
  | ok router =>
      rw [hrouter] at hok
      cases hok
      refine .asks (asks_of_map rfl fun g => ?_) rfl rfl
      exact Guest.asked_mapLink fun l _ => l.stands_setup { l.setup with router }

theorem acts_goOnStopping {call : Nat} (hstep : s.goOnStopping? call = some s') :
    s.Acts (.goOnStopping call) s' := by
  unfold goOnStopping? at hstep
  split at hstep
  · cases hstep
  · next stage hstage =>
    obtain ⟨⟨stage', s₁⟩, hstop, rfl⟩ := Option.map_eq_some_iff.mp hstep
    unfold stepStop? at hstop
    split at hstop
    · cases hstop
      exact .asks (asks_cancelRun _ s) rfl rfl
    · split at hstop
      · cases hstop
      · split at hstop <;> cases hstop
        exact .asks (asks_of_guests rfl) rfl rfl
    · cases hstop
      exact .clears rfl hstage rfl rfl rfl
    · cases hstop
      exact .asks (asks_of_guests rfl) rfl rfl
    · cases hstop
      exact .asks (asks_mapLink fun l _ => Link.perform_stands .disconnect l) rfl rfl
    · cases hstop
      exact .asks (asks_of_guests rfl) rfl rfl
    · split at hstop
      · cases hstop
      · split at hstop <;> cases hstop
        exact .asks (asks_of_guests rfl) rfl rfl
    · cases hstop

theorem acts_accept {run attempts : Nat} {peer : String}
    (hstep : s.accept? run peer attempts = some s') : s.Acts (.accept run peer attempts) s' := by
  unfold accept? at hstep
  split at hstep
  · cases hstep
  · split at hstep
    · dsimp only at hstep
      split at hstep
      · cases hstep
      · next id hfound =>
        cases hstep
        exact .accepts rfl hfound rfl rfl rfl
    · cases hstep

/-- **Every move of a server is one of these.** -/
theorem acts_of_move (hmove : s.move? m = some s') : s.Acts m s' := by
  cases m with
  | register identifier handler =>
      unfold move? at hmove
      dsimp only at hmove
      split at hmove
      · next hok =>
        cases hmove
        exact acts_register hok
      · cases hmove
        exact .asks (asks_of_guests rfl) rfl rfl
  | start bound =>
      cases hmove
      unfold start
      split <;> exact .asks (asks_of_guests rfl) rfl rfl
  | stop =>
      cases hmove
      unfold stop
      split <;> exact .asks (asks_of_guests rfl) rfl rfl
  | goOnStopping call => exact acts_goOnStopping hmove
  | abandon =>
      cases hmove
      unfold abandon
      split
      · exact .asks (asks_of_guests rfl) rfl rfl
      · exact .asks (asks_cancelRun _ s) rfl rfl
  | accept run peer attempts => exact acts_accept hmove
  | endAccepting run =>
      have hend : s.endAccepting? run = some s' := hmove
      unfold endAccepting? at hend
      split at hend
      · cases hend
      · split at hend <;> cases hend
        exact .asks (asks_of_guests rfl) rfl rfl
  | setUp guest wire =>
      have hsetUp : s.setUp? guest wire = some s' := hmove
      unfold setUp? at hsetUp
      split at hsetUp
      · next hg =>
        cases hsetUp
        exact .opens hg rfl rfl rfl rfl
      · cases hsetUp
  | failSetUp guest =>
      have hfail : s.failSetUp? guest = some s' := hmove
      unfold failSetUp? at hfail
      split at hfail
      · cases hfail
      · next hg _ =>
        cases hfail
        exact .fails hg rfl rfl rfl rfl
      · cases hfail
  | attend guest =>
      have hattend : s.attend? guest = some s' := hmove
      unfold attend? at hattend
      split at hattend
      · next run id peer queue a hg =>
        obtain ⟨duty, hduty, rfl⟩ := Option.map_eq_some_iff.mp hattend
        have hguests := congrArg (·.set guest
          { run, id, peer, queue, stage := .linked (a.doneWith a.link) : Guest })
          (guests_fulfil duty guest a.link s)
        exact .attends rfl hg rfl hduty hguests rfl rfl
      · cases hattend
  | onLink guest linkMove =>
      have hlink : s.moveLink? guest linkMove = some s' := hmove
      unfold moveLink? at hlink
      split at hlink
      · next hg =>
        obtain ⟨a', hstep, rfl⟩ := Option.map_eq_some_iff.mp hlink
        exact .moves rfl hg rfl hstep rfl rfl rfl
      · cases hlink
  | broadcast command order =>
      unfold move? at hmove
      dsimp only at hmove
      split at hmove <;> cases hmove
      obtain ⟨hasks, hreserved, hregistry⟩ := s.asks_askEach command order
      exact .asks hasks hreserved hregistry

end Server

/-! ## 3. Records -/

/-- All duties that there are for a connection, from first to last. -/
def ServerDuty.all (handshaked : Bool) : List ServerDuty :=
  (if handshaked then ServerDuty.at .handshaked else []) ++
    (ServerDuty.at .closing ++ ServerDuty.at .closed)

/-- These duties may be done for a connection: the first ones of all that there are. -/
def ServerDuty.Begun (done : List ServerDuty) : Prop :=
  ∃ handshaked, done <+: ServerDuty.all handshaked

namespace ServerDuty

variable {done : List ServerDuty} {d : ServerDuty}

/-- The first duty is that the id is no longer reserved. -/
theorem Begun.eq_nil (h : Begun done) (hreserved : .unreserve ∉ done) : done = [] := by
  obtain ⟨handshaked, hfront⟩ := h
  cases done with
  | nil => rfl
  | cons d rest =>
      have hd : d = .unreserve := by
        obtain ⟨more, hmore⟩ := hfront
        cases handshaked <;> exact (List.cons.inj hmore).1
      rw [hd] at hreserved
      exact absurd (List.mem_cons_self ..) hreserved

/-- Once the id has left the registry, listeners are told of the end, and that is all. -/
theorem Begun.eq_announceEnd (h : Begun (done ++ [d])) (hstruck : .strike ∈ done) :
    d = .announceEnd := by
  obtain ⟨handshaked, hfront⟩ := h
  have hlast : ∀ handshaked k, .strike ∈ (ServerDuty.all handshaked).take k →
      ∀ d, (ServerDuty.all handshaked)[k]? = some d → d = .announceEnd := by
    intro handshaked k
    cases handshaked <;> rcases k with _ | _ | _ | _ | _ | _ | k <;>
      simp [ServerDuty.all, ServerDuty.at]
  have hdone := List.prefix_iff_eq_take.mp ((List.prefix_append done [d]).trans hfront)
  obtain ⟨more, hmore⟩ := hfront
  refine hlast handshaked done.length (hdone ▸ hstruck) d ?_
  rw [← hmore]
  simp

end ServerDuty

/-- The duties that are done for a connection. One whose transport could not be set up is treated as
if it had closed. -/
def Guest.done (g : Guest) : List ServerDuty :=
  match g.stage with
  | .settingUp => []
  | .failed => ServerDuty.at .closing
  | .linked a => a.fulfilled ServerDuty.at

namespace Guest

variable {g g' : Guest} {a : AttendedLink}

theorem done_linked (hstage : g.stage = .linked a) : g.done = a.fulfilled ServerDuty.at := by
  unfold done
  rw [hstage]

theorem Asked.id_eq (h : g.Asked g') : g'.id = g.id := by
  cases h <;> rfl

theorem Asked.done_eq (h : g.Asked g') : g'.done = g.done := by
  cases h with
  | rests => rfl
  | asked stage stands =>
      rw [done_linked stage]
      exact AttendedLink.fulfilled_of_stands stands

end Guest

namespace Server

/-- The id of a connection, and the duties that are done for it. -/
def record? (n : Nat) (s : Server) : Option (String × List ServerDuty) :=
  (s.guests[n]?).map fun g => (g.id, g.done)

/-- Something holds of every link and the id that its connection was taken in with. -/
def Linked (P : String → Link → Prop) (s : Server) : Prop :=
  ∀ (n : Nat) g a, s.guests[n]? = some g → g.stage = .linked a → P g.id a.link

/-- The registry is in order, and every link has the id of its connection. -/
structure Recorded (config : ServerConfig) (s : Server) : Prop where
  orderly : s.Orderly config
  id_eq : s.Linked fun id l => l.connection.id = id

variable {s s' : Server} {m : ServerMove} {config : ServerConfig} {n guest : Nat} {g g' : Guest}
variable {a : AttendedLink}

theorem record_eq (hg : s.guests[n]? = some g) : s.record? n = some (g.id, g.done) := by
  unfold record?
  rw [hg]
  rfl

theorem forum_of_stage (hg : s.guests[n]? = some g) (hstage : g.stage = .linked a) :
    s.forum.links n = some a := by
  unfold forum
  dsimp only
  rw [hg, Option.bind_some, Guest.attended?, hstage]

theorem stage_of_forum (hlink : s.forum.links n = some a) :
    ∃ g, s.guests[n]? = some g ∧ g.stage = .linked a := by
  obtain ⟨g, hg, ha⟩ := Option.bind_eq_some_iff.mp hlink
  refine ⟨g, hg, ?_⟩
  unfold Guest.attended? at ha
  split at ha
  · next hstage =>
    cases ha
    exact hstage
  · cases ha

/-- The record of a connection that has come so far as to have a link. -/
theorem Recorded.record_eq (h : s.Recorded config) (hlink : s.forum.links n = some a) :
    s.record? n = some (a.link.connection.id, a.fulfilled ServerDuty.at) := by
  obtain ⟨g, hg, hstage⟩ := stage_of_forum hlink
  rw [Server.record_eq hg, Guest.done_linked hstage, h.id_eq n g a hg hstage]

theorem Recorded.ages (h : s.Recorded config) (hg : s.guests[n]? = some g)
    (hstage : g.stage = .linked a) : a.link.Ages :=
  h.orderly.ages n a (forum_of_stage hg hstage)

/-- One connection is replaced. -/
theorem guests_set (hg : s.guests[guest]? = some g) (hguests : s'.guests = s.guests.set guest g')
    (n : Nat) : s'.guests[n]? = if n = guest then some g' else s.guests[n]? := by
  have hlt : guest < s.guests.length := (List.getElem?_eq_some_iff.mp hg).1
  rw [hguests]
  split
  · next h => rw [h, List.getElem?_set_self hlt]
  · next h => rw [List.getElem?_set_ne (Ne.symm h)]

theorem record_set (hg : s.guests[guest]? = some g) (hguests : s'.guests = s.guests.set guest g')
    (n : Nat) : s'.record? n = if n = guest then some (g'.id, g'.done) else s.record? n := by
  unfold record?
  rw [guests_set hg hguests n]
  split <;> rfl

theorem record_of_guests (hguests : s'.guests = s.guests) (n : Nat) :
    s'.record? n = s.record? n := by
  unfold record?
  rw [hguests]

theorem record_of_asks (h : s.Asks s') (n : Nat) : s'.record? n = s.record? n := by
  cases hg : s.guests[n]? with
  | none =>
      cases hg' : s'.guests[n]? with
      | none => rw [record?, record?, hg, hg']
      | some g' =>
          obtain ⟨g, hg'', -⟩ := h.before hg'
          cases hg.symm.trans hg''
  | some g =>
      obtain ⟨g', hg', asked⟩ := h.after hg
      rw [record_eq hg, record_eq hg', asked.id_eq, asked.done_eq]

/-- **What holds of a link when it is made, and is kept whatever the link does, holds of every link
of a server.** -/
theorem Linked.move {P : String → Link → Prop} (h : s.Linked P) (horderly : s.Orderly config)
    (hstands : ∀ {id : String} {l l' : Link}, P id l → l.Stands l' → P id l')
    (hmoves : ∀ {id : String} {l l' : Link} {m : Move}, l.Ages → P id l → l.move? m = some l' →
      P id l')
    (hopens : ∀ g wire, P g.id (s.linkFor g wire)) (hmove : s.move? m = some s') :
    s'.Linked P := by
  intro n g' a' hg' hstage'
  cases acts_of_move hmove with
  | asks guests reserved_eq registry_eq =>
      obtain ⟨g, hg, asked⟩ := guests.before hg'
      cases asked with
      | rests => exact h n _ a' hg hstage'
      | @asked a link stage stands =>
          cases hstage'
          exact hstands (h n g a hg stage) stands
  | clears move stage guests_eq reserved_eq registry_eq =>
      rw [guests_eq] at hg'
      exact h n g' a' hg' hstage'
  | accepts move found guests_eq reserved_eq registry_eq =>
      rw [guests_eq, getElem?_concat] at hg'
      split at hg'
      · cases hg'
        cases hstage'
      · exact h n g' a' hg' hstage'
  | opens before stage guests_eq reserved_eq registry_eq =>
      rw [guests_set before guests_eq n] at hg'
      split at hg'
      · cases hg'
        cases hstage'
        exact hopens _ _
      · exact h n g' a' hg' hstage'
  | fails before stage guests_eq reserved_eq registry_eq =>
      rw [guests_set before guests_eq n] at hg'
      split at hg'
      · cases hg'
        cases hstage'
      · exact h n g' a' hg' hstage'
  | @attends guest g a duty move before stage duty_eq guests_eq reserved_eq registry_eq =>
      rw [guests_set before guests_eq n] at hg'
      split at hg'
      · cases hg'
        cases hstage'
        exact h guest g a before stage
      · exact h n g' a' hg' hstage'
  | @moves guest g a _ linkMove move before stage step guests_eq reserved_eq registry_eq =>
      rw [guests_set before guests_eq n] at hg'
      split at hg'
      · cases hg'
        cases hstage'
        have hages := horderly.ages guest a (forum_of_stage before stage)
        exact hmoves hages (h guest g a before stage) (AttendedLink.move_link step)
      · exact h n g' a' hg' hstage'

/-- **Every link keeps the id of its connection**, whatever happens on a server. -/
theorem Recorded.move (h : s.Recorded config) (hmove : s.move? m = some s') :
    s'.Recorded config := by
  refine ⟨h.orderly.move hmove, h.id_eq.move h.orderly ?_ ?_ (fun _ _ => rfl) hmove⟩
  · intro id l l' hid hstands
    exact hstands.connection.id_eq.trans hid
  · intro id l l' m hages hid hstep
    exact (hages.move hstep).2.id_eq.trans hid

theorem Recorded.run {moves : List ServerMove} (h : s.Recorded config)
    (hrun : s.run? moves = some s') : s'.Recorded config :=
  invariant_run (P := fun s => s.Recorded config) (fun h hmove => h.move hmove) h hrun

/-- Before a connection is taken in there is none. -/
theorem guests_new {source : RandomSource} (hnew : Server.new config source = .ok s) :
    s.guests = [] ∧ s.registry.entries = [] := by
  unfold Server.new at hnew
  cases hvalid : config.validate with
  | error r =>
      rw [hvalid] at hnew
      cases hnew
  | ok u =>
      rw [hvalid] at hnew
      cases hnew
      exact ⟨rfl, rfl⟩

theorem recorded_new {source : RandomSource} (hnew : Server.new config source = .ok s) :
    s.Recorded config := by
  refine ⟨orderly_new hnew, fun n g a hg => ?_⟩
  rw [(guests_new hnew).1] at hg
  cases hg

/-- Duties are done in order. -/
theorem Recorded.begun (h : s.Recorded config) {id : String} {done : List ServerDuty}
    (hrecord : s.record? n = some (id, done)) : ServerDuty.Begun done := by
  obtain ⟨g, hg, heq⟩ := Option.map_eq_some_iff.mp hrecord
  cases heq
  unfold Guest.done
  split
  · exact ⟨true, List.nil_prefix⟩
  · exact ⟨false, List.prefix_append _ _⟩
  · next a hstage => exact ⟨_, AttendedLink.fulfilled_front (h.ages hg hstage)⟩

/-- What a move does to the records, to the reserved ids and to the registry. -/
inductive Books (s : Server) (m : ServerMove) (s' : Server) : Prop where
  | rests (records : ∀ n, s'.record? n = s.record? n) (reserved_eq : s'.reserved = s.reserved)
      (registry_eq : s'.registry = s.registry)
  | clears {call : Nat} (move : m = .goOnStopping call) (stage : s.stops[call]? = some .clearing)
      (records : ∀ n, s'.record? n = s.record? n) (reserved_eq : s'.reserved = s.reserved)
      (registry_eq : s'.registry = {})
  | accepts {run attempts : Nat} {peer id : String} (move : m = .accept run peer attempts)
      (found : (Token.freshId s.isTaken attempts s.source).found = some id)
      (records : ∀ n, s'.record? n = if n = s.guests.length then some (id, []) else s.record? n)
      (reserved_eq : s'.reserved = s.reserved ++ [id]) (registry_eq : s'.registry = s.registry)
  | fails {guest : Nat} {id : String} (before : s.record? guest = some (id, []))
      (records : ∀ n, s'.record? n =
        if n = guest then some (id, ServerDuty.at .closing) else s.record? n)
      (reserved_eq : s'.reserved = s.reserved.filter (· != id))
      (registry_eq : s'.registry = s.registry)
  | attends {guest : Nat} {id : String} {done : List ServerDuty} {duty : ServerDuty}
      (move : m = .attend guest) (before : s.record? guest = some (id, done))
      (records : ∀ n, s'.record? n =
        if n = guest then some (id, done ++ [duty]) else s.record? n)
      (reserved_eq : s'.reserved =
        if duty = .unreserve then s.reserved.filter (· != id) else s.reserved)
      (registry_eq : s'.registry =
        if duty = .enroll then s.registry.insert id guest
        else if duty = .strike then s.registry.erase id else s.registry)

theorem reserved_fulfil (duty : ServerDuty) (guest : Nat) (l : Link) (s : Server) :
    (s.fulfil duty guest l).reserved =
      if duty = .unreserve then s.reserved.filter (· != l.connection.id) else s.reserved := by
  cases duty with
  | announceEnd =>
      unfold fulfil
      cases hmark : l.connection.handshaked <;> simp [hmark, publish]
  | _ => rfl

theorem registry_fulfil_eq (duty : ServerDuty) (guest : Nat) (l : Link) (s : Server) :
    (s.fulfil duty guest l).registry =
      if duty = .enroll then s.registry.insert l.connection.id guest
      else if duty = .strike then s.registry.erase l.connection.id else s.registry := by
  cases duty with
  | announceEnd =>
      unfold fulfil
      cases hmark : l.connection.handshaked <;> simp [hmark, publish]
  | _ => rfl

/-- **A move changes one record at most.** -/
theorem books_of_move (h : s.Recorded config) (hmove : s.move? m = some s') : s.Books m s' := by
  cases acts_of_move hmove with
  | asks guests reserved_eq registry_eq =>
      exact .rests (record_of_asks guests) reserved_eq registry_eq
  | clears move stage guests_eq reserved_eq registry_eq =>
      exact .clears move stage (record_of_guests guests_eq) reserved_eq registry_eq
  | accepts move found guests_eq reserved_eq registry_eq =>
      refine .accepts move found (fun n => ?_) reserved_eq registry_eq
      unfold record?
      rw [guests_eq, getElem?_concat]
      split <;> rfl
  | @opens guest g wire before stage guests_eq reserved_eq registry_eq =>
      refine .rests (fun n => ?_) reserved_eq registry_eq
      rw [record_set before guests_eq n]
      split
      · next hn =>
        rw [hn, record_eq before]
        unfold Guest.done
        rw [stage]
        rfl
      · rfl
  | @fails guest g before stage guests_eq reserved_eq registry_eq =>
      refine .fails ?_ (record_set before guests_eq) reserved_eq registry_eq
      rw [record_eq before]
      unfold Guest.done
      rw [stage]
  | @attends guest g a duty move before stage duty_eq guests_eq reserved_eq registry_eq =>
      have hid := h.id_eq guest g a before stage
      rw [reserved_fulfil, hid] at reserved_eq
      rw [registry_fulfil_eq, hid] at registry_eq
      refine .attends move (record_eq before) (fun n => ?_) reserved_eq registry_eq
      rw [record_set before guests_eq n, Guest.done_linked stage,
        ← AttendedLink.fulfilled_doneWith duty_eq]
      rfl
  | @moves guest g a a' linkMove move before stage step guests_eq reserved_eq registry_eq =>
      refine .rests (fun n => ?_) reserved_eq registry_eq
      rw [record_set before guests_eq n]
      split
      · next hn =>
        obtain ⟨-, -, hfulfilled⟩ := AttendedLink.goes_move step (h.ages before stage)
        rw [hn, record_eq before, Guest.done_linked stage, ← hfulfilled]
        rfl
      · rfl

end Server

end Courier
