import Courier.Proofs.Host.News

/-!
Courier.Proofs.Host.Registry — who is in the registry of a server.

A connection enters the registry under its id when its handshake is complete and leaves it when it
begins to close, and a server that stops empties it. So at any time every name in it is there once
and is the id of the connection it stands for (`Server.Orderly`), and no connection is in it twice.
All connections have the limit that the server is set up with.
-/

namespace Courier

/-! ## 1. Names -/

namespace Registry

variable {r : Registry α} {name : String} {value : α}

/-- The names, each of which stands for something. -/
def names (r : Registry α) : List String :=
  r.entries.map (·.1)

theorem mem_entries_erase {e : String × α} (he : e ∈ (r.erase name).entries) :
    e ∈ r.entries ∧ e.1 ≠ name := by
  obtain ⟨hmem, hne⟩ := List.mem_filter.mp he
  exact ⟨hmem, bne_iff_ne.mp hne⟩

theorem mem_entries_insert {e : String × α} (he : e ∈ (r.insert name value).entries) :
    e ∈ r.entries ∨ e = (name, value) := by
  obtain hold | hnew := List.mem_append.mp he
  · exact .inl (mem_entries_erase hold).1
  · exact .inr (List.mem_singleton.mp hnew)

theorem nodup_names_erase (h : r.names.Nodup) : (r.erase name).names.Nodup :=
  h.sublist (List.filter_sublist.map _)

theorem nodup_names_insert (h : r.names.Nodup) : (r.insert name value).names.Nodup := by
  unfold names insert
  rw [List.map_append]
  refine List.nodup_append.mpr ⟨nodup_names_erase h, List.nodup_cons.mpr ⟨nofun, .nil⟩,
    fun x hx y hy => ?_⟩
  obtain ⟨e, he, rfl⟩ := List.mem_map.mp hx
  rw [List.mem_singleton.mp hy]
  exact (mem_entries_erase he).2

end Registry

/-! ## 2. What stays as it is -/

/-- The limit of a link that goes on is what it was. -/
def Link.SameLimit (l l' : Link) : Prop :=
  l'.connection.maxPayload = l.connection.maxPayload

/-- The link of an accepted connection whose link is changed. -/
theorem Guest.link?_mapLink (change : Link → Link) (g : Guest) :
    (g.mapLink change).link? = g.link?.map change := by
  unfold Guest.mapLink Guest.link?
  cases hstage : g.stage with
  | linked a => rfl
  | settingUp | failed =>
      dsimp only
      rw [hstage]
      rfl

namespace Server

/-- The registry and the setup of a server are as they were, and so are the limits of its
connections. -/
structure Stays (s s' : Server) : Prop where
  config_eq : s'.config = s.config
  registry_eq : s'.registry = s.registry
  links : ∀ n l', s'.link? n = some l' → ∃ l, s.link? n = some l ∧ l.SameLimit l'

variable {s s' s'' : Server}

theorem Stays.trans (h : s.Stays s') (h' : s'.Stays s'') : s.Stays s'' := by
  refine ⟨h'.config_eq.trans h.config_eq, h'.registry_eq.trans h.registry_eq, fun n l'' hl'' => ?_⟩
  obtain ⟨l', hl', hsame'⟩ := h'.links n l'' hl''
  obtain ⟨l, hl, hsame⟩ := h.links n l' hl'
  exact ⟨l, hl, hsame'.trans hsame⟩

/-- The connections are left alone. -/
theorem stays_of_guests (hconfig : s'.config = s.config) (hregistry : s'.registry = s.registry)
    (hguests : s'.guests = s.guests) : s.Stays s' := by
  refine ⟨hconfig, hregistry, fun n l' hl' => ⟨l', ?_, rfl⟩⟩
  unfold link? at *
  rw [← hguests]
  exact hl'

/-- The link of a connection after one link is changed. -/
theorem link?_mapLink (guest : Nat) (change : Link → Link) (n : Nat) (s : Server) :
    (s.mapLink guest change).link? n =
      if n = guest then (s.link? n).map change else s.link? n := by
  unfold link? mapLink
  dsimp only
  rw [List.getElem?_modify]
  cases s.guests[n]? with
  | none => split <;> split <;> rfl
  | some g =>
      dsimp only [Option.map_eq_map, Option.map_some, Option.bind_some]
      split
      · next h => rw [if_pos h.symm, Guest.link?_mapLink]
      · next h => rw [if_neg (Ne.symm h)]

theorem stays_mapLink {guest : Nat} {change : Link → Link}
    (hchange : ∀ l, s.link? guest = some l → l.SameLimit (change l)) :
    s.Stays (s.mapLink guest change) := by
  refine ⟨rfl, rfl, fun n l' hl' => ?_⟩
  rw [link?_mapLink] at hl'
  split at hl'
  · next h =>
    subst h
    obtain ⟨l, hl, rfl⟩ := Option.map_eq_some_iff.mp hl'
    exact ⟨l, hl, hchange l hl⟩
  · exact ⟨l', hl', rfl⟩

/-- Links are changed in a way that leaves their limits. -/
theorem stays_of_map {f : Guest → Guest} (hconfig : s'.config = s.config)
    (hregistry : s'.registry = s.registry) (hguests : s'.guests = s.guests.map f)
    (hf : ∀ g l', (f g).link? = some l' → ∃ l, g.link? = some l ∧ l.SameLimit l') :
    s.Stays s' := by
  refine ⟨hconfig, hregistry, fun n l' hl' => ?_⟩
  unfold link? at *
  rw [hguests, List.getElem?_map] at hl'
  cases hn : s.guests[n]? with
  | none =>
      rw [hn] at hl'
      cases hl'
  | some g =>
      rw [hn] at hl'
      exact hf g l' hl'

theorem sameLimit_mapLink {change : Link → Link} {g : Guest} {l' : Link}
    (hl' : (g.mapLink change).link? = some l') (hchange : ∀ l : Link, l.SameLimit (change l)) :
    ∃ l, g.link? = some l ∧ l.SameLimit l' := by
  rw [Guest.link?_mapLink] at hl'
  obtain ⟨l, hl, rfl⟩ := Option.map_eq_some_iff.mp hl'
  exact ⟨l, hl, hchange l⟩

/-- One accepted connection is replaced. -/
theorem link?_set {guest : Nat} {g g' : Guest} (hg : s.guests[guest]? = some g)
    (hguests : s'.guests = s.guests.set guest g') (n : Nat) :
    s'.link? n = if n = guest then g'.link? else s.link? n := by
  unfold link?
  rw [hguests]
  split
  · next h =>
    have hlt : guest < s.guests.length := (List.getElem?_eq_some_iff.mp hg).1
    rw [h, List.getElem?_set_self hlt]
    rfl
  · next h => rw [List.getElem?_set_ne (Ne.symm h)]

theorem stays_of_set {guest : Nat} {g g' : Guest} (hconfig : s'.config = s.config)
    (hregistry : s'.registry = s.registry) (hg : s.guests[guest]? = some g)
    (hguests : s'.guests = s.guests.set guest g')
    (hlink : ∀ l', g'.link? = some l' → ∃ l, g.link? = some l ∧ l.SameLimit l') :
    s.Stays s' := by
  refine ⟨hconfig, hregistry, fun n l' hl' => ?_⟩
  rw [link?_set hg hguests n] at hl'
  split at hl'
  · next h =>
    obtain ⟨l, hl, hsame⟩ := hlink l' hl'
    refine ⟨l, ?_, hsame⟩
    unfold link?
    rw [h, hg]
    exact hl
  · exact ⟨l', hl', rfl⟩

/-! ## 3. The moves of a server -/

theorem sameLimit_perform (command : Command) (l : Link) : l.SameLimit (l.perform command).2 :=
  (l.connection.perform_grows command).maxPayload

theorem stays_askEach (command : Command) (guests : List Nat) (s : Server) :
    s.Stays (s.askEach command guests).2 := by
  induction guests generalizing s with
  | nil => exact stays_of_guests rfl rfl rfl
  | cons guest guests ih =>
      unfold askEach
      split
      · exact ih s
      · next l hlink =>
        have hsame := sameLimit_perform command l
        split
        · next l' hperform =>
          rw [hperform] at hsame
          refine .trans (stays_mapLink fun k hk => ?_) (ih _)
          cases hlink.symm.trans hk
          exact hsame
        · split
          · exact ih s
          · exact stays_of_guests rfl rfl rfl

theorem stays_register {identifier : String} {h : Handler}
    (hok : s.register identifier h = .ok s') : s.Stays s' := by
  unfold register at hok
  cases hrouter : s.router.register identifier h with
  | error r =>
      rw [hrouter] at hok
      cases hok
  | ok router =>
      rw [hrouter] at hok
      cases hok
      exact stays_of_map rfl rfl rfl fun g l' hl' => sameLimit_mapLink hl' fun l => rfl

theorem stays_cancelRun (run : Nat) (s : Server) : s.Stays (s.cancelRun run) := by
  refine stays_of_map rfl rfl rfl fun g l' hl' => ?_
  split at hl'
  · exact sameLimit_mapLink hl' fun l => rfl
  · exact ⟨l', hl', rfl⟩

/-- A call that stops the server empties the registry in one of its steps, and leaves it alone in
all others. -/
theorem stays_stepStop {stage stage' : StopStage} (hstep : s.stepStop? stage = some (stage', s')) :
    s.Stays s' ∨ stage = .clearing ∧ s' = { s with registry := {} } := by
  unfold stepStop? at hstep
  split at hstep
  · cases hstep
    exact .inl (stays_cancelRun _ s)
  · split at hstep
    · cases hstep
    · split at hstep <;> cases hstep
      exact .inl (stays_of_guests rfl rfl rfl)
  · cases hstep
    exact .inr ⟨rfl, rfl⟩
  · cases hstep
    exact .inl (stays_of_guests rfl rfl rfl)
  · cases hstep
    exact .inl (stays_mapLink fun l _ => sameLimit_perform .disconnect l)
  · cases hstep
    exact .inl (stays_of_guests rfl rfl rfl)
  · split at hstep
    · cases hstep
    · split at hstep <;> cases hstep
      exact .inl (stays_of_guests rfl rfl rfl)
  · cases hstep

theorem stays_accept {run attempts : Nat} {peer : String}
    (hstep : s.accept? run peer attempts = some s') : s.Stays s' := by
  unfold accept? at hstep
  split at hstep
  · cases hstep
  · split at hstep
    · dsimp only at hstep
      split at hstep
      · cases hstep
      · cases hstep
        refine ⟨rfl, rfl, fun n l' hl' => ⟨l', ?_, rfl⟩⟩
        unfold link? at *
        dsimp only at hl'
        rw [getElem?_concat] at hl'
        split at hl'
        · cases hl'
        · exact hl'
    · cases hstep

theorem stays_failSetUp {guest : Nat} (hstep : s.failSetUp? guest = some s') : s.Stays s' := by
  unfold failSetUp? at hstep
  split at hstep
  · cases hstep
  · next run id peer queue _ hg _ =>
    cases hstep
    exact stays_of_set rfl rfl hg rfl fun l' hl' => by cases hl'
  · cases hstep

theorem stays_moveLink {guest : Nat} {m : Move} (hstep : s.moveLink? guest m = some s') :
    s.Stays s' := by
  unfold moveLink? at hstep
  split at hstep
  · next run id peer queue a hg =>
    obtain ⟨a', hmove, rfl⟩ := Option.map_eq_some_iff.mp hstep
    refine stays_of_set rfl rfl hg rfl fun l' hl' => ⟨a.link, rfl, ?_⟩
    cases hl'
    exact (Link.move_keeps (AttendedLink.move_link hmove)).2.1
  · cases hstep

/-! ## 4. The registry is in order -/

/-- A server of such a setup, its connections and its registry are in order. -/
structure Orderly (config : ServerConfig) (s : Server) : Prop where
  config_eq : s.config = config
  ages : ∀ n a, s.forum.links n = some a → a.link.Ages
  /-- all connections have the limit of the server -/
  limit : ∀ n l, s.link? n = some l → l.connection.maxPayload = config.options.maxPayload
  names : s.registry.names.Nodup
  /-- every name is the id of the connection it stands for -/
  linked : ∀ e ∈ s.registry.entries, ∃ l, s.link? e.2 = some l ∧ l.connection.id = e.1

variable {config : ServerConfig} {news : Tidings}

/-- A connection that is there stays there and keeps its id, and one that is new is as old as if it
had been made by itself. -/
theorem link_of_steps (hsteps : s.Steps s' news) (n : Nat) :
    (∃ a a', s.forum.links n = some a ∧ s'.forum.links n = some a' ∧
      (a.link.Ages → a'.link.Ages ∧ a'.link.connection.id = a.link.connection.id)) ∨
    s.forum.links n = none ∧ ∀ a', s'.forum.links n = some a' → a'.link.Ages := by
  cases hsteps with
  | goes goes =>
      have hrel := goes.links n
      cases ha : s.forum.links n with
      | none =>
          rw [ha] at hrel
          cases ha' : s'.forum.links n with
          | none => exact .inr ⟨rfl, fun a' ha' => (by cases ha')⟩
          | some a' =>
              rw [ha'] at hrel
              cases hrel
      | some a =>
          rw [ha] at hrel
          cases ha' : s'.forum.links n with
          | none =>
              rw [ha'] at hrel
              cases hrel
          | some a' =>
              rw [ha'] at hrel
              cases hrel with
              | some hgoes =>
                  exact .inl ⟨a, a', rfl, rfl, fun h => ⟨(hgoes h).1, (hgoes h).2.1.id_eq⟩⟩
  | opens events fresh links heard =>
      rw [links n]
      split
      · next hn =>
        refine .inr ⟨hn ▸ fresh, fun a' ha' => ?_⟩
        cases ha'
        exact heard.ages
      · cases ha : s.forum.links n with
        | none => exact .inr ⟨rfl, fun a' ha' => (by cases ha')⟩
        | some a => exact .inl ⟨a, a, rfl, rfl, fun h => ⟨h, rfl⟩⟩
  | @attends guest b _ before duty events links =>
      rw [links n]
      split
      · next hn =>
        rw [hn]
        exact .inl ⟨b, b.doneWith b.link, before, rfl, fun h => ⟨h, rfl⟩⟩
      · cases ha : s.forum.links n with
        | none => exact .inr ⟨rfl, fun a' ha' => (by cases ha')⟩
        | some a => exact .inl ⟨a, a, rfl, rfl, fun h => ⟨h, rfl⟩⟩

theorem Orderly.ages_of_steps (h : s.Orderly config) (hsteps : s.Steps s' news) {n : Nat}
    {a' : AttendedLink} (ha' : s'.forum.links n = some a') : a'.link.Ages := by
  obtain ⟨a, b, ha, hb, hkept⟩ | ⟨-, hnew⟩ := link_of_steps hsteps n
  · cases hb.symm.trans ha'
    exact (hkept (h.ages n a ha)).1
  · exact hnew a' ha'

theorem Orderly.id_of_steps (h : s.Orderly config) (hsteps : s.Steps s' news) {n : Nat} {l : Link}
    (hl : s.link? n = some l) :
    ∃ l', s'.link? n = some l' ∧ l'.connection.id = l.connection.id := by
  rw [link?_eq] at hl
  rw [link?_eq]
  obtain ⟨a, ha, rfl⟩ := Option.map_eq_some_iff.mp hl
  obtain ⟨b, a', hb, ha', hkept⟩ | ⟨hnone, -⟩ := link_of_steps hsteps n
  · cases hb.symm.trans ha
    exact ⟨a'.link, by rw [ha']; rfl, (hkept (h.ages n a ha)).2⟩
  · cases hnone.symm.trans ha

/-- The registry stays in order if what enters it is a connection under its id. -/
theorem Orderly.step (h : s.Orderly config) (hsteps : s.Steps s' news)
    (hconfig : s'.config = s.config)
    (hlimit : ∀ n l', s'.link? n = some l' →
      l'.connection.maxPayload = config.options.maxPayload)
    (hnames : s'.registry.names.Nodup)
    (hentries : ∀ e ∈ s'.registry.entries, e ∈ s.registry.entries ∨
      ∃ l, s.link? e.2 = some l ∧ l.connection.id = e.1) : s'.Orderly config := by
  refine ⟨hconfig.trans h.config_eq, fun n a' ha' => h.ages_of_steps hsteps ha', hlimit,
    hnames, fun e he => ?_⟩
  have hbefore : ∃ l, s.link? e.2 = some l ∧ l.connection.id = e.1 :=
    (hentries e he).elim (h.linked e) id
  obtain ⟨l, hl, hid⟩ := hbefore
  obtain ⟨l', hl', hsame⟩ := h.id_of_steps hsteps hl
  exact ⟨l', hl', hsame.trans hid⟩

theorem Orderly.stays (h : s.Orderly config) (hsteps : s.Steps s' news) (hstays : s.Stays s') :
    s'.Orderly config := by
  refine h.step hsteps hstays.config_eq (fun n l' hl' => ?_) ?_ fun e he => .inl ?_
  · obtain ⟨l, hl, hsame⟩ := hstays.links n l' hl'
    exact hsame.trans (h.limit n l hl)
  · rw [hstays.registry_eq]
    exact h.names
  · rw [hstays.registry_eq] at he
    exact he

theorem Orderly.setUp {guest : Nat} {wire : Wire} (h : s.Orderly config)
    (hstep : s.setUp? guest wire = some s') : s'.Orderly config := by
  have hsteps := steps_setUp hstep
  unfold setUp? at hstep
  split at hstep
  · next run id peer queue hg =>
    cases hstep
    refine h.step hsteps rfl (fun n l' hl' => ?_) h.names fun e he => .inl he
    rw [link?_set hg rfl n] at hl'
    split at hl'
    · cases hl'
      exact congrArg (·.options.maxPayload) h.config_eq
    · exact h.limit n l' hl'
  · cases hstep

theorem config_fulfil (duty : ServerDuty) (guest : Nat) (l : Link) (s : Server) :
    (s.fulfil duty guest l).config = s.config := by
  cases duty with
  | announceEnd =>
      unfold fulfil
      dsimp only
      split <;> rfl
  | _ => rfl

/-- A duty enters the connection into the registry under its id, takes its id out of it, or leaves
it alone. -/
theorem registry_fulfil (duty : ServerDuty) (guest : Nat) (l : Link) (s : Server) :
    (s.fulfil duty guest l).registry = s.registry ∨
      (s.fulfil duty guest l).registry = s.registry.insert l.connection.id guest ∨
      (s.fulfil duty guest l).registry = s.registry.erase l.connection.id := by
  cases duty with
  | unreserve | announce => exact .inl rfl
  | enroll => exact .inr (.inl rfl)
  | strike => exact .inr (.inr rfl)
  | announceEnd =>
      unfold fulfil
      dsimp only
      split <;> exact .inl rfl

theorem Orderly.attend {guest : Nat} (h : s.Orderly config) (hstep : s.attend? guest = some s') :
    s'.Orderly config := by
  have hsteps := steps_attend hstep
  unfold attend? at hstep
  split at hstep
  · next run id peer queue a hg =>
    obtain ⟨duty, -, rfl⟩ := Option.map_eq_some_iff.mp hstep
    have hguests := congrArg (·.set guest
      { run, id, peer, queue, stage := .linked (a.doneWith a.link) : Guest })
      (guests_fulfil duty guest a.link s)
    have hlink : s.link? guest = some a.link := by
      unfold link?
      rw [hg]
      rfl
    have hlimit : ∀ n l', Server.link? n { s.fulfil duty guest a.link with
        guests := (s.fulfil duty guest a.link).guests.set guest
          { run, id, peer, queue, stage := .linked (a.doneWith a.link) } } = some l' →
        l'.connection.maxPayload = config.options.maxPayload := by
      intro n l' hl'
      rw [link?_set hg hguests n] at hl'
      split at hl'
      · cases hl'
        exact h.limit guest a.link hlink
      · exact h.limit n l' hl'
    refine h.step hsteps (config_fulfil duty guest a.link s) hlimit ?_ fun e he => ?_
    · change (s.fulfil duty guest a.link).registry.names.Nodup
      obtain hsame | hinsert | herase := registry_fulfil duty guest a.link s
      · rw [hsame]
        exact h.names
      · rw [hinsert]
        exact Registry.nodup_names_insert h.names
      · rw [herase]
        exact Registry.nodup_names_erase h.names
    · change e ∈ (s.fulfil duty guest a.link).registry.entries at he
      obtain hsame | hinsert | herase := registry_fulfil duty guest a.link s
      · rw [hsame] at he
        exact .inl he
      · rw [hinsert] at he
        obtain hold | rfl := Registry.mem_entries_insert he
        · exact .inl hold
        · exact .inr ⟨a.link, hlink, rfl⟩
      · rw [herase] at he
        exact .inl (Registry.mem_entries_erase he).1
  · cases hstep

theorem Orderly.goOnStopping {call : Nat} (h : s.Orderly config)
    (hstep : s.goOnStopping? call = some s') : s'.Orderly config := by
  have hsteps : s.Steps s' [] := .goes (goes_goOnStopping hstep)
  unfold goOnStopping? at hstep
  split at hstep
  · cases hstep
  · obtain ⟨⟨stage', s₁⟩, hstop, rfl⟩ := Option.map_eq_some_iff.mp hstep
    obtain hstays | ⟨-, rfl⟩ := stays_stepStop hstop
    · exact h.stays hsteps (hstays.trans (stays_of_guests rfl rfl rfl))
    · exact h.step hsteps rfl h.limit .nil fun e he => by cases he

/-- **The registry stays in order**, whatever happens on a server. -/
theorem Orderly.move {m : ServerMove} (h : s.Orderly config) (hmove : s.move? m = some s') :
    s'.Orderly config := by
  have hsteps := steps_move hmove
  cases m with
  | register identifier handler =>
      unfold move? at hmove
      dsimp only at hmove
      split at hmove
      · next hok =>
        cases hmove
        exact h.stays hsteps (stays_register hok)
      · cases hmove
        exact h
  | start bound =>
      cases hmove
      refine h.stays hsteps ?_
      unfold start
      split <;> exact stays_of_guests rfl rfl rfl
  | stop =>
      cases hmove
      refine h.stays hsteps ?_
      unfold stop
      split <;> exact stays_of_guests rfl rfl rfl
  | goOnStopping call => exact h.goOnStopping hmove
  | abandon =>
      cases hmove
      refine h.stays hsteps ?_
      unfold abandon
      split
      · exact stays_of_guests rfl rfl rfl
      · exact (stays_cancelRun _ s).trans (stays_of_guests rfl rfl rfl)
  | accept run peer attempts => exact h.stays hsteps (stays_accept hmove)
  | endAccepting run =>
      have hend : s.endAccepting? run = some s' := hmove
      refine h.stays hsteps ?_
      unfold endAccepting? at hend
      split at hend
      · cases hend
      · split at hend <;> cases hend
        exact stays_of_guests rfl rfl rfl
  | setUp guest wire => exact h.setUp hmove
  | failSetUp guest => exact h.stays hsteps (stays_failSetUp hmove)
  | attend guest => exact h.attend hmove
  | onLink guest m => exact h.stays hsteps (stays_moveLink hmove)
  | broadcast command order =>
      refine h.stays hsteps ?_
      unfold move? at hmove
      dsimp only at hmove
      split at hmove <;> cases hmove
      exact stays_askEach command order s

/-- What every move keeps is kept by a run. -/
theorem invariant_run {P : Server → Prop} {moves : List ServerMove}
    (hmove : ∀ {m : ServerMove} {s s' : Server}, P s → s.move? m = some s' → P s') (h : P s)
    (hrun : s.run? moves = some s') : P s' := by
  induction moves generalizing s with
  | nil =>
      cases hrun
      exact h
  | cons m moves ih =>
      unfold run? at hrun
      split at hrun
      · cases hrun
      · next s₁ hfirst => exact ih (hmove h hfirst) hrun

theorem Orderly.run {moves : List ServerMove} (h : s.Orderly config)
    (hrun : s.run? moves = some s') : s'.Orderly config :=
  invariant_run (P := fun s => s.Orderly config) (fun h hmove => h.move hmove) h hrun

theorem orderly_new {source : RandomSource} (hnew : Server.new config source = .ok s) :
    s.Orderly config := by
  unfold Server.new at hnew
  cases hvalid : config.validate with
  | error r =>
      rw [hvalid] at hnew
      cases hnew
  | ok u =>
      rw [hvalid] at hnew
      cases hnew
      exact ⟨rfl, fun n a ha => (by cases ha), fun n l hl => (by cases hl), .nil,
        fun e he => (by cases he)⟩

/-- No connection is in the registry twice. -/
theorem Orderly.nodup_live (h : s.Orderly config) : s.live.Nodup := by
  refine List.pairwise_map.mpr ((List.pairwise_map.mp h.names).imp_of_mem ?_)
  intro e e' he he' hname hsame
  obtain ⟨l, hl, hid⟩ := h.linked e he
  obtain ⟨l', hl', hid'⟩ := h.linked e' he'
  rw [← hsame, hl] at hl'
  cases hl'
  exact hname (hid.symm.trans hid')

theorem Orderly.exists_link (h : s.Orderly config) {n : Nat} (hn : n ∈ s.live) :
    ∃ l, s.link? n = some l ∧ l.connection.maxPayload = config.options.maxPayload := by
  obtain ⟨e, he, rfl⟩ := List.mem_map.mp hn
  obtain ⟨l, hl, -⟩ := h.linked e he
  exact ⟨l, hl, h.limit e.2 l hl⟩

end Server

end Courier
