import Courier.EventFeed
import Courier.Proofs.Link.LifeCycle

/-!
Courier.Proofs.Link.News — what listeners are told of a connection.

The owner of a link has duties at its milestones, and some of them are to tell listeners the news:
that the connection is ready, and that it is gone if it was ready before. The duties that are done
at any time are those at the milestones that are past, and the first few of those at the present one
(`AttendedLink.fulfilled`): moves of the link do not change them, and attending to a duty adds one.
So the news of a connection is that it is ready and then that it is gone, once each
(`AttendedLink.Heard`).
-/

namespace Courier

/-! ## 1. Duties that are done -/

/-- The milestone that an event is about. -/
def ConnectionEvent.milestone : ConnectionEvent → Milestone
  | .connected _ => .handshaked
  | .disconnected _ => .closed

/-- What listeners are told at a milestone. -/
def Link.news (l : Link) : Milestone → List ConnectionEvent
  | .handshaked => [.connected (l.connection.summary l.transport.reason)]
  | .closing => []
  | .closed =>
      if l.connection.handshaked then [.disconnected (l.connection.summary l.transport.reason)]
      else []

theorem Link.id_of_mem_news {l : Link} {m : Milestone} {e : ConnectionEvent} (he : e ∈ l.news m) :
    e.connection.id = l.connection.id := by
  cases m with
  | handshaked =>
      rw [List.mem_singleton.mp he]
      rfl
  | closing => cases he
  | closed =>
      unfold Link.news at he
      dsimp only at he
      split at he
      · rw [List.mem_singleton.mp he]
        rfl
      · cases he

/-- What listeners are told of a connection, from first to last. -/
def Link.tale (l : Link) : List Milestone :=
  if l.connection.handshaked then [.handshaked, .closed] else []

namespace AttendedLink

section

variable {δ : Type} (duties : Milestone → List δ)

/-- The duties that are done, from the first on. -/
def fulfilled (a : AttendedLink) : List δ :=
  a.link.milestones.flatMap duties ++ (a.link.milestone?.elim [] fun m => (duties m).take a.done)

/-- The news that listeners were told. -/
def heralded (topic : δ → Option Milestone) (a : AttendedLink) : List Milestone :=
  (a.fulfilled duties).filterMap topic

/-- Only the duties at the handshake and at the end are to tell the news, each of its own
milestone. -/
def Heralds (topic : δ → Option Milestone) : Prop :=
  ∀ m, (duties m).filterMap topic = if m = .closing then [] else [m]

/-- The link goes on from a state that it may be in, and no duty is done. -/
def Goes (a a' : AttendedLink) : Prop :=
  a.link.Ages → a'.link.Ages ∧ a.link.Advances a'.link ∧
    a'.fulfilled duties = a.fulfilled duties

variable {duties} {a a' a'' : AttendedLink}

theorem Goes.refl (a : AttendedLink) : Goes duties a a := fun h => ⟨h, .refl _, rfl⟩

theorem Goes.trans (h : Goes duties a a') (h' : Goes duties a' a'') : Goes duties a a'' := by
  intro hages
  obtain ⟨hages', hadvances, hfulfilled⟩ := h hages
  obtain ⟨hages'', hadvances', hfulfilled'⟩ := h' hages'
  exact ⟨hages'', hadvances.trans hadvances', hfulfilled'.trans hfulfilled⟩

/-- One more duty is done. -/
theorem fulfilled_doneWith {d : δ} (hduty : a.duty? duties = some d) :
    (a.doneWith a.link).fulfilled duties = a.fulfilled duties ++ [d] := by
  unfold duty? at hduty
  unfold fulfilled doneWith
  cases hm : a.link.milestone? with
  | none =>
      rw [hm] at hduty
      cases hduty
  | some m =>
      rw [hm] at hduty
      dsimp only at hduty
      rw [Option.elim_some, Option.elim_some, List.take_add_one, hduty, List.append_assoc]
      rfl

/-- Nothing is seen of the link. -/
theorem fulfilled_of_stands {link : Link} (h : a.link.Stands link) :
    ({ a with link } : AttendedLink).fulfilled duties = a.fulfilled duties := by
  unfold fulfilled Link.milestones
  rw [Link.milestone?_eq, Link.milestone?_eq, h.outline_eq, h.main_eq]

theorem goes_of_stands {link : Link} (h : a.link.Stands link) : Goes duties a { a with link } :=
  fun hages => ⟨hages.stands h, Link.advances_of_alike h.connection, fulfilled_of_stands h⟩

theorem goes_start (a : AttendedLink) : Goes duties a { a with link := a.link.start } := by
  refine fun hages => ⟨hages.start.1, hages.start.2, ?_⟩
  unfold fulfilled Link.start
  split
  · next hstage =>
    rw [Link.milestone?_eq, Link.milestone?_eq, hstage]
    rfl
  · rfl

/-- The main task goes on when all duties at the milestone are done. -/
theorem fulfilled_of_proceeds (hduty : a.duty? duties = none) (hl : a.link.Proceeds a'.link)
    (hfresh : a'.link.milestone? = none ∨ a'.done = 0) :
    a'.fulfilled duties = a.fulfilled duties := by
  have hnew : (a'.link.milestone?.elim [] fun m => (duties m).take a'.done) = [] := by
    obtain hnone | hzero := hfresh
    · rw [hnone]
      rfl
    · rw [hzero]
      cases a'.link.milestone? <;> rfl
  unfold duty? at hduty
  unfold fulfilled
  rw [hnew, hl.told, List.append_nil, List.flatMap_append]
  congr 1
  cases hm : a.link.milestone? with
  | none => rfl
  | some m =>
      rw [hm] at hduty
      have hall : (duties m).take a.done = duties m :=
        List.take_of_length_le (List.getElem?_eq_none_iff.mp hduty)
      rw [Option.elim_some, hall]
      simp

/-- A move of the link. -/
theorem move_link {m : Move} (hmove : a.move? duties m = some a') :
    a.link.move? m = some a'.link := by
  have hother : ((a.link.move? m).map fun link => { a with link }) = some a' →
      a.link.move? m = some a'.link := by
    intro h
    obtain ⟨link, hlink, rfl⟩ := Option.map_eq_some_iff.mp h
    exact hlink
  cases m with
  | start | record _ | shutDown _ => cases hmove
  | main choice =>
      cases choice with
      | work =>
          have hwork : (if (a.duty? duties).isSome then none
            else (a.link.move? (.main .work)).map fun link => { link }) = some a' := hmove
          split at hwork
          · cases hwork
          · obtain ⟨link, hlink, rfl⟩ := Option.map_eq_some_iff.mp hwork
            exact hlink
      | stop => exact hother hmove
  | _ => exact hother hmove

/-- **A move of the link does no duty, and passes no milestone before its duties are done.** -/
theorem goes_move {m : Move} (hmove : a.move? duties m = some a') : Goes duties a a' := by
  intro h
  have hother : (∀ choice, m ≠ .main choice) → m ≠ .start →
      ((a.link.move? m).map fun link => { a with link }) = some a' →
      a'.link.Ages ∧ a.link.Advances a'.link ∧ a'.fulfilled duties = a.fulfilled duties := by
    intro hmain hstart hmove
    obtain ⟨link, hlink, rfl⟩ := Option.map_eq_some_iff.mp hmove
    exact goes_of_stands (Link.move_stands hmain hstart hlink) h
  cases m with
  | start | record _ | shutDown _ => cases hmove
  | main choice =>
      cases choice with
      | work =>
          have hwork : (if (a.duty? duties).isSome then none
            else (a.link.move? (.main .work)).map fun link => { link }) = some a' := hmove
          split at hwork
          · cases hwork
          · next hduty =>
            obtain ⟨link, hlink, rfl⟩ := Option.map_eq_some_iff.mp hwork
            have hproceeds := h.works (h.sane.move hlink) (Link.works_of_workMain hlink)
            exact ⟨hproceeds.ages, hproceeds.advances,
              fulfilled_of_proceeds (Option.not_isSome_iff_eq_none.mp hduty) hproceeds (.inr rfl)⟩
      | stop =>
          obtain ⟨link, hlink, rfl⟩ := Option.map_eq_some_iff.mp hmove
          have hproceeds := h.stopMain (h.sane.move hlink) hlink
          obtain ⟨read, hstage, -, -, rfl⟩ := Link.stopMain_eq hlink
          have hduty : a.duty? duties = none := by rw [duty?, Link.milestone?, hstage]
          exact ⟨hproceeds.ages, hproceeds.advances,
            fulfilled_of_proceeds hduty hproceeds (.inl rfl)⟩
  | _ => exact hother (fun _ => Move.noConfusion) Move.noConfusion hmove

/-! ## 2. The news of a connection -/

variable {topic : δ → Option Milestone}

theorem heralded_of_milestones (hheralds : Heralds duties topic) (ms : List Milestone) :
    (ms.flatMap duties).filterMap topic = ms.filter (· ≠ .closing) := by
  induction ms with
  | nil => rfl
  | cons m ms ih =>
      rw [List.flatMap_cons, List.filterMap_append, hheralds m, ih]
      cases m <;> rfl

end

end AttendedLink

/-- The milestones that are past. -/
def Chapter.passed (handshaked : Bool) : Chapter → List Milestone
  | .silent | .sealing | .welcoming => []
  | .serving | .parting => if handshaked then [.handshaked] else []
  | .closing | .ended => (if handshaked then [.handshaked] else []) ++ [.closing]
  | .gone => (if handshaked then [.handshaked] else []) ++ [.closing, .closed]

theorem Link.Ages.milestones_eq {l : Link} (h : l.Ages) :
    l.milestones = l.main.chapter.passed l.connection.handshaked := by
  have hnone (fs : List Frame) : (fs.map Moment.dispatched).filterMap Moment.milestone? = [] := by
    rw [List.filterMap_map]
    exact List.filterMap_eq_nil_iff.mpr fun _ _ => rfl
  unfold Link.milestones
  rw [h.outline_eq]
  cases l.main.chapter <;> cases l.connection.handshaked <;>
    simp [Chapter.service, Chapter.farewell, Chapter.passed, Moment.milestone?, hnone]

namespace AttendedLink

section

variable {δ : Type} {duties : Milestone → List δ} {topic : δ → Option Milestone}
variable {a a' : AttendedLink} {told : List ConnectionEvent}

/-- The duties that are done are the first ones of all that there are. -/
theorem fulfilled_front (h : a.link.Ages) :
    a.fulfilled duties <+:
      (if a.link.connection.handshaked then duties .handshaked else []) ++
        (duties .closing ++ duties .closed) := by
  have hlate := h.sane.timely.late
  unfold fulfilled
  rw [h.milestones_eq, Link.milestone?_eq]
  cases hchapter : a.link.main.chapter with
  | silent | sealing => exact List.nil_prefix
  | welcoming =>
      rw [hlate (MainStage.late_of_welcoming hchapter), if_pos rfl]
      exact (List.take_prefix a.done _).trans (List.prefix_append ..)
  | serving =>
      cases a.link.connection.handshaked with
      | true => simp [Chapter.passed, Chapter.milestone?]
      | false => exact List.nil_prefix
  | parting =>
      have hfew := (List.take_prefix a.done (duties .closing)).trans
        (List.prefix_append _ (duties .closed))
      cases a.link.connection.handshaked <;>
        simpa [Chapter.passed, Chapter.milestone?] using hfew
  | closing =>
      cases a.link.connection.handshaked <;> simp [Chapter.passed, Chapter.milestone?]
  | ended =>
      have hfew := List.take_prefix a.done (duties .closed)
      cases a.link.connection.handshaked <;>
        simpa [Chapter.passed, Chapter.milestone?] using hfew
  | gone =>
      cases a.link.connection.handshaked <;> simp [Chapter.passed, Chapter.milestone?]

/-- What a link tells in its life: that it is ready if its handshake is complete, and the end. -/
theorem heralded_front (hheralds : Heralds duties topic) (h : a.link.Ages) :
    a.heralded duties topic <+:
      if a.link.connection.handshaked then [.handshaked, .closed] else [.closed] := by
  have hfront : a.heralded duties topic <+: _ := (fulfilled_front h).filterMap topic
  rw [List.filterMap_append, List.filterMap_append, hheralds .closing, hheralds .closed] at hfront
  cases hmark : a.link.connection.handshaked with
  | true =>
      rw [hmark, if_pos rfl, hheralds .handshaked] at hfront
      exact hfront
  | false =>
      rw [hmark, if_neg Bool.false_ne_true] at hfront
      exact hfront

/-- At the end all of it is told. -/
theorem heralded_of_gone (hheralds : Heralds duties topic) (h : a.link.Ages)
    (hgone : a.link.main.chapter = .gone) : a.heralded duties topic =
      if a.link.connection.handshaked then [.handshaked, .closed] else [.closed] := by
  unfold heralded fulfilled
  rw [List.filterMap_append, heralded_of_milestones hheralds, h.milestones_eq, Link.milestone?_eq,
    hgone]
  cases a.link.connection.handshaked <;> rfl

/-- Listeners were told the news of the link, as far as it was ever ready. -/
structure Heard (duties : Milestone → List δ) (topic : δ → Option Milestone) (a : AttendedLink)
    (told : List ConnectionEvent) : Prop where
  ages : a.link.Ages
  milestones : told.map ConnectionEvent.milestone =
    if a.link.connection.handshaked then a.heralded duties topic else []
  id_eq : ∀ e ∈ told, e.connection.id = a.link.connection.id

/-- Of a link whose handshake is not complete nothing is told. -/
theorem heard_nil {l : Link} (h : l.Ages) (hmark : l.connection.handshaked = false) :
    ({ link := l } : AttendedLink).Heard duties topic [] :=
  ⟨h, by rw [hmark]; rfl, fun _ he => by cases he⟩

/-- As the link goes on, nothing is told. -/
theorem Heard.goes (hheralds : Heralds duties topic) (h : a.Heard duties topic told)
    (hgoes : Goes duties a a') : a'.Heard duties topic told := by
  obtain ⟨hages, hadvances, hfulfilled⟩ := hgoes h.ages
  have hsame : a'.heralded duties topic = a.heralded duties topic := by
    rw [heralded, hfulfilled, heralded]
  refine ⟨hages, ?_, fun e he => (h.id_eq e he).trans hadvances.id_eq.symm⟩
  rw [h.milestones, hsame]
  cases hmark : a.link.connection.handshaked with
  | true => rw [hadvances.handshaked hmark]
  | false =>
      cases hmark' : a'.link.connection.handshaked with
      | false => rfl
      | true =>
          -- the handshake was marked by this move, so nothing was told yet
          have hbefore := heralded_front hheralds h.ages
          have hafter := heralded_front hheralds hages
          rw [hmark] at hbefore
          rw [hmark', hsame] at hafter
          have hnil : a.heralded duties topic = [] := by
            cases hheralded : a.heralded duties topic with
            | nil => rfl
            | cons m ms =>
                rw [hheralded] at hbefore hafter
                have hclosed := (List.cons_prefix_cons.mp hbefore).1
                have hready := (List.cons_prefix_cons.mp hafter).1
                cases hready.symm.trans hclosed
          rw [hnil]
          rfl

/-- A duty that tells news tells those of the present milestone, at which it is known whether the
connection was ever ready. -/
theorem news_milestones {d : δ} {m : Milestone} (hheralds : Heralds duties topic)
    (h : a.link.Ages) (hduty : a.duty? duties = some d) (htopic : topic d = some m) :
    (a.link.news m).map ConnectionEvent.milestone =
      if a.link.connection.handshaked then [m] else [] := by
  unfold duty? at hduty
  rw [Link.milestone?_eq] at hduty
  cases hchapter : a.link.main.chapter with
  | welcoming =>
      rw [hchapter] at hduty
      have hm := List.mem_filterMap.mpr ⟨d, List.mem_of_getElem? hduty, htopic⟩
      rw [hheralds .handshaked] at hm
      rw [List.mem_singleton.mp hm, h.sane.timely.late (MainStage.late_of_welcoming hchapter)]
      rfl
  | parting =>
      rw [hchapter] at hduty
      have hm := List.mem_filterMap.mpr ⟨d, List.mem_of_getElem? hduty, htopic⟩
      rw [hheralds .closing] at hm
      cases hm
  | ended =>
      rw [hchapter] at hduty
      have hm := List.mem_filterMap.mpr ⟨d, List.mem_of_getElem? hduty, htopic⟩
      rw [hheralds .closed] at hm
      rw [List.mem_singleton.mp hm, Link.news]
      cases a.link.connection.handshaked <;> rfl
  | silent | sealing | serving | closing | gone =>
      rw [hchapter] at hduty
      cases hduty

/-- Attending to a duty tells the news of its milestone, if it has any. -/
theorem Heard.attend {d : δ} (hheralds : Heralds duties topic) (h : a.Heard duties topic told)
    (hduty : a.duty? duties = some d) : (a.doneWith a.link).Heard duties topic
      (told ++ (topic d).toList.flatMap a.link.news) := by
  have hmore : (a.doneWith a.link).heralded duties topic =
      a.heralded duties topic ++ (topic d).toList := by
    rw [heralded, fulfilled_doneWith hduty, List.filterMap_append]
    cases htopic : topic d <;> simp [heralded, htopic]
  have hnews : ((topic d).toList.flatMap a.link.news).map ConnectionEvent.milestone =
      if a.link.connection.handshaked then (topic d).toList else [] := by
    cases htopic : topic d with
    | none => cases a.link.connection.handshaked <;> rfl
    | some m =>
        rw [Option.toList_some, List.flatMap_singleton]
        exact news_milestones hheralds h.ages hduty htopic
  refine ⟨h.ages, ?_, fun e he => ?_⟩
  · rw [List.map_append, h.milestones, hnews, hmore]
    change _ = if a.link.connection.handshaked then _ else _
    cases a.link.connection.handshaked <;> rfl
  · rcases List.mem_append.mp he with hold | hnew
    · exact h.id_eq e hold
    · obtain ⟨m, -, hm⟩ := List.mem_flatMap.mp hnew
      exact Link.id_of_mem_news hm

/-- **The news are that the connection is ready and then that it is gone**, once each. -/
theorem Heard.milestones_front (hheralds : Heralds duties topic) (h : a.Heard duties topic told) :
    told.map ConnectionEvent.milestone <+: [.handshaked, .closed] := by
  have hprefix := heralded_front hheralds h.ages
  rw [h.milestones]
  cases hmark : a.link.connection.handshaked with
  | true =>
      rw [hmark] at hprefix
      exact hprefix
  | false => exact List.nil_prefix

/-- **A connection that is over was said to be gone if and only if it was said to be ready.** -/
theorem Heard.milestones_of_gone (hheralds : Heralds duties topic) (h : a.Heard duties topic told)
    (hgone : a.link.main.chapter = .gone) : told.map ConnectionEvent.milestone = a.link.tale := by
  rw [h.milestones, heralded_of_gone hheralds h.ages hgone]
  unfold Link.tale
  cases a.link.connection.handshaked <;> rfl

end

end AttendedLink

/-! ## 3. Listeners -/

/-- What listeners were told, and of which connection. -/
abbrev Tidings :=
  List (Nat × ConnectionEvent)

/-- What listeners were told of the connection of a number. -/
def Tidings.about (n : Nat) (t : Tidings) : List ConnectionEvent :=
  t.filterMap fun e => if e.1 = n then some e.2 else none

/-- The events of whoever has connections, and the links of the connections by number. -/
structure Forum where
  events : EventFeed ConnectionEvent
  links : Nat → Option AttendedLink

namespace Forum

section

variable {δ : Type} (duties : Milestone → List δ) (topic : δ → Option Milestone)

/-- What listeners are told when the next duty for a connection is attended to. -/
def attending (n : Nat) (v : Forum) : Tidings :=
  match v.links n with
  | none => []
  | some a =>
      match a.duty? duties with
      | none => []
      | some d => ((topic d).toList.flatMap a.link.news).map (n, ·)

/-- The links go on, and listeners are told nothing. -/
structure Goes (v v' : Forum) : Prop where
  events_eq : v'.events = v.events
  links : ∀ k, Option.Rel (AttendedLink.Goes duties) (v.links k) (v'.links k)

/-- What whoever has connections does with them. -/
inductive Step (v v' : Forum) : Tidings → Prop where
  | goes (goes : Goes duties v v') : Step v v' []
  /-- a new link -/
  | opens {n : Nat} {a : AttendedLink} (events : v'.events = v.events) (fresh : v.links n = none)
      (links : ∀ k, v'.links k = if k = n then some a else v.links k)
      (heard : a.Heard duties topic []) : Step v v' []
  | attends {n : Nat} {a : AttendedLink} {d : δ} (before : v.links n = some a)
      (duty : a.duty? duties = some d)
      (events : v'.events =
        (v.attending duties topic n).foldl (fun feed e => feed.publish e.2) v.events)
      (links : ∀ k, v'.links k = if k = n then some (a.doneWith a.link) else v.links k) :
      Step v v' (v.attending duties topic n)

/-- Listeners were told the tidings, and they are the news of the connections. -/
structure Told (start : EventFeed ConnectionEvent) (t : Tidings) (v : Forum) : Prop where
  events_eq : v.events = t.foldl (fun feed e => feed.publish e.2) start
  silent : ∀ n, v.links n = none → t.about n = []
  heard : ∀ n a, v.links n = some a → a.Heard duties topic (t.about n)

variable {duties topic} {v v' v'' : Forum} {start : EventFeed ConnectionEvent} {t news : Tidings}

theorem goes_rfl : ∀ x : Option AttendedLink, Option.Rel (AttendedLink.Goes duties) x x
  | none => .none
  | some a => .some (.refl a)

/-- The links are left alone. -/
theorem goes_of_same (hevents : v'.events = v.events) (hlinks : v'.links = v.links) :
    Goes duties v v' :=
  ⟨hevents, fun k => by
    rw [hlinks]
    exact goes_rfl _⟩

/-- One link goes on. -/
theorem goes_of_one {n : Nat} {a a' : AttendedLink} (hevents : v'.events = v.events)
    (hbefore : v.links n = some a) (hgoes : AttendedLink.Goes duties a a')
    (hlinks : ∀ k, v'.links k = if k = n then some a' else v.links k) : Goes duties v v' := by
  refine ⟨hevents, fun k => ?_⟩
  rw [hlinks k]
  split
  · next h =>
    rw [h, hbefore]
    exact .some hgoes
  · exact goes_rfl _

theorem goes_trans : ∀ {x y z : Option AttendedLink}, Option.Rel (AttendedLink.Goes duties) x y →
    Option.Rel (AttendedLink.Goes duties) y z → Option.Rel (AttendedLink.Goes duties) x z
  | _, _, _, .none, .none => .none
  | _, _, _, .some h, .some h' => .some (h.trans h')

theorem Goes.trans (h : Goes duties v v') (h' : Goes duties v' v'') : Goes duties v v'' :=
  ⟨h'.events_eq.trans h.events_eq, fun k => goes_trans (h.links k) (h'.links k)⟩

theorem about_append (n : Nat) (t t' : Tidings) :
    Tidings.about n (t ++ t') = t.about n ++ t'.about n :=
  List.filterMap_append

theorem about_tag (n k : Nat) (es : List ConnectionEvent) :
    Tidings.about k (es.map (n, ·)) = if n = k then es else [] := by
  unfold Tidings.about
  rw [List.filterMap_map]
  split
  · next h => simp [h]
  · next h => simp [h]

/-- What is told when a duty is attended to. -/
theorem attending_eq {n : Nat} {a : AttendedLink} {d : δ} (hlink : v.links n = some a)
    (hduty : a.duty? duties = some d) : v.attending duties topic n =
      ((topic d).toList.flatMap a.link.news).map (n, ·) := by
  unfold attending
  rw [hlink]
  dsimp only
  rw [hduty]

/-- **Whatever is done with the connections, listeners are told the news of each.** -/
theorem Told.step (hheralds : AttendedLink.Heralds duties topic)
    (h : Told duties topic start t v) (hstep : Step duties topic v v' news) :
    Told duties topic start (t ++ news) v' := by
  cases hstep with
  | goes goes =>
      obtain ⟨events, links⟩ := goes
      rw [List.append_nil]
      refine ⟨events.trans h.events_eq, fun n hn => ?_, fun n a ha => ?_⟩
      · have hrel := links n
        rw [hn] at hrel
        cases hbefore : v.links n with
        | none => exact h.silent n hbefore
        | some a =>
            rw [hbefore] at hrel
            cases hrel
      · have hrel := links n
        rw [ha] at hrel
        cases hbefore : v.links n with
        | none =>
            rw [hbefore] at hrel
            cases hrel
        | some a₀ =>
            rw [hbefore] at hrel
            cases hrel with
            | some hgoes => exact (h.heard n a₀ hbefore).goes hheralds hgoes
  | @opens n a events fresh links heard =>
      rw [List.append_nil]
      refine ⟨events.trans h.events_eq, fun k hk => ?_, fun k b hb => ?_⟩
      · rw [links k] at hk
        split at hk
        · cases hk
        · exact h.silent k hk
      · rw [links k] at hb
        split at hb
        · next hkn =>
          cases hb
          rw [hkn, h.silent n fresh]
          exact heard
        · exact h.heard k b hb
  | @attends n a d before duty events links =>
      refine ⟨?_, fun k hk => ?_, fun k b hb => ?_⟩
      · rw [events, h.events_eq, List.foldl_append]
      · rw [links k] at hk
        split at hk
        · cases hk
        · next hkn =>
          rw [about_append, h.silent k hk, attending_eq before duty, about_tag,
            if_neg (Ne.symm hkn)]
          rfl
      · rw [links k] at hb
        split at hb
        · next hkn =>
          cases hb
          rw [hkn, about_append, attending_eq before duty, about_tag, if_pos rfl]
          exact (h.heard n a before).attend hheralds duty
        · next hkn =>
          rw [about_append, attending_eq before duty, about_tag, if_neg (Ne.symm hkn),
            List.append_nil]
          exact h.heard k b hb

/-- Before anything is done nothing was told. -/
theorem told_nil (hevents : v.events = start) (hlinks : ∀ n, v.links n = none) :
    Told duties topic start [] v :=
  ⟨hevents, fun _ _ => rfl, fun n a ha => by
    rw [hlinks n] at ha
    cases ha⟩

end

end Forum

end Courier
