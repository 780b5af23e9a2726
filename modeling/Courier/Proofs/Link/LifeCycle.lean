import Courier.Link.Attended
import Courier.Proofs.Link.Receiving
import Courier.Proofs.Link.Steps

/-!
Courier.Proofs.Link.LifeCycle — what the owner of a connection is told, and when.

The owner is told that the handshake is complete, then frames are dispatched, then the owner is told
that the connection closes and that it is closed. A connection that ends before its handshake is
complete skips the first two. The stages of the main task fall into chapters, and the chapter says
how much of this has been told and what the state of the connection is (`Link.Ages`): a step either
stays in its chapter or tells the next thing. So the state only goes forward
(`Link.Ages.forward`), and the story is the same for every run.
-/

namespace Courier

/-! ## 1. The story of a connection -/

/-- What the owner of a connection sees happen. -/
inductive Moment where
  | told (m : Milestone)
  | dispatched (f : Frame)
  deriving DecidableEq, Repr, Inhabited

/-- What an entry is to the owner; handlers are of no concern to it. -/
def Entry.moment? : Entry → Option Moment
  | .dispatched f => some (.dispatched f)
  | .reported _ => none
  | .reached m _ _ => some (.told m)

/-- The parts of the life of a connection. -/
inductive Chapter where
  /-- the handshake has not begun -/
  | silent
  /-- the handshake is complete, or about to be marked as such -/
  | sealing
  /-- the owner is about to be told of it -/
  | welcoming
  /-- input is waited for and worked off -/
  | serving
  /-- the owner is about to be told of the closing -/
  | parting
  /-- the tasks come to their ends -/
  | closing
  /-- the owner is about to be told of the end -/
  | ended
  | gone
  deriving DecidableEq, Repr, Inhabited

namespace Chapter

/-- The state that a connection shows; it depends on the handshake as long as input is worked
off. -/
def state (handshaked : Bool) : Chapter → ConnectionState
  | .silent => .connecting
  | .sealing => .handshaking
  | .welcoming => .opened
  | .serving => if handshaked then .opened else .handshaking
  | .parting | .closing => .closing
  | .ended | .gone => .closed

/-- What the owner has seen of the frames that were dispatched. -/
def service (handshaked : Bool) (heard : List Frame) : Chapter → List Moment
  | .silent | .sealing | .welcoming => []
  | _ => if handshaked then .told .handshaked :: heard.map .dispatched else []

/-- The milestone that the owner is about to be told of. -/
def milestone? : Chapter → Option Milestone
  | .welcoming => some .handshaked
  | .parting => some .closing
  | .ended => some .closed
  | _ => none

/-- What the owner was told of the end. -/
def farewell : Chapter → List Moment
  | .closing | .ended => [.told .closing]
  | .gone => [.told .closing, .told .closed]
  | _ => []

theorem farewell_front (c : Chapter) : c.farewell <+: [.told .closing, .told .closed] := by
  cases c with
  | gone => exact List.prefix_refl _
  | closing | ended => exact ⟨[.told .closed], rfl⟩
  | _ => exact List.nil_prefix

end Chapter

/-- The chapter that a stage belongs to. -/
def MainStage.chapter : MainStage → Chapter
  | .unstarted | .opening => .silent
  | .marking _ | .showing _ => .sealing
  | .telling _ => .welcoming
  | .waiting _ | .examining _ | .reading _ | .handling _ _ | .settling _ | .leaving _
    | .concluding _ | .crashed _ => .serving
  | .notifying _ => .parting
  | .recording _ | .cutting _ | .cancelling _ | .awaitingWriter _ | .draining _
    | .awaitingSender _ _ | .shutting _ | .releasing | .awaitingReceiver | .ending => .closing
  | .tellingEnd => .ended
  | .markingEnd | .finished => .gone

theorem MainStage.late_of_welcoming {stage : MainStage} (h : stage.chapter = .welcoming) :
    stage.Late := by
  cases stage with
  | telling _ => trivial
  | _ => cases h

/-- The frame that was dispatched at a moment. -/
def Moment.frame? : Moment → Option Frame
  | .told _ => none
  | .dispatched f => some f

/-- The milestone that the owner was told of at a moment. -/
def Moment.milestone? : Moment → Option Milestone
  | .told m => some m
  | .dispatched _ => none

namespace Link

/-- What the owner of a link has seen. -/
def outline (l : Link) : List Moment :=
  l.log.filterMap Entry.moment?

/-- The milestones that the owner of a link was told of. -/
def milestones (l : Link) : List Milestone :=
  l.outline.filterMap Moment.milestone?

/-- All that the owner of a link is to see, if no more frames come. -/
def script (l : Link) : List Moment :=
  (if l.connection.handshaked then .told .handshaked :: l.heard.map .dispatched else []) ++
    [.told .closing, .told .closed]

/-- The main task goes about its input in order, and does not fail to. -/
structure Sane (l : Link) : Prop where
  hears : ∃ format limit arrived received examined used,
    l.Hears format limit arrived received examined used
  ne_crashed : ∀ misuse, l.main ≠ .crashed misuse

/-- The link has come as far as the chapter says. -/
structure Ages (l : Link) : Prop where
  sane : l.Sane
  state_eq : l.connection.state = l.main.chapter.state l.connection.handshaked
  outline_eq : l.outline =
    l.main.chapter.service l.connection.handshaked l.heard ++ l.main.chapter.farewell

/-- Nothing happens that the owner sees, and the main task stays where it is. -/
structure Stands (l l' : Link) : Prop where
  sane : l.Sane → l'.Sane
  connection : l.connection.Alike l'.connection
  main_eq : l'.main = l.main
  outline_eq : l'.outline = l.outline

/-- The state does not go back, and the handshake is not forgotten. -/
structure Advances (l l' : Link) : Prop where
  id_eq : l'.connection.id = l.connection.id
  state_le : l.connection.state.toNat ≤ l'.connection.state.toNat
  handshaked : l.connection.handshaked = true → l'.connection.handshaked = true

/-- The story goes on: the owner is told of the milestone that was reached, if one was. -/
structure Proceeds (l l' : Link) : Prop where
  ages : l'.Ages
  advances : l.Advances l'
  told : l'.milestones = l.milestones ++ l.milestone?.toList

variable {l l' l'' : Link}

/-! ## 2. What is seen -/

theorem heard_eq_outline (l : Link) : l.heard = l.outline.filterMap Moment.frame? := by
  unfold heard outline
  rw [List.filterMap_filterMap]
  congr 1
  funext entry
  cases entry <;> rfl

theorem outline_append (l : Link) (reports : List Report) :
    ({ l with log := l.log ++ reports.map .reported } : Link).outline = l.outline := by
  have hnone : reports.filterMap (Entry.moment? ∘ Entry.reported) = [] :=
    List.filterMap_eq_nil_iff.mpr fun _ _ => rfl
  unfold outline
  rw [List.filterMap_append, List.filterMap_map, hnone, List.append_nil]

theorem outline_tell (m : Milestone) (l : Link) : (l.tell m).outline = l.outline ++ [.told m] := by
  simp [outline, tell, note, Entry.moment?]

theorem outline_dispatch (f : Frame) (portion : Portion) (l : Link) :
    (l.dispatch f portion).outline = l.outline ++ [.dispatched f] := by
  have hnote : (l.note (.dispatched f)).outline = l.outline ++ [.dispatched f] := by
    simp [outline, note, Entry.moment?]
  unfold dispatch
  dsimp only
  split
  · exact hnote
  · split <;> exact hnote

theorem Reserves.outline_eq (h : l.Reserves l') : l'.outline = l.outline := by
  obtain ⟨reports, hlog⟩ := h.log
  have happend := outline_append l reports
  unfold outline at happend ⊢
  rw [hlog]
  exact happend

theorem Stands.trans (h : l.Stands l') (h' : l'.Stands l'') : l.Stands l'' where
  sane hsane := h'.sane (h.sane hsane)
  connection := h.connection.trans h'.connection
  main_eq := h'.main_eq.trans h.main_eq
  outline_eq := h'.outline_eq.trans h.outline_eq

theorem Stands.heard_eq (h : l.Stands l') : l'.heard = l.heard := by
  rw [heard_eq_outline, heard_eq_outline, h.outline_eq]

theorem Advances.refl (l : Link) : l.Advances l := ⟨rfl, Nat.le_refl _, id⟩

theorem Advances.trans (h : l.Advances l') (h' : l'.Advances l'') : l.Advances l'' :=
  ⟨h'.id_eq.trans h.id_eq, Nat.le_trans h.state_le h'.state_le,
    fun hmark => h'.handshaked (h.handshaked hmark)⟩

theorem advances_of_alike (h : l.connection.Alike l'.connection) : l.Advances l' :=
  ⟨h.id_eq, Nat.le_of_eq (by rw [h.state_eq]), h.handshaked_eq.trans⟩

/-! ## 3. The main task does not crash -/

/-- The main task gives back what it has used, and nothing else could fail. -/
theorem Hears.works_ne_crashed {format : WireFormat} {limit : Nat}
    {arrived received examined used : Bytes}
    (h : l.Hears format limit arrived received examined used) (hwork : l.Works l')
    (misuse : Misuse) : l'.main ≠ .crashed misuse := by
  cases hwork with
  | jams stage consume =>
      obtain ⟨result, hok⟩ := h.consume_ok stage
      cases consume.symm.trans hok
  | takes stage step =>
      unfold Link.takeInput
      dsimp only
      split <;> exact MainStage.noConfusion
  | @readFrame portion f reader buffer stage read =>
      have hd := dispatch_dispatches f { portion with buffer } reader l
      obtain hmain | ⟨job, hmain⟩ := hd.main_eq
      all_goals
        rw [hmain]
        exact MainStage.noConfusion
  | @handles job portion stage =>
      dsimp only
      cases (l.goOn job).1 <;> exact MainStage.noConfusion
  | settles stage consume =>
      dsimp only
      split <;> exact MainStage.noConfusion
  | _ => exact MainStage.noConfusion

theorem Hears.move_ne_crashed {format : WireFormat} {limit : Nat}
    {arrived received examined used : Bytes} {m : Move}
    (h : l.Hears format limit arrived received examined used) (hmove : l.move? m = some l')
    (hmain : ∀ misuse, l.main ≠ .crashed misuse) (misuse : Misuse) : l'.main ≠ .crashed misuse := by
  cases m with
  | main choice =>
      cases choice with
      | work => exact h.works_ne_crashed (works_of_workMain hmove) misuse
      | stop =>
          obtain ⟨read, -, -, -, rfl⟩ := stopMain_eq hmove
          exact MainStage.noConfusion
  | start =>
      cases hmove
      unfold Link.start
      split
      · exact MainStage.noConfusion
      · exact hmain misuse
  | _ =>
      rw [(move_aside (fun _ => Move.noConfusion) Move.noConfusion hmove).1.main_eq]
      exact hmain misuse

/-- **The main task never crashes**, whatever happens. -/
theorem Sane.move {m : Move} (h : l.Sane) (hmove : l.move? m = some l') : l'.Sane := by
  obtain ⟨⟨format, limit, arrived, received, examined, used, hhears⟩, hmain⟩ := h
  refine ⟨?_, hhears.move_ne_crashed hmove hmain⟩
  by_cases harrive : ∃ bs, m = .arrive bs
  · obtain ⟨bs, rfl⟩ := harrive
    cases hmove
    exact ⟨format, limit, _, received, examined, used, hhears.arrive bs⟩
  · obtain ⟨received', used', hhears'⟩ := hhears.move (fun bs hm => harrive ⟨bs, hm⟩) hmove
    exact ⟨format, limit, _, received', _, used', hhears'⟩

/-- What leaves the main task's things alone, and loses nothing, does it no harm. -/
theorem Sane.aside (h : l.Sane) (ha : l.Aside l') (hd : l.Draws [] l') : l'.Sane := by
  obtain ⟨⟨format, limit, arrived, received, examined, used, hhears⟩, hmain⟩ := h
  refine ⟨⟨format, limit, arrived, _, examined, used, hhears.draws ha hd⟩, ?_⟩
  rw [ha.main_eq]
  exact hmain

theorem Sane.start (h : l.Sane) : l.start.Sane :=
  h.move (m := .start) rfl

theorem Sane.timely (h : l.Sane) : l.Timely := by
  obtain ⟨⟨_, _, _, _, _, _, hhears⟩, -⟩ := h
  exact hhears.timely

theorem sane_new (setup : LinkSetup) (id peer : String) (maxPayload : Nat)
    (input output : Thresholds) (wire : Wire) :
    (Link.new setup id peer maxPayload input output wire).Sane :=
  ⟨⟨_, _, _, _, _, _, hears_new_on setup id peer maxPayload input output wire⟩,
    fun _ => MainStage.noConfusion⟩

/-! ## 4. What does not go on -/

/-- What is asked of a connection is not seen. -/
theorem perform_stands (command : Command) (l : Link) : l.Stands (l.perform command).2 where
  sane h := h.aside (perform_touches command l).aside (perform_touches command l).draws
  connection := l.connection.perform_alike command
  main_eq := rfl
  outline_eq := rfl

/-- Whether its end was asked for is not seen of a connection. -/
theorem stands_cancelled (l : Link) (cancelled : Bool) :
    l.Stands { l with connection := { l.connection with cancelled } } where
  sane h := h.aside ⟨rfl, rfl, rfl, rfl, rfl, rfl⟩ (.of_same rfl (.refl _))
  connection := ⟨rfl, rfl, rfl, rfl⟩
  main_eq := rfl
  outline_eq := rfl

/-- Nor is what it is set up with. -/
theorem stands_setup (l : Link) (setup : LinkSetup) : l.Stands { l with setup } where
  sane h := by
    obtain ⟨⟨format, limit, arrived, received, examined, used, hhears⟩, hmain⟩ := h
    obtain ⟨⟨hwire, hinput, hsound, hblank⟩, htimely, hdispatched, hunheard, hprogress⟩ := hhears
    exact ⟨⟨format, limit, arrived, received, examined, used, ⟨hwire, hinput, hsound, hblank⟩,
      ⟨htimely.early, htimely.late⟩, hdispatched, hunheard,
      hprogress.same rfl rfl rfl rfl (List.prefix_refl _)⟩, hmain⟩
  connection := ⟨rfl, rfl, rfl, rfl⟩
  main_eq := rfl
  outline_eq := rfl

/-- What the other tasks do is not seen, nor what comes from outside. -/
theorem move_stands {m : Move} (hmain : ∀ choice, m ≠ .main choice) (hstart : m ≠ .start)
    (hmove : l.move? m = some l') : l.Stands l' where
  sane h := h.move hmove
  connection := (move_reserves hmain hstart hmove).connection
  main_eq := (move_aside hmain hstart hmove).1.main_eq
  outline_eq := (move_reserves hmain hstart hmove).outline_eq

theorem Ages.stands (h : l.Ages) (hs : l.Stands l') : l'.Ages where
  sane := hs.sane h.sane
  state_eq := by rw [hs.connection.state_eq, hs.connection.handshaked_eq, hs.main_eq, h.state_eq]
  outline_eq := by
    rw [hs.outline_eq, hs.heard_eq, hs.connection.handshaked_eq, hs.main_eq, h.outline_eq]

/-! ## 5. The main task -/

theorem Ages.heard_eq_nil (h : l.Ages) (hservice : ∀ heard,
    l.main.chapter.service l.connection.handshaked heard = []) : l.heard = [] := by
  have houtline := h.outline_eq
  rw [hservice, List.nil_append] at houtline
  rw [heard_eq_outline, houtline]
  unfold Chapter.farewell
  split <;> rfl

theorem milestone?_eq (l : Link) : l.milestone? = l.main.chapter.milestone? := by
  unfold milestone?
  cases l.main <;> rfl

/-- A step within a chapter in which the owner is told nothing. -/
theorem Ages.stays {c : Chapter} (h : l.Ages) (hsane : l'.Sane) (hchapter : l.main.chapter = c)
    (hchapter' : l'.main.chapter = c) (halike : l.connection.Alike l'.connection)
    (houtline : l'.outline = l.outline) (hnone : c.milestone? = none) : l.Proceeds l' := by
  have hheard : l'.heard = l.heard := by rw [heard_eq_outline, heard_eq_outline, houtline]
  have hbefore := h.state_eq
  have hseen := h.outline_eq
  rw [hchapter] at hbefore hseen
  refine ⟨⟨hsane, ?_, ?_⟩, advances_of_alike halike, ?_⟩
  · rw [halike.state_eq, halike.handshaked_eq, hchapter', hbefore]
  · rw [houtline, hheard, halike.handshaked_eq, hchapter', hseen]
  · rw [milestones, houtline, milestone?_eq, hchapter, hnone]
    exact (List.append_nil _).symm

/-- A step to the next chapter; the owner is told of the milestone, if there is one. -/
theorem Ages.turns {c d : Chapter} (h : l.Ages) (hsane : l'.Sane)
    (hchapter : l.main.chapter = c) (hchapter' : l'.main.chapter = d)
    (hid : l'.connection.id = l.connection.id)
    (hmark : l'.connection.handshaked = l.connection.handshaked)
    (hstate : l'.connection.state = d.state l.connection.handshaked)
    (hle : (c.state l.connection.handshaked).toNat ≤ (d.state l.connection.handshaked).toNat)
    (houtline : l'.outline = l.outline ++ c.milestone?.toList.map .told)
    (hstory : d.service l.connection.handshaked l.heard ++ d.farewell =
      c.service l.connection.handshaked l.heard ++ c.farewell ++ c.milestone?.toList.map .told) :
    l.Proceeds l' := by
  have hheard : l'.heard = l.heard := by
    have hnone : c.milestone?.toList.filterMap (Moment.frame? ∘ Moment.told) = [] :=
      List.filterMap_eq_nil_iff.mpr fun _ _ => rfl
    rw [heard_eq_outline, houtline, List.filterMap_append, List.filterMap_map, hnone,
      List.append_nil, heard_eq_outline]
  have hsame : (c.milestone?.toList.map Moment.told).filterMap Moment.milestone? =
      c.milestone?.toList := by
    rw [List.filterMap_map]
    exact List.filterMap_some
  have hbefore := h.state_eq
  have hseen := h.outline_eq
  rw [hchapter] at hbefore hseen
  refine ⟨⟨hsane, ?_, ?_⟩, ⟨hid, ?_, hmark.trans⟩, ?_⟩
  · rw [hchapter', hmark, hstate]
  · rw [hchapter', hmark, hheard, houtline, hseen, hstory]
  · rw [hbefore, hstate]
    exact hle
  · rw [milestones, houtline, List.filterMap_append, hsame, milestone?_eq, hchapter, milestones]

theorem alike_of_start {outcome : Except Fault Bool} {connection : Connection}
    (hstart : l.setup.handshake.start Connection.rawSender (l.enter .handshaking).connection =
      (outcome, connection)) : (l.enter .handshaking).connection.Alike connection := by
  have halike := (l.enter .handshaking).connection.start_alike l.setup.handshake
  rw [hstart] at halike
  exact halike

theorem alike_of_examine {b b' : Buffer} {outcome : Except Fault Bool} {connection : Connection}
    (hexamine : l.setup.handshake.examine Connection.rawSender b l.connection =
      (outcome, b', connection)) : l.connection.Alike connection := by
  have halike := l.connection.examine_alike l.setup.handshake b
  rw [hexamine] at halike
  exact halike

theorem chapter_takeInput (outcome : ReadOutcome) (l : Link) :
    (l.takeInput outcome).main.chapter = .serving := by
  unfold takeInput
  cases l.connection.handshaked <;> rfl

/-- The handshake is opened, and may be complete at once. -/
theorem Ages.opens {c : Chapter} (h : l.Ages) (hsane : l'.Sane) (hstage : l.main = .opening)
    (hchapter : l'.main.chapter = c) (hc : c = .sealing ∨ c = .serving)
    (halike : (l.enter .handshaking).connection.Alike l'.connection)
    (houtline : l'.outline = l.outline) : l.Proceeds l' := by
  have hmark : l.connection.handshaked = false := h.sane.timely.early (by rw [hstage]; trivial)
  refine h.turns (c := .silent) hsane (by rw [hstage]; rfl) hchapter halike.id_eq
    halike.handshaked_eq (halike.state_eq.trans ?_) ?_
    (houtline.trans (List.append_nil _).symm) ?_
  · rw [hmark]
    obtain rfl | rfl := hc <;> rfl
  · rw [hmark]
    obtain rfl | rfl := hc <;> decide
  · rw [hmark]
    obtain rfl | rfl := hc <;> rfl

/-- The input completes the handshake. -/
theorem Ages.completes {portion : Portion} (h : l.Ages) (hsane : l'.Sane)
    (hstage : l.main = .examining portion) (hchapter : l'.main.chapter = .sealing)
    (halike : l.connection.Alike l'.connection) (houtline : l'.outline = l.outline) :
    l.Proceeds l' := by
  have hmark : l.connection.handshaked = false := h.sane.timely.early (by rw [hstage]; trivial)
  have hstate := h.state_eq
  rw [hstage, hmark] at hstate
  refine h.turns (c := .serving) hsane (by rw [hstage]; rfl) hchapter halike.id_eq
    halike.handshaked_eq ?_ ?_ (houtline.trans (List.append_nil _).symm) ?_
  · rw [halike.state_eq, hstate, hmark]
    rfl
  · rw [hmark]
    decide
  · rw [hmark]
    rfl

/-- The handshake is marked; nobody is told yet. -/
theorem Ages.marks {portion : Option Portion} (h : l.Ages) (hsane : l'.Sane)
    (hstage : l.main = .marking portion) (hchapter : l'.main.chapter = .sealing)
    (hconnection : l'.connection = { l.connection with handshaked := true })
    (houtline : l'.outline = l.outline) : l.Proceeds l' := by
  have hstate := h.state_eq
  have hseen := h.outline_eq
  rw [hstage] at hstate hseen
  refine ⟨⟨hsane, ?_, ?_⟩, ⟨?_, ?_, ?_⟩, ?_⟩
  · rw [hconnection, hchapter, hstate]
    rfl
  · rw [houtline, hchapter, hseen]
    rfl
  · rw [hconnection]
  · exact Nat.le_of_eq (by rw [hconnection])
  · rw [hconnection]
    exact fun _ => rfl
  · rw [milestones, houtline, milestone?_eq, hstage]
    exact (List.append_nil _).symm

/-- The owner is told that the handshake is complete. -/
theorem Ages.welcomes {portion : Option Portion} (h : l.Ages) (hsane : l'.Sane)
    (hstage : l.main = .telling portion) (hchapter : l'.main.chapter = .serving)
    (hconnection : l'.connection = l.connection)
    (houtline : l'.outline = l.outline ++ [.told .handshaked]) : l.Proceeds l' := by
  have hmark : l.connection.handshaked = true := h.sane.timely.late (by rw [hstage]; trivial)
  have hheard : l.heard = [] := h.heard_eq_nil (by rw [hstage]; exact fun _ => rfl)
  have hstate := h.state_eq
  rw [hstage, hmark] at hstate
  refine h.turns (c := .welcoming) hsane (by rw [hstage]; rfl) hchapter (by rw [hconnection])
    (by rw [hconnection]) ?_ ?_ houtline ?_
  · rw [hconnection, hstate, hmark]
    rfl
  · rw [hmark]
    decide
  · rw [hmark, hheard]
    rfl

/-- A frame is dispatched after the owner was told of the handshake. -/
theorem Ages.dispatches {portion portion' : Portion} {f : Frame} {r : FrameReader} (h : l.Ages)
    (hsane : l'.Sane) (hstage : l.main = .reading portion) (hd : l.Dispatches f portion' r l')
    (houtline : l'.outline = l.outline ++ [.dispatched f]) : l.Proceeds l' := by
  have hmark : l.connection.handshaked = true := h.sane.timely.late (by rw [hstage]; trivial)
  have hchapter : l'.main.chapter = .serving := by
    obtain hmain | ⟨job, hmain⟩ := hd.main_eq <;> rw [hmain] <;> rfl
  have hstate := h.state_eq
  have hseen := h.outline_eq
  rw [hstage, hmark] at hstate hseen
  refine ⟨⟨hsane, ?_, ?_⟩, advances_of_alike (by rw [hd.connection_eq]; exact .refl _), ?_⟩
  · rw [hd.connection_eq, hchapter, hmark, hstate]
    rfl
  · rw [houtline, hseen, hd.connection_eq, hchapter, hmark, hd.heard_eq]
    simp [MainStage.chapter, Chapter.service, Chapter.farewell]
  · rw [milestones, houtline, List.filterMap_append, milestone?_eq, hstage]
    rfl

/-- **A step of the main task stays in its chapter or goes on to the next.** -/
theorem Ages.works (h : l.Ages) (hsane : l'.Sane) (hwork : l.Works l') :
    l.Proceeds l' := by
  cases hwork with
  | openFailed stage start =>
      exact h.opens hsane stage rfl (.inr rfl) (alike_of_start start) rfl
  | openCompleted stage start =>
      exact h.opens hsane stage rfl (.inl rfl) (alike_of_start start) rfl
  | openPending stage start =>
      exact h.opens hsane stage rfl (.inr rfl) (alike_of_start start) rfl
  | marks stage => exact h.marks hsane stage rfl rfl rfl
  | shows stage =>
      have hmark : l.connection.handshaked = true := h.sane.timely.late (by rw [stage]; trivial)
      refine h.turns (c := .sealing) (d := .welcoming) hsane (by rw [stage]; rfl) rfl rfl rfl rfl ?_
        (List.append_nil _).symm rfl
      rw [hmark]
      decide
  | tells stage => exact h.welcomes hsane stage rfl rfl (outline_tell .handshaked l)
  | tellsWith stage => exact h.welcomes hsane stage rfl rfl (outline_tell .handshaked l)
  -- input is waited for and worked off
  | looks stage step =>
      exact h.stays (c := .serving) hsane (by rw [stage]; rfl) rfl (.refl _) rfl rfl
  | takes stage step =>
      exact h.stays (c := .serving) hsane (by rw [stage]; rfl) (chapter_takeInput _ _) (.refl _)
        rfl rfl
  | examineFailed stage examine =>
      exact h.stays (c := .serving) hsane (by rw [stage]; rfl) rfl (alike_of_examine examine) rfl
        rfl
  | examineCompleted stage examine =>
      exact h.completes hsane stage rfl (alike_of_examine examine) rfl
  | examineLong stage examine long =>
      exact h.stays (c := .serving) hsane (by rw [stage]; rfl) rfl (alike_of_examine examine) rfl
        rfl
  | examinePending stage examine short =>
      exact h.stays (c := .serving) hsane (by rw [stage]; rfl) rfl (alike_of_examine examine) rfl
        rfl
  | readFault stage read =>
      exact h.stays (c := .serving) hsane (by rw [stage]; rfl) rfl (.refl _) rfl rfl
  | readNothing stage read =>
      exact h.stays (c := .serving) hsane (by rw [stage]; rfl) rfl (.refl _) rfl rfl
  | @readFrame portion f reader buffer stage read =>
      exact h.dispatches hsane stage (dispatch_dispatches f _ reader l) (outline_dispatch f _ _)
  | @handles job portion stage =>
      have hreserves := goOn_reserves job l
      have hchapter : (afterHandler portion (l.goOn job).1).chapter = .serving := by
        cases (l.goOn job).1 <;> rfl
      exact h.stays (c := .serving) hsane (by rw [stage]; rfl) hchapter hreserves.connection
        hreserves.outline_eq rfl
  | jams stage consume =>
      exact h.stays (c := .serving) hsane (by rw [stage]; rfl) rfl (.refl _) rfl rfl
  | @settles portion memory input stage consume =>
      refine h.stays (c := .serving) hsane (by rw [stage]; rfl) ?_ (.refl _) rfl rfl
      cases portion.last <;> rfl
  | leaves stage =>
      exact h.stays (c := .serving) hsane (by rw [stage]; rfl) rfl (.refl _) rfl rfl
  -- the connection is closed
  | concludes stage =>
      refine h.turns (c := .serving) (d := .parting) hsane (by rw [stage]; rfl) rfl rfl rfl rfl ?_
        (List.append_nil _).symm (List.append_nil _).symm
      cases l.connection.handshaked <;> decide
  | notifies stage =>
      have hstate := h.state_eq
      rw [stage] at hstate
      refine h.turns (c := .parting) (d := .closing) hsane (by rw [stage]; rfl) rfl rfl rfl hstate
        (Nat.le_refl _) (outline_tell .closing l) ?_
      simp [Chapter.service, Chapter.farewell, Chapter.milestone?]
  | records stage =>
      exact h.stays (c := .closing) hsane (by rw [stage]; rfl) rfl (.refl _) rfl rfl
  | @cuts reason stage =>
      have hreserves : l.Reserves (if reason.isError then l.shutDown reason else l) := by
        split
        · exact shutDown_reserves reason l
        · exact .refl l
      exact h.stays (c := .closing) hsane (by rw [stage]; rfl) rfl hreserves.connection
        hreserves.outline_eq rfl
  | cancels stage =>
      exact h.stays (c := .closing) hsane (by rw [stage]; rfl) rfl ⟨rfl, rfl, rfl, rfl⟩ rfl rfl
  | seesWriter stage ended | drains stage | seesSender stage ended | releases stage
    | seesReceiver stage ended =>
      exact h.stays (c := .closing) hsane (by rw [stage]; rfl) rfl (.refl _) rfl rfl
  | givesUp stage =>
      have hreserves := shutDown_reserves .drainTimeout l
      exact h.stays (c := .closing) hsane (by rw [stage]; rfl) rfl hreserves.connection
        hreserves.outline_eq rfl
  | @shuts reason stage =>
      have hreserves := shutDown_reserves reason l
      exact h.stays (c := .closing) hsane (by rw [stage]; rfl) rfl hreserves.connection
        hreserves.outline_eq rfl
  | ends stage =>
      exact h.turns (c := .closing) hsane (by rw [stage]; rfl) rfl rfl rfl rfl (Nat.le_succ 3)
        (List.append_nil _).symm (List.append_nil _).symm
  | tellsEnd stage =>
      have hstate := h.state_eq
      rw [stage] at hstate
      refine h.turns (c := .ended) (d := .gone) hsane (by rw [stage]; rfl) rfl rfl rfl hstate
        (Nat.le_refl _) (outline_tell .closed l) ?_
      simp [Chapter.service, Chapter.farewell, Chapter.milestone?]
  | marksEnd stage =>
      have hstate := h.state_eq
      rw [stage] at hstate
      exact h.turns (c := .gone) hsane (by rw [stage]; rfl) rfl rfl rfl hstate (Nat.le_refl _)
        (List.append_nil _).symm (List.append_nil _).symm

theorem Ages.stopMain (h : l.Ages) (hsane : l'.Sane) (hstop : l.stopMain = some l') :
    l.Proceeds l' := by
  obtain ⟨read, hstage, -, -, rfl⟩ := stopMain_eq hstop
  exact h.stays (c := .serving) hsane (by rw [hstage]; rfl) rfl (.refl _) rfl rfl

theorem Ages.start (h : l.Ages) : l.start.Ages ∧ l.Advances l.start := by
  have hsane := h.sane.start
  unfold Link.start at hsane ⊢
  split
  · next hstage =>
    simp only [hstage] at hsane
    obtain ⟨hages, hadvances, -⟩ :=
      h.stays (c := .silent) hsane (by rw [hstage]; rfl) rfl (.refl _) rfl rfl
    exact ⟨hages, hadvances⟩
  · exact ⟨h, .refl l⟩

/-- **Every move goes on with the story, and never back.** -/
theorem Ages.move {m : Move} (h : l.Ages) (hmove : l.move? m = some l') :
    l'.Ages ∧ l.Advances l' := by
  have hsane := h.sane.move hmove
  have hproceeds : l.Proceeds l' → l'.Ages ∧ l.Advances l' := fun h => ⟨h.ages, h.advances⟩
  cases m with
  | main choice =>
      cases choice with
      | work => exact hproceeds (h.works hsane (works_of_workMain hmove))
      | stop => exact hproceeds (h.stopMain hsane hmove)
  | start =>
      cases hmove
      exact h.start
  | _ =>
      have hstands := move_stands (fun _ => Move.noConfusion) Move.noConfusion hmove
      exact ⟨h.stands hstands, advances_of_alike hstands.connection⟩

theorem Ages.run {moves : List Move} (h : l.Ages) (hrun : l.run? moves = some l') :
    l'.Ages ∧ l.Advances l' := by
  refine invariant_run (P := fun l' => l'.Ages ∧ l.Advances l') ?_ ⟨h, .refl l⟩ hrun
  intro l₁ l₂ m ⟨hages, hadvances⟩ hmove
  have hmoved := hages.move hmove
  exact ⟨hmoved.1, hadvances.trans hmoved.2⟩

theorem ages_new (setup : LinkSetup) (id peer : String) (maxPayload : Nat)
    (input output : Thresholds) (wire : Wire) :
    (Link.new setup id peer maxPayload input output wire).Ages :=
  ⟨sane_new setup id peer maxPayload input output wire, rfl, rfl⟩

/-! ## 6. What the story says -/

/-- What the owner has seen is the beginning of what it is to see. -/
theorem Ages.outline_front (h : l.Ages) : l.outline <+: l.script := by
  rw [h.outline_eq]
  unfold script
  have hfarewell := l.main.chapter.farewell_front
  cases hchapter : l.main.chapter with
  | silent | sealing | welcoming => exact List.nil_prefix
  | _ =>
      rw [hchapter] at hfarewell
      exact (List.prefix_append_right_inj _).mpr hfarewell

/-- When all is told, it is the whole of it. -/
theorem Ages.outline_eq_script (h : l.Ages) (hchapter : l.main.chapter = .gone) :
    l.outline = l.script := by
  rw [h.outline_eq, hchapter]
  rfl

/-- A connection waits for no other. -/
theorem Ages.state_le (h : l.Ages) : l.connection.state.toNat ≤ ConnectionState.closed.toNat := by
  rw [h.state_eq]
  cases l.main.chapter <;> cases l.connection.handshaked <;> decide

theorem Ages.handshaked_of_opened (h : l.Ages) (hopened : l.connection.state = .opened) :
    l.connection.handshaked = true := by
  cases hmark : l.connection.handshaked with
  | true => rfl
  | false =>
      have hstate := h.state_eq
      rw [hopened, hmark] at hstate
      cases hchapter : l.main.chapter with
      | welcoming =>
          have hlate := h.sane.timely.late (MainStage.late_of_welcoming hchapter)
          exact hmark.symm.trans hlate
      | _ =>
          rw [hchapter] at hstate
          cases hstate

end Link

end Courier
