import Courier.Proofs.Link.Handover

/-!
Courier.Proofs.Link.Readings — what a stream comes to on a connection.

The handshake is shown fronts of the stream, as they come in, and takes what it wants of the first
one that it accepts; what is behind that is read by the reader. With any handshake, what a stream
comes to may depend on the parts in which it comes in: `LinkSetup.Reads` says all that it can come
to.

The main task comes to one of these (`Course.Attends`): to the fault, when it ends its input for
one, and to what waits for more, when the stream has ended before. Nothing else can fail but a
message of the handshake that is refused by a connection which is at its end.
-/

namespace Courier

/-! ## 1. What a stream can come to -/

/-- The frames that a stream can come to, and the fault behind them, if there is one. -/
inductive LinkSetup.Reads (setup : LinkSetup) (limit : Nat) (stream : Bytes) :
    List Frame → Option Fault → Prop where
  /-- there is no handshake to speak of -/
  | unopened {fault : Fault} (opening : setup.handshake.opening = .failed fault) :
      Reads setup limit stream [] (some fault)
  /-- a front of the stream is wrong, or too long -/
  | rejected {greeting : Option Bytes} {front : Bytes} {fault : Fault}
      (opening : setup.handshake.opening = .proceed greeting false) (shown : front <+: stream)
      (judge : setup.handshake.judge front = .rejected fault) :
      Reads setup limit stream [] (some fault)
  | tooLong {greeting : Option Bytes} {front : Bytes}
      (opening : setup.handshake.opening = .proceed greeting false) (shown : front <+: stream)
      (judge : setup.handshake.judge front = .pending) (long : setup.maxHandshake < front.length) :
      Reads setup limit stream [] (some (.violation (.longHandshake setup.maxHandshake)))
  /-- all of it is not enough -/
  | waits {greeting : Option Bytes} (opening : setup.handshake.opening = .proceed greeting false)
      (judge : setup.handshake.judge stream = .pending)
      (short : stream.length ≤ setup.maxHandshake) : Reads setup limit stream [] none
  /-- the handshake is complete, and the rest is for the reader -/
  | instant {greeting : Option Bytes} (opening : setup.handshake.opening = .proceed greeting true) :
      Reads setup limit stream ((setup.format.reader limit).readAll [stream] {}).frames
        ((setup.format.reader limit).readAll [stream] {}).stopped
  | accepted {greeting reply : Option Bytes} {front rest : Bytes} {size : Nat}
      (opening : setup.handshake.opening = .proceed greeting false) (shown : front <+: stream)
      (judge : setup.handshake.judge front = .accepted reply size)
      (behind : stream = front.take size ++ rest) :
      Reads setup limit stream ((setup.format.reader limit).readAll [rest] {}).frames
        ((setup.format.reader limit).readAll [rest] {}).stopped

/-- What the handshake sends, shown a stream, fits the connection. -/
structure LinkSetup.Fits (setup : LinkSetup) (limit : Nat) (stream : Bytes) : Prop where
  greeting : ∀ bs complete, setup.handshake.opening = .proceed (some bs) complete →
    bs.length ≤ limit
  reply : ∀ front bs size, front <+: stream →
    setup.handshake.judge front = .accepted (some bs) size → bs.length ≤ limit

namespace LinkSetup

variable {setup : LinkSetup} {limit : Nat} {stream : Bytes} {frames : List Frame}
variable {stopped : Option Fault}

/-- Without a handshake, a stream comes to what the reader by itself makes of it. -/
theorem Reads.of_instant (h : setup.Reads limit stream frames stopped)
    (hinstant : setup.handshake = .instant) :
    frames = ((setup.format.reader limit).readAll [stream] {}).frames ∧
      stopped = ((setup.format.reader limit).readAll [stream] {}).stopped := by
  cases h with
  | instant opening => exact ⟨rfl, rfl⟩
  | unopened opening | rejected opening | tooLong opening | waits opening | accepted opening =>
      rw [hinstant] at opening
      cases opening

theorem fits_of_instant (hinstant : setup.handshake = .instant) : setup.Fits limit stream where
  greeting bs complete hopening := by
    rw [hinstant] at hopening
    cases hopening
  reply front bs size _ hjudge := by
    rw [hinstant] at hjudge
    cases hjudge

end LinkSetup

/-! ## 2. How the handshake has gone -/

namespace Course

/-- How far the handshake has come, and what it has consumed of the stream. -/
inductive Parleys (c : Course) : Prop where
  /-- it has not begun -/
  | silent (stage : c.link.main.chapter = .silent) (examined : c.examined = [])
  /-- it has failed -/
  | failed {fault : Fault} (exit : c.exit = some (some fault)) (pending : ¬ c.link.Agreed)
  /-- more of the stream is awaited -/
  | asks {greeting : Option Bytes} (begun : c.link.main.chapter ≠ .silent)
      (pending : ¬ c.link.Agreed)
      (opening : c.link.setup.handshake.opening = .proceed greeting false)
      (examined : c.examined = [])
  /-- it was complete as soon as it had begun -/
  | instant {greeting : Option Bytes} (agreed : c.link.Agreed)
      (opening : c.link.setup.handshake.opening = .proceed greeting true)
      (examined : c.examined = [])
  /-- it has accepted a front of the stream -/
  | accepted {greeting reply : Option Bytes} {front : Bytes} {size : Nat} (agreed : c.link.Agreed)
      (opening : c.link.setup.handshake.opening = .proceed greeting false)
      (shown : front <+: c.arrived)
      (judge : c.link.setup.handshake.judge front = .accepted reply size)
      (examined : c.examined = front.take size)

section Parleys

variable {format : WireFormat} {limit : Nat} {thresholds : Thresholds} {c c' : Course}
variable {received used : Bytes} {g : Gauge} {m : Move} {l' : Link}

/-- What has no part in the handshake. -/
theorem Parleys.other (h : c.Parleys) (ht : c.Tracks format limit thresholds received used g)
    (hmove : c.link.move? m = some l') (hquiet : ¬ c.link.Negotiating m) :
    (c.follow m l').Parleys := by
  obtain ⟨hsilent, hagreed⟩ := Link.move_apart ht.hears.timely hmove hquiet
  have hsetup : l'.setup = c.link.setup := (Link.move_keeps hmove).1
  have hexamined : (c.follow m l').examined = c.examined := by
    simp only [follow, Link.examines_of_not_negotiating hquiet, List.append_nil]
  cases h with
  | silent stage examined => exact .silent (hsilent.mpr stage) (hexamined.trans examined)
  | @failed fault exit pending =>
      have hexit : (c.follow m l').exit = some (some fault) := by simp [follow, exit]
      exact .failed hexit (mt hagreed.mp pending)
  | asks begun pending opening examined =>
      exact .asks (mt hsilent.mp begun) (mt hagreed.mp pending)
        ((congrArg (·.handshake.opening) hsetup).trans opening) (hexamined.trans examined)
  | instant agreed opening examined =>
      exact .instant (hagreed.mpr agreed) ((congrArg (·.handshake.opening) hsetup).trans opening)
        (hexamined.trans examined)
  | @accepted _ _ front size agreed opening shown judge examined =>
      exact .accepted (hagreed.mpr agreed) ((congrArg (·.handshake.opening) hsetup).trans opening)
        (shown.trans (List.prefix_append _ _))
        ((congrArg (·.handshake.judge front) hsetup).trans judge) (hexamined.trans examined)

/-- Before the handshake has begun, nothing was consumed. -/
theorem Parleys.examined_of_opening (h : c.Parleys)
    (ht : c.Tracks format limit thresholds received used g) (hstage : c.link.main = .opening) :
    c.examined = [] := by
  have hsilent : c.link.main.chapter = .silent := by
    rw [hstage]
    rfl
  cases h with
  | silent stage examined => exact examined
  | failed exit => cases (ht.exit_eq_none (by rw [hstage]; rfl)).symm.trans exit
  | asks begun => exact absurd hsilent begun
  | instant agreed | accepted agreed =>
      exact absurd agreed (ht.hears.timely.not_agreed_of_silent hsilent)

/-- What is known of the handshake while it is shown something. -/
theorem Parleys.asks_of_examining {portion : Portion} (h : c.Parleys)
    (ht : c.Tracks format limit thresholds received used g)
    (hstage : c.link.main = .examining portion) :
    (∃ greeting, c.link.setup.handshake.opening = .proceed greeting false) ∧ c.examined = [] := by
  have hmark : c.link.connection.handshaked = false :=
    ht.hears.timely.early (by rw [hstage]; trivial)
  have hpending : ¬ c.link.Agreed :=
    Link.not_agreed_of_serving hmark (by rw [hstage]; rfl)
  cases h with
  | silent stage =>
      rw [hstage] at stage
      cases stage
  | failed exit => cases (ht.exit_eq_none (by rw [hstage]; rfl)).symm.trans exit
  | asks begun pending opening examined => exact ⟨⟨_, opening⟩, examined⟩
  | instant agreed | accepted agreed => exact absurd agreed hpending

/-- The handshake's turn. -/
theorem Parleys.turn (h : c.Parleys) (ht : c.Tracks format limit thresholds received used g)
    (hmark : l'.connection.handshaked = false) (hsetup : l'.setup = c.link.setup)
    (hspeaks : c.link.Speaks l') : (c.follow (.main .work) l').Parleys := by
  have hpending : l'.main.chapter = .serving → ¬ l'.Agreed := Link.not_agreed_of_serving hmark
  have hfailed : ∀ {cause}, c.link.main.Takes = true → l'.main = .leaving (some cause) →
      (c.follow (.main .work) l').Parleys := by
    intro cause htakes main_eq
    have hexit : (c.follow (.main .work) l').exit = some (some cause) := by
      simp [follow, ht.exit_eq_none htakes, main_eq, MainStage.exit?]
    exact .failed hexit (hpending (congrArg MainStage.chapter main_eq))
  have hopening : ∀ {opening}, c.link.setup.handshake.opening = opening →
      l'.setup.handshake.opening = opening := (congrArg (·.handshake.opening) hsetup).trans
  cases hspeaks with
  | fails stage grows main_eq => exact hfailed (by rw [stage]; rfl) main_eq
  | completes stage opening grows main_eq =>
      refine .instant (.inr (congrArg MainStage.chapter main_eq)) (hopening opening) ?_
      rw [examined_follow_of_not_marking (by simp [main_eq]), h.examined_of_opening ht stage]
  | opens stage opening grows main_eq =>
      have hserving : l'.main.chapter = .serving := congrArg MainStage.chapter main_eq
      refine .asks (ne_of_eq_of_ne hserving Chapter.noConfusion) (hpending hserving)
        (hopening opening) ?_
      rw [examined_follow_of_not_marking (by simp [main_eq]), h.examined_of_opening ht stage]
  | rejects stage grows main_eq => exact hfailed (by rw [stage]; rfl) main_eq
  | waits stage grows main_eq =>
      obtain ⟨⟨greeting, opening⟩, hexamined⟩ := h.asks_of_examining ht stage
      have hserving : l'.main.chapter = .serving := congrArg MainStage.chapter main_eq
      refine .asks (ne_of_eq_of_ne hserving Chapter.noConfusion) (hpending hserving)
        (hopening opening) ?_
      rw [examined_follow_of_not_marking (by simp [main_eq]), hexamined]
  | @replies portion answer size stage judge grows main_eq =>
      obtain ⟨⟨greeting, opening⟩, hexamined⟩ := h.asks_of_examining ht stage
      have hsound := ht.hears.receives.main_sound portion (by rw [stage]; rfl)
      refine .accepted (.inr (congrArg MainStage.chapter main_eq)) (hopening opening)
        ((ht.judged_front stage).trans (List.prefix_append _ _))
        ((congrArg (·.handshake.judge portion.buffer.toList) hsetup).trans judge) ?_
      simp only [follow, Link.examines_of_replies hsound stage main_eq, hexamined, List.nil_append]

/-- **Every move goes on with the handshake.** -/
theorem Parleys.move (h : c.Parleys) (ht : c.Tracks format limit thresholds received used g)
    (hmove : c.link.move? m = some l') : (c.follow m l').Parleys := by
  by_cases hturn : c.link.Negotiating m
  · obtain ⟨rfl, hmark, hspeaks⟩ := Link.speaks_of_negotiating ht.hears.timely hmove hturn
    exact h.turn ht hmark (Link.move_keeps hmove).1 hspeaks
  · exact h.other ht hmove hturn

end Parleys

end Course

/-! ## 3. How the stream is read -/

/-- Once input is not taken any more, the handshake is over. -/
theorem MainStage.working_of_not_takes {stage : MainStage} (h : stage.Takes = false) :
    stage.chapter.Working := by
  cases stage <;> trivial

namespace Connection

/-- A message that fits is refused only by a connection that is at its end. -/
theorem closed_of_sendIfAny {message : Option Bytes} {c : Connection} {cause : Fault}
    (hfits : ∀ bs, message = some bs → bs.length ≤ c.maxPayload)
    (hsend : Handshake.sendIfAny rawSender message c = .error cause) :
    cause = .refused (.connectionClosed c.id) ∧ (c.cancelled = true ∨ c.accepting = false) := by
  cases message with
  | none => cases hsend
  | some bs =>
      have hvalid : (Frame.raw bs).validate c.maxPayload = .ok () := validate_raw (hfits bs rfl)
      simp only [Handshake.sendIfAny, rawSender, sendRaw, enqueue, hvalid] at hsend
      split at hsend
      · cases hsend
      · next hrefused =>
        split at hrefused
        · next hclosed =>
          cases hrefused
          cases hsend
          exact ⟨rfl, by simpa using hclosed⟩
        · cases hrefused

end Connection

namespace Course

section Reads

variable {limit : Nat} {thresholds : Thresholds} {c c' : Course}
variable {received used stream : Bytes} {g : Gauge} {m : Move} {l' : Link} {fault : Fault}

/-- What is left of a stream behind what the handshake has consumed is for the reader. -/
theorem Parleys.reads (limit : Nat) (h : c.Parleys) (ht : c.link.Timely)
    (hfront : c.arrived <+: stream) (hmark : c.link.connection.handshaked = true) :
    ∃ rest, stream = c.examined ++ rest ∧ c.link.setup.Reads limit stream
      ((c.link.setup.format.reader limit).readAll [rest] {}).frames
      ((c.link.setup.format.reader limit).readAll [rest] {}).stopped := by
  cases h with
  | silent stage => exact absurd (.inl hmark) (ht.not_agreed_of_silent stage)
  | failed exit pending | asks begun pending => exact absurd (.inl hmark) pending
  | instant agreed opening examined =>
      exact ⟨stream, by rw [examined, List.nil_append], .instant opening⟩
  | @accepted _ _ front size agreed opening shown judge examined =>
      obtain ⟨more, hmore⟩ := shown.trans hfront
      have hbehind : stream = front.take size ++ (front.drop size ++ more) := by
        rw [← List.append_assoc, List.take_append_drop, hmore]
      exact ⟨_, by rw [examined]; exact hbehind,
        .accepted opening (shown.trans hfront) judge hbehind⟩

/-- What a run of the reader over the rest comes to, the stream can come to. -/
theorem Parleys.reads_of_run {frames : List Frame}
    (ending : Except Fault ((c.link.setup.format.decoder limit).State × Bytes))
    (h : c.Parleys) (ht : c.link.Timely) (hfront : c.arrived <+: stream)
    (hmark : c.link.connection.handshaked = true)
    (hrun : ∀ rest, stream = c.examined ++ rest →
      (c.link.setup.format.decoder limit).intake.run (c.link.setup.format.fresh limit) rest =
        ⟨frames, ending⟩) :
    c.link.setup.Reads limit stream frames (Taken.mk frames ending).fault? := by
  obtain ⟨rest, hstream, hreads⟩ := h.reads limit ht hfront hmark
  have hreading := c.link.setup.format.readAll_eq limit [rest]
  rw [List.flatten_singleton, hrun rest hstream] at hreading
  obtain ⟨hframes, hstopped⟩ := hreading
  rwa [hframes, hstopped] at hreads

/-- The main task ends its input for the fault that the stream comes to, or a message of the
handshake is refused as the connection is at its end. -/
theorem Parleys.reads_of_exits (h : c.Parleys)
    (ht : c.Tracks c.link.setup.format limit thresholds received used g)
    (hmax : c.link.connection.maxPayload = limit) (hfits : c.link.setup.Fits limit stream)
    (hfront : c.arrived <+: stream) (hexits : c.link.Exits (some fault)) :
    c.link.setup.Reads limit stream c.link.heard (some fault) ∨
      fault = .refused (.connectionClosed c.link.connection.id) ∧
        c.link.connection.handshaked = false ∧
        (c.link.connection.cancelled = true ∨ c.link.connection.accepting = false) := by
  have hearly : c.link.main.Early → c.link.connection.handshaked = false ∧ c.link.heard = [] :=
    fun hstage => ⟨ht.hears.timely.early hstage, ht.hears.unheard (ht.hears.timely.early hstage)⟩
  cases hexits with
  | unopened stage start =>
      obtain ⟨hmark, hheard⟩ := hearly (by rw [stage]; trivial)
      cases Handshake.starts_of_eq start with
      | failed opening =>
          rw [hheard]
          exact .inl (.unopened opening)
      | refused opening sends =>
          obtain ⟨hcause, hended⟩ := Connection.closed_of_sendIfAny
            (fun bs hbs => by
              rw [hbs] at opening
              exact (hfits.greeting bs _ opening).trans hmax.ge)
            sends
          exact .inr ⟨hcause, hmark, hended⟩
  | rejected stage examine =>
      obtain ⟨hmark, hheard⟩ := hearly (by rw [stage]; trivial)
      obtain ⟨⟨greeting, hopening⟩, -⟩ := h.asks_of_examining ht stage
      have hshown := (ht.judged_front stage).trans hfront
      cases Handshake.examines_of_eq examine with
      | rejected judge =>
          rw [hheard]
          exact .inl (.rejected hopening hshown judge)
      | refused judge sends =>
          obtain ⟨hcause, hended⟩ := Connection.closed_of_sendIfAny
            (fun bs hbs => by
              rw [hbs] at judge
              exact (hfits.reply _ bs _ hshown judge).trans hmax.ge) sends
          exact .inr ⟨hcause, hmark, hended⟩
  | @tooLong portion buffer connection stage examine long =>
      obtain ⟨hmark, hheard⟩ := hearly (by rw [stage]; trivial)
      obtain ⟨⟨greeting, hopening⟩, -⟩ := h.asks_of_examining ht stage
      have hshown := (ht.judged_front stage).trans hfront
      have hsound : portion.buffer.Sound :=
        ht.hears.receives.main_sound portion (by rw [stage]; rfl)
      obtain ⟨hjudge, rfl, -⟩ := Link.examine_pending examine
      rw [hsound.size_eq] at long
      rw [hheard]
      exact .inl (.tooLong hopening hshown hjudge long)
  | spoiled stage read =>
      have hmark : c.link.connection.handshaked = true :=
        ht.hears.timely.late (by rw [stage]; trivial)
      have hspoiled : c.Spoiled c.link.setup.format limit fault :=
        ht.hears.run_of_readFault stage read
      refine .inl (h.reads_of_run (.error fault) ht.hears.timely hfront hmark
        fun rest hstream => ?_)
      exact hspoiled.run (hstream ▸ hfront) rfl

/-- When all of a stream was looked at, it can come to what was dispatched, and nothing is wrong
with it. -/
theorem Parleys.reads_of_exhausted (h : c.Parleys)
    (ht : c.Tracks c.link.setup.format limit thresholds received used g)
    (hexhausted : c.Exhausted c.link.setup.format limit) (harrived : c.arrived = stream)
    (hne : stream ≠ []) (hworking : c.link.main.chapter.Working)
    (hsound : ∀ fault, c.exit ≠ some (some fault)) :
    c.link.setup.Reads limit stream c.link.heard none := by
  obtain ⟨used, seen, hall, hunmarked, hawaits⟩ := hexhausted
  have hfront : c.arrived <+: stream := harrived ▸ List.prefix_refl _
  cases hmark : c.link.connection.handshaked with
  | true =>
      simp only [Link.Awaits, hmark] at hawaits
      obtain ⟨eaten, place, rfl, hrun⟩ := hawaits
      refine h.reads_of_run (.ok (place, seen)) ht.hears.timely hfront hmark
        fun rest hstream => ?_
      rw [harrived, hstream, List.append_assoc, List.append_cancel_left_eq] at hall
      rw [hall]
      exact hrun
  | false =>
      simp only [Link.Awaits, hmark] at hawaits
      rw [hunmarked hmark, List.nil_append, harrived] at hall
      subst hall
      obtain ⟨hpending, hshort⟩ := hawaits.resolve_left hne
      rw [ht.hears.unheard hmark]
      cases h with
      | silent stage =>
          rw [stage] at hworking
          exact hworking.elim
      | failed exit => exact absurd exit (hsound _)
      | asks begun pending opening => exact .waits opening hpending hshort
      | instant agreed | accepted agreed =>
          obtain hmark' | hsealing := agreed
          · cases hmark.symm.trans hmark'
          · rw [hsealing] at hworking
            exact hworking.elim

/-- The frames that were dispatched are the first ones of those that the stream comes to. -/
theorem Parleys.heard_front (h : c.Parleys)
    (ht : c.Tracks c.link.setup.format limit thresholds received used g)
    (hfront : c.arrived <+: stream) : c.link.heard = [] ∨
      ∃ frames stopped, c.link.setup.Reads limit stream frames stopped ∧
        c.link.heard <+: frames := by
  cases hmark : c.link.connection.handshaked with
  | false => exact .inl (ht.hears.unheard hmark)
  | true =>
      obtain ⟨rest, hstream, hreads⟩ := h.reads limit ht.hears.timely hfront hmark
      obtain ⟨hframes, -⟩ := c.link.setup.format.readAll_eq limit [rest]
      rw [List.flatten_singleton] at hframes
      refine .inr ⟨_, _, hreads, ?_⟩
      rw [hframes]
      exact ht.heard_front (hstream ▸ hfront) fun _ => rfl

end Reads

/-! ## 4. Every move -/

section Attends

variable {setup : LinkSetup} {id : String} {limit : Nat} {thresholds : Thresholds} {stream : Bytes}
variable {c c' : Course} {m : Move}

/-- What all moves keep while a stream comes in: what the main task has come to the end of its input
with is what the stream comes to, or something that got in its way. -/
structure Attends (setup : LinkSetup) (id : String) (limit : Nat) (thresholds : Thresholds)
    (stream : Bytes) (c : Course) : Prop where
  setup_eq : c.link.setup = setup
  id_eq : c.link.connection.id = id
  maxPayload_eq : c.link.connection.maxPayload = limit
  ages : c.link.Ages
  tracks : ∃ received used g, c.Tracks setup.format limit thresholds received used g
  parleys : c.Parleys
  undisturbed : c.disturbed = false → c.Undisturbed setup.format limit
  fault : c.arrived <+: stream → ∀ fault, c.exit = some (some fault) →
    setup.Reads limit stream c.link.heard (some fault) ∨
      fault = .refused (.connectionClosed id) ∧ c.link.connection.handshaked = false ∧
        c.disturbed = true

theorem attends_new (setup : LinkSetup) (id peer : String) (limit : Nat)
    (input output : Thresholds) (capacity : Nat) (stream : Bytes) :
    (new setup id peer limit input output capacity).Attends setup id limit input stream where
  setup_eq := rfl
  id_eq := rfl
  maxPayload_eq := rfl
  ages := Link.ages_new setup id peer limit input output { capacity }
  tracks := ⟨[], [], {}, tracks_new setup id peer limit input output capacity⟩
  parleys := .silent rfl rfl
  undisturbed _ := undisturbed_new setup id peer limit input output capacity
  fault _ _ hexit := by cases hexit

/-- **Every move attends to the stream.** -/
theorem Attends.move (h : c.Attends setup id limit thresholds stream)
    (hfits : setup.Fits limit stream) (hmove : c.move? m = some c') :
    c'.Attends setup id limit thresholds stream := by
  obtain ⟨rfl, rfl, rfl, hages, ⟨received, used, g, ht⟩, hparleys, hundisturbed, hfault⟩ := h
  have ht' := ht.move hmove
  obtain ⟨-, l', hl', rfl⟩ := move_eq hmove
  obtain ⟨hsetup, hmaxPayload, -⟩ := Link.move_keeps hl'
  obtain ⟨hages', hadvances⟩ := hages.move hl'
  have hclear : (c.follow m l').disturbed = false → c.disturbed = false :=
    fun hclear => (Bool.or_eq_false_iff.mp hclear).1
  refine ⟨hsetup, hadvances.id_eq, hmaxPayload, hages', ht', hparleys.move ht hl',
    fun hcalm => (hundisturbed (hclear hcalm)).move ht hmove hcalm, fun hfront fault hexit => ?_⟩
  have hbefore : c.arrived <+: stream := (List.prefix_append _ _).trans hfront
  have hstays : c.disturbed = true → (c.follow m l').disturbed = true := fun hdisturbed => by
    simp [follow, hdisturbed]
  cases htakes : c.link.main.Takes with
  | false =>
      obtain ⟨-, hheard, hmark⟩ := Link.same_of_not_takes hl' htakes
      have hbegun := ht.exit
      rw [htakes] at hbegun
      obtain ⟨cause, hcause⟩ := Option.isSome_iff_exists.mp hbegun
      have hsame : (c.follow m l').exit = c.exit := by simp [follow, hcause]
      obtain hreads | ⟨hrefused, hunmarked, hdisturbed⟩ :=
        hfault hbefore fault (hsame.symm.trans hexit)
      · exact .inl (by rw [← hheard] at hreads; exact hreads)
      · exact .inr ⟨hrefused, hmark.trans hunmarked, hstays hdisturbed⟩
  | true =>
      have hleaves : l'.main.Takes = false := by
        have hended := ht.exit_follow hl'
        rw [hexit] at hended
        simpa using hended
      obtain ⟨cause, hexits, hleaving, hheard, hmark, -⟩ :=
        ht.hears.exits_of_move hl' htakes hleaves
      have hcause : cause = some fault := by
        simpa [follow, ht.exit_eq_none htakes, hleaving, MainStage.exit?] using hexit
      subst hcause
      obtain hreads | ⟨hrefused, hunmarked, hended⟩ :=
        hparleys.reads_of_exits ht rfl hfits hbefore hexits
      · exact .inl (by rw [← hheard] at hreads; exact hreads)
      · refine .inr ⟨hrefused, hmark.trans hunmarked, hstays ?_⟩
        -- as long as nothing gets in the way, the connection takes messages
        refine Classical.byContradiction fun hcalm => ?_
        have hcalm := (hundisturbed (Bool.eq_false_iff.mpr hcalm)).calm htakes
        obtain hcancelled | haccepting := hended
        · cases hcalm.uncancelled.symm.trans hcancelled
        · cases hcalm.outbound.accepting.symm.trans haccepting

/-- **If nothing got in its way, the main task has come to what the stream comes to**: to its fault,
or, once it has ended, to what waits for more. -/
theorem Attends.reads_of_exit {cause : Option Fault}
    (h : c.Attends setup id limit thresholds stream) (hclear : c.disturbed = false)
    (hfront : c.arrived <+: stream) (hall : c.ended = true → c.arrived = stream)
    (hne : stream ≠ []) (hexit : c.exit = some cause) :
    setup.Reads limit stream c.link.heard cause := by
  obtain ⟨rfl, rfl, rfl, hages, ⟨received, used, g, ht⟩, hparleys, hundisturbed, hfault⟩ := h
  cases cause with
  | some fault =>
      obtain hreads | ⟨-, -, hdisturbed⟩ := hfault hfront fault hexit
      · exact hreads
      · cases hclear.symm.trans hdisturbed
  | none =>
      have houtcome := (hundisturbed hclear).outcome
      simp only [Outcome, hexit] at houtcome
      obtain ⟨hended, hexhausted⟩ := houtcome
      have hleft : c.link.main.Takes = false := by
        have hend := ht.exit
        rw [hexit] at hend
        simpa using hend
      refine hparleys.reads_of_exhausted ht hexhausted (hall hended) hne
        (MainStage.working_of_not_takes hleft) fun fault hfault => ?_
      cases hexit.symm.trans hfault

/-- No frames are dispatched but the first ones of those that the stream comes to. -/
theorem Attends.heard_front (h : c.Attends setup id limit thresholds stream)
    (hfront : c.arrived <+: stream) : c.link.heard = [] ∨
      ∃ frames stopped, setup.Reads limit stream frames stopped ∧ c.link.heard <+: frames := by
  obtain ⟨rfl, -, rfl, -, ⟨received, used, g, ht⟩, hparleys, -⟩ := h
  exact hparleys.heard_front ht hfront

end Attends

end Course

end Courier
