import Courier.Config.Options
import Courier.Proofs.Link.InputPipe
import Courier.Proofs.Wire.Leftover

/-!
Courier.Proofs.Link.Backpressure — when receiving pauses, it goes on again.

While too much is unread the receiver waits for the main task to consume some of it, and the main
task waits for the receiver when it has looked at all that is unread. What the main task leaves is
the front of a frame, or the front of what the handshake waits for. As long as that is no more than
the receiver goes on at, the two never wait for each other (`Link.not_stuck_of_slack_le`).

The options do not ask for that. A connection whose read buffer is smaller than the front of a frame
is stuck in the middle of it (`Link.stuck_of_small_buffer`).
-/

namespace Courier

/-! ## 1. What is left in the pipe -/

/-- The handshake waits for something to come in. -/
def Handshake.Judges (h : Handshake) : Prop :=
  match h.opening with
  | .proceed _ false => True
  | _ => False

instance (h : Handshake) : Decidable h.Judges := by
  unfold Handshake.Judges
  split <;> infer_instance

/-- How much of what it has looked at the main task leaves in the pipe at most. -/
def LinkSetup.slack (setup : LinkSetup) : Nat :=
  if setup.handshake.Judges then max setup.format.leftover setup.maxHandshake
  else setup.format.leftover

theorem LinkSetup.leftover_le_slack (setup : LinkSetup) : setup.format.leftover ≤ setup.slack := by
  unfold slack
  split
  · exact Nat.le_max_left _ _
  · exact Nat.le_refl _

theorem LinkSetup.maxHandshake_le_slack {setup : LinkSetup} (h : setup.handshake.Judges) :
    setup.maxHandshake ≤ setup.slack := by
  rw [slack, if_pos h]
  exact Nat.le_max_right _ _

theorem Handshake.judges_of_start {h : Handshake} {send : RawSender σ} {s s' : σ}
    (hstart : h.start send s = (.ok false, s')) : h.Judges := by
  cases Handshake.starts_of_eq hstart with
  | opened opening sends =>
      unfold Judges
      rw [opening]
      trivial

/-- The stages of the main task at which the handshake may still be pending. -/
def MainStage.Pending : MainStage → Prop
  | .waiting _ | .examining _ | .settling _ => True
  | _ => False

namespace Link

/-- The main task leaves little in the pipe when it waits. -/
structure Frugal (l : Link) (g : Gauge) : Prop where
  modest : l.reader.Modest
  judges : l.main.Pending → l.connection.handshaked = false → l.setup.handshake.Judges
  settling : ∀ portion, l.main = .settling portion → portion.buffer.size ≤ l.setup.slack
  kept : l.main.Takes = true → l.main.portion? = none → g.kept ≤ l.setup.slack

section Frugal

variable {thresholds : Thresholds} {l l' : Link} {g g' : Gauge} {format : WireFormat} {limit : Nat}
variable {arrived received examined used : Bytes}

theorem frugal_new (setup : LinkSetup) (id peer : String) (maxPayload : Nat)
    (input output : Thresholds) (wire : Wire) :
    (Link.new setup id peer maxPayload input output wire).Frugal {} where
  modest := setup.format.modest_reader maxPayload
  judges h := h.elim
  settling _ h := by cases h
  kept _ _ := Nat.zero_le _

/-- What the reader leaves when it finds no frame. -/
theorem Hears.size_of_readNothing {portion : Portion} {reader : FrameReader} {buffer : Buffer}
    (h : l.Hears format limit arrived received examined used) (hmodest : l.reader.Modest)
    (hstage : l.main = .reading portion)
    (hread : l.reader.read portion.buffer = (.ok none, reader, buffer)) :
    buffer.size ≤ format.leftover := by
  have hsound : portion.buffer.Sound := h.receives.main_sound portion (by rw [hstage]; rfl)
  have hprogress := h.progress
  simp only [Progress, hstage] at hprogress
  obtain ⟨eaten, s, -, hfollows⟩ := hprogress
  have hmodest' := hmodest.read portion.buffer
  have hcall := (format.decoder limit).call_read hfollows.at_ hsound
  rw [hread] at hcall hmodest'
  cases hcall with
  | pending at_ sound run =>
      rw [sound.size_eq]
      exact WireFormat.length_of_pending at_ hmodest'
        (Intake.look_of_run_ok (congrArg Taken.ending run))

/-- The main task goes to a stage at which the handshake is not pending. -/
theorem Frugal.turn (hmodest : l'.reader.Modest) (hpending : ¬ l'.main.Pending)
    (hkept : l'.main.Takes = true → l'.main.portion? = none → g'.kept ≤ l'.setup.slack) :
    l'.Frugal g' where
  modest := hmodest
  judges h := absurd h hpending
  settling portion hstage := absurd (by rw [hstage]; trivial) hpending
  kept := hkept

/-- On the way to the end nothing is to be said. -/
theorem Frugal.closing (hmodest : l'.reader.Modest) (hpending : ¬ l'.main.Pending)
    (htakes : l'.main.Takes = false) : l'.Frugal g' :=
  .turn hmodest hpending fun htakes' => by cases htakes.symm.trans htakes'

/-- **A step of the main task** leaves as little as before. -/
theorem Frugal.works (h : l.Frugal g)
    (hhears : l.Hears l.setup.format limit arrived received examined used) (hworks : l.Works l')
    (hkept : l'.main.Takes = true → l'.main.portion? = none →
      g'.kept = l.main.keeps g.kept) : l'.Frugal g' := by
  have hearly := hhears.timely.early
  have hlate := hhears.timely.late
  have hjudges := h.judges
  have hsame := h.kept
  cases hworks with
  | openFailed stage | examineFailed stage | examineLong stage | jams stage =>
      exact .closing h.modest id rfl
  | @readFault portion cause reader buffer stage read =>
      have hmodest := h.modest.read portion.buffer
      rw [read] at hmodest
      exact .closing hmodest id rfl
  | leaves stage | concludes stage | notifies stage | records stage | cancels stage
    | seesWriter stage | drains stage | seesSender stage | releases stage | seesReceiver stage
    | ends stage | tellsEnd stage | marksEnd stage =>
      exact .closing h.modest id rfl
  | @cuts reason stage =>
      have hreader := (shutDown_touches reason l).aside.reader_eq
      refine .closing ?_ id rfl
      dsimp only
      split
      · rw [hreader]
        exact h.modest
      · exact h.modest
  | givesUp stage =>
      have hreader := (shutDown_touches .drainTimeout l).aside.reader_eq
      exact .closing (by rw [hreader]; exact h.modest) id rfl
  | @shuts reason stage =>
      have hreader := (shutDown_touches reason l).aside.reader_eq
      exact .closing (by rw [hreader]; exact h.modest) id rfl
  | openCompleted stage =>
      rw [stage] at hsame hkept
      exact .turn h.modest id fun _ _ => Nat.le_trans (Nat.le_of_eq (hkept rfl rfl)) (hsame rfl rfl)
  | openPending stage start =>
      rw [stage] at hsame hkept
      exact ⟨h.modest, fun _ _ => Handshake.judges_of_start start, (fun _ hs => by cases hs),
        fun _ _ => Nat.le_trans (Nat.le_of_eq (hkept rfl rfl)) (hsame rfl rfl)⟩
  | marks stage | shows stage =>
      rw [stage] at hsame hkept
      exact .turn h.modest id fun _ hnone =>
        Nat.le_trans (Nat.le_of_eq (hkept rfl hnone)) (hsame rfl hnone)
  | tells stage =>
      rw [stage] at hsame hkept hlate
      refine ⟨h.modest, fun _ hfalse => ?_, (fun _ hs => by cases hs),
        fun _ _ => Nat.le_trans (Nat.le_of_eq (hkept rfl rfl)) (hsame rfl rfl)⟩
      cases (hlate trivial).symm.trans hfalse
  | tellsWith stage => exact .turn h.modest id fun _ hnone => by cases hnone
  | looks stage step =>
      rw [stage] at hsame hkept hjudges
      exact ⟨h.modest, fun _ => hjudges trivial, (fun _ hs => by cases hs),
        fun _ _ => Nat.le_trans (Nat.le_of_eq (hkept rfl rfl)) (hsame rfl rfl)⟩
  | @takes read outcome input stage step =>
      rw [stage] at hjudges
      have hnext : ∀ next : Link, next.setup = l.setup → next.reader = l.reader →
          next.connection = l.connection →
          ((∃ portion, next.main = .reading portion) ∨ ∃ portion, next.main = .examining portion) →
          next.Frugal g' := by
        rintro next hsetup hreader hconnection (⟨portion, hmain⟩ | ⟨portion, hmain⟩)
        · refine .turn (by rw [hreader]; exact h.modest) (by rw [hmain]; exact id)
            fun _ hnone => ?_
          rw [hmain] at hnone
          cases hnone
        · refine ⟨by rw [hreader]; exact h.modest, fun _ hfalse => ?_, fun _ hs => ?_,
            fun _ hnone => ?_⟩
          · rw [hsetup]
            rw [hconnection] at hfalse
            exact hjudges trivial hfalse
          · cases hmain.symm.trans hs
          · rw [hmain] at hnone
            cases hnone
      refine hnext _ rfl rfl rfl ?_
      unfold Link.takeInput
      dsimp only
      split
      · exact .inl ⟨_, rfl⟩
      · exact .inr ⟨_, rfl⟩
  | examineCompleted stage examine => exact .turn h.modest id fun _ hnone => by cases hnone
  | examinePending stage examine short =>
      rw [stage] at hjudges hearly
      have hj := hjudges trivial (hearly trivial)
      refine ⟨h.modest, fun _ _ => hj, fun _ hs => ?_, (fun _ hnone => by cases hnone)⟩
      cases hs
      exact Nat.le_trans short (LinkSetup.maxHandshake_le_slack hj)
  | @readNothing portion reader buffer stage read =>
      have hmodest := h.modest.read portion.buffer
      rw [read] at hmodest
      rw [stage] at hlate
      refine ⟨hmodest, fun _ hfalse => ?_, fun _ hs => ?_, (fun _ hnone => by cases hnone)⟩
      · cases (hlate trivial).symm.trans hfalse
      · cases hs
        exact Nat.le_trans (hhears.size_of_readNothing h.modest stage read)
          l.setup.leftover_le_slack
  | @readFrame portion f reader buffer stage read =>
      have hmodest := h.modest.read portion.buffer
      rw [read] at hmodest
      have hd := dispatch_dispatches f { portion with buffer } reader l
      generalize { l with reader }.dispatch f { portion with buffer } = next at hd ⊢
      refine .turn (by rw [hd.reader_eq]; exact hmodest) ?_ fun _ hnone => ?_
      · obtain hmain | ⟨job, hmain⟩ := hd.main_eq <;> rw [hmain] <;> exact id
      · obtain hmain | ⟨job, hmain⟩ := hd.main_eq <;> rw [hmain] at hnone <;> cases hnone
  | @handles job portion stage =>
      have hnext : ∀ left : Option Job, ¬ (afterHandler portion left).Pending ∧
          (afterHandler portion left).portion? ≠ none := by
        intro left
        cases left <;> exact ⟨id, by simp [afterHandler, MainStage.portion?]⟩
      exact .turn h.modest (hnext _).1 fun _ hnone => absurd hnone (hnext _).2
  | @settles portion memory input stage consume =>
      rw [stage] at hkept hjudges
      have hle := h.settling portion stage
      cases hlast : portion.last with
      | true => exact .closing h.modest id rfl
      | false =>
          refine ⟨h.modest, fun _ => hjudges trivial, fun _ hs => ?_, fun _ _ => ?_⟩
          · cases hs
          · rw [hlast] at hkept
            exact Nat.le_trans (Nat.le_of_eq (hkept rfl rfl)) hle

/-- **Every move** leaves as little as before. -/
theorem Frugal.move {m : Move} (h : l.Frugal g)
    (hhears : l.Hears l.setup.format limit arrived received examined used)
    (hmove : l.move? m = some l')
    (hkept : l'.main.Takes = true → l'.main.portion? = none →
      g'.kept = l.main.keeps g.kept) : l'.Frugal g' := by
  by_cases hmain : ∃ choice, m = .main choice
  · obtain ⟨choice, rfl⟩ := hmain
    cases choice with
    | work => exact h.works hhears (works_of_workMain hmove) hkept
    | stop =>
        obtain ⟨read, -, -, -, rfl⟩ := stopMain_eq hmove
        exact .closing h.modest id rfl
  · by_cases hstart : m = .start
    · subst hstart
      cases hmove
      have hsame := h.kept
      unfold Link.start at hkept ⊢
      split at hkept
      · next hstage =>
        rw [hstage] at hkept hsame
        exact .turn h.modest id fun _ _ =>
          Nat.le_trans (Nat.le_of_eq (hkept rfl rfl)) (hsame rfl rfl)
      · next hstage =>
        have hkept' : l.main.Takes = true → l.main.portion? = none → g'.kept ≤ l.setup.slack :=
          fun htakes hnone => Nat.le_trans
            (Nat.le_of_eq ((hkept htakes hnone).trans (MainStage.keeps_of_portion hnone)))
            (hsame htakes hnone)
        exact ⟨h.modest, h.judges, h.settling, hkept'⟩
    · have hmain' : ∀ choice, m ≠ .main choice := fun choice heq => hmain ⟨choice, heq⟩
      have haside := (move_aside hmain' hstart hmove).1
      refine ⟨by rw [haside.reader_eq]; exact h.modest, fun hpending hfalse => ?_,
        fun portion hstage => ?_, fun htakes hnone => ?_⟩
      · rw [haside.main_eq] at hpending
        rw [haside.handshaked_eq] at hfalse
        rw [haside.setup_eq]
        exact h.judges hpending hfalse
      · rw [haside.main_eq] at hstage
        rw [haside.setup_eq]
        exact h.settling portion hstage
      · have hkept' := hkept htakes hnone
        rw [haside.main_eq] at htakes hnone
        rw [MainStage.keeps_of_portion hnone] at hkept'
        rw [haside.setup_eq, hkept']
        exact h.kept htakes hnone

end Frugal

/-! ## 2. Nobody waits for the other -/

/-- The receiver waits for the main task to consume something, and the main task waits for the
receiver to hand something over; nobody has been woken. -/
structure Stuck (l : Link) : Prop where
  receiver : l.receiver = .flushing .parked
  not_woken : l.transport.input.spaceSignal.waiter ≠ .woken
  main : l.main = .waiting .parked
  main_not_woken : l.transport.input.dataSignal.waiter ≠ .woken

/-- All that is known of a link at work, for some account of what has happened. -/
def Ebbs (setup : LinkSetup) (thresholds : Thresholds) (limit : Nat) (l : Link) : Prop :=
  l.setup = setup ∧ ∃ g arrived received examined used, l.Pumps thresholds g ∧
    l.Hears l.setup.format limit arrived received examined used ∧ l.Frugal g

section Ebbs

variable {setup : LinkSetup} {thresholds : Thresholds} {limit : Nat} {l l' : Link}

theorem ebbs_new (setup : LinkSetup) (id peer : String) (limit : Nat) (input output : Thresholds)
    (capacity : Nat) :
    (Link.new setup id peer limit input output { capacity }).Ebbs setup input limit :=
  ⟨rfl, {}, [], [], [], [], pumps_new _ _ _ _ _ _ _, hears_new _ _ _ _ _ _ _,
    frugal_new _ _ _ _ _ _ _⟩

theorem Ebbs.move {m : Move} (h : l.Ebbs setup thresholds limit) (hmove : l.move? m = some l') :
    l'.Ebbs setup thresholds limit := by
  obtain ⟨hsetup, g, arrived, received, examined, used, hpumps, hhears, hfrugal⟩ := h
  have hsetup' : l'.setup = l.setup := (move_keeps hmove).1
  obtain ⟨g', hpumps', hkept⟩ := hpumps.move hmove
  have hfrugal' := hfrugal.move hhears hmove hkept
  have hhears' : ∃ arrived received examined used,
      l'.Hears l.setup.format limit arrived received examined used := by
    by_cases harrive : ∃ bs, m = .arrive bs
    · obtain ⟨bs, rfl⟩ := harrive
      cases hmove
      exact ⟨_, _, _, _, hhears.arrive bs⟩
    · obtain ⟨received', used', h'⟩ := hhears.move (fun bs heq => harrive ⟨bs, heq⟩) hmove
      exact ⟨_, _, _, _, h'⟩
  obtain ⟨arrived', received', examined', used', hhears'⟩ := hhears'
  rw [← hsetup'] at hhears'
  exact ⟨hsetup'.trans hsetup, g', arrived', received', examined', used', hpumps', hhears',
    hfrugal'⟩

/-- While the main task waits and was not woken, no more is unread than it leaves at most. -/
theorem Ebbs.unread_le (h : l.Ebbs setup thresholds limit) (hmain : l.main = .waiting .parked)
    (hwaiter : l.transport.input.dataSignal.waiter ≠ .woken) :
    l.transport.input.unread.size ≤ setup.slack := by
  obtain ⟨rfl, g, -, -, -, -, hpumps, -, hfrugal⟩ := h
  have hread := hpumps.awake.read
  have happroach : Conduit.readApproach (l.conduit g).read = .waiting := by
    simp only [conduit, hmain]
    rfl
  rw [happroach] at hread
  obtain ⟨-, hnews, hopen, -⟩ := hread.resolve_left hwaiter
  have hseen : g.consumed.length + l.transport.input.unread.size ≤ g.shown :=
    hpumps.awake.seen hnews hopen
  have hkept := hfrugal.kept (by rw [hmain]; rfl) (by rw [hmain]; rfl)
  unfold Gauge.kept at hkept
  omega

/-- While the receiver waits and was not woken, more is unread than it goes on at, if that is less
than what it waits at. -/
theorem Ebbs.resume_lt (h : l.Ebbs setup thresholds limit)
    (hreceiver : l.receiver = .flushing .parked)
    (hwaiter : l.transport.input.spaceSignal.waiter ≠ .woken) :
    0 < thresholds.pause ∧
      (thresholds.pause ≤ l.transport.input.unread.size ∨
        thresholds.resume < l.transport.input.unread.size) := by
  obtain ⟨rfl, g, -, -, -, -, hpumps, -, -⟩ := h
  have hflush := hpumps.awake.flush
  have happroach : Conduit.flushApproach (l.conduit g).flush = .waiting := by
    simp only [conduit, hreceiver]
    rfl
  rw [happroach] at hflush
  obtain ⟨-, hcrowded⟩ := hflush.resolve_left hwaiter
  obtain ⟨hpause, hfresh, hagain⟩ := Conduit.unread_of_crowded hcrowded
  have hthresholds : l.transport.input.thresholds = thresholds := hpumps.awake.thresholds_eq
  have hpipe : (l.conduit g).pipe = l.transport.input := rfl
  rw [hpipe, hthresholds] at hpause hfresh hagain
  refine ⟨hpause, ?_⟩
  cases hwaited : (l.conduit g).waited with
  | false => exact .inl (hfresh hwaited)
  | true => exact .inr (hagain hwaited)

end Ebbs

/-- **Receiving never gets stuck if the read buffer is large enough.** Let the receiver go on at
least at as much as the reader or the pending handshake may leave unread, or never pause: then in no
state of any run, for every handshake, both forms and every router, does the receiver wait for room
while the main task waits for more, and neither was woken. -/
theorem not_stuck_of_slack_le (o : ConnectionOptions) (setup : LinkSetup) (id peer : String)
    (capacity : Nat) (moves : List Move) {l : Link}
    (hslack : o.maxReadBuffer = 0 ∨ setup.slack ≤ o.maxReadBuffer / 2)
    (hrun : (Link.new setup id peer o.maxPayload o.input o.output { capacity }).run? moves =
      some l) : ¬ l.Stuck := by
  have hebbs : l.Ebbs setup o.input o.maxPayload :=
    invariant_run (fun h hmove => h.move hmove) (ebbs_new setup id peer _ _ _ capacity) hrun
  intro hstuck
  have hle := hebbs.unread_le hstuck.main hstuck.main_not_woken
  obtain ⟨hpause, hlt⟩ := hebbs.resume_lt hstuck.receiver hstuck.not_woken
  have hpause_eq : o.input.pause = o.maxReadBuffer := rfl
  have hresume_eq : o.input.resume = o.maxReadBuffer / 2 := rfl
  omega

/-- A read buffer of twice what the WebSocket reader may leave. -/
def tightBuffer : ConnectionOptions :=
  { maxReadBuffer := 14 }

/-- The connection is opened without a handshake. -/
def openMoves : List Move :=
  .start :: List.replicate 4 (.main .work)

/-- A WebSocket frame and the front of another arrive. The receiver waits, and the main task waits
once it has looked at them. -/
def tightMoves : List Move :=
  let front : Bytes := [130, 12, 0, 0, 0, 11, 116, 101, 109, 112, 101, 114, 97, 116, 130]
  openMoves ++ [.arrive front] ++ List.replicate 5 (.receiver .work 2048) ++
    List.replicate 7 (.main .work)

theorem not_stuck_of_tightBuffer : ∃ l,
    (Link.new { format := .webSocket } "near" "far" tightBuffer.maxPayload tightBuffer.input
      tightBuffer.output { capacity := 64 }).run? tightMoves = some l ∧
    l.main.read? = some .parked ∧ l.receiver.flush? = some .parked ∧
      l.transport.input.unread.size = 1 ∧ ¬ l.Stuck := by
  have hseen : ((Link.new { format := .webSocket } "near" "far" tightBuffer.maxPayload
      tightBuffer.input tightBuffer.output { capacity := 64 }).run? tightMoves).map
      (fun l => (l.main.read?, l.receiver.flush?, l.transport.input.unread.size)) =
      some (some .parked, some .parked, 1) := by
    decide +kernel
  obtain ⟨l, hrun, hl⟩ := Option.map_eq_some_iff.mp hseen
  simp only [Prod.mk.injEq] at hl
  obtain ⟨hread, hflush, hsize⟩ := hl
  exact ⟨l, hrun, hread, hflush, hsize,
    not_stuck_of_slack_le tightBuffer { format := .webSocket } "near" "far" 64 tightMoves
      (.inr (by decide)) hrun⟩

/-- A read buffer that is smaller than an identifier may be. -/
def smallBuffer : ConnectionOptions :=
  { maxReadBuffer := 4 }

/-- A frame with an identifier of eleven bytes. -/
def longFrame : Frame :=
  .new "temperature" [21]

/-- The bytes of the frame. -/
def longBytes : Bytes :=
  [0, 0, 0, 11, 116, 101, 109, 112, 101, 114, 97, 116, 117, 114, 101, 0, 0, 0, 1, 21]

/-- The first nine bytes of the frame arrive, and later all the others. -/
def haltMoves : List Move :=
  openMoves ++ [.arrive (longBytes.take 9)] ++ List.replicate 5 (.receiver .work 2048) ++
    List.replicate 7 (.main .work) ++ List.replicate 3 (.receiver .work 2048) ++
    [.arrive (longBytes.drop 9)]

/-- **The options allow a read buffer with which receiving gets stuck** in the middle of a frame:
the main task leaves the front of an identifier, which is more than the receiver goes on at. The
rest of the frame is there, nothing was canceled, and nobody has anything to do. -/
theorem stuck_of_small_buffer : smallBuffer.validate = .ok () ∧
    WireFormat.plain.encode longFrame = .ok longBytes ∧
    ∃ l, (Link.new {} "near" "far" smallBuffer.maxPayload smallBuffer.input smallBuffer.output
        { capacity := 64 }).run? haltMoves = some l ∧
      l.Stuck ∧ l.transport.input.unread.toList ++ l.wire.arriving = longBytes.drop 4 ∧
      l.connection.cancelled = false ∧ l.transport.stopped = false ∧
      l.transport.input.Quiet ∧ l.transport.input.Crowded true := by
  have hseen : ((Link.new {} "near" "far" smallBuffer.maxPayload smallBuffer.input
      smallBuffer.output { capacity := 64 }).run? haltMoves).map
      (fun l => ((l.main.read?, l.receiver.flush?),
        [l.transport.input.dataSignal.waiter, l.transport.input.spaceSignal.waiter],
        [l.transport.input.unread.toList, l.wire.arriving],
        [l.connection.cancelled, l.transport.stopped, l.transport.input.unexamined,
          l.transport.input.writerCompleted, l.transport.input.readCanceled,
          l.transport.input.readerCompleted, l.transport.input.flushCanceled,
          l.transport.input.mayProceed true])) =
      some ((some .parked, some .parked), [.waiting, .waiting],
        [(longBytes.drop 4).take 5, longBytes.drop 9], List.replicate 8 false) := by
    decide +kernel
  obtain ⟨l, hrun, hl⟩ := Option.map_eq_some_iff.mp hseen
  simp only [Prod.mk.injEq, List.replicate, List.cons.injEq, and_true] at hl
  obtain ⟨⟨hread, hflush⟩, ⟨hdata, hspace⟩, ⟨hunread, harriving⟩, hcancelled, hstopped, hnews,
    hopen, hreadCanceled, hreader, hflushCanceled, hproceed⟩ := hl
  refine ⟨rfl, rfl, l, hrun,
    ⟨ReceiverStage.eq_of_flush hflush, ?_, MainStage.eq_of_read hread, ?_⟩, ?_,
    hcancelled, hstopped, ⟨hnews, hopen, hreadCanceled⟩, hreader, hflushCanceled, hproceed⟩
  · rw [hspace]
    decide
  · rw [hdata]
    decide
  · rw [hunread, harriving]
    rfl

end Link

end Courier
