import Courier.Proofs.Link.InputPipe
import Courier.Proofs.Link.LifeCycle

/-!
Courier.Proofs.Link.Course — the way of a connection, and what it does not remember of it.

A `Course` is a link together with what its peer and its owner know of its past: what arrived, what
was queued for the handshake, what the handshake was shown and what it consumed, and what ended the
main task's work. All moves are possible at any time, but that a peer sends nothing behind the end
of its stream.

Between two inputs the main task has come to rest: it has looked at a front of what is unread, and
the handshake or the reader waits for more than that (`Link.Awaits`). `Course.Tracks` ties this to
the account of the bytes and to the input pipe, and is kept by every move (`Course.Tracks.move`).
-/

namespace Courier

/-! ## 1. What is remembered -/

/-- What the main task has come to the end of its input with. -/
def MainStage.exit? : MainStage → Option (Option Fault)
  | .leaving cause => some cause
  | _ => none

/-- The sender gives up because the stream has failed it. -/
def SenderStage.failing : SenderStage → Bool
  | .leaving (some _) => true
  | _ => false

/-- The peer sends nothing more. -/
def Move.ends : Move → Bool
  | .endArriving | .abandon => true
  | _ => false

namespace Link

/-- The bytes that arrive in a move, as far as there is room for them. -/
def arrives (m : Move) (l : Link) : Bytes :=
  match m with
  | .arrive bs => bs.take (l.wire.capacity - l.wire.arriving.length)
  | _ => []

/-- What the handshake is shown in a move. -/
def judges (m : Move) (l : Link) : List Bytes :=
  match m, l.main with
  | .main .work, .examining portion => [portion.buffer.toList]
  | _, _ => []

/-- While the main task takes input, something gets in its way: a disconnect is requested, the
stream fails, or the transport is shut down from outside. -/
def disturbs (m : Move) (l' : Link) : Bool :=
  l'.main.Takes && match m with
    | .shutDown _ | .failRead _ => true
    | _ => l'.connection.cancelled || l'.sender.failing

end Link

/-- A link, and what is known of the way that led to it. -/
structure Course where
  link : Link
  /-- what has arrived -/
  arrived : Bytes := []
  /-- the peer has ended its stream -/
  ended : Bool := false
  /-- what was queued for the handshake -/
  greeted : List Frame := []
  /-- what the handshake was shown, one look after another -/
  judged : List Bytes := []
  /-- what the handshake has consumed -/
  examined : Bytes := []
  /-- what the main task has come to the end of its input with, if it has -/
  exit : Option (Option Fault) := none
  disturbed : Bool := false

namespace Course

/-- What is known after a move that has led to `link`. -/
def follow (m : Move) (link : Link) (c : Course) : Course where
  link
  arrived := c.arrived ++ c.link.arrives m
  ended := c.ended || m.ends
  greeted := c.greeted ++ c.link.greets m link
  judged := c.judged ++ c.link.judges m
  examined := c.examined ++ c.link.examines m link
  exit := c.exit <|> link.main.exit?
  disturbed := c.disturbed || Link.disturbs m link

/-- A peer sends nothing behind the end of its stream. -/
def permits (m : Move) (c : Course) : Bool :=
  match m with
  | .arrive _ => !c.ended
  | _ => true

/-- The course after a move, if it is possible. -/
def move? (m : Move) (c : Course) : Option Course :=
  if c.permits m then (c.link.move? m).map fun link => c.follow m link else none

/-- The course after a row of moves, if all of them are possible. -/
def run? : List Move → Course → Option Course
  | [], c => some c
  | m :: moves, c =>
      match c.move? m with
      | none => none
      | some c => run? moves c

variable {c c' : Course} {m : Move} {moves : List Move}

theorem move_eq (hmove : c.move? m = some c') : c.permits m = true ∧
    ∃ l', c.link.move? m = some l' ∧ c' = c.follow m l' := by
  unfold move? at hmove
  split at hmove
  · next hpermits =>
    obtain ⟨l', hl', rfl⟩ := Option.map_eq_some_iff.mp hmove
    exact ⟨hpermits, l', hl', rfl⟩
  · cases hmove

/-- What every move keeps is true after every run. -/
theorem invariant_run {P : Course → Prop}
    (hstep : ∀ {c c' : Course} {m : Move}, P c → c.move? m = some c' → P c') (h : P c)
    (hrun : c.run? moves = some c') : P c' := by
  induction moves generalizing c with
  | nil =>
      cases hrun
      exact h
  | cons m moves ih =>
      simp only [run?] at hrun
      split at hrun
      · cases hrun
      · next hmove => exact ih (hstep h hmove) hrun

end Course

/-! ## 2. At rest -/

namespace Link

/-- What the main task has looked at is `seen`: it left that in the pipe, as the handshake or the
reader waits for more. -/
def Awaits (format : WireFormat) (limit : Nat) (l : Link) (examined used seen : Bytes) : Prop :=
  match l.connection.handshaked with
  | false => seen = [] ∨ l.setup.handshake.judge seen = .pending ∧
      seen.length ≤ l.setup.maxHandshake
  | true => ∃ eaten s, used = examined ++ eaten ∧
      (format.decoder limit).intake.run (format.fresh limit) (eaten ++ seen) =
        ⟨l.heard, .ok (s, seen)⟩

/-- What the main task has looked at, stage by stage. -/
def Settled (format : WireFormat) (limit : Nat) (l : Link) (g : Gauge) (examined used : Bytes) :
    Prop :=
  match l.main with
  | .unstarted | .opening | .marking none | .showing none | .telling none => g.kept = 0
  | .waiting _ => ∃ seen, seen <+: l.transport.input.unread.toList ∧ seen.length = g.kept ∧
      l.Awaits format limit examined used seen
  | .settling portion => l.Awaits format limit examined used portion.buffer.toList
  | _ => True

/-- All that arrived was handed over, and the main task has nothing more to do with it: it waits,
and was not woken. -/
structure Drained (l : Link) : Prop where
  arriving : l.wire.arriving = []
  behind : l.transport.input.behind = []
  main : l.main = .waiting .parked
  not_woken : l.transport.input.dataSignal.waiter ≠ .woken

section Settled

variable {format : WireFormat} {limit : Nat} {thresholds : Thresholds} {l l' : Link} {g g' : Gauge}
variable {arrived received examined examined' used used' seen : Bytes}

theorem Awaits.same (h : l.Awaits format limit examined used seen) (hsetup : l'.setup = l.setup)
    (hmark : l'.connection.handshaked = l.connection.handshaked) (hheard : l'.heard = l.heard) :
    l'.Awaits format limit examined used seen := by
  unfold Awaits at h ⊢
  rw [hsetup, hmark, hheard]
  exact h

/-- Nothing was looked at before the handshake. -/
theorem awaits_nil (hmark : l.connection.handshaked = false) :
    l.Awaits format limit examined used [] := by
  unfold Awaits
  rw [hmark]
  exact .inl rfl

/-- Nothing was read right after it. -/
theorem awaits_fresh (hmark : l.connection.handshaked = true) (hheard : l.heard = [])
    (hused : used = examined) : l.Awaits format limit examined used [] := by
  unfold Awaits
  rw [hmark, hheard]
  exact ⟨[], format.fresh limit, by rw [hused, List.append_nil],
    Intake.run_of_pending (format.look_fresh_nil limit)⟩

/-- Two accounts of what the main task has used are the same. -/
theorem Hears.used_unique (h : l.Hears format limit arrived received examined used)
    (htakes : l.main.Takes = true) (hportion : l.main.portion? = none)
    (hfeeds : l.transport.input.Feeds received used' (some ([], 0))) : used' = used := by
  have hinput := h.receives.input
  rw [MainStage.lent, if_pos htakes, hportion] at hinput
  have hsame := hfeeds.got_append_lent hinput
  rwa [List.append_nil, List.append_nil] at hsame

/-- So they are when it works on a part of the input. -/
theorem Hears.used_append_unique {portion portion' : Portion}
    (h : l.Hears format limit arrived received examined used)
    (h' : l'.Hears format limit arrived received examined used')
    (htakes : l.main.Takes = true) (hportion : l.main.portion? = some portion)
    (htakes' : l'.main.Takes = true) (hportion' : l'.main.portion? = some portion')
    (hinput : l'.transport.input = l.transport.input) (hsize : portion'.size = portion.size) :
    used ++ portion.buffer.toList = used' ++ portion'.buffer.toList := by
  obtain ⟨hfeeds, -⟩ := h.input_of_portion htakes hportion
  obtain ⟨hfeeds', -⟩ := h'.input_of_portion htakes' hportion'
  rw [hinput, hsize] at hfeeds'
  exact hfeeds.got_append_lent hfeeds'

/-- The handshake waits for more, and has changed nothing. -/
theorem examine_pending {h : Handshake} {b b' : Buffer} {c c' : Connection}
    (hexamine : h.examine Connection.rawSender b c = (.ok false, b', c')) :
    h.judge b.toList = .pending ∧ b' = b ∧ c' = c := by
  cases Handshake.examines_of_eq hexamine with
  | pending judge => exact ⟨judge, rfl, rfl⟩

/-- What the other tasks do, and what comes from outside, leaves the main task at rest. -/
theorem Settled.aside (h : l.Settled format limit g examined used) (ha : l.Aside l')
    (hunread : l.transport.input.unread.toList <+: l'.transport.input.unread.toList)
    (hkept : l.main.Takes = true → l.main.portion? = none → g'.kept = g.kept) :
    l'.Settled format limit g' examined used := by
  unfold Settled at h ⊢
  rw [ha.main_eq]
  cases hstage : l.main with
  | unstarted | opening =>
      simp only [hstage] at h hkept
      exact (hkept rfl rfl).trans h
  | marking portion | showing portion | telling portion =>
      cases portion with
      | none =>
          simp only [hstage] at h hkept
          exact (hkept rfl rfl).trans h
      | some portion => trivial
  | waiting read =>
      simp only [hstage] at h hkept
      obtain ⟨seen, hseen, hlength, hawaits⟩ := h
      exact ⟨seen, hseen.trans hunread, hlength.trans (hkept rfl rfl).symm,
        hawaits.same ha.setup_eq ha.handshaked_eq ha.heard_eq⟩
  | settling portion =>
      simp only [hstage] at h
      exact h.same ha.setup_eq ha.handshaked_eq ha.heard_eq
  | _ => trivial

/-- A call of the reader that finds no frame: the run over what was there has come to rest. -/
theorem Hears.awaits_of_readNothing {portion : Portion} {reader : FrameReader} {buffer : Buffer}
    (h : l.Hears format limit arrived received examined used) (hstage : l.main = .reading portion)
    (hread : l.reader.read portion.buffer = (.ok none, reader, buffer))
    (hmark : l'.connection.handshaked = true) (hheard : l'.heard = l.heard)
    (hused : used ++ portion.buffer.toList = used' ++ buffer.toList) :
    l'.Awaits format limit examined used' buffer.toList := by
  have hsound : portion.buffer.Sound := h.receives.main_sound portion (by rw [hstage]; rfl)
  have hrest := l.reader.rest_read portion.buffer
  have hprogress := h.progress
  simp only [Progress, hstage] at hprogress
  obtain ⟨eaten, s, heaten, hfollows⟩ := hprogress
  have hcall := (format.decoder limit).call_read hfollows.at_ hsound
  rw [hread] at hcall hrest
  obtain ⟨piece, hpiece⟩ := hrest.suffix
  cases hcall with
  | @pending r s' b at_ sound hrun =>
      have hused' : used' = examined ++ (eaten ++ piece) := by
        rw [← hpiece, ← List.append_assoc, List.append_left_inj, heaten, List.append_assoc] at hused
        exact hused.symm
      have hall := hfollows.run []
      rw [List.append_nil, hrun] at hall
      unfold Awaits
      rw [hmark]
      refine ⟨eaten ++ piece, s', hused', ?_⟩
      rw [List.append_assoc, hpiece, hall, hheard]
      simp [Taken.after]

/-- **A step of the main task** comes to rest on what it has looked at and left. -/
theorem Settled.works (h : l.Settled format limit g examined used)
    (hhears : l.Hears format limit arrived received examined used)
    (hhears' : l'.Hears format limit arrived received examined' used')
    (hsame : (¬ ∃ portion, l.main = .examining portion) → examined' = examined)
    (hworks : l.Works l')
    (hkept : l'.main.Takes = true → l'.main.portion? = none → g'.kept = l.main.keeps g.kept) :
    l'.Settled format limit g' examined' used' := by
  have hearly := hhears.timely.early
  have hlate := hhears.timely.late
  have hfeeds := hhears.receives.input
  have hblank := hhears.receives.blank
  cases hworks with
  | openPending stage start =>
      unfold Settled at h ⊢
      simp only [stage] at h hkept hearly
      have hmark := Connection.handshaked_start l.setup.handshake (l.enter .handshaking).connection
      rw [start] at hmark
      exact ⟨[], List.nil_prefix, ((hkept rfl rfl).trans h).symm,
        awaits_nil (hmark.trans (hearly trivial))⟩
  | openCompleted stage start =>
      unfold Settled at h ⊢
      simp only [stage] at h hkept
      exact (hkept rfl rfl).trans h
  | @marks portion stage | @shows portion stage =>
      unfold Settled at h ⊢
      cases portion with
      | none =>
          simp only [stage] at h hkept
          exact (hkept rfl rfl).trans h
      | some portion => trivial
  | tells stage =>
      have hmark : l.connection.handshaked = true := hlate (by rw [stage]; trivial)
      have hprogress := hhears.progress
      simp only [Progress, stage] at hprogress
      obtain ⟨hused, hfresh⟩ := hprogress
      have hheard : (l.tell .handshaked).heard = [] := (heard_tell .handshaked l).trans hfresh.heard
      rw [hsame (by simp [stage])] at hhears' ⊢
      rw [stage] at hfeeds
      have hused' := hhears'.used_unique rfl rfl hfeeds
      unfold Settled at h ⊢
      simp only [stage] at h hkept
      refine ⟨[], List.nil_prefix, ((hkept rfl rfl).trans h).symm, ?_⟩
      exact awaits_fresh hmark hheard (hused'.symm.trans hused)
  | looks stage step =>
      obtain ⟨hgrows, -⟩ := Pipe.read_grows step
      rw [hsame (by simp [stage])] at hhears' ⊢
      rw [stage] at hfeeds
      have hused' := hhears'.used_unique rfl rfl (hfeeds.same hblank (hgrows l.memory))
      unfold Settled at h ⊢
      simp only [stage] at h hkept
      obtain ⟨seen, hseen, hlength, hawaits⟩ := h
      rw [hused'] at hawaits
      exact ⟨seen, hseen.trans (hgrows l.memory).unread, hlength.trans (hkept rfl rfl).symm,
        hawaits.same rfl rfl rfl⟩
  | @examinePending portion buffer connection stage examine short =>
      obtain ⟨hjudge, rfl, rfl⟩ := examine_pending examine
      have hsound : portion.buffer.Sound := hhears.receives.main_sound portion (by rw [stage]; rfl)
      rw [stage] at hearly
      simp only [Settled, Awaits, hearly trivial]
      exact .inr ⟨hjudge, by rw [← hsound.size_eq]; exact short⟩
  | @readNothing portion reader buffer stage read =>
      rw [hsame (by simp [stage])] at hhears' ⊢
      have hmark : l.connection.handshaked = true := hlate (by rw [stage]; trivial)
      have hused' := hhears.used_append_unique hhears' (by rw [stage]; rfl)
        (show l.main.portion? = some portion by rw [stage]; rfl) rfl rfl rfl rfl
      exact hhears.awaits_of_readNothing stage read hmark rfl hused'
  | @settles portion memory input stage consume =>
      rw [hsame (by simp [stage])] at hhears' ⊢
      cases hlast : portion.last with
      | true => trivial
      | false =>
          rw [hlast] at hhears' hkept
          obtain ⟨hlent, hsound⟩ := hhears.input_of_portion (by rw [stage]; rfl)
            (show l.main.portion? = some portion by rw [stage]; rfl)
          rw [hsound.size_eq] at consume
          obtain ⟨hsettled, hleft⟩ := hlent.settle consume
          have hused' := hhears'.used_unique rfl rfl hsettled
          unfold Settled at h ⊢
          simp only [stage] at h hkept
          rw [hused'] at h
          exact ⟨portion.buffer.toList, hleft, hsound.size_eq.symm.trans (hkept rfl rfl).symm,
            h.same rfl rfl rfl⟩
  | takes stage step =>
      unfold Link.takeInput
      dsimp only
      split <;> trivial
  | @readFrame portion f reader buffer stage read =>
      have hd := dispatch_dispatches f { portion with buffer } reader l
      unfold Settled
      obtain hmain | ⟨job, hmain⟩ := hd.main_eq <;> rw [hmain] <;> trivial
  | @handles job portion stage =>
      unfold Settled
      dsimp only
      cases (l.goOn job).1 <;> trivial
  | _ => trivial

/-- On the way to the end nothing is taken any more, no frame is dispatched, and the mark of the
handshake stays. -/
theorem same_of_not_takes {m : Move} (hmove : l.move? m = some l')
    (htakes : l.main.Takes = false) : l'.main.Takes = false ∧ l'.heard = l.heard ∧
      l'.connection.handshaked = l.connection.handshaked := by
  cases m with
  | main choice =>
      cases choice with
      | work =>
          obtain ⟨htakes', hheard, hmark, -⟩ := workMain_closing htakes hmove
          exact ⟨htakes', hheard, hmark⟩
      | stop =>
          obtain ⟨read, -, -, -, rfl⟩ := stopMain_eq hmove
          exact ⟨rfl, rfl, rfl⟩
  | start =>
      cases hmove
      unfold Link.start
      split
      · next hstage =>
        rw [hstage] at htakes
        cases htakes
      · exact ⟨htakes, rfl, rfl⟩
  | _ =>
      have haside := (move_aside (fun _ => Move.noConfusion) Move.noConfusion hmove).1
      rw [haside.main_eq]
      exact ⟨htakes, haside.heard_eq, haside.handshaked_eq⟩

/-- What the main task comes to the end of its input with, when it does. -/
inductive Exits (l : Link) : Option Fault → Prop where
  /-- the handshake could not be opened -/
  | unopened {cause : Fault} {connection : Connection} (stage : l.main = .opening)
      (start : l.setup.handshake.start Connection.rawSender (l.enter .handshaking).connection =
        (.error cause, connection)) : Exits l (some cause)
  /-- it was shown something that is wrong -/
  | rejected {portion : Portion} {cause : Fault} {buffer : Buffer} {connection : Connection}
      (stage : l.main = .examining portion)
      (examine : l.setup.handshake.examine Connection.rawSender portion.buffer l.connection =
        (.error cause, buffer, connection)) : Exits l (some cause)
  /-- or too much without an end -/
  | tooLong {portion : Portion} {buffer : Buffer} {connection : Connection}
      (stage : l.main = .examining portion)
      (examine : l.setup.handshake.examine Connection.rawSender portion.buffer l.connection =
        (.ok false, buffer, connection))
      (long : l.setup.maxHandshake < buffer.size) :
      Exits l (some (.violation (.longHandshake l.setup.maxHandshake)))
  /-- the reader has found a fault -/
  | spoiled {portion : Portion} {cause : Fault} {reader : FrameReader} {buffer : Buffer}
      (stage : l.main = .reading portion)
      (read : l.reader.read portion.buffer = (.error cause, reader, buffer)) : Exits l (some cause)
  /-- the last input is worked off -/
  | exhausted {portion : Portion} (stage : l.main = .settling portion)
      (last : portion.last = true) : Exits l none
  /-- the connection was asked to end -/
  | stopped (cancelled : l.connection.cancelled = true) : Exits l none

/-- When the main task takes no more, it leaves, and changes nothing else that is seen. -/
theorem Hears.exits_of_works (h : l.Hears format limit arrived received examined used)
    (hworks : l.Works l') (htakes : l.main.Takes = true) (htakes' : l'.main.Takes = false) :
    ∃ cause, l.Exits cause ∧ l'.main = .leaving cause ∧ l'.heard = l.heard ∧
      l'.connection.handshaked = l.connection.handshaked := by
  cases hworks with
  | openFailed stage start =>
      have halike := (l.enter .handshaking).connection.start_alike l.setup.handshake
      rw [start] at halike
      exact ⟨_, .unopened stage start, rfl, rfl, halike.handshaked_eq⟩
  | @examineFailed portion cause buffer connection stage examine =>
      have halike := l.connection.examine_alike l.setup.handshake portion.buffer
      rw [examine] at halike
      exact ⟨_, .rejected stage examine, rfl, rfl, halike.handshaked_eq⟩
  | @examineLong portion buffer connection stage examine long =>
      have halike := l.connection.examine_alike l.setup.handshake portion.buffer
      rw [examine] at halike
      exact ⟨_, .tooLong stage examine long, rfl, rfl, halike.handshaked_eq⟩
  | readFault stage read => exact ⟨_, .spoiled stage read, rfl, rfl, rfl⟩
  | jams stage consume =>
      obtain ⟨result, hok⟩ := h.consume_ok stage
      cases consume.symm.trans hok
  | @settles portion memory input stage consume =>
      cases hlast : portion.last with
      | true => exact ⟨none, .exhausted stage hlast, rfl, rfl, rfl⟩
      | false =>
          rw [hlast] at htakes'
          cases htakes'
  | takes stage step =>
      unfold Link.takeInput at htakes'
      dsimp only at htakes'
      split at htakes' <;> cases htakes'
  | @readFrame portion f reader buffer stage read =>
      have hd := dispatch_dispatches f { portion with buffer } reader l
      obtain hmain | ⟨job, hmain⟩ := hd.main_eq <;> rw [hmain] at htakes' <;> cases htakes'
  | @handles job portion stage =>
      dsimp only at htakes'
      cases hleft : (l.goOn job).1 <;> rw [hleft] at htakes' <;> cases htakes'
  | leaves stage | concludes stage | notifies stage | records stage | cancels stage
    | seesWriter stage | drains stage | seesSender stage | releases stage | seesReceiver stage
    | ends stage | tellsEnd stage | marksEnd stage | cuts stage | givesUp stage | shuts stage =>
      rw [stage] at htakes
      cases htakes
  | _ => cases htakes'

theorem Hears.exits_of_move {m : Move} (h : l.Hears format limit arrived received examined used)
    (hmove : l.move? m = some l') (htakes : l.main.Takes = true) (htakes' : l'.main.Takes = false) :
    ∃ cause, l.Exits cause ∧ l'.main = .leaving cause ∧ l'.heard = l.heard ∧
      l'.connection.handshaked = l.connection.handshaked ∧
      (m = .main .work ∨ m = .main .stop ∧ cause = none) := by
  cases m with
  | main choice =>
      cases choice with
      | work =>
          obtain ⟨cause, hexits, hmain, hheard, hmark⟩ :=
            h.exits_of_works (works_of_workMain hmove) htakes htakes'
          exact ⟨cause, hexits, hmain, hheard, hmark, .inl rfl⟩
      | stop =>
          obtain ⟨read, -, -, hcancelled, rfl⟩ := stopMain_eq hmove
          exact ⟨none, .stopped hcancelled, rfl, rfl, rfl, .inr ⟨rfl, rfl⟩⟩
  | start =>
      cases hmove
      unfold Link.start at htakes'
      split at htakes'
      · cases htakes'
      · cases htakes.symm.trans htakes'
  | _ =>
      have haside := (move_aside (fun _ => Move.noConfusion) Move.noConfusion hmove).1
      rw [haside.main_eq] at htakes'
      cases htakes.symm.trans htakes'

end Settled

end Link

/-! ## 3. Every move -/

namespace Course

/-- What is known of a course is in order: the account of the bytes, the input pipe, and what the
main task has looked at. -/
structure Tracks (format : WireFormat) (limit : Nat) (thresholds : Thresholds) (c : Course)
    (received used : Bytes) (g : Gauge) : Prop where
  hears : c.link.Hears format limit c.arrived received c.examined used
  pumps : c.link.Pumps thresholds g
  settled : c.link.Settled format limit g c.examined used
  exit : c.exit.isSome = !c.link.main.Takes

section Tracks

variable {format : WireFormat} {limit : Nat} {thresholds : Thresholds} {c c' : Course}
variable {received used : Bytes} {g : Gauge} {m : Move} {l' : Link}

/-- A connection that is not started yet. -/
def new (setup : LinkSetup) (id peer : String) (limit : Nat) (input output : Thresholds)
    (capacity : Nat) : Course where
  link := .new setup id peer limit input output { capacity }

theorem tracks_new (setup : LinkSetup) (id peer : String) (limit : Nat)
    (input output : Thresholds) (capacity : Nat) :
    (new setup id peer limit input output capacity).Tracks setup.format limit input [] [] {} where
  hears := Link.hears_new setup id peer limit input output capacity
  pumps := Link.pumps_new setup id peer limit input output { capacity }
  settled := rfl
  exit := rfl

/-- The main task comes to the end of its input once. -/
theorem Tracks.exit_follow (h : c.Tracks format limit thresholds received used g)
    (hmove : c.link.move? m = some l') :
    (c.follow m l').exit.isSome = !l'.main.Takes := by
  have hexit := h.exit
  cases htakes : c.link.main.Takes with
  | false =>
      have htakes' := (Link.same_of_not_takes hmove htakes).1
      rw [htakes] at hexit
      obtain ⟨cause, hcause⟩ := Option.isSome_iff_exists.mp hexit
      simp [follow, hcause, htakes']
  | true =>
      rw [htakes] at hexit
      have hnone : c.exit = none := by simpa using hexit
      cases htakes' : l'.main.Takes with
      | false =>
          obtain ⟨cause, -, hcause, -⟩ := h.hears.exits_of_move hmove htakes htakes'
          simp [follow, hnone, hcause, MainStage.exit?]
      | true =>
          have hstays : l'.main.exit? = none := by
            unfold MainStage.exit?
            split
            · next hstage =>
              rw [hstage] at htakes'
              cases htakes'
            · rfl
          simp [follow, hnone, hstays]

/-- What is examined is examined by the main task. -/
theorem examined_follow (hmain : m ≠ .main .work) :
    (c.follow m l').examined = c.examined := by
  have hnone : c.link.examines m l' = [] := by
    unfold Link.examines
    split
    · exact absurd rfl hmain
    · rfl
  simp only [follow, hnone, List.append_nil]

theorem arrived_follow (harrive : ∀ bs, m ≠ .arrive bs) :
    (c.follow m l').arrived = c.arrived := by
  have hnone : c.link.arrives m = [] := by
    unfold Link.arrives
    split
    · next bs => exact absurd rfl (harrive bs)
    · rfl
  simp only [follow, hnone, List.append_nil]

/-- A step of the main task. -/
theorem Tracks.main {choice : Choice} (h : c.Tracks format limit thresholds received used g)
    (hmove : c.link.move? (.main choice) = some l') :
    ∃ used' g', (c.follow (.main choice) l').Tracks format limit thresholds received used' g' := by
  obtain ⟨g', hpumps, hkept⟩ := h.pumps.move hmove
  obtain ⟨used', hhears⟩ := h.hears.stepMain hmove
  refine ⟨used', g', ?_, hpumps, ?_, h.exit_follow hmove⟩
  · rw [arrived_follow fun _ => Move.noConfusion]
    exact hhears
  · cases choice with
    | work =>
        refine h.settled.works h.hears hhears (fun hother => ?_) (Link.works_of_workMain hmove)
          hkept
        simp only [follow, Link.examines_of_not_examining hother, List.append_nil]
    | stop =>
        obtain ⟨read, -, -, -, rfl⟩ := Link.stopMain_eq hmove
        trivial

/-- The main task is started. -/
theorem Tracks.start (h : c.Tracks format limit thresholds received used g) :
    (c.follow .start c.link.start).Tracks format limit thresholds received used g := by
  have hsettled := h.settled
  refine ⟨?_, h.pumps.start, ?_, h.exit_follow rfl⟩
  · rw [arrived_follow fun _ => Move.noConfusion, examined_follow Move.noConfusion]
    exact h.hears.start
  · rw [examined_follow Move.noConfusion]
    unfold follow Link.start
    dsimp only
    split
    · next hstage =>
      simp only [Link.Settled, hstage] at hsettled
      exact hsettled
    · exact hsettled

/-- What the other tasks do, and what comes from outside. -/
theorem Tracks.aside (h : c.Tracks format limit thresholds received used g)
    (hmain : ∀ choice, m ≠ .main choice) (hstart : m ≠ .start)
    (hmove : c.link.move? m = some l') :
    ∃ received' g', (c.follow m l').Tracks format limit thresholds received' used g' := by
  obtain ⟨g', hpumps, hkept⟩ := h.pumps.move hmove
  obtain ⟨haside, hdraws⟩ := Link.move_aside hmain hstart hmove
  have hkept' : c.link.main.Takes = true → c.link.main.portion? = none → g'.kept = g.kept := by
    intro htakes hnone
    rw [haside.main_eq, MainStage.keeps_of_portion hnone] at hkept
    exact hkept htakes hnone
  have hexamined : (c.follow m l').examined = c.examined := examined_follow (hmain .work)
  by_cases harrive : ∃ bs, m = .arrive bs
  · obtain ⟨bs, rfl⟩ := harrive
    cases hmove
    refine ⟨received, g', ?_, hpumps, ?_, h.exit_follow rfl⟩
    · rw [hexamined]
      exact h.hears.arrive bs
    · rw [hexamined]
      exact h.settled.aside haside (List.prefix_refl _) hkept'
  · have harrive' : ∀ bs, m ≠ .arrive bs := fun bs heq => harrive ⟨bs, heq⟩
    obtain ⟨bs, hdraws⟩ := hdraws harrive'
    refine ⟨received ++ bs, g', ?_, hpumps, ?_, h.exit_follow hmove⟩
    · rw [hexamined, arrived_follow harrive']
      exact h.hears.draws haside hdraws
    · rw [hexamined]
      exact h.settled.aside haside hdraws.input.unread hkept'

/-- **Every move keeps a course on its tracks.** -/
theorem Tracks.move (h : c.Tracks format limit thresholds received used g)
    (hmove : c.move? m = some c') :
    ∃ received' used' g', c'.Tracks format limit thresholds received' used' g' := by
  obtain ⟨-, l', hl', rfl⟩ := move_eq hmove
  by_cases hmain : ∃ choice, m = .main choice
  · obtain ⟨choice, rfl⟩ := hmain
    obtain ⟨used', g', h'⟩ := h.main hl'
    exact ⟨received, used', g', h'⟩
  · by_cases hstart : m = .start
    · subst hstart
      cases hl'
      exact ⟨received, used, g, h.start⟩
    · obtain ⟨received', g', h'⟩ := h.aside (fun choice heq => hmain ⟨choice, heq⟩) hstart hl'
      exact ⟨received', used, g', h'⟩

/-- As long as input is taken, it has not come to an end. -/
theorem Tracks.exit_eq_none (h : c.Tracks format limit thresholds received used g)
    (htakes : c.link.main.Takes = true) : c.exit = none := by
  have hexit := h.exit
  rw [htakes] at hexit
  simpa using hexit

/-- What the handshake is shown is in front of what has arrived. -/
theorem Tracks.judged_front {portion : Portion}
    (h : c.Tracks format limit thresholds received used g)
    (hstage : c.link.main = .examining portion) : portion.buffer.toList <+: c.arrived :=
  h.hears.examining_front hstage

/-! ## 4. When nothing is left to do -/

/-- When everything was handed over and the main task waits, it has looked at all that is unread,
and the handshake or the reader waits for more. -/
theorem Tracks.awaits_of_drained (h : c.Tracks format limit thresholds received used g)
    (hdrained : c.link.Drained) :
    c.arrived = used ++ c.link.transport.input.unread.toList ∧
      c.link.Awaits format limit c.examined used c.link.transport.input.unread.toList := by
  have hread := h.pumps.awake.read
  have happroach : Conduit.readApproach (c.link.conduit g).read = .waiting := by
    simp only [Link.conduit, hdrained.main]
    rfl
  rw [happroach] at hread
  obtain ⟨-, hnews, hopen, -⟩ := hread.resolve_left hdrained.not_woken
  have hshown : g.consumed.length + c.link.transport.input.unread.size ≤ g.shown :=
    h.pumps.awake.seen hnews hopen
  have hinput := h.hears.receives.input
  have hsettled := h.settled
  simp only [Link.Settled, hdrained.main] at hsettled hinput
  obtain ⟨seen, hseen, hlength, hawaits⟩ := hsettled
  have hall : seen = c.link.transport.input.unread.toList := by
    refine hseen.eq_of_length_le ?_
    rw [hlength, ← hinput.sound.size_eq]
    exact Nat.le_sub_of_add_le' hshown
  obtain ⟨front, rest, hunread, hreceived, hlent⟩ :=
    hinput.position (hinput.open_of_lent (by simp [MainStage.lent, MainStage.Takes]))
  obtain ⟨-, hfront⟩ := hlent [] 0 rfl
  have hnil : front = [] := List.eq_nil_of_length_eq_zero hfront
  rw [hnil, List.nil_append] at hunread
  rw [hdrained.behind, List.append_nil, ← hunread] at hreceived
  rw [hall] at hawaits
  refine ⟨?_, hawaits⟩
  rw [← hreceived, ← h.hears.receives.wire, hdrained.arriving, List.append_nil]

end Tracks

end Course

end Courier
