import Courier.Proofs.Link.Reason

/-!
Courier.Proofs.Link.Verdict — which reason is recorded for the end.

As long as no reason is recorded (`Course.Undecided`), the main task is on its way to record the one
that it has come to the end of its input for (`Course.Gives`). Nobody else can record one before it,
but for the sender, behind a writer that was asked to stop, and the receiver, at the end of the
stream (`Course.Forestalled`), unless the end is forced from outside (`Course.forces`). The reason
that comes first stays.
-/

namespace Courier

namespace Course

variable {c c' : Course} {m : Move} {moves : List Move} {p q : Move → Course → Bool}

/-! ## 1. What is seen of a run -/

/-- Every move of a run leads to a course as `p` says. -/
def keeps (p : Move → Course → Bool) : List Move → Course → Bool
  | [], _ => true
  | m :: moves, c =>
      match c.move? m with
      | none => true
      | some c' => p m c' && keeps p moves c'

/-- The end is forced before the main task has recorded a reason: one is recorded from outside, the
transport is shut down from there, or the stream fails. -/
def forces (m : Move) (c : Course) : Bool :=
  !c.link.main.Recorded && match m with
    | .record _ | .shutDown _ | .failRead _ | .failWrite _ => true
    | _ => c.link.sender.failing

/-- Another task has recorded a reason before the main task. -/
def forestalled (c : Course) : Bool :=
  !c.link.main.Recorded && c.link.transport.reason.isSome

/-- What every move keeps that leads to a course as `p` says is true after every run of such
moves. -/
theorem invariant_of_keeps {P : Course → Prop}
    (hstep : ∀ {c c' : Course} {m : Move}, P c → c.move? m = some c' → p m c' = true → P c')
    (h : P c) (hrun : c.run? moves = some c') (hkeeps : c.keeps p moves = true) : P c' := by
  induction moves generalizing c with
  | nil =>
      cases hrun
      exact h
  | cons m moves ih =>
      simp only [run?] at hrun
      split at hrun
      · cases hrun
      · next hmove =>
        simp only [keeps, hmove, Bool.and_eq_true] at hkeeps
        exact ih (hstep h hmove hkeeps.1) hrun hkeeps.2

theorem keeps_and (hp : c.keeps p moves = true) (hq : c.keeps q moves = true) :
    c.keeps (fun m c => p m c && q m c) moves = true := by
  induction moves generalizing c with
  | nil => rfl
  | cons m moves ih =>
      cases hmove : c.move? m with
      | none => simp only [keeps, hmove]
      | some c' =>
          simp only [keeps, hmove, Bool.and_eq_true] at hp hq ⊢
          exact ⟨⟨hp.1, hq.1⟩, ih hp.2 hq.2⟩

/-- A run that does not keep something comes to a course that is not so; what is true there, and
stays so, is true at the end. -/
theorem eventually_of_not_keeps {P Q : Course → Prop}
    (hstep : ∀ {c c' : Course} {m : Move}, P c → c.move? m = some c' → p m c' = true → P c')
    (hhere : ∀ {c : Course} {m : Move}, P c → q m c = false → Q c)
    (hstays : ∀ {c c' : Course} {m : Move}, Q c → c.move? m = some c' → Q c')
    (h : P c) (hrun : c.run? moves = some c') (hkeeps : c.keeps p moves = true)
    (hnot : c.keeps q moves = false) : Q c' := by
  induction moves generalizing c with
  | nil => cases hnot
  | cons m moves ih =>
      simp only [run?] at hrun
      split at hrun
      · cases hrun
      · next c₁ hmove =>
        simp only [keeps, hmove, Bool.and_eq_true] at hkeeps
        simp only [keeps, hmove, Bool.and_eq_false_iff] at hnot
        have h₁ := hstep h hmove hkeeps.1
        obtain hnow | hlater := hnot
        · exact invariant_run hstays (hhere h₁ hnow) hrun
        · exact ih h₁ hrun hkeeps.2 hlater

end Course

/-! ## 2. What a step leaves alone -/

namespace Link

/-- No reason is recorded, and nobody shuts the transport down. -/
structure SparesEnd (l l' : Link) : Prop where
  reason_eq : l'.transport.reason = l.transport.reason
  begun_eq : l'.transport.begun = l.transport.begun
  stopped_eq : l'.transport.stopped = l.transport.stopped

section SparesEnd

variable {l l' : Link} {choice : Choice}

theorem SparesEnd.of_eq (h : l'.transport = l.transport) : l.SparesEnd l' := by
  refine ⟨?_, ?_, ?_⟩ <;> rw [h]

theorem Works.sparesEnd (hworks : l.Works l') (hbefore : l'.main.Recorded = false) :
    l.SparesEnd l' := by
  cases hworks with
  | @readFrame portion f reader buffer stage read =>
      exact .of_eq (dispatch_dispatches f { portion with buffer } reader l).transport_eq
  | records | cuts | cancels | seesWriter | drains | seesSender | givesUp | shuts | releases
    | seesReceiver | ends | tellsEnd | marksEnd => cases hbefore
  | _ => exact ⟨rfl, rfl, rfl⟩

theorem Writes.sparesEnd (hwrites : l.Writes choice l') : l.SparesEnd l' := by
  cases hwrites <;> exact ⟨rfl, rfl, rfl⟩

/-- The receiver records a reason only if it has found one. -/
theorem Fetches.sparesEnd (hfetches : l.Fetches choice l')
    (hown : ∀ reason, l.receiver ≠ .leaving (some reason)) : l.SparesEnd l' := by
  cases hfetches with
  | @leaves reason stage =>
      cases reason with
      | none => exact ⟨rfl, rfl, rfl⟩
      | some reason => exact absurd stage (hown reason)
  | completes stage => refine ⟨?_, ?_, ?_⟩ <;> rw [reason_releaseWire] <;> rfl
  | _ => exact ⟨rfl, rfl, rfl⟩

/-- The sender does so only if the stream has failed it, or at its very end. -/
theorem Delivers.sparesEnd (hdelivers : l.Delivers choice l') (hsound : l.sender.fault? = none)
    (hshutting : l.sender ≠ .shutting) : l.SparesEnd l' := by
  cases hdelivers with
  | @leaves fault stage | @reports fault stage =>
      rw [stage] at hsound
      cases hsound
      exact ⟨rfl, rfl, rfl⟩
  | shuts stage => exact absurd stage hshutting
  | _ => exact ⟨rfl, rfl, rfl⟩

theorem Writes.sparesStream (hwrites : l.Writes choice l') :
    l.SparesStream l' ∧ l'.transport.input = l.transport.input := by
  cases hwrites <;> exact ⟨⟨rfl, rfl, rfl, rfl, rfl⟩, rfl⟩

theorem Fetches.sparesOutput (hfetches : l.Fetches choice l') : l.SparesOutput l' := by
  cases hfetches with
  | @leaves reason stage => cases reason <;> exact ⟨rfl, rfl, rfl, rfl⟩
  | completes stage =>
      unfold releaseWire
      split <;> exact ⟨rfl, rfl, rfl, rfl⟩
  | _ => exact ⟨rfl, rfl, rfl, rfl⟩

theorem Delivers.sparesStream (hdelivers : l.Delivers choice l')
    (hshutting : l.sender ≠ .shutting) :
    l.SparesStream l' ∧ l'.transport.input = l.transport.input := by
  cases hdelivers with
  | retries stage send | fails stage send | sends stage send | offers stage send =>
      obtain ⟨harriving, hended, hfault⟩ := Wire.arriving_side_send send
      exact ⟨⟨rfl, rfl, harriving, hended, hfault⟩, rfl⟩
  | @leaves fault stage | @reports fault stage =>
      cases fault <;> exact ⟨⟨rfl, rfl, rfl, rfl, rfl⟩, rfl⟩
  | shuts stage => exact absurd stage hshutting
  | _ => exact ⟨⟨rfl, rfl, rfl, rfl, rfl⟩, rfl⟩

/-- At its end, the sender shuts the transport down. -/
theorem stepSender_of_shutting {most : Nat} (hstage : l.sender = .shutting)
    (hstep : l.stepSender choice most = some l') :
    l' = { l.shutDown .sendingEnded with sender := .finished }.releaseWire := by
  cases choice with
  | work =>
      simp only [stepSender, workSender, hstage, Option.some.injEq] at hstep
      exact hstep.symm
  | stop =>
      simp only [stepSender, stopSender, hstage] at hstep
      split at hstep <;> cases hstep

end SparesEnd

end Link

/-! ## 3. Before a reason is recorded -/

/-- What is recorded stays recorded. -/
theorem Link.move_recorded {l l' : Link} {m : Move} (hmove : l.move? m = some l')
    (h : l.main.Recorded = true) : l'.main.Recorded = true := by
  cases m with
  | main choice =>
      cases choice with
      | work =>
          cases works_of_workMain hmove with
          | cuts | cancels | seesWriter | drains | seesSender | givesUp | shuts | releases
            | seesReceiver | ends | tellsEnd | marksEnd => rfl
          | openFailed stage | openCompleted stage | openPending stage | marks stage | shows stage
            | tells stage | tellsWith stage | looks stage | takes stage | examineFailed stage
            | examineCompleted stage | examineLong stage | examinePending stage | readFault stage
            | readNothing stage | readFrame stage | handles stage | jams stage | settles stage
            | leaves stage | concludes stage | notifies stage | records stage =>
              rw [stage] at h
              cases h
      | stop =>
          obtain ⟨read, hstage, -⟩ := stopMain_eq hmove
          rw [hstage] at h
          cases h
  | start =>
      cases hmove
      unfold Link.start
      split
      · next hstage =>
        rw [hstage] at h
        cases h
      · exact h
  | _ =>
      rw [(move_aside (fun _ => Move.noConfusion) Move.noConfusion hmove).1.main_eq]
      exact h

namespace Course

section Verdict

variable {format : WireFormat} {limit : Nat} {thresholds : Thresholds} {c c' : Course}
variable {received used : Bytes} {g : Gauge} {m : Move} {l' : Link} {reason : CloseReason}

/-- What the main task has come to the end of its input with gives the reason for the end. -/
inductive Gives (c : Course) : CloseReason → Prop where
  | fault {fault : Fault} (exit : c.exit = some (some fault)) : Gives c (.ofFault fault)
  | asked (exit : c.exit = some none) (cancelled : c.link.connection.cancelled = true) :
      Gives c .localDisconnect
  | ended (exit : c.exit = some none) (ended : c.ended = true) : Gives c .peerClosed

/-- At this stage, the main task ends the connection for what it has come to the end of its input
with. -/
def Causes (stage : MainStage) (c : Course) : Prop :=
  match stage with
  | .leaving cause | .concluding cause => c.exit = some cause ∧
      (cause = none → c.link.connection.cancelled = true ∨ c.ended = true)
  | .notifying reason | .recording reason => c.Gives reason
  | _ => True

/-- No reason is recorded, and every task is where it is for a cause. -/
structure Undecided (c : Course) : Prop where
  reason : c.link.transport.reason = none
  begun : c.link.transport.begun = false
  stopped : c.link.transport.stopped = false
  unrecorded : c.link.main.Recorded = false
  unstarted : c.link.main = .unstarted → c.link.writer = .unstarted
  outgoing : c.link.Outgoing
  incoming : c.link.Incoming c.ended
  causes : c.Causes c.link.main

/-- What another task records a reason for: the sender, at its end after a request to stop, or the
receiver, at the end of the stream. -/
def Forestalls (c : Course) (reason : CloseReason) : Prop :=
  reason = .sendingEnded ∧ c.link.connection.cancelled = true ∨
    reason = .peerClosed ∧ c.ended = true

/-- The main task has recorded its reason, on a course that was as `R` says until then. -/
structure Chosen (R : Course → Prop) (c : Course) (reason : CloseReason) : Prop where
  recorded : c.link.main.Recorded = true
  reason_eq : c.link.transport.reason = some reason
  gives : ∃ before : Course, R before ∧ before.exit = c.exit ∧ before.Gives reason

/-- Another task has recorded its reason, on a course that was as `R` says until then. -/
structure Forestalled (R : Course → Prop) (c : Course) (reason : CloseReason) : Prop where
  reason_eq : c.link.transport.reason = some reason
  cause : ∃ before : Course, R before ∧ before.Forestalls reason ∧
    (before.ended = true → c.ended = true)

theorem Gives.follow (h : c.Gives reason) (hlasts : c.link.connection.Lasts l'.connection) :
    (c.follow m l').Gives reason := by
  cases h with
  | fault exit => exact .fault (by simp [Course.follow, exit])
  | asked exit cancelled => exact .asked (by simp [Course.follow, exit]) (hlasts cancelled)
  | ended exit ended =>
      exact .ended (by simp [Course.follow, exit]) (by simp [Course.follow, ended])

theorem Causes.follow {stage : MainStage} (h : c.Causes stage)
    (hlasts : c.link.connection.Lasts l'.connection) : (c.follow m l').Causes stage := by
  cases stage with
  | leaving cause | concluding cause =>
      obtain ⟨hexit, hcause⟩ := h
      refine ⟨by simp [Course.follow, hexit], fun hnone => ?_⟩
      obtain hcancelled | hended := hcause hnone
      · exact .inl (hlasts hcancelled)
      · exact .inr (by simp [Course.follow, hended])
  | notifying reason | recording reason => exact Gives.follow h hlasts
  | _ => trivial

/-- As long as input is taken, there is no cause. -/
theorem causes_of_takes {stage : MainStage} (htakes : stage.Takes = true) : c.Causes stage := by
  cases stage <;> trivial

/-- A move that records nothing. -/
theorem Undecided.step (h : c.Undecided) (hmove : c.link.move? m = some l')
    (hend : c.link.SparesEnd l') (hbefore : l'.main.Recorded = false) (houtgoing : l'.Outgoing)
    (hincoming : l'.Incoming (c.ended || m.ends)) (hcauses : (c.follow m l').Causes l'.main) :
    (c.follow m l').Undecided where
  reason := hend.reason_eq.trans h.reason
  begun := hend.begun_eq.trans h.begun
  stopped := hend.stopped_eq.trans h.stopped
  unrecorded := hbefore
  unstarted := Link.writer_unstarted_of_move h.unstarted hmove
  outgoing := houtgoing
  incoming := hincoming
  causes := hcauses

/-- What the other tasks do, and what comes from outside. -/
theorem Undecided.aside (h : c.Undecided) (hmove : c.link.move? m = some l')
    (hmain : l'.main = c.link.main) (hend : c.link.SparesEnd l') (houtgoing : l'.Outgoing)
    (hincoming : l'.Incoming (c.ended || m.ends)) : (c.follow m l').Undecided := by
  refine h.step hmove hend ?_ houtgoing hincoming ?_
  · rw [hmain]
    exact h.unrecorded
  · rw [hmain]
    exact h.causes.follow (Link.move_lasts hmove)

/-- The main task comes to the end of its input for a cause. -/
theorem Undecided.causes_of_exits {choice : Choice} (h : c.Undecided)
    (ht : c.Tracks format limit thresholds received used g)
    (hmove : c.link.move? (.main choice) = some l') (htakes : c.link.main.Takes = true)
    (htakes' : l'.main.Takes = false) : (c.follow (.main choice) l').Causes l'.main := by
  obtain ⟨cause, hexits, hleaving, -⟩ := ht.hears.exits_of_move hmove htakes htakes'
  rw [hleaving]
  refine ⟨by simp [Course.follow, ht.exit_eq_none htakes, hleaving, MainStage.exit?], ?_⟩
  rintro rfl
  cases hexits with
  | @exhausted portion stage last =>
      have hcompleted := h.incoming.last portion (by rw [stage]; rfl) last
      have hfinished := h.incoming.completed hcompleted
      obtain hended | hleft := h.incoming.done (by rw [hfinished]; trivial)
      · exact .inr (by simp [Course.follow, hended])
      · cases htakes.symm.trans hleft
  | stopped cancelled => exact .inl (Link.move_lasts hmove cancelled)

/-- The reason that the main task finds is one that its cause gives. -/
theorem Undecided.gives_closeReason {cause : Option Fault} (h : c.Undecided)
    (hcauses : c.Causes (.concluding cause)) : c.Gives (c.link.closeReason cause) := by
  obtain ⟨hexit, hcause⟩ := hcauses
  cases cause with
  | some fault => exact .fault hexit
  | none =>
      unfold Link.closeReason
      dsimp only
      split
      · next hcancelled => exact .asked hexit hcancelled
      · next hcancelled =>
        rw [h.reason]
        exact .ended hexit ((hcause rfl).resolve_left hcancelled)

/-- A step of the main task that records nothing. -/
theorem Undecided.works (h : c.Undecided) (ht : c.Tracks format limit thresholds received used g)
    (hmove : c.link.move? (.main .work) = some l') (hbefore : l'.main.Recorded = false) :
    (c.follow (.main .work) l').Undecided := by
  have hworks := Link.works_of_workMain hmove
  obtain ⟨houtput, -⟩ := hworks.spares hbefore
  have hincoming := h.incoming.works hworks hbefore
  rw [← Bool.or_false c.ended] at hincoming
  refine h.step hmove (hworks.sparesEnd hbefore) hbefore
    (h.outgoing.spares houtput hworks.lasts) hincoming ?_
  cases htakes' : l'.main.Takes with
  | true => exact causes_of_takes htakes'
  | false =>
      cases htakes : c.link.main.Takes with
      | true => exact h.causes_of_exits ht hmove htakes htakes'
      | false =>
          have hcauses := h.causes
          have hlasts := hworks.lasts
          cases hworks with
          | @leaves cause stage =>
              rw [stage] at hcauses
              have hconcluding : c.Causes (.concluding cause) := hcauses
              exact hconcluding.follow hlasts
          | concludes stage =>
              rw [stage] at hcauses
              exact (h.gives_closeReason hcauses).follow hlasts
          | notifies stage =>
              rw [stage] at hcauses
              exact Gives.follow hcauses hlasts
          | jams stage => trivial
          | records | cuts | cancels | seesWriter | drains | seesSender | givesUp | shuts
            | releases | seesReceiver | ends | tellsEnd | marksEnd => cases hbefore
          | openFailed stage | openCompleted stage | openPending stage | marks stage
            | shows stage | tells stage | tellsWith stage | looks stage | takes stage
            | examineFailed stage | examineCompleted stage | examineLong stage
            | examinePending stage | readFault stage | readNothing stage | readFrame stage
            | handles stage | settles stage =>
              rw [stage] at htakes
              cases htakes

/-- The step of the main task that records its reason. -/
theorem Undecided.records (h : c.Undecided) (hworks : c.link.Works l')
    (hrecorded : l'.main.Recorded = true) :
    ∃ reason, l'.transport.reason = some reason ∧ c.Gives reason := by
  have hunrecorded := h.unrecorded
  have hcauses := h.causes
  cases hworks with
  | @records reason stage =>
      rw [stage] at hcauses
      exact ⟨reason, by simp [TransportCore.record, h.reason], hcauses⟩
  | cuts stage | cancels stage | seesWriter stage | drains stage | seesSender stage | givesUp stage
    | shuts stage | releases stage | seesReceiver stage | ends stage | tellsEnd stage
    | marksEnd stage =>
      rw [stage] at hunrecorded
      cases hunrecorded
  | takes stage step =>
      unfold Link.takeInput at hrecorded
      dsimp only at hrecorded
      split at hrecorded <;> cases hrecorded
  | @readFrame portion f reader buffer stage read =>
      have hd := Link.dispatch_dispatches f { portion with buffer } reader c.link
      obtain hmain | ⟨job, hmain⟩ := hd.main_eq <;> rw [hmain] at hrecorded <;> cases hrecorded
  | @handles job portion stage =>
      dsimp only at hrecorded
      cases hleft : (c.link.goOn job).1 <;> rw [hleft] at hrecorded <;> cases hrecorded
  | @settles portion memory input stage consume =>
      dsimp only at hrecorded
      split at hrecorded <;> cases hrecorded
  | _ => cases hrecorded

/-- The main task stops waiting. -/
theorem Undecided.stops (h : c.Undecided) (ht : c.Tracks format limit thresholds received used g)
    (hmove : c.link.move? (.main .stop) = some l') : (c.follow (.main .stop) l').Undecided := by
  obtain ⟨read, hstage, -, -, rfl⟩ := Link.stopMain_eq hmove
  refine h.step hmove ⟨rfl, rfl, rfl⟩ rfl (h.outgoing.spares ⟨rfl, rfl, rfl, rfl⟩ id) ?_
    (h.causes_of_exits ht hmove (by rw [hstage]; rfl) rfl)
  show Link.Incoming (c.ended || false) _
  rw [Bool.or_false]
  exact h.incoming.leave ⟨rfl, rfl, rfl, rfl, rfl⟩ rfl rfl rfl rfl

/-- A step of the receiver: it records a reason only at the end of the stream. -/
theorem Undecided.fetches {choice : Choice} {most : Nat} (h : c.Undecided)
    (hmove : c.link.move? (.receiver choice most) = some l') :
    (c.follow (.receiver choice most) l').Undecided ∨
      ∃ reason, l'.transport.reason = some reason ∧ c.Forestalls reason := by
  have hfetches := Link.fetches_of_stepReceiver hmove
  by_cases hown : ∃ reason, c.link.receiver = .leaving (some reason)
  · obtain ⟨reason, hstage⟩ := hown
    obtain ⟨rfl, hended⟩ := h.incoming.own reason hstage
    refine .inr ⟨.peerClosed, ?_, .inr ⟨rfl, hended⟩⟩
    cases hfetches with
    | leaves stage =>
        cases hstage.symm.trans stage
        simp [Link.recordOwn, TransportCore.record, h.reason]
    | stops stopped | stopsFlushing stopped => cases h.stopped.symm.trans stopped
    | expects stage | prepares stage | fails stage | finds stage | jams stage | takes stage
      | flushes stage | flushed stage | completes stage => cases hstage.symm.trans stage
  · have haside := (Link.move_aside (fun _ => Move.noConfusion) Move.noConfusion hmove).1
    have hincoming := h.incoming.fetches hfetches h.stopped
    rw [← Bool.or_false c.ended] at hincoming
    exact .inl (h.aside hmove haside.main_eq
      (hfetches.sparesEnd fun reason hstage => hown ⟨reason, hstage⟩)
      (h.outgoing.spares hfetches.sparesOutput (Link.move_lasts hmove)) hincoming)

/-- A step of the sender: it records a reason only behind the writer, which was asked to stop. -/
theorem Undecided.delivers {choice : Choice} {most : Nat} (h : c.Undecided)
    (hmove : c.link.move? (.sender choice most) = some l') (hsound : l'.sender.failing = false) :
    (c.follow (.sender choice most) l').Undecided ∨
      ∃ reason, l'.transport.reason = some reason ∧ c.Forestalls reason := by
  have hdelivers := Link.delivers_of_stepSender hmove
  by_cases hshutting : c.link.sender = .shutting
  · have hcompleted := h.outgoing.sender (by rw [hshutting]; exact id)
    have hcancelled := h.outgoing.writer (by rw [h.outgoing.completed hcompleted]; exact id)
    refine .inr ⟨.sendingEnded, ?_, .inl ⟨rfl, hcancelled⟩⟩
    rw [Link.stepSender_of_shutting hshutting hmove, Link.reason_releaseWire]
    show (c.link.shutDown .sendingEnded).transport.reason = _
    rw [Link.shutDown_of_not_begun h.begun]
    simp [TransportCore.finish, TransportCore.record, h.reason]
  · have haside := (Link.move_aside (fun _ => Move.noConfusion) Move.noConfusion hmove).1
    obtain ⟨hstream, hinput⟩ := hdelivers.sparesStream hshutting
    have hincoming := h.incoming.spares hstream hinput haside.main_eq
    rw [← Bool.or_false c.ended] at hincoming
    exact .inl (h.aside hmove haside.main_eq (hdelivers.sparesEnd h.outgoing.sound hshutting)
      (h.outgoing.delivers hdelivers h.stopped hshutting hsound) hincoming)

/-- The tasks are started. -/
theorem Undecided.start (h : c.Undecided) : (c.follow .start c.link.start).Undecided := by
  have hincoming := h.incoming
  have hmove : c.link.move? .start = some c.link.start := rfl
  unfold Link.start at hmove ⊢
  split at hmove
  · next hstage =>
    refine h.step hmove ⟨rfl, rfl, rfl⟩ rfl ?_ ?_ trivial
    · refine ⟨fun hleaves => absurd trivial hleaves, h.outgoing.sender, fun hcompleted => ?_,
        h.outgoing.dropped, h.outgoing.sound, h.outgoing.read, h.outgoing.flush⟩
      cases (h.unstarted hstage).symm.trans (h.outgoing.completed hcompleted)
    · show Link.Incoming (c.ended || false) _
      rw [Bool.or_false]
      refine ⟨hincoming.read, hincoming.flush, fun _ => hincoming.taken (by rw [hstage]; rfl),
        hincoming.fault, hincoming.ended_eq, fun hdone => ?_, hincoming.own, hincoming.completed,
        fun _ hportion => by cases hportion⟩
      have hbefore := hincoming.done hdone
      rwa [hstage] at hbefore
  · refine h.aside hmove rfl (.of_eq rfl) h.outgoing ?_
    show Link.Incoming (c.ended || false) _
    rw [Bool.or_false]
    exact hincoming

/-- A move that is not forced is none that forces the end, and the stream does not fail. -/
theorem sound_of_unforced (hunforced : c.forces m = false)
    (hbefore : c.link.main.Recorded = false) :
    (∀ reason, m ≠ .record reason ∧ m ≠ .shutDown reason) ∧
      (∀ fault, m ≠ .failRead fault ∧ m ≠ .failWrite fault) ∧ c.link.sender.failing = false := by
  unfold forces at hunforced
  rw [hbefore, Bool.not_false, Bool.true_and] at hunforced
  cases m with
  | record | shutDown | failRead | failWrite => cases hunforced
  | _ => exact ⟨fun _ => ⟨Move.noConfusion, Move.noConfusion⟩,
      fun _ => ⟨Move.noConfusion, Move.noConfusion⟩, hunforced⟩

/-- What the peer does with its end of the stream. -/
theorem Undecided.wire {wire : Wire} (h : c.Undecided)
    (hmove : c.link.move? m = some { c.link with wire })
    (hfault : wire.readFault = c.link.wire.readFault)
    (hended : wire.arrivingEnded = (c.link.wire.arrivingEnded || m.ends)) :
    (c.follow m { c.link with wire }).Undecided := by
  refine h.aside hmove rfl (.of_eq rfl) (h.outgoing.spares ⟨rfl, rfl, rfl, rfl⟩ id) ?_
  have hincoming := h.incoming
  refine ⟨hincoming.read, hincoming.flush, hincoming.taken, hfault.trans hincoming.fault,
    by rw [← hincoming.ended_eq]; exact hended, fun hdone => ?_, fun reason hleaving => ?_,
    hincoming.completed, hincoming.last⟩
  · obtain hended | hleft := hincoming.done hdone
    · exact .inl (by rw [hended, Bool.true_or])
    · exact .inr hleft
  · obtain ⟨hclosed, hended⟩ := hincoming.own reason hleaving
    exact ⟨hclosed, by rw [hended, Bool.true_or]⟩

/-- A reason is recorded by a move: it is the main task that records its own, or another task is
before it. -/
def Decides (c c' : Course) : Prop :=
  ∃ reason, c'.link.transport.reason = some reason ∧
    (c'.link.main.Recorded = true ∧ c.Gives reason ∨
      c'.link.main.Recorded = false ∧ c.Forestalls reason)

/-- **Before a reason is recorded**, a move that does not force the end records none, or one that
there is a cause for. -/
theorem Undecided.move (h : c.Undecided) (ht : c.Tracks format limit thresholds received used g)
    (hmove : c.move? m = some c') (hunforced : c'.forces m = false) :
    c'.Undecided ∨ c.Decides c' := by
  obtain ⟨-, l', hl', rfl⟩ := move_eq hmove
  have hlasts := Link.move_lasts hl'
  have haside : (∀ choice, m ≠ .main choice) → m ≠ .start → l'.main = c.link.main :=
    fun hmain hstart => (Link.move_aside hmain hstart hl').1.main_eq
  have hbefore : l'.main = c.link.main → l'.main.Recorded = false := fun hmain =>
    hmain ▸ h.unrecorded
  have hsame : c.link.Incoming (c.ended || false) := by
    rw [Bool.or_false]
    exact h.incoming
  cases m with
  | main choice =>
      cases choice with
      | work =>
          cases hrecorded : l'.main.Recorded with
          | false => exact .inl (h.works ht hl' hrecorded)
          | true =>
              obtain ⟨reason, hreason, hgives⟩ := h.records (Link.works_of_workMain hl') hrecorded
              exact .inr ⟨reason, hreason, .inl ⟨hrecorded, hgives⟩⟩
      | stop => exact .inl (h.stops ht hl')
  | start =>
      cases hl'
      exact .inl h.start
  | writer choice =>
      have hmain := haside (fun _ => Move.noConfusion) Move.noConfusion
      have hwrites := Link.writes_of_stepWriter hl'
      obtain ⟨hstream, hinput⟩ := hwrites.sparesStream
      exact .inl (h.aside hl' hmain hwrites.sparesEnd (h.outgoing.writes hwrites)
        (hsame.spares hstream hinput hmain))
  | receiver choice most =>
      have hmain := haside (fun _ => Move.noConfusion) Move.noConfusion
      obtain hundecided | ⟨reason, hreason, hforestalls⟩ := h.fetches hl'
      · exact .inl hundecided
      · exact .inr ⟨reason, hreason, .inr ⟨hbefore hmain, hforestalls⟩⟩
  | sender choice most =>
      have hmain := haside (fun _ => Move.noConfusion) Move.noConfusion
      obtain ⟨-, -, hsound⟩ := sound_of_unforced hunforced (hbefore hmain)
      obtain hundecided | ⟨reason, hreason, hforestalls⟩ := h.delivers hl' hsound
      · exact .inl hundecided
      · exact .inr ⟨reason, hreason, .inr ⟨hbefore hmain, hforestalls⟩⟩
  | job number =>
      have hmain := haside (fun _ => Move.noConfusion) Move.noConfusion
      obtain ⟨houtput, hstream, hinput⟩ := Link.stepJob_spares hl'
      exact .inl (h.aside hl' hmain (.of_eq (Link.transport_stepJob hl'))
        (h.outgoing.spares houtput hlasts) (hsame.spares hstream hinput hmain))
  | call command =>
      cases hl'
      have haccepting := (c.link.connection.perform_grows command).accepting
      exact .inl (h.aside rfl rfl (.of_eq rfl)
        (h.outgoing.spares ⟨haccepting, rfl, rfl, rfl⟩ hlasts)
        (hsame.spares ⟨rfl, rfl, rfl, rfl, rfl⟩ rfl rfl))
  | elapse n =>
      cases hl'
      exact .inl (h.aside rfl rfl (.of_eq rfl) (h.outgoing.spares ⟨rfl, rfl, rfl, rfl⟩ hlasts)
        (hsame.spares ⟨rfl, rfl, rfl, rfl, rfl⟩ rfl rfl))
  | arrive bs | depart most =>
      cases hl'
      exact .inl (h.wire rfl rfl (Bool.or_false _).symm)
  | endArriving | abandon =>
      cases hl'
      exact .inl (h.wire rfl rfl (Bool.or_true _).symm)
  | record reason | shutDown reason =>
      have hmain := haside (fun _ => Move.noConfusion) Move.noConfusion
      obtain ⟨hrecord, hshutDown⟩ := (sound_of_unforced hunforced (hbefore hmain)).1 reason
      first | exact absurd rfl hrecord | exact absurd rfl hshutDown
  | failRead fault | failWrite fault =>
      have hmain := haside (fun _ => Move.noConfusion) Move.noConfusion
      obtain ⟨hread, hwrite⟩ := (sound_of_unforced hunforced (hbefore hmain)).2.1 fault
      first | exact absurd rfl hread | exact absurd rfl hwrite

end Verdict

/-! ## 4. A whole run -/

section Run

variable {R : Course → Prop} {format : WireFormat} {limit : Nat} {thresholds : Thresholds}
variable {c c' : Course} {m : Move} {reason : CloseReason}

theorem exit_of_move {cause : Option Fault} (hmove : c.move? m = some c')
    (hexit : c.exit = some cause) : c'.exit = some cause := by
  obtain ⟨-, l', -, rfl⟩ := move_eq hmove
  simp [Course.follow, hexit]

/-- What the main task has chosen stays. -/
theorem Chosen.move (h : c.Chosen R reason) (hmove : c.move? m = some c') :
    c'.Chosen R reason := by
  obtain ⟨before, hbefore, hexit, hgives⟩ := h.gives
  have hexit' : before.exit = c'.exit := by
    obtain ⟨cause, hcause⟩ : ∃ cause, before.exit = some cause := by
      cases hgives with
      | fault exit | asked exit | ended exit => exact ⟨_, exit⟩
    rw [exit_of_move hmove (hexit.symm.trans hcause), hcause]
  obtain ⟨-, l', hl', rfl⟩ := move_eq hmove
  exact ⟨Link.move_recorded hl' h.recorded, Link.move_remembers hl' reason h.reason_eq,
    before, hbefore, hexit', hgives⟩

/-- So does what another task has recorded. -/
theorem Forestalled.move (h : c.Forestalled R reason) (hmove : c.move? m = some c') :
    c'.Forestalled R reason := by
  obtain ⟨before, hbefore, hforestalls, hended⟩ := h.cause
  obtain ⟨-, l', hl', rfl⟩ := move_eq hmove
  refine ⟨Link.move_remembers hl' reason h.reason_eq, before, hbefore, hforestalls,
    fun hbegan => ?_⟩
  simp [Course.follow, hended hbegan]

/-- A course is on its tracks, and it is known what has become of the reason. -/
structure Judged (R : Course → Prop) (format : WireFormat) (limit : Nat) (thresholds : Thresholds)
    (c : Course) : Prop where
  tracks : ∃ received used g, c.Tracks format limit thresholds received used g
  state : c.Undecided ∧ R c ∨ ∃ reason, c.Chosen R reason ∨
    c.Forestalled R reason

theorem undecided_new (setup : LinkSetup) (id peer : String) (limit : Nat)
    (input output : Thresholds) (capacity : Nat) :
    (new setup id peer limit input output capacity).Undecided where
  reason := rfl
  begun := rfl
  stopped := rfl
  unrecorded := rfl
  unstarted _ := rfl
  outgoing :=
    { writer := fun hleaves => absurd trivial hleaves
      sender := fun hends => absurd trivial hends
      completed := fun hcompleted => by cases hcompleted
      dropped := fun hreader => by cases hreader
      sound := rfl
      read := rfl
      flush := rfl }
  incoming :=
    { read := rfl
      flush := rfl
      taken := fun _ => rfl
      fault := rfl
      ended_eq := rfl
      done := fun hdone => absurd hdone (Link.not_done_first _)
      own := fun reason hleaving => by
        have hfirst : ReceiverStage.first setup.carriage = .leaving (some reason) := hleaving
        exact absurd (by rw [hfirst]; trivial) (Link.not_done_first setup.carriage)
      completed := fun hcompleted => by cases hcompleted
      last := fun _ hportion => by cases hportion }
  causes := trivial

/-- What a move that decides leaves behind. -/
theorem Decides.state (h : c.Decides c') (hmove : c.move? m = some c') (hrule : R c) :
    ∃ reason, c'.Chosen R reason ∨ c'.forestalled = true ∧ c'.Forestalled R reason := by
  obtain ⟨reason, hreason, ⟨hrecorded, hgives⟩ | ⟨hunrecorded, hforestalls⟩⟩ := h
  · have hexit : c.exit = c'.exit := by
      cases hgives with
      | fault exit | asked exit | ended exit => rw [exit_of_move hmove exit, exit]
    exact ⟨reason, .inl ⟨hrecorded, hreason, c, hrule, hexit, hgives⟩⟩
  · refine ⟨reason, .inr ⟨by simp [forestalled, hunrecorded, hreason], hreason, c, hrule,
      hforestalls, fun hended => ?_⟩⟩
    obtain ⟨-, l', -, rfl⟩ := move_eq hmove
    simp [Course.follow, hended]

theorem Judged.move (h : c.Judged R format limit thresholds) (hmove : c.move? m = some c')
    (hunforced : c'.forces m = false) (hrule : c'.link.main.Recorded = false → R c') :
    c'.Judged R format limit thresholds := by
  obtain ⟨⟨received, used, g, ht⟩, ⟨hundecided, hR⟩ | ⟨reason, hchosen | hforestalled⟩⟩ := h
  · refine ⟨ht.move hmove, ?_⟩
    obtain hundecided | hdecides := hundecided.move ht hmove hunforced
    · exact .inl ⟨hundecided, hrule hundecided.unrecorded⟩
    · obtain ⟨reason, hchosen | ⟨-, hforestalled⟩⟩ := hdecides.state hmove hR
      · exact .inr ⟨reason, .inl hchosen⟩
      · exact .inr ⟨reason, .inr hforestalled⟩
  · exact ⟨ht.move hmove, .inr ⟨reason, .inl (hchosen.move hmove)⟩⟩
  · exact ⟨ht.move hmove, .inr ⟨reason, .inr (hforestalled.move hmove)⟩⟩

section Rule

variable (setup : LinkSetup) (id peer : String) (limit : Nat) (input output : Thresholds)
variable (capacity : Nat) {moves : List Move} {p : Move → Course → Bool}

/-- **If no other task is before it, the main task's reason counts**, in every run that is not
forced to its end, and is as `R` says until a reason is recorded. -/
theorem chosen_of_run (hnew : R (new setup id peer limit input output capacity))
    (hp : ∀ m c, p m c = true → c.forces m = false ∧ (c.link.main.Recorded = false → R c))
    (hrun : (new setup id peer limit input output capacity).run? moves = some c)
    (hkeeps : (new setup id peer limit input output capacity).keeps p moves = true)
    (hfirst : (new setup id peer limit input output capacity).keeps
      (fun _ c => !c.forestalled) moves = true) :
    c.Undecided ∨ ∃ reason, c.Chosen R reason := by
  have hkept := invariant_of_keeps (P := fun c =>
      (∃ received used g, c.Tracks setup.format limit input received used g) ∧
        (c.Undecided ∧ R c ∨ ∃ reason, c.Chosen R reason))
    (fun ⟨⟨received, used, g, ht⟩, hstate⟩ hmove hkeeps => ?_)
    ⟨⟨[], [], {}, tracks_new setup id peer limit input output capacity⟩,
      .inl ⟨undecided_new setup id peer limit input output capacity, hnew⟩⟩
    hrun (keeps_and hkeeps hfirst)
  · exact hkept.2.imp_left And.left
  · refine ⟨ht.move hmove, ?_⟩
    simp only [Bool.and_eq_true, Bool.not_eq_true'] at hkeeps
    obtain ⟨hp', hfirst⟩ := hkeeps
    obtain ⟨hunforced, hrule⟩ := hp _ _ hp'
    obtain ⟨hundecided, hR⟩ | ⟨reason, hchosen⟩ := hstate
    · obtain hundecided | hdecides := hundecided.move ht hmove hunforced
      · exact .inl ⟨hundecided, hrule hundecided.unrecorded⟩
      · obtain ⟨reason, hchosen | ⟨hbefore, -⟩⟩ := hdecides.state hmove hR
        · exact .inr ⟨reason, hchosen⟩
        · cases hfirst.symm.trans hbefore
    · exact .inr ⟨reason, hchosen.move hmove⟩

/-- **If another task is before it, that one's reason counts**: the connection was asked to end and
the sender has ended, or the stream has ended. -/
theorem forestalled_of_run (hnew : R (new setup id peer limit input output capacity))
    (hp : ∀ m c, p m c = true → c.forces m = false ∧ (c.link.main.Recorded = false → R c))
    (hrun : (new setup id peer limit input output capacity).run? moves = some c)
    (hkeeps : (new setup id peer limit input output capacity).keeps p moves = true)
    (hnotfirst : (new setup id peer limit input output capacity).keeps
      (fun _ c => !c.forestalled) moves = false) : ∃ reason, c.Forestalled R reason := by
  refine eventually_of_not_keeps (P := Judged R setup.format limit input)
    (Q := fun c => ∃ reason, c.Forestalled R reason)
    (fun h hmove hkeeps => h.move hmove (hp _ _ hkeeps).1 (hp _ _ hkeeps).2) (fun h hnow => ?_)
    (fun ⟨reason, h⟩ hmove => ⟨reason, h.move hmove⟩)
    ⟨⟨[], [], {}, tracks_new setup id peer limit input output capacity⟩,
      .inl ⟨undecided_new setup id peer limit input output capacity, hnew⟩⟩
    hrun hkeeps hnotfirst
  obtain ⟨hunrecorded, hreason⟩ : _ ∧ _ := by simpa [forestalled] using hnow
  obtain ⟨hundecided, -⟩ | ⟨reason, hchosen | hforestalled⟩ := h.state
  · rw [hundecided.reason] at hreason
    cases hreason
  · cases hunrecorded.symm.trans hchosen.recorded
  · exact ⟨reason, hforestalled⟩

end Rule

end Run

end Course

end Courier
