import Courier.Proofs.Link.Readings
import Courier.Proofs.Link.Verdict

/-!
Courier.Proofs.Link.Closing — what is reported as the reason for the end.

The reason that the main task comes to is the right one: the violation that it has found
(`Course.violation_of_run`), or that the end was asked for (`Course.disconnect_of_run`). It is not
always the one that is reported, as another task may record a reason before it, and as a handshake
that is asked to end before it has sent its messages fails for that.
-/

namespace Courier

/-! ## 1. The way to a reason -/

namespace Link

variable {l : Link}

/-- The main task has recorded a reason. -/
def Records (l : Link) : Prop :=
  l.main.Recorded = true

theorem reaches_of_recording {reason : CloseReason} (hstage : l.main = .recording reason) :
    l.Reaches Records := by
  have hwork : l.workMain = some { l with
      transport := l.transport.record reason, main := .cutting reason } := by
    simp [workMain, hstage]
  exact .next hwork (.here rfl)

theorem reaches_of_notifying {reason : CloseReason} (hstage : l.main = .notifying reason) :
    l.Reaches Records := by
  have hwork : l.workMain = some { l.tell .closing with main := .recording reason } := by
    simp [workMain, hstage]
  exact .next hwork (reaches_of_recording rfl)

theorem reaches_of_concluding {cause : Option Fault} (hstage : l.main = .concluding cause) :
    l.Reaches Records := by
  have hwork : l.workMain = some { l.enter .closing with
      main := .notifying (l.closeReason cause) } := by
    simp [workMain, hstage]
  exact .next hwork (reaches_of_notifying rfl)

theorem reaches_of_leaving {cause : Option Fault} (hstage : l.main = .leaving cause) :
    l.Reaches Records := by
  have hwork : l.workMain = some { l.dropInput with main := .concluding cause } := by
    simp [workMain, hstage]
  exact .next hwork (reaches_of_concluding rfl)

/-- **Once it takes no more input, the main task records a reason by itself.** -/
theorem Sane.reaches_of_left (h : l.Sane) (hleft : l.main.Takes = false) : l.Reaches Records := by
  cases hstage : l.main with
  | leaving cause => exact reaches_of_leaving hstage
  | concluding cause => exact reaches_of_concluding hstage
  | notifying reason => exact reaches_of_notifying hstage
  | recording reason => exact reaches_of_recording hstage
  | crashed misuse => exact absurd hstage (h.ne_crashed misuse)
  | unstarted | opening | marking _ | showing _ | telling _ | waiting _ | examining _ | reading _
    | handling _ _ | settling _ =>
      rw [hstage] at hleft
      cases hleft
  | _ => exact .here (by rw [Records, hstage]; rfl)

end Link

namespace Course

section Progress

variable {c c' c'' : Course} {moves moves' : List Move}

theorem run?_append (hrun : c.run? moves = some c') (hrun' : c'.run? moves' = some c'') :
    c.run? (moves ++ moves') = some c'' := by
  induction moves generalizing c with
  | nil =>
      cases hrun
      exact hrun'
  | cons m moves ih =>
      simp only [run?] at hrun
      split at hrun
      · cases hrun
      · next hmove =>
        simp only [List.cons_append, run?, hmove]
        exact ih hrun

variable {setup : LinkSetup} {id : String} {limit : Nat} {thresholds : Thresholds} {stream : Bytes}

theorem Attends.run (h : c.Attends setup id limit thresholds stream)
    (hfits : setup.Fits limit stream) (hrun : c.run? moves = some c') :
    c'.Attends setup id limit thresholds stream :=
  invariant_run (fun h hmove => h.move hfits hmove) h hrun

theorem Attends.exit_of_recorded (h : c.Attends setup id limit thresholds stream)
    (hrecorded : c.link.main.Recorded = true) : ∃ cause, c.exit = some cause := by
  obtain ⟨received, used, g, ht⟩ := h.tracks
  refine Option.isSome_iff_exists.mp ?_
  rw [ht.exit, Bool.not_eq_true']
  refine Bool.eq_false_iff.mpr fun htakes => ?_
  cases (MainStage.not_recorded_of_takes htakes).symm.trans hrecorded

/-- Once it takes no more input, the main task records a reason by itself. -/
theorem Attends.records_of_left (h : c.Attends setup id limit thresholds stream)
    (hleft : c.link.main.Takes = false) :
    ∃ n c', c.run? (List.replicate n (.main .work)) = some c' ∧ c'.link.main.Recorded = true := by
  obtain ⟨n, c', hrun, -, hrecorded⟩ := run_of_reaches (h.ages.sane.reaches_of_left hleft)
  exact ⟨n, c', hrun, hrecorded⟩

/-- **When all of a stream with a fault was handed over, the main task records a reason by
itself.** -/
theorem Attends.records_of_faulty (h : c.Attends setup id limit thresholds stream)
    (hfits : setup.Fits limit stream) (hne : stream ≠ [])
    (hfaulty : ∀ frames, ¬ setup.Reads limit stream frames none)
    (hstarted : c.link.main ≠ .unstarted) (hall : c.arrived = stream)
    (harriving : c.link.wire.arriving = []) (hbehind : c.link.transport.input.behind = []) :
    ∃ n c', c.run? (List.replicate n (.main .work)) = some c' ∧ c'.link.main.Recorded = true := by
  obtain ⟨received, used, g, ht⟩ := h.tracks
  obtain ⟨n, c₁, hrun, harrived, hrests⟩ := ht.rests hstarted harriving hbehind
  have h₁ := h.run hfits hrun
  obtain hdrained | hleft := hrests
  · obtain ⟨rfl, -, rfl, -, ⟨received, used, g, ht⟩, hparleys, -⟩ := h₁
    have hexit := ht.exit_eq_none (by rw [hdrained.main]; rfl)
    refine absurd (hparleys.reads_of_exhausted ht (ht.exhausted hdrained) (harrived.trans hall) hne
      (by rw [hdrained.main]; trivial) fun fault hfault => ?_) (hfaulty _)
    cases hexit.symm.trans hfault
  · obtain ⟨k, c₂, hrun', hrecorded⟩ := h₁.records_of_left hleft
    have hall := run?_append hrun hrun'
    rw [List.replicate_append_replicate] at hall
    exact ⟨n + k, c₂, hall, hrecorded⟩

/-- **When the end was asked for, the main task records a reason by itself** once all that arrived
was handed over. -/
theorem Attends.records_of_cancelled (h : c.Attends setup id limit thresholds stream)
    (hfits : setup.Fits limit stream) (hcancelled : c.link.connection.cancelled = true)
    (hstarted : c.link.main ≠ .unstarted) (harriving : c.link.wire.arriving = [])
    (hbehind : c.link.transport.input.behind = []) :
    ∃ moves c', (∀ m ∈ moves, ∃ choice, m = .main choice) ∧ c.run? moves = some c' ∧
      c'.link.main.Recorded = true := by
  have hmain : ∀ {n : Nat}, ∀ m ∈ List.replicate n (Move.main .work), ∃ choice, m = .main choice :=
    fun m hm => ⟨.work, List.eq_of_mem_replicate hm⟩
  obtain ⟨received, used, g, ht⟩ := h.tracks
  obtain ⟨n, c₁, hrun, -, hrests⟩ := ht.rests hstarted harriving hbehind
  have h₁ := h.run hfits hrun
  have hcancelled₁ : c₁.link.connection.cancelled = true :=
    invariant_run (P := fun c => c.link.connection.cancelled = true) (fun hcancelled hmove => by
      obtain ⟨-, l', hl', rfl⟩ := move_eq hmove
      exact Link.move_lasts hl' hcancelled) hcancelled hrun
  obtain hdrained | hleft := hrests
  · obtain ⟨c₂, hstop, hleft⟩ : ∃ c₂, c₁.run? [.main .stop] = some c₂ ∧
        c₂.link.main.Takes = false := by
      have hwork : c₁.link.move? (.main .stop) = some { c₁.link.setInput c₁.link.memory
          c₁.link.transport.input.abandonRead with main := .leaving none } := by
        simp [Link.move?, Link.stepMain, Link.stopMain, hdrained.main, hcancelled₁,
          ReadStage.interruptible]
      exact ⟨_, by simp [run?, move?, permits, hwork]; rfl, rfl⟩
    obtain ⟨k, c₃, hrun', hrecorded⟩ := (h₁.run hfits hstop).records_of_left hleft
    refine ⟨_, c₃, fun m hm => ?_, run?_append hrun (run?_append hstop hrun'), hrecorded⟩
    obtain hm | hm := List.mem_append.mp hm
    · exact hmain m hm
    · obtain rfl | hm := List.mem_cons.mp hm
      · exact ⟨.stop, rfl⟩
      · exact hmain m hm
  · obtain ⟨k, c₂, hrun', hrecorded⟩ := h₁.records_of_left hleft
    refine ⟨_, c₂, fun m hm => ?_, run?_append hrun hrun', hrecorded⟩
    obtain hm | hm := List.mem_append.mp hm <;> exact hmain m hm

end Progress

/-! ## 2. A violation -/

section Violation

variable {c c' : Course} {m : Move} {moves : List Move}

/-- Until the main task has recorded a reason, its end is not forced, and nobody asks for it. -/
def unasked (m : Move) (c : Course) : Bool :=
  !c.forces m && (c.link.main.Recorded || !c.link.connection.cancelled)

theorem unasked_eq (h : c.unasked m = true) : c.forces m = false ∧
    (c.link.main.Recorded = false → c.link.connection.cancelled = false) := by
  unfold unasked at h
  rw [Bool.and_eq_true, Bool.not_eq_true', Bool.or_eq_true, Bool.not_eq_true'] at h
  refine ⟨h.1, fun hbefore => h.2.resolve_left fun hrecorded => ?_⟩
  cases hbefore.symm.trans hrecorded

/-- Then nothing gets in its way. -/
theorem clear_of_unasked (hclear : c.disturbed = false) (hmove : c.move? m = some c')
    (hunasked : c'.unasked m = true) : c'.disturbed = false := by
  obtain ⟨-, l', -, rfl⟩ := move_eq hmove
  refine Bool.or_eq_false_iff.mpr ⟨hclear, ?_⟩
  unfold Link.disturbs
  cases htakes : l'.main.Takes with
  | false => rfl
  | true =>
      have hbefore : l'.main.Recorded = false := MainStage.not_recorded_of_takes htakes
      obtain ⟨hunforced, huncancelled⟩ := unasked_eq hunasked
      obtain ⟨houtside, hfaults, hsound⟩ := sound_of_unforced hunforced hbefore
      have hcancelled : l'.connection.cancelled = false := huncancelled hbefore
      have hfailing : l'.sender.failing = false := hsound
      cases m with
      | shutDown reason => exact absurd rfl (houtside reason).2
      | failRead fault => exact absurd rfl (hfaults fault).1
      | _ => simp [hcancelled, hfailing]

/-- **A violation is reported, if nobody is before the main task.** Whatever the parts in which a
stream comes in, if it comes to some frames and a violation behind them, if the end is not forced,
and if nobody asks for it: no other frames are dispatched, and when the main task has recorded a
reason, all of these were, and the reason is this violation, or the end of the stream if that was
recorded before. That it comes to this takes nobody but the main task, once all of the stream was
handed over to it. -/
theorem violation_of_run (setup : LinkSetup) (id peer : String) (limit : Nat)
    (input output : Thresholds) (capacity : Nat) {stream : Bytes} {frames : List Frame}
    {violation : Violation} (hne : stream ≠ [])
    (hreads : ∀ found stopped, setup.Reads limit stream found stopped →
      found = frames ∧ stopped = some (.violation violation))
    (hfits : setup.Fits limit stream)
    (hrun : (new setup id peer limit input output capacity).run? moves = some c)
    (hfront : c.arrived <+: stream) (hended : c.ended = true → c.arrived = stream)
    (hunasked : (new setup id peer limit input output capacity).keeps
      (fun m c => c.unasked m) moves = true) :
    c.link.heard <+: frames ∧
    (c.link.main.Recorded = true → c.link.heard = frames ∧
      ((new setup id peer limit input output capacity).keeps
          (fun _ c => !c.forestalled) moves = true →
        c.link.transport.reason = some (.violation violation.message)) ∧
      ((new setup id peer limit input output capacity).keeps
          (fun _ c => !c.forestalled) moves = false →
        c.link.transport.reason = some .peerClosed ∧ c.ended = true)) ∧
    (c.link.main ≠ .unstarted → c.arrived = stream → c.link.wire.arriving = [] →
      c.link.transport.input.behind = [] →
      ∃ n c', c.run? (List.replicate n (.main .work)) = some c' ∧
        c'.link.main.Recorded = true) := by
  have h := (attends_new setup id peer limit input output capacity stream).run hfits hrun
  have hclear : c.disturbed = false := invariant_of_keeps (P := fun c => c.disturbed = false)
    clear_of_unasked rfl hrun hunasked
  refine ⟨?_, fun hrecorded => ?_, fun hstarted hall harriving hbehind => ?_⟩
  · obtain hnone | ⟨found, stopped, hfound, hheard⟩ := h.heard_front hfront
    · rw [hnone]
      exact List.nil_prefix
    · obtain ⟨rfl, -⟩ := hreads _ _ hfound
      exact hheard
  · obtain ⟨cause, hexit⟩ := h.exit_of_recorded hrecorded
    obtain ⟨hheard, rfl⟩ := hreads _ _ (h.reads_of_exit hclear hfront hended hne hexit)
    refine ⟨hheard, fun hfirst => ?_, fun hnotfirst => ?_⟩
    · obtain hundecided | ⟨reason, hchosen⟩ :=
        chosen_of_run (R := fun c => c.link.connection.cancelled = false) setup id peer limit input
          output capacity rfl (fun m c => unasked_eq) hrun hunasked hfirst
      · cases hundecided.unrecorded.symm.trans hrecorded
      · obtain ⟨before, -, hsame, hgives⟩ := hchosen.gives
        rw [hchosen.reason_eq]
        cases hgives with
        | fault exit =>
            cases (exit.symm.trans hsame).trans hexit
            rfl
        | asked exit | ended exit => cases (exit.symm.trans hsame).trans hexit
    · obtain ⟨reason, hforestalled⟩ :=
        forestalled_of_run (R := fun c => c.link.connection.cancelled = false) setup id peer limit
          input output capacity rfl (fun m c => unasked_eq) hrun hunasked hnotfirst
      obtain ⟨before, huncancelled, ⟨-, hcancelled⟩ | ⟨rfl, hbefore⟩, hlasts⟩ := hforestalled.cause
      · cases huncancelled.symm.trans hcancelled
      · exact ⟨hforestalled.reason_eq, hlasts hbefore⟩
  · exact h.records_of_faulty hfits hne (fun found hnone => by cases (hreads _ _ hnone).2) hstarted
      hall harriving hbehind

/-- A frame, and an identifier of 4096 bytes announced behind it. -/
def longName : Bytes :=
  [0, 0, 0, 1, 97, 0, 0, 0, 1, 1, 0, 0, 16, 0]

/-- A stream comes in, and perhaps its end; it is received in some steps, and then worked off. -/
def receiveMoves (stream : Bytes) (ends : List Move) (steps : Nat) : List Move :=
  .start :: List.replicate 4 (.main .work) ++ .arrive stream :: ends ++
    List.replicate steps (.receiver .work 2048) ++ List.replicate 7 (.main .work)

theorem reads_longName (found : List Frame) (stopped : Option Fault)
    (h : LinkSetup.Reads {} 256 longName found stopped) :
    found = [.received "a" [1]] ∧ stopped = some (.violation (.identifierLength 4096 512)) := by
  obtain ⟨hfound, hstopped⟩ := h.of_instant rfl
  rw [hfound, hstopped]
  decide +kernel

theorem violation_of_longName : ∃ c,
    (new {} "near" "far" 256 {} {} 64).run? (receiveMoves longName [] 4) = some c ∧
      c.link.heard = [.received "a" [1]] ∧
      c.link.transport.reason =
        some (.violation "identifier length 4096 exceeds the maximum of 512") := by
  have hseen : ((new {} "near" "far" 256 {} {} 64).run? (receiveMoves longName [] 4)).map
      (fun c => (c.arrived, c.ended, c.link.main.Recorded)) = some (longName, false, true) := by
    decide +kernel
  obtain ⟨c, hrun, hc⟩ := Option.map_eq_some_iff.mp hseen
  simp only [Prod.mk.injEq] at hc
  obtain ⟨harrived, hended, hrecorded⟩ := hc
  obtain ⟨-, hreason, -⟩ := violation_of_run {} "near" "far" 256 {} {} 64 (by decide) reads_longName
    (LinkSetup.fits_of_instant rfl) hrun (harrived ▸ List.prefix_refl _)
    (fun hends => by cases hended.symm.trans hends) (by decide +kernel)
  obtain ⟨hheard, hfirst, -⟩ := hreason hrecorded
  exact ⟨c, hrun, hheard, hfirst (by decide +kernel)⟩

/-- If the peer closes its side right behind the violation, and the receiver finds the end of the
stream before the main task has read what came before it, the violation is found, but not
reported. -/
theorem peerClosed_of_longName : ∃ c,
    (new {} "near" "far" 256 {} {} 64).run? (receiveMoves longName [.endArriving] 7) = some c ∧
      (new {} "near" "far" 256 {} {} 64).keeps unasked
        (receiveMoves longName [.endArriving] 7) = true ∧
      c.arrived = longName ∧ c.link.main.Recorded = true ∧
      c.exit = some (some (.violation (.identifierLength 4096 512))) ∧
      c.link.transport.reason = some .peerClosed := by
  have hseen : ((new {} "near" "far" 256 {} {} 64).run?
      (receiveMoves longName [.endArriving] 7)).map (fun c =>
        (c.arrived, c.link.main.Recorded, c.exit, c.link.transport.reason)) =
      some (longName, true, some (some (.violation (.identifierLength 4096 512))),
        some .peerClosed) := by
    decide +kernel
  obtain ⟨c, hrun, hc⟩ := Option.map_eq_some_iff.mp hseen
  simp only [Prod.mk.injEq] at hc
  obtain ⟨harrived, hrecorded, hexit, hreason⟩ := hc
  exact ⟨c, hrun, by decide +kernel, harrived, hrecorded, hexit, hreason⟩

end Violation

/-! ## 3. A request to end -/

section Disconnect

variable {c c' : Course} {m : Move} {moves : List Move}

/-- Until the main task has recorded a reason, its end is not forced, and the peer keeps its side
open. -/
def unended (m : Move) (c : Course) : Bool :=
  !c.forces m && (c.link.main.Recorded || !c.ended)

theorem unended_eq (h : c.unended m = true) :
    c.forces m = false ∧ (c.link.main.Recorded = false → c.ended = false) := by
  unfold unended at h
  rw [Bool.and_eq_true, Bool.not_eq_true', Bool.or_eq_true, Bool.not_eq_true'] at h
  refine ⟨h.1, fun hbefore => h.2.resolve_left fun hrecorded => ?_⟩
  cases hbefore.symm.trans hrecorded

/-- **A disconnect is reported as such, if nobody is before the main task and the handshake has no
message left to send.** Whatever the parts in which a stream without a fault comes in, if the end is
not forced, and the peer keeps its side open: when the main task has recorded a reason, it is the
local disconnect, but for two cases. If the sender was at its end before that, the reason is the end
of the sending; and if the handshake was still to send a message, it is that this was refused. That
it comes to a reason takes nobody but the main task, once the end was asked for and all that has
arrived was handed over to it. -/
theorem disconnect_of_run (setup : LinkSetup) (id peer : String) (limit : Nat)
    (input output : Thresholds) (capacity : Nat) {stream : Bytes}
    (hreads : ∀ found stopped, setup.Reads limit stream found stopped → stopped = none)
    (hfits : setup.Fits limit stream)
    (hrun : (new setup id peer limit input output capacity).run? moves = some c)
    (hfront : c.arrived <+: stream)
    (hunended : (new setup id peer limit input output capacity).keeps unended moves = true) :
    (c.link.main.Recorded = true →
      ((new setup id peer limit input output capacity).keeps
          (fun _ c => !c.forestalled) moves = true →
        c.exit = some none ∧ c.link.transport.reason = some .localDisconnect ∨
        c.exit = some (some (.refused (.connectionClosed id))) ∧
          c.link.connection.handshaked = false ∧
          c.link.transport.reason = some (.unexpected s!"connection {id} is closed")) ∧
      ((new setup id peer limit input output capacity).keeps
          (fun _ c => !c.forestalled) moves = false →
        c.link.transport.reason = some .sendingEnded)) ∧
    (c.link.connection.cancelled = true → c.link.main ≠ .unstarted → c.link.wire.arriving = [] →
      c.link.transport.input.behind = [] →
      ∃ more c', (∀ m ∈ more, ∃ choice, m = .main choice) ∧ c.run? more = some c' ∧
        c'.link.main.Recorded = true) := by
  have h := (attends_new setup id peer limit input output capacity stream).run hfits hrun
  refine ⟨fun hrecorded => ⟨fun hfirst => ?_, fun hnotfirst => ?_⟩,
    fun hcancelled hstarted harriving hbehind =>
      h.records_of_cancelled hfits hcancelled hstarted harriving hbehind⟩
  · obtain hundecided | ⟨reason, hchosen⟩ :=
      chosen_of_run (R := fun c => c.ended = false) setup id peer limit input output capacity rfl
        (fun m c => unended_eq) hrun hunended hfirst
    · cases hundecided.unrecorded.symm.trans hrecorded
    · obtain ⟨before, hopen, hsame, hgives⟩ := hchosen.gives
      rw [hchosen.reason_eq]
      cases hgives with
      | fault exit =>
          have hexit := hsame.symm.trans exit
          obtain hfault | ⟨rfl, hmark, -⟩ := h.fault hfront _ hexit
          · cases hreads _ _ hfault
          · exact .inr ⟨hexit, hmark, rfl⟩
      | asked exit => exact .inl ⟨hsame.symm.trans exit, rfl⟩
      | ended exit hended => cases hopen.symm.trans hended
  · obtain ⟨reason, hforestalled⟩ :=
      forestalled_of_run (R := fun c => c.ended = false) setup id peer limit input output capacity
        rfl (fun m c => unended_eq) hrun hunended hnotfirst
    obtain ⟨before, hopen, ⟨rfl, -⟩ | ⟨-, hended⟩, -⟩ := hforestalled.cause
    · exact hforestalled.reason_eq
    · cases hopen.symm.trans hended

/-- A frame is received and worked off, a disconnect is requested, and the main task stops
waiting. -/
def disconnectMoves : List Move :=
  .start :: List.replicate 4 (.main .work) ++ .arrive [0, 0, 0, 1, 97, 0, 0, 0, 1, 1] ::
    List.replicate 4 (.receiver .work 2048) ++ List.replicate 6 (.main .work) ++
    .call .disconnect :: .main .stop :: List.replicate 4 (.main .work)

theorem disconnect_of_quiet : ∃ c,
    (new {} "near" "far" 256 {} {} 64).run? disconnectMoves = some c ∧
      c.link.heard = [.received "a" [1]] ∧
      c.link.transport.reason = some .localDisconnect := by
  have hseen : ((new {} "near" "far" 256 {} {} 64).run? disconnectMoves).map (fun c =>
      (c.arrived, c.link.heard, c.link.main.Recorded, c.link.connection.handshaked)) =
      some ([0, 0, 0, 1, 97, 0, 0, 0, 1, 1], [.received "a" [1]], true, true) := by
    decide +kernel
  obtain ⟨c, hrun, hc⟩ := Option.map_eq_some_iff.mp hseen
  simp only [Prod.mk.injEq] at hc
  obtain ⟨harrived, hheard, hrecorded, hmark⟩ := hc
  have hreads : ∀ found stopped,
      LinkSetup.Reads {} 256 [0, 0, 0, 1, 97, 0, 0, 0, 1, 1] found stopped → stopped = none := by
    intro found stopped h
    obtain ⟨-, hstopped⟩ := h.of_instant rfl
    rw [hstopped]
    decide +kernel
  obtain ⟨hreason, -⟩ := disconnect_of_run {} "near" "far" 256 {} {} 64 hreads
    (LinkSetup.fits_of_instant rfl) hrun (harrived ▸ List.prefix_refl _) (by decide +kernel)
  obtain ⟨-, hlocal⟩ | ⟨-, hunmarked, -⟩ := (hreason hrecorded).1 (by decide +kernel)
  · exact ⟨c, hrun, hheard, hlocal⟩
  · cases hunmarked.symm.trans hmark

/-- A client with a handshake that begins with a request. -/
def askingClient : Course :=
  new { handshake := .upgradeClient "far" "/" "k", format := .webSocket } "near" "far" 256 {} {} 64

/-- Asked to end before it is started, the client cannot send its request any more. -/
def refusedMoves : List Move :=
  .call .disconnect :: .start :: List.replicate 5 (.main .work)

/-- Asked to end while it waits, the connection's writer and sender are done before the main
task. -/
def overtakenMoves : List Move :=
  .start :: List.replicate 4 (.main .work) ++ .call .disconnect :: .writer .stop ::
    List.replicate 2 (.writer .work) ++ List.replicate 5 (.sender .work 2048) ++
    .main .stop :: List.replicate 4 (.main .work)

/-- A disconnect that was the first cause of the end is reported as an error, or as the end of the
sending. -/
theorem disconnect_not_reported :
    (∃ c, askingClient.run? refusedMoves = some c ∧ askingClient.keeps unended refusedMoves = true ∧
      c.arrived = [] ∧ c.link.main.Recorded = true ∧
      c.link.transport.reason = some (.unexpected "connection near is closed")) ∧
    ∃ c, (new {} "near" "far" 256 {} {} 64).run? overtakenMoves = some c ∧
      (new {} "near" "far" 256 {} {} 64).keeps unended overtakenMoves = true ∧
      c.arrived = [] ∧ c.link.main.Recorded = true ∧
      c.link.transport.reason = some .sendingEnded := by
  have hrefused : (askingClient.run? refusedMoves).map (fun c =>
      (c.arrived, c.link.main.Recorded, c.link.transport.reason)) =
      some ([], true, some (.unexpected "connection near is closed")) := by
    decide +kernel
  have hovertaken : ((new {} "near" "far" 256 {} {} 64).run? overtakenMoves).map (fun c =>
      (c.arrived, c.link.main.Recorded, c.link.transport.reason)) =
      some ([], true, some .sendingEnded) := by
    decide +kernel
  obtain ⟨c, hrun, hc⟩ := Option.map_eq_some_iff.mp hrefused
  obtain ⟨d, hrun', hd⟩ := Option.map_eq_some_iff.mp hovertaken
  simp only [Prod.mk.injEq] at hc hd
  exact ⟨⟨c, hrun, by decide +kernel, hc⟩, d, hrun', by decide +kernel, hd⟩

end Disconnect

end Course

end Courier
