import Courier.Proofs.Link.Calm

/-!
Courier.Proofs.Link.Undisturbed — what a connection comes to if nothing gets in its way.

The main task of a calm link leaves its input for one of two reasons: the reader or the handshake
has found a fault in it, or the stream has ended and all that arrived was worked off
(`Course.Outcome`). What it has come to then stays.
-/

namespace Courier

namespace Link

/-! ## 1. The last input -/

section LastInput

variable {l l' : Link} {ended : Bool}

variable {format : WireFormat} {limit : Nat} {arrived received examined used : Bytes}
variable {portion : Portion}

/-- The last input is all that is left of what arrived. -/
theorem Calm.arrived_of_last (h : l.Calm ended)
    (hhears : l.Hears format limit arrived received examined used) (htakes : l.main.Takes = true)
    (hportion : l.main.portion? = some portion) (hlast : portion.last = true) :
    ended = true ∧ arrived = used ++ portion.buffer.toList := by
  obtain ⟨hcompleted, hall⟩ := h.last portion hportion hlast
  obtain ⟨hfinished, hbehind⟩ := h.inbound.completed hcompleted
  obtain ⟨harriving, hended⟩ := h.inbound.done (by rw [hfinished]; trivial)
  obtain ⟨hinput, -⟩ := hhears.input_of_portion htakes hportion
  obtain ⟨front, rest, hunread, hreceived, hlent⟩ :=
    hinput.position (hinput.open_of_lent (by simp))
  obtain ⟨hleft, hsize⟩ := hlent _ _ rfl
  have hrest : portion.buffer.toList = rest := by
    refine hleft.eq_of_length_le ?_
    rw [hinput.sound.size_eq, hunread, List.length_append] at hall
    omega
  refine ⟨hended, ?_⟩
  rw [← hhears.receives.wire, harriving, List.append_nil, hreceived, hbehind, List.append_nil,
    hrest]

/-- A call of the reader that finds a fault: there is one in what arrived, behind the frames that
were dispatched. -/
theorem Hears.run_of_readFault {cause : Fault} {reader : FrameReader} {buffer : Buffer}
    (h : l.Hears format limit arrived received examined used) (hstage : l.main = .reading portion)
    (hread : l.reader.read portion.buffer = (.error cause, reader, buffer)) :
    ∃ eaten, examined ++ eaten <+: arrived ∧
      (format.decoder limit).intake.run (format.fresh limit) eaten = ⟨l.heard, .error cause⟩ := by
  obtain ⟨hinput, hsound⟩ := h.input_of_portion (by rw [hstage]; rfl)
    (show l.main.portion? = some portion by rw [hstage]; rfl)
  have hprogress := h.progress
  simp only [Progress, hstage] at hprogress
  obtain ⟨eaten, s, hused, hfollows⟩ := hprogress
  have hcall := (format.decoder limit).call_read hfollows.at_ hsound
  rw [hread] at hcall
  cases hcall with
  | fault hrun =>
      have hall := hfollows.run []
      rw [List.append_nil, hrun] at hall
      refine ⟨eaten ++ portion.buffer.toList, ?_, ?_⟩
      · have hfront := hinput.lent_prefix
        rw [hused, List.append_assoc] at hfront
        rw [← h.receives.wire]
        exact hfront.trans (List.prefix_append _ _)
      · rw [hall]
        simp [Taken.after]

end LastInput

end Link

/-! ## 2. How it ends -/

namespace Course

section Outcome

variable {format : WireFormat} {limit : Nat} {thresholds : Thresholds} {c c' : Course}
variable {received used : Bytes} {g : Gauge} {m : Move} {l' : Link}

/-- All that arrived was looked at, and the handshake or the reader waits for more. -/
def Exhausted (format : WireFormat) (limit : Nat) (c : Course) : Prop :=
  ∃ used seen, c.arrived = used ++ seen ∧ (c.link.connection.handshaked = false → used = []) ∧
    c.link.Awaits format limit c.examined used seen

/-- There is a fault in what arrived, behind the frames that were dispatched. -/
def Spoiled (format : WireFormat) (limit : Nat) (c : Course) (fault : Fault) : Prop :=
  ∃ eaten, c.examined ++ eaten <+: c.arrived ∧
    (format.decoder limit).intake.run (format.fresh limit) eaten = ⟨c.link.heard, .error fault⟩

/-- How the main task has come to the end of its input, if it has. -/
def Outcome (format : WireFormat) (limit : Nat) (c : Course) : Prop :=
  match c.exit with
  | none => True
  | some none => c.ended = true ∧ c.Exhausted format limit
  | some (some fault) => c.link.connection.handshaked = true → c.Spoiled format limit fault

/-- When nothing is left to do, all that arrived was looked at. -/
theorem Tracks.exhausted (h : c.Tracks format limit thresholds received used g)
    (hdrained : c.link.Drained) : c.Exhausted format limit := by
  obtain ⟨harrived, hawaits⟩ := h.awaits_of_drained hdrained
  refine ⟨used, _, harrived, fun hmark => ?_, hawaits⟩
  have hprogress := h.hears.progress
  simp only [Link.Progress, hdrained.main, hmark] at hprogress
  exact hprogress.2.1

/-- The main task comes to the end of its input while all is calm. -/
theorem Tracks.outcome (h : c.Tracks format limit thresholds received used g)
    (hcalm : c.link.Calm c.ended) (hmove : c.link.move? m = some l')
    (htakes : c.link.main.Takes = true) (htakes' : l'.main.Takes = false) :
    (c.follow m l').Outcome format limit := by
  obtain ⟨cause, hexits, hleaving, hheard, hmark, hchoice⟩ :=
    h.hears.exits_of_move hmove htakes htakes'
  have hsetup : l'.setup = c.link.setup := (Link.move_keeps hmove).1
  have hexit : (c.follow m l').exit = some cause := by
    simp [follow, h.exit_eq_none htakes, hleaving, MainStage.exit?]
  have harrived : (c.follow m l').arrived = c.arrived := by
    obtain rfl | ⟨rfl, -⟩ := hchoice <;> exact arrived_follow fun _ => Move.noConfusion
  have hexamined : (¬ ∃ portion, c.link.main = .examining portion) →
      (c.follow m l').examined = c.examined := by
    intro hother
    obtain rfl | ⟨rfl, -⟩ := hchoice
    · simp only [follow, Link.examines_of_not_examining hother, List.append_nil]
    · exact examined_follow (by simp)
  have hearly : c.link.main.Early → ¬ l'.connection.handshaked = true := by
    intro hstage hmark'
    cases (h.hears.timely.early hstage).symm.trans (hmark.symm.trans hmark')
  unfold Outcome
  rw [hexit]
  cases hexits with
  | unopened stage start =>
      exact fun hmark' => absurd hmark' (hearly (by rw [stage]; trivial))
  | rejected stage examine | tooLong stage examine long =>
      exact fun hmark' => absurd hmark' (hearly (by rw [stage]; trivial))
  | spoiled stage read =>
      obtain ⟨eaten, hfront, hrun⟩ := h.hears.run_of_readFault stage read
      refine fun _ => ⟨eaten, ?_, hrun.trans (by rw [← hheard]; rfl)⟩
      rw [harrived, hexamined (by simp [stage])]
      exact hfront
  | @exhausted portion stage last =>
      obtain ⟨hended, hall⟩ := hcalm.arrived_of_last h.hears htakes
        (show c.link.main.portion? = some portion by rw [stage]; rfl) last
      have hsettled := h.settled
      have hprogress := h.hears.progress
      simp only [Link.Settled, stage] at hsettled
      refine ⟨by simp [follow, hended], used, _, harrived.trans hall, fun hfalse => ?_, ?_⟩
      · simp only [Link.Progress, stage, hmark.symm.trans hfalse] at hprogress
        exact hprogress.2.1
      · rw [hexamined (by simp [stage])]
        exact hsettled.same hsetup hmark hheard
  | stopped cancelled => cases hcalm.uncancelled.symm.trans cancelled

/-- After that, nothing is added to what matters. -/
theorem Outcome.late (h : c.Outcome format limit)
    (ht : c.Tracks format limit thresholds received used g) (hpermits : c.permits m = true)
    (hmove : c.link.move? m = some l') (htakes : c.link.main.Takes = false) :
    (c.follow m l').Outcome format limit := by
  have hexit := ht.exit
  rw [htakes] at hexit
  obtain ⟨cause, hcause⟩ := Option.isSome_iff_exists.mp hexit
  obtain ⟨-, hheard, hmark⟩ := Link.same_of_not_takes hmove htakes
  have hsetup : l'.setup = c.link.setup := (Link.move_keeps hmove).1
  have hsame : (c.follow m l').exit = some cause := by simp [follow, hcause]
  have hexamined : (c.follow m l').examined = c.examined := by
    have hnone : c.link.examines m l' = [] := by
      unfold Link.examines
      split
      · next hstage _ =>
        rw [hstage] at htakes
        cases htakes
      · rfl
    simp only [follow, hnone, List.append_nil]
  unfold Outcome at h ⊢
  rw [hcause] at h
  rw [hsame]
  cases cause with
  | some fault =>
      intro hmark'
      obtain ⟨eaten, hfront, hrun⟩ := h (hmark.symm.trans hmark')
      refine ⟨eaten, ?_, hrun.trans (by rw [← hheard]; rfl)⟩
      rw [hexamined]
      exact hfront.trans (List.prefix_append _ _)
  | none =>
      obtain ⟨hended, used, seen, harrived, hunmarked, hawaits⟩ := h
      have hno : c.link.arrives m = [] := by
        unfold Link.arrives
        split
        · simp [permits, hended] at hpermits
        · rfl
      refine ⟨by simp [follow, hended], used, seen, ?_, fun hfalse =>
        hunmarked (hmark.symm.trans hfalse), ?_⟩
      · simp only [follow, hno, List.append_nil]
        exact harrived
      · rw [hexamined]
        exact hawaits.same hsetup hmark hheard

/-- As long as a course is not disturbed, it is calm, and comes to its end for a reason. -/
structure Undisturbed (format : WireFormat) (limit : Nat) (c : Course) : Prop where
  calm : c.link.main.Takes = true → c.link.Calm c.ended
  outcome : c.Outcome format limit

theorem undisturbed_new (setup : LinkSetup) (id peer : String) (limit : Nat)
    (input output : Thresholds) (capacity : Nat) :
    (new setup id peer limit input output capacity).Undisturbed setup.format limit where
  calm _ := Link.calm_new setup id peer limit input output capacity
  outcome := trivial

/-- **Every move keeps a course undisturbed**, unless it disturbs it. -/
theorem Undisturbed.move (h : c.Undisturbed format limit)
    (ht : c.Tracks format limit thresholds received used g) (hmove : c.move? m = some c')
    (hclear : c'.disturbed = false) : c'.Undisturbed format limit := by
  obtain ⟨hpermits, l', hl', rfl⟩ := move_eq hmove
  have hcalm : Link.disturbs m l' = false := (Bool.or_eq_false_iff.mp hclear).2
  have hended : ∀ bs, m = .arrive bs → c.ended = false := by
    rintro bs rfl
    simpa [permits] using hpermits
  cases htakes : c.link.main.Takes with
  | false =>
      have htakes' := (Link.same_of_not_takes hl' htakes).1
      refine ⟨fun hagain => ?_, h.outcome.late ht hpermits hl' htakes⟩
      cases htakes'.symm.trans hagain
  | true =>
      refine ⟨fun htakes' => (h.calm htakes).move hl' htakes' hcalm hended, ?_⟩
      cases htakes' : l'.main.Takes with
      | false => exact ht.outcome (h.calm htakes) hl' htakes htakes'
      | true =>
          have hexit := ht.exit_follow hl'
          rw [htakes'] at hexit
          have hnone : (c.follow m l').exit = none := by simpa using hexit
          unfold Outcome
          rw [hnone]
          trivial

end Outcome

end Course

end Courier
