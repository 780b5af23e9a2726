import Courier.Proofs.Link.News

/-!
Courier.Proofs.Link.States — from one state of a connection to the next.

A connection shakes hands, opens, closes and is closed, and one whose handshake fails closes without
being opened (`ConnectionState.Leads`). Every move of a link leaves the state as it is or takes it
one step further. The duties of its owner keep up with this: what is to be done when the connection
closes is done neither before it closes nor after it is closed.
-/

namespace Courier

/-! ## 1. States -/

/-- The states that may come next. -/
inductive ConnectionState.Leads : ConnectionState → ConnectionState → Prop where
  | opens : Leads .connecting .handshaking
  | completes : Leads .handshaking .opened
  | fails : Leads .handshaking .closing
  | closes : Leads .opened .closing
  | ends : Leads .closing .closed

namespace Link

/-- What a move makes of the state of the connection and of its marks. -/
inductive Shifts (l l' : Link) : Prop where
  | rests (connection : l.connection.Alike l'.connection)
  | opens (stage : l.main = .opening)
      (connection : (l.enter .handshaking).connection.Alike l'.connection)
  | marks {portion : Option Portion} (stage : l.main = .marking portion)
      (connection : l'.connection = { l.connection with handshaked := true })
  | shows {portion : Option Portion} (stage : l.main = .showing portion)
      (connection : l'.connection = (l.enter .opened).connection)
  | concludes {cause : Option Fault} (stage : l.main = .concluding cause)
      (connection : l'.connection = (l.enter .closing).connection)
  | ends (stage : l.main = .ending) (connection : l'.connection = (l.enter .closed).connection)
  | marksEnd (stage : l.main = .markingEnd)
      (connection : l'.connection = { l.connection with closed := true })
      (main_eq : l'.main = .finished)

variable {l l' : Link} {m : Move}

theorem Works.shifts (hwork : l.Works l') : l.Shifts l' := by
  cases hwork with
  | openFailed stage start => exact .opens stage (alike_of_start start)
  | openCompleted stage start => exact .opens stage (alike_of_start start)
  | openPending stage start => exact .opens stage (alike_of_start start)
  | marks stage => exact .marks stage rfl
  | shows stage => exact .shows stage rfl
  | examineFailed stage examine | examineCompleted stage examine | examineLong stage examine long
    | examinePending stage examine short => exact .rests (alike_of_examine examine)
  | @readFrame portion f reader buffer stage read =>
      refine .rests ?_
      rw [(dispatch_dispatches f { portion with buffer } reader l).connection_eq]
      exact .refl _
  | @handles job portion stage => exact .rests (goOn_reserves job l).connection
  | concludes stage => exact .concludes stage rfl
  | @cuts reason stage =>
      refine .rests ?_
      dsimp only
      split
      · exact (shutDown_reserves reason l).connection
      · exact .refl _
  | givesUp stage => exact .rests (shutDown_reserves .drainTimeout l).connection
  | @shuts reason stage => exact .rests (shutDown_reserves reason l).connection
  | ends stage => exact .ends stage rfl
  | marksEnd stage => exact .marksEnd stage rfl rfl
  | _ => exact .rests ⟨rfl, rfl, rfl, rfl⟩

/-- **The state of a connection is changed by nobody but its main task.** -/
theorem move_shifts (hmove : l.move? m = some l') : l.Shifts l' := by
  cases m with
  | main choice =>
      cases choice with
      | work => exact (works_of_workMain hmove).shifts
      | stop =>
          obtain ⟨read, -, -, -, rfl⟩ := stopMain_eq hmove
          exact .rests (.refl _)
  | start =>
      cases hmove
      unfold Link.start
      split <;> exact .rests (.refl _)
  | _ => exact .rests (move_reserves (fun _ => Move.noConfusion) Move.noConfusion hmove).connection

/-- **The state of a connection goes on step by step**, whatever happens. -/
theorem Ages.state_leads (h : l.Ages) (hmove : l.move? m = some l') :
    l'.connection.state = l.connection.state ∨
      l.connection.state.Leads l'.connection.state := by
  have hstate := h.state_eq
  cases move_shifts hmove with
  | rests connection => exact .inl connection.state_eq
  | opens stage connection =>
      rw [stage] at hstate
      rw [hstate, connection.state_eq]
      exact .inr .opens
  | marks stage connection =>
      rw [connection]
      exact .inl rfl
  | shows stage connection =>
      rw [stage] at hstate
      rw [hstate, connection]
      exact .inr .completes
  | concludes stage connection =>
      rw [stage] at hstate
      rw [hstate, connection]
      cases l.connection.handshaked
      · exact .inr .fails
      · exact .inr .closes
  | ends stage connection =>
      rw [stage] at hstate
      rw [hstate, connection]
      exact .inr .ends
  | marksEnd stage connection main_eq =>
      rw [connection]
      exact .inl rfl

/-! ## 2. The end -/

/-- A connection that is marked as closed is at its end. -/
def Sealed (l : Link) : Prop :=
  l.connection.closed = true → l.main = .finished

theorem Sealed.alike (h : l.Sealed) (hconnection : l.connection.Alike l'.connection)
    (hmain : l'.main = l.main) : l'.Sealed := by
  intro hclosed
  rw [hmain]
  exact h (hconnection.closed_eq.symm.trans hclosed)

theorem sealed_of_not_closed (hclosed : l.connection.closed = false) : l.Sealed := by
  intro h
  cases hclosed.symm.trans h

theorem Sealed.move (h : l.Sealed) (hmove : l.move? m = some l') : l'.Sealed := by
  by_cases hend : l.main = .finished
  · -- the main task has nothing left to do
    have hmain : l'.main = .finished := by
      cases m with
      | main choice =>
          cases choice with
          | work =>
              have hwork : l.workMain = some l' := hmove
              rw [workMain, hend] at hwork
              cases hwork
          | stop =>
              obtain ⟨read, hstage, -⟩ := stopMain_eq hmove
              cases hend.symm.trans hstage
      | start =>
          cases hmove
          unfold Link.start
          rw [hend]
          exact hend
      | _ =>
          rw [(move_aside (fun _ => Move.noConfusion) Move.noConfusion hmove).1.main_eq]
          exact hend
    exact fun _ => hmain
  · have hopen : l.connection.closed = false := by
      cases hclosed : l.connection.closed with
      | false => rfl
      | true => exact absurd (h hclosed) hend
    cases move_shifts hmove with
    | rests connection => exact sealed_of_not_closed (connection.closed_eq.trans hopen)
    | opens stage connection => exact sealed_of_not_closed (connection.closed_eq.trans hopen)
    | marks stage connection | shows stage connection | concludes stage connection
      | ends stage connection =>
        refine sealed_of_not_closed ?_
        rw [connection]
        exact hopen
    | marksEnd stage connection main_eq => exact fun _ => main_eq

/-- The owner was told of the closing, or is about to be. -/
def Closes (l : Link) : Prop :=
  l.main.chapter = .parting ∨ l.main.chapter = .closing ∨ l.main.chapter = .ended ∨
    l.main.chapter = .gone

theorem Closes.takes (h : l.Closes) : l.main.Takes = false := by
  unfold Closes at h
  cases hstage : l.main with
  | notifying _ | recording _ | cutting _ | cancelling _ | awaitingWriter _ | draining _
    | awaitingSender _ _ | shutting _ | releasing | awaitingReceiver | ending | tellingEnd
    | markingEnd | finished => rfl
  | _ =>
      rw [hstage] at h
      rcases h with h | h | h | h <;> cases h

/-- **No more frames are dispatched once the connection closes.** -/
theorem Closes.heard_eq (h : l.Closes) (hmove : l.move? m = some l') : l'.heard = l.heard := by
  cases m with
  | main choice =>
      cases choice with
      | work => exact (workMain_closing h.takes hmove).2.1
      | stop =>
          obtain ⟨read, -, -, -, rfl⟩ := stopMain_eq hmove
          rfl
  | start =>
      cases hmove
      unfold Link.start
      split <;> rfl
  | _ => exact (move_aside (fun _ => Move.noConfusion) Move.noConfusion hmove).1.heard_eq

end Link

/-! ## 3. Duties at the closing -/

namespace AttendedLink

section

variable {δ : Type} {duties : Milestone → List δ} {a : AttendedLink} {d : δ}

/-- What is to be done at the closing is not done before it. -/
theorem closes_of_fulfilled (h : a.link.Ages) (hd : d ∈ a.fulfilled duties)
    (hready : d ∉ duties .handshaked) : a.link.Closes := by
  have hpassed : ∀ {handshaked : Bool},
      d ∉ ((if handshaked then [Milestone.handshaked] else []).flatMap duties) := by
    intro handshaked
    cases handshaked <;> simp [hready]
  unfold fulfilled at hd
  rw [h.milestones_eq, Link.milestone?_eq] at hd
  unfold Link.Closes
  cases hchapter : a.link.main.chapter with
  | parting | closing | ended | gone => simp
  | silent | sealing =>
      rw [hchapter] at hd
      cases hd
  | welcoming =>
      rw [hchapter] at hd
      exact absurd (List.mem_of_mem_take hd) hready
  | serving =>
      rw [hchapter] at hd
      exact absurd ((List.append_nil _).subst hd) hpassed

/-- It is done before the connection is closed. -/
theorem fulfilled_of_closed (h : a.link.Ages) (hclosed : a.link.connection.state = .closed)
    (hd : d ∈ duties .closing) : d ∈ a.fulfilled duties := by
  have hstate := h.state_eq
  rw [hclosed] at hstate
  unfold fulfilled
  rw [h.milestones_eq]
  refine List.mem_append_left _ (List.mem_flatMap.mpr ⟨.closing, ?_, hd⟩)
  cases hchapter : a.link.main.chapter with
  | ended | gone => simp [Chapter.passed]
  | serving =>
      rw [hchapter] at hstate
      cases hmark : a.link.connection.handshaked <;> rw [hmark] at hstate <;> cases hstate
  | _ =>
      rw [hchapter] at hstate
      cases hstate

/-- It is done while the connection shows that it closes. -/
theorem state_of_duty (h : a.link.Ages) (hduty : a.duty? duties = some d)
    (hready : d ∉ duties .handshaked) (hend : d ∉ duties .closed) :
    a.link.connection.state = .closing := by
  have hstate := h.state_eq
  unfold duty? at hduty
  rw [Link.milestone?_eq] at hduty
  cases hchapter : a.link.main.chapter with
  | parting =>
      rw [hchapter] at hstate
      exact hstate
  | welcoming =>
      rw [hchapter] at hduty
      exact absurd (List.mem_of_getElem? hduty) hready
  | ended =>
      rw [hchapter] at hduty
      exact absurd (List.mem_of_getElem? hduty) hend
  | silent | sealing | serving | closing | gone =>
      rw [hchapter] at hduty
      cases hduty

end

end AttendedLink

end Courier
