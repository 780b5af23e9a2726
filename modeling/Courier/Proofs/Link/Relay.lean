import Courier.Proofs.Link.Receiving
import Courier.Proofs.Wire.RoundTrip

/-!
Courier.Proofs.Link.Relay — two connections and the stream between them.

`Relay` joins a near end to a far one: what departs from the near end is in transit until it arrives
at the far one. Everything that either end can do may happen at any time, and the stream may be cut
anywhere; what goes the other way is left open. The relay also keeps what it is judged by: the
frames that the near end accepted, the bytes that its handshake sent, and those that the far
handshake consumed.

`Relay.Tied` ties the two ends together and is kept by every turn (`Relay.Tied.move`), so the frames
that the far end dispatched are a front of those that were accepted, and all of them once nothing is
left on the way. That the handshakes of the two ends fit is an assumption here (`Relay.Shaken`),
since a handshake is whatever its owner says.
-/

namespace Courier

/-! ## 1. Frames in a row -/

/-- What a frame says: its identifier and its payload. -/
def Frame.content (f : Frame) : Option String × Bytes :=
  (f.identifier, f.payload)

theorem Frame.content_heard {f : Frame} (h : f.isRaw = false) : f.heard.content = f.content := by
  cases hid : f.identifier with
  | none => simp [Frame.isRaw, hid] at h
  | some id => simp [Frame.content, Frame.heard, Frame.received, hid]

theorem WireFormat.outgoing_of_encode {format : WireFormat} {f : Frame} {bs : Bytes}
    (hraw : f.isRaw = false) (h : format.encode f = .ok bs) : format.outgoing f = bs := by
  unfold WireFormat.outgoing Link.outgoingPieces
  rw [hraw, if_neg Bool.false_ne_true]
  unfold WireFormat.encode at h
  cases hwrite : format.write f with
  | error m =>
      rw [hwrite] at h
      cases h
  | ok pieces =>
      rw [hwrite] at h
      cases h
      rfl

/-- **Frames that are written one after another are read one after another.** -/
theorem WireFormat.run_outgoing (format : WireFormat) {limit : Nat} {fs : List Frame}
    (hlimit : limit ≤ ConnectionOptions.lengthLimit)
    (hfs : ∀ f ∈ fs, f.isRaw = false ∧ f.validate limit = .ok ()) :
    ((format.decoder limit).intake.run (format.fresh limit) (fs.flatMap format.outgoing)).gives =
      fs.map Frame.heard := by
  induction fs with
  | nil => rw [List.flatMap_nil, Intake.run_of_pending (format.look_fresh_nil limit), List.map_nil]
  | cons f fs ih =>
      obtain ⟨hraw, hvalid⟩ := hfs f (by simp)
      obtain ⟨bs, hencode, hrun⟩ := format.run_encode hlimit hvalid
      have hrest := ih fun g hg => hfs g (by simp [hg])
      rw [List.flatMap_cons, format.outgoing_of_encode hraw hencode, hrun, Taken.gives_after, hrest,
        List.map_cons, List.singleton_append]

/-! ## 2. Relays -/

/-- What one end of a relay is set up with. -/
structure Relay.End where
  setup : LinkSetup := {}
  id : String
  peer : String
  input : Thresholds := {}
  output : Thresholds := {}
  /-- how many bytes the stream holds in each direction -/
  capacity : Nat

/-- Two ends that put frames on the wire in the same form, and have the same limit. -/
structure Relay.Pairing where
  near : Relay.End
  far : Relay.End
  limit : Nat
  same_format : far.setup.format = near.setup.format
  limit_le : limit ≤ ConnectionOptions.lengthLimit

/-- Two connections and what is between them. -/
structure Relay where
  near : Link
  far : Link
  /-- what has left the near end and has not arrived at the far one -/
  transit : Bytes := []
  /-- the frames that the near end was asked to send and did not refuse -/
  accepted : List Frame := []
  /-- what the near end sent for its handshake -/
  greeting : Bytes := []
  /-- what the far end consumed for its handshake -/
  examined : Bytes := []

namespace Relay

/-- A connection that is not started yet. -/
def End.link (e : End) (limit : Nat) : Link :=
  .new e.setup e.id e.peer limit e.input e.output { capacity := e.capacity }

/-- Both ends before they are started. -/
def Pairing.relay (p : Pairing) : Relay where
  near := p.near.link p.limit
  far := p.far.link p.limit

/-- What happens next. -/
inductive Turn where
  /-- a move of the near end -/
  | near (m : Move)
  /-- a move of the far end -/
  | far (m : Move)
  /-- at most `most` bytes leave the near end -/
  | depart (most : Nat)
  /-- at most `most` bytes arrive at the far end, as far as there is room for them -/
  | arrive (most : Nat)

/-- The near end is asked to send frames only after its handshake, and is not asked to send bare
bytes. Requests that it refuses may come at any time. -/
def allows (m : Move) (r : Relay) : Bool :=
  (r.near.accepts m).all fun f => r.near.connection.handshaked && !f.isRaw

/-- A move of the near end. What departs from it is not its own affair. -/
def nearMove? (m : Move) (r : Relay) : Option Relay :=
  match m with
  | .depart _ => none
  | m =>
      if r.allows m then
        (r.near.move? m).map fun near =>
          { r with
            near
            accepted := r.accepted ++ r.near.accepts m
            greeting := r.greeting ++ (r.near.greets m near).flatMap r.near.setup.format.outgoing }
      else none

/-- A move of the far end. What arrives at it is not its own affair. -/
def farMove? (m : Move) (r : Relay) : Option Relay :=
  match m with
  | .arrive _ => none
  | m =>
      (r.far.move? m).map fun far => { r with far, examined := r.examined ++ r.far.examines m far }

/-- The relay after a turn, if it is possible. -/
def move? (t : Turn) (r : Relay) : Option Relay :=
  match t with
  | .near m => r.nearMove? m
  | .far m => r.farMove? m
  | .depart most =>
      let departed := r.near.wire.depart most
      some { r with near := { r.near with wire := departed.2 }, transit := r.transit ++ departed.1 }
  | .arrive most =>
      let arrived := r.far.wire.arrive (r.transit.take most)
      some { r with
        far := { r.far with wire := arrived.2 }, transit := arrived.1 ++ r.transit.drop most }

/-- The relay after a row of turns, if all of them are possible. -/
def run? : List Turn → Relay → Option Relay
  | [], r => some r
  | t :: turns, r =>
      match r.move? t with
      | none => none
      | some r => run? turns r

/-- What the far end dispatched, in order. -/
def delivered (r : Relay) : List (Option String × Bytes) :=
  r.far.heard.map Frame.content

/-- What the near end accepted, in order. -/
def promised (r : Relay) : List (Option String × Bytes) :=
  r.accepted.map Frame.content

/-- What the near end has to send by now: what its handshake says, and the frames it accepted. -/
def outgoing (format : WireFormat) (r : Relay) : Bytes :=
  r.greeting ++ r.accepted.flatMap format.outgoing

/-- The handshakes fit, as a handshake consumes the bytes that belong to it: when that of the far
end is complete, it has consumed what that of the near end sent, neither less nor more. -/
def Shaken (r : Relay) : Prop :=
  r.far.connection.handshaked = true → r.examined = r.greeting

/-- Nothing has cut the way: frames are still taken from the queue, the output is still read, and
the stream still goes on. It takes a disconnect or a failure to change any of this. -/
structure Unbroken (r : Relay) : Prop where
  accepting : r.near.connection.accepting = true
  read : r.near.transport.output.readerCompleted = false
  taken : r.near.wire.peerGone = false
  sending : r.near.wire.departingEnded = false

/-- Nothing is on the way, and the far end, which has completed its handshake, waits for input. -/
structure Idle (r : Relay) : Prop where
  queue : r.near.connection.queue = []
  output : r.near.transport.output.pendingBytes = []
  departing : r.near.wire.departing = []
  transit : r.transit = []
  arriving : r.far.wire.arriving = []
  input : r.far.transport.input.pendingBytes = []
  handshaked : r.far.connection.handshaked = true
  waiting : ∃ read, r.far.main = .waiting read

/-! ## 3. What ties the ends together -/

/-- What the peer took from the near end is what arrived at the far one and what is in transit. -/
structure Tied (p : Pairing) (r : Relay) : Prop where
  way : ∃ written sent arrived received used,
    r.near.Sends (r.outgoing p.near.setup.format) written sent (arrived ++ r.transit) ∧
    r.far.Hears p.near.setup.format p.limit arrived received r.examined used
  timely : r.near.Timely
  setup_eq : r.near.setup = p.near.setup
  maxPayload_eq : r.near.connection.maxPayload = p.limit
  /-- nothing is accepted before the handshake -/
  late : r.accepted ≠ [] → r.near.connection.handshaked = true
  valid : ∀ f ∈ r.accepted, f.isRaw = false ∧ f.validate p.limit = .ok ()

section Tied

variable {p : Pairing} {r r' : Relay}

theorem tied_relay (p : Pairing) : p.relay.Tied p where
  way := by
    have hhears := Link.hears_new p.far.setup p.far.id p.far.peer p.limit p.far.input p.far.output
      p.far.capacity
    rw [p.same_format] at hhears
    exact ⟨[], [], [], [], [], Link.sends_new _ _ _ _ _ _ _, hhears⟩
  timely := ⟨fun _ => rfl, fun hlate => hlate.elim⟩
  setup_eq := rfl
  maxPayload_eq := rfl
  late hne := absurd rfl hne
  valid f hf := by cases hf

/-- What a move of the near end comes to. -/
theorem nearMove?_eq {m : Move} (hmove : r.nearMove? m = some r') :
    (∀ most, m ≠ .depart most) ∧ r.allows m = true ∧
      ∃ near, r.near.move? m = some near ∧ r' = { r with
        near
        accepted := r.accepted ++ r.near.accepts m
        greeting :=
          r.greeting ++ (r.near.greets m near).flatMap r.near.setup.format.outgoing } := by
  unfold nearMove? at hmove
  split at hmove
  · cases hmove
  · next hdepart =>
    split at hmove
    · next hallows =>
      obtain ⟨near, hnear, rfl⟩ := Option.map_eq_some_iff.mp hmove
      exact ⟨hdepart, hallows, near, hnear, rfl⟩
    · cases hmove

/-- What a move of the far end comes to. -/
theorem farMove?_eq {m : Move} (hmove : r.farMove? m = some r') :
    (∀ bs, m ≠ .arrive bs) ∧ ∃ far, r.far.move? m = some far ∧
      r' = { r with far, examined := r.examined ++ r.far.examines m far } := by
  unfold farMove? at hmove
  split at hmove
  · cases hmove
  · next harrive =>
    obtain ⟨far, hfar, rfl⟩ := Option.map_eq_some_iff.mp hmove
    exact ⟨harrive, far, hfar, rfl⟩

/-- What a move of the near end queues comes behind all that is to be sent: once frames are
accepted, the handshake has nothing more to say. -/
theorem Tied.outgoing_nearMove {m : Move} {near : Link} (h : r.Tied p)
    (hnear : r.near.move? m = some near) (hmove : r.nearMove? m = some r') :
    r'.outgoing p.near.setup.format = r.outgoing p.near.setup.format ++
      (r.near.greets m near ++ r.near.accepts m).flatMap r.near.setup.format.outgoing := by
  obtain ⟨-, -, near', hnear', rfl⟩ := nearMove?_eq hmove
  cases hnear.symm.trans hnear'
  unfold outgoing
  rw [h.setup_eq, List.flatMap_append, List.flatMap_append]
  by_cases haccepted : r.accepted = []
  · rw [haccepted]
    simp
  · rw [h.timely.greets_eq_nil (h.late haccepted)]
    simp

/-- A move of the near end queues frames, and loses nothing. -/
theorem Tied.nearMove {m : Move} (h : r.Tied p) (hmove : r.nearMove? m = some r') : r'.Tied p := by
  obtain ⟨hdepart, hallows, near, hnear, hr'⟩ := nearMove?_eq hmove
  have houtgoing := h.outgoing_nearMove hnear hmove
  obtain ⟨written, sent, arrived, received, used, hsends, hhears⟩ := h.way
  obtain ⟨hsetup, hmax, hmark⟩ := Link.move_keeps hnear
  obtain ⟨written', sent', hsends'⟩ := hsends.move hdepart hnear
  have hallowed : ∀ f ∈ r.near.accepts m,
      r.near.connection.handshaked = true ∧ f.isRaw = false := by
    intro f hf
    have hf' := List.all_eq_true.mp hallows f hf
    simpa using hf'
  rw [← houtgoing] at hsends'
  subst hr'
  refine ⟨⟨written', sent', arrived, received, used, hsends', hhears⟩, h.timely.move hnear,
    hsetup.trans h.setup_eq, hmax.trans h.maxPayload_eq, fun hne => ?_, fun f hf => ?_⟩
  · obtain ⟨f, hf⟩ := List.exists_mem_of_ne_nil _ hne
    rcases List.mem_append.mp hf with hf | hf
    · exact hmark (h.late (List.ne_nil_of_mem hf))
    · exact hmark (hallowed f hf).1
  · rcases List.mem_append.mp hf with hf | hf
    · exact h.valid f hf
    · refine ⟨(hallowed f hf).2, ?_⟩
      rw [← h.maxPayload_eq]
      exact Link.validate_of_mem_accepts hf

/-- A move of the far end uses what arrived. -/
theorem Tied.farMove {m : Move} (h : r.Tied p) (hmove : r.farMove? m = some r') : r'.Tied p := by
  obtain ⟨harrive, far, hfar, rfl⟩ := farMove?_eq hmove
  obtain ⟨written, sent, arrived, received, used, hsends, hhears⟩ := h.way
  obtain ⟨received', used', hhears'⟩ := hhears.move harrive hfar
  exact ⟨⟨written, sent, arrived, received', used', hsends, hhears'⟩, h.timely, h.setup_eq,
    h.maxPayload_eq, h.late, h.valid⟩

/-- **Every turn keeps the ends tied.** -/
theorem Tied.move {t : Turn} (h : r.Tied p) (hmove : r.move? t = some r') : r'.Tied p := by
  cases t with
  | near m => exact h.nearMove hmove
  | far m => exact h.farMove hmove
  | depart most =>
      cases hmove
      obtain ⟨written, sent, arrived, received, used, hsends, hhears⟩ := h.way
      have hsends' := hsends.depart most
      rw [List.append_assoc] at hsends'
      exact ⟨⟨written, sent, arrived, received, used, hsends', hhears⟩,
        h.timely.move (m := .depart most) rfl, h.setup_eq, h.maxPayload_eq, h.late, h.valid⟩
  | arrive most =>
      cases hmove
      obtain ⟨written, sent, arrived, received, used, hsends, hhears⟩ := h.way
      have hhears' := hhears.arrive (r.transit.take most)
      refine ⟨⟨written, sent, _, received, used, ?_, hhears'⟩, h.timely, h.setup_eq,
        h.maxPayload_eq, h.late, h.valid⟩
      have htransit : ∀ room, (r.transit.take most).take room ++
          ((r.transit.take most).drop room ++ r.transit.drop most) = r.transit := by
        intro room
        rw [← List.append_assoc, List.take_append_drop, List.take_append_drop]
      show r.near.Sends _ written sent (_ ++ _ ++ ((r.transit.take most).drop _ ++ _))
      rw [List.append_assoc, htransit]
      exact hsends

/-- **Every run keeps the ends tied.** -/
theorem Tied.run {turns : List Turn} (h : r.Tied p) (hrun : r.run? turns = some r') :
    r'.Tied p := by
  induction turns generalizing r with
  | nil =>
      cases hrun
      exact h
  | cons t turns ih =>
      simp only [run?] at hrun
      split at hrun
      · cases hrun
      · next hmove => exact ih (h.move hmove) hrun

/-! ## 4. Delivery -/

/-- A run over all that was accepted gives it all. -/
theorem Tied.gives_accepted (h : r.Tied p) :
    ((p.near.setup.format.decoder p.limit).intake.run (p.near.setup.format.fresh p.limit)
      (r.accepted.flatMap p.near.setup.format.outgoing)).gives.map Frame.content = r.promised := by
  rw [p.near.setup.format.run_outgoing p.limit_le h.valid, List.map_map]
  exact List.map_congr_left fun f hf => Frame.content_heard (h.valid f hf).1

/-- What was dispatched is in order, and nothing of what was accepted is left out of it. -/
theorem Tied.delivered_prefix (h : r.Tied p) (hshaken : r.Shaken) : r.delivered <+: r.promised := by
  obtain ⟨written, sent, arrived, received, used, hsends, hhears⟩ := h.way
  cases hmark : r.far.connection.handshaked with
  | false =>
      unfold delivered
      rw [hhears.unheard hmark]
      exact List.nil_prefix
  | true =>
      obtain ⟨seen, hseen, hheard⟩ := hhears.dispatched
      have hreceived : received <+: r.outgoing p.near.setup.format := by
        refine List.IsPrefix.trans ?_ hsends.taken_prefix
        rw [← hhears.receives.wire, List.append_assoc]
        exact List.prefix_append _ _
      rw [hshaken hmark] at hseen
      obtain ⟨more, hmore⟩ := (List.prefix_append_right_inj _).mp (hseen.trans hreceived)
      have hgives := Intake.gives_run_prefix (p.near.setup.format.decoder p.limit).intake
        (p.near.setup.format.fresh p.limit) seen more
      rw [hmore] at hgives
      rw [← h.gives_accepted]
      exact (hheard.trans hgives).map Frame.content

/-- When nothing is on the way, everything was dispatched. -/
theorem Tied.delivered_eq (h : r.Tied p) (hshaken : r.Shaken) (hunbroken : r.Unbroken)
    (hidle : r.Idle) : r.delivered = r.promised := by
  obtain ⟨written, sent, arrived, received, used, hsends, hhears⟩ := h.way
  obtain ⟨read, hstage⟩ := hidle.waiting
  obtain ⟨eaten, heaten, hheard⟩ := hhears.heard_eq_of_waiting hstage hidle.handshaked hidle.input
  have htaken := hsends.taken_eq_all hunbroken.accepting hidle.queue hunbroken.read hidle.output
    hunbroken.taken hunbroken.sending hidle.departing
  have hreceived := hhears.receives.wire
  rw [hidle.arriving, List.append_nil] at hreceived
  rw [hidle.transit, List.append_nil, ← hreceived, heaten, hshaken hidle.handshaked,
    outgoing, List.append_cancel_left_eq] at htaken
  unfold delivered
  rw [hheard, htaken, h.gives_accepted]

end Tied

end Relay

end Courier
