import Courier.Proofs.Link.Negotiation
import Courier.Proofs.Link.Resting
import Courier.Proofs.Wire.Envelope

/-!
Courier.Proofs.Link.Handover — from the upgrade to the frames.

What comes behind the block of an upgrade is for the reader, perhaps in the same input. However the
bytes come in, the block goes to the handshake and what is behind it to the reader, each byte once
(`Course.HandsOver`): so what is sent, told and dispatched is the same as if the block had come
first, and then the rest (`Course.handover`).
-/

namespace Courier

/-! ## 1. What the owner was told -/

namespace Link

/-- When the main task rests after the handshake, the owner was told of it, and has seen every frame
that was dispatched. -/
theorem Ages.outline_of_rests {l : Link} (h : l.Ages) (hrests : l.Rests)
    (hmark : l.connection.handshaked = true) :
    ∃ farewell, farewell <+: [.told .closing, .told .closed] ∧
      l.outline = .told .handshaked :: l.heard.map .dispatched ++ farewell := by
  have hserved : l.main.chapter.Working ∧ l.main.chapter ≠ .welcoming := by
    obtain hdrained | hstopped := hrests
    · rw [hdrained.main]
      exact ⟨trivial, Chapter.noConfusion⟩
    · cases hstage : l.main with
      | leaving _ | concluding _ | crashed _ | notifying _ | recording _ | cutting _ | cancelling _
        | awaitingWriter _ | draining _ | awaitingSender _ _ | shutting _ | releasing
        | awaitingReceiver | ending | tellingEnd | markingEnd | finished =>
          exact ⟨trivial, Chapter.noConfusion⟩
      | _ =>
          rw [hstage] at hstopped
          cases hstopped
  refine ⟨l.main.chapter.farewell, Chapter.farewell_front _, ?_⟩
  rw [h.outline_eq, hmark]
  obtain ⟨hworking, hwelcoming⟩ := hserved
  cases hchapter : l.main.chapter with
  | silent | sealing =>
      rw [hchapter] at hworking
      exact hworking.elim
  | welcoming => exact absurd hchapter hwelcoming
  | _ => rfl

/-- As long as the main task takes input, the owner was told of nothing else. -/
theorem Ages.outline_of_takes {l : Link} (h : l.Ages) (htakes : l.main.Takes = true) :
    l.outline <+: .told .handshaked :: l.heard.map .dispatched := by
  have hnone : l.main.chapter.farewell = [] := by
    cases hstage : l.main with
    | unstarted | opening | marking _ | showing _ | telling _ | waiting _ | examining _ | reading _
      | handling _ _ | settling _ => rfl
    | _ =>
        rw [hstage] at htakes
        cases htakes
  rw [h.outline_eq, hnone, List.append_nil]
  cases l.connection.handshaked with
  | false => cases l.main.chapter <;> exact List.nil_prefix
  | true =>
      cases l.main.chapter with
      | silent | sealing | welcoming => exact List.nil_prefix
      | _ => exact List.prefix_refl _

end Link

namespace Course

/-! ## 2. From the upgrade to the frames -/

/-- What all moves keep of an upgrade with a block and of what comes behind it. -/
structure HandsOver (setup : LinkSetup) (limit : Nat) (thresholds : Thresholds)
    (greeting reply : Option Bytes) (block rest : Bytes) (c : Course) : Prop where
  setup_eq : c.link.setup = setup
  maxPayload_eq : c.link.connection.maxPayload = limit
  ages : c.link.Ages
  tracks : ∃ received used g, c.Tracks setup.format limit thresholds received used g
  negotiates : c.arrived <+: block ++ rest → c.Negotiates greeting reply block
  undisturbed : c.disturbed = false → c.Undisturbed setup.format limit
  handshaked : c.arrived <+: block ++ rest → c.disturbed = false →
    ∀ fault, c.exit = some (some fault) → c.link.connection.handshaked = true

section HandsOver

variable {setup : LinkSetup} {limit : Nat} {thresholds : Thresholds} {c c' : Course}
variable {greeting reply : Option Bytes} {block rest : Bytes} {m : Move}

theorem handsOver_new (setup : LinkSetup) (id peer : String) (limit : Nat)
    (input output : Thresholds) (capacity : Nat) :
    (new setup id peer limit input output capacity).HandsOver setup limit input
      greeting reply block rest where
  setup_eq := rfl
  maxPayload_eq := rfl
  ages := Link.ages_new setup id peer limit input output { capacity }
  tracks := ⟨[], [], {}, tracks_new setup id peer limit input output capacity⟩
  negotiates _ := .silent rfl rfl rfl
  undisturbed _ := undisturbed_new setup id peer limit input output capacity
  handshaked _ _ _ hexit := by cases hexit

theorem HandsOver.move
    (h : c.HandsOver setup limit thresholds greeting reply block rest)
    (hblock : setup.handshake.Completes greeting reply block)
    (hfits : ∀ bs, bs ∈ greeting ∨ bs ∈ reply → bs.length ≤ limit)
    (hsize : block.length ≤ setup.maxHandshake) (hmove : c.move? m = some c') :
    c'.HandsOver setup limit thresholds greeting reply block rest := by
  obtain ⟨rfl, rfl, hages, ⟨received, used, g, ht⟩, hnegotiates, hundisturbed, hhandshaked⟩ := h
  have ht' := ht.move hmove
  obtain ⟨-, l', hl', rfl⟩ := move_eq hmove
  obtain ⟨hsetup, hmaxPayload, -⟩ := Link.move_keeps hl'
  have hbefore : (c.follow m l').arrived <+: block ++ rest → c.arrived <+: block ++ rest :=
    fun hfront => (List.prefix_append _ _).trans hfront
  have hclear : (c.follow m l').disturbed = false → c.disturbed = false :=
    fun hclear => (Bool.or_eq_false_iff.mp hclear).1
  refine ⟨hsetup, hmaxPayload, (hages.move hl').1, ht', fun hfront => ?_, fun hcalm => ?_,
    fun hfront hcalm fault hexit => ?_⟩
  · exact (hnegotiates (hbefore hfront)).move ht hblock (hbefore hfront) hl'
  · exact (hundisturbed (hclear hcalm)).move ht hmove hcalm
  · cases htakes : c.link.main.Takes with
    | false =>
        obtain ⟨-, -, hmark⟩ := Link.same_of_not_takes hl' htakes
        have hbegun := ht.exit
        rw [htakes] at hbegun
        obtain ⟨cause, hcause⟩ := Option.isSome_iff_exists.mp hbegun
        have hsame : (c.follow m l').exit = c.exit := by simp [follow, hcause]
        exact hmark.trans
          (hhandshaked (hbefore hfront) (hclear hcalm) fault (hsame.symm.trans hexit))
    | true =>
        have hleaves : l'.main.Takes = false := by
          have hended := ht.exit_follow hl'
          rw [hexit] at hended
          simpa using hended
        obtain ⟨cause, hexits, hleaving, -, hmark, -⟩ := ht.hears.exits_of_move hl' htakes hleaves
        have hcause : cause = some fault := by
          simpa [follow, ht.exit_eq_none htakes, hleaving, MainStage.exit?] using hexit
        subst hcause
        exact hmark.trans (ht.handshaked_of_exits ((hundisturbed (hclear hcalm)).calm htakes) hblock
          hfits hsize (hbefore hfront) hexits)

end HandsOver

/-! ## 3. What is made of the rest -/

/-- What a connection has failed with, if it has. -/
def failure (c : Course) : Option Fault :=
  c.exit.join

/-- All of the upgrade was sent and its block was consumed, and what is behind it was read to the
end: the owner was told of the handshake, then of every frame, and the connection has failed if the
reading has. -/
structure HandedOver (messages : List Frame) (block : Bytes) (reading : Reading) (c : Course) :
    Prop where
  greeted : c.greeted = messages
  examined : c.examined = block
  outline : ∃ farewell, farewell <+: [.told .closing, .told .closed] ∧
    c.link.outline = .told .handshaked :: reading.frames.map .dispatched ++ farewell
  failure : c.failure = reading.stopped

section HandedOver

variable {setup : LinkSetup} {format : WireFormat} {limit : Nat} {thresholds : Thresholds}
variable {c : Course} {greeting reply : Option Bytes} {block rest : Bytes}
variable {received used : Bytes} {g : Gauge}

/-- What was looked at is the rest, if the upgrade is through with the block. -/
theorem Exhausted.run (h : c.Exhausted format limit)
    (hblock : c.link.setup.handshake.Completes greeting reply block)
    (harrived : c.arrived = block ++ rest)
    (hexamined : c.link.connection.handshaked = true → c.examined = block) :
    c.link.connection.handshaked = true ∧ ∃ place,
      (format.decoder limit).intake.run (format.fresh limit) rest = ⟨c.link.heard, .ok place⟩ := by
  obtain ⟨used, seen, hall, hunmarked, hawaits⟩ := h
  cases hmark : c.link.connection.handshaked with
  | false =>
      -- a handshake that was shown the whole block does not wait
      simp only [Link.Awaits, hmark] at hawaits
      rw [hunmarked hmark, List.nil_append, harrived] at hall
      subst hall
      obtain hnil | ⟨hpending, -⟩ := hawaits
      · exact absurd (List.append_eq_nil_iff.mp hnil).1 hblock.block_ne_nil
      · have hjudge := hblock.judge_eq (List.prefix_refl (block ++ rest))
        rw [if_pos (by rw [List.length_append]; exact Nat.le_add_right _ _)] at hjudge
        cases hjudge.symm.trans hpending
  | true =>
      simp only [Link.Awaits, hmark] at hawaits
      obtain ⟨eaten, s, rfl, hrun⟩ := hawaits
      rw [harrived, hexamined hmark, List.append_assoc, List.append_cancel_left_eq] at hall
      subst hall
      exact ⟨rfl, _, hrun⟩

/-- A fault in what arrived is one in the rest. -/
theorem Spoiled.run {fault : Fault} (h : c.Spoiled format limit fault)
    (hfront : c.arrived <+: block ++ rest) (hexamined : c.examined = block) :
    (format.decoder limit).intake.run (format.fresh limit) rest =
      ⟨c.link.heard, .error fault⟩ := by
  obtain ⟨eaten, heaten, hrun⟩ := h
  rw [hexamined] at heaten
  obtain ⟨more, rfl⟩ := (List.prefix_append_right_inj block).mp (heaten.trans hfront)
  rw [Intake.run_append, hrun]
  rfl

/-- The frames that were dispatched are the first ones in the rest. -/
theorem Tracks.heard_front (h : c.Tracks format limit thresholds received used g)
    (hfront : c.arrived <+: block ++ rest)
    (hexamined : c.link.connection.handshaked = true → c.examined = block) :
    c.link.heard <+:
      ((format.decoder limit).intake.run (format.fresh limit) rest).gives := by
  cases hmark : c.link.connection.handshaked with
  | false =>
      rw [h.hears.unheard hmark]
      exact List.nil_prefix
  | true =>
      obtain ⟨seen, hseen, hheard⟩ := h.hears.dispatched
      have hreceived : received <+: c.arrived := by
        rw [← h.hears.receives.wire]
        exact List.prefix_append _ _
      rw [hexamined hmark] at hseen
      obtain ⟨more, rfl⟩ := (List.prefix_append_right_inj block).mp
        ((hseen.trans hreceived).trans hfront)
      exact hheard.trans (Intake.gives_run_prefix _ _ _ _)

/-- They are the first ones that a reader by itself finds there. -/
theorem HandsOver.heard_front
    (h : c.HandsOver setup limit thresholds greeting reply block rest)
    (hfront : c.arrived <+: block ++ rest) :
    c.link.heard <+: ((setup.format.reader limit).readAll [rest] {}).frames := by
  obtain ⟨received, used, g, ht⟩ := h.tracks
  obtain ⟨hframes, -⟩ := setup.format.readAll_eq limit [rest]
  rw [List.flatten_singleton] at hframes
  rw [hframes]
  exact ht.heard_front hfront fun hmark =>
    ((h.negotiates hfront).of_handshaked ht.hears.timely hmark).2

/-- **When nothing is left to do, the rest was read as a reader by itself reads it.** -/
theorem HandsOver.handedOver
    (h : c.HandsOver setup limit thresholds greeting reply block rest)
    (hfront : c.arrived <+: block ++ rest)
    {ending : Except Fault ((setup.format.decoder limit).State × Bytes)}
    (hmark : c.link.connection.handshaked = true) (hrests : c.link.Rests)
    (hrun : (setup.format.decoder limit).intake.run (setup.format.fresh limit) rest =
      ⟨c.link.heard, ending⟩)
    (hfailure : c.failure = (Taken.mk c.link.heard ending).fault?) :
    c.HandedOver (Frame.ofMessage greeting ++ Frame.ofMessage reply) block
      ((setup.format.reader limit).readAll [rest] {}) := by
  obtain ⟨received, used, g, ht⟩ := h.tracks
  obtain ⟨hgreeted, hexamined⟩ := (h.negotiates hfront).of_handshaked ht.hears.timely hmark
  have hreading := setup.format.readAll_eq limit [rest]
  rw [List.flatten_singleton, hrun] at hreading
  obtain ⟨hframes, hstopped⟩ := hreading
  refine ⟨hgreeted, hexamined, ?_, hfailure.trans hstopped.symm⟩
  rw [hframes]
  exact h.ages.outline_of_rests hrests hmark

/-- A fault ends it as it ends the reading. -/
theorem HandsOver.handedOver_of_failure
    (h : c.HandsOver setup limit thresholds greeting reply block rest)
    (hfront : c.arrived <+: block ++ rest) (hclear : c.disturbed = false)
    (hfailure : c.failure.isSome = true) :
    c.HandedOver (Frame.ofMessage greeting ++ Frame.ofMessage reply) block
      ((setup.format.reader limit).readAll [rest] {}) := by
  obtain ⟨received, used, g, ht⟩ := h.tracks
  obtain ⟨fault, hfault⟩ := Option.isSome_iff_exists.mp hfailure
  have hexit : c.exit = some (some fault) := Option.join_eq_some_iff.mp hfault
  have hmark := h.handshaked hfront hclear fault hexit
  obtain ⟨-, hexamined⟩ := (h.negotiates hfront).of_handshaked ht.hears.timely hmark
  have hspoiled := (h.undisturbed hclear).outcome
  simp only [Outcome, hexit] at hspoiled
  have hstopped : c.link.main.Takes = false := by
    have hended := ht.exit
    rw [hexit] at hended
    simpa using hended
  exact h.handedOver hfront hmark (.inr hstopped) ((hspoiled hmark).run hfront hexamined) hfault

/-- When all of it has arrived, and nothing is left to do, it was read to the end. -/
theorem HandsOver.handedOver_of_rests
    (h : c.HandsOver setup limit thresholds greeting reply block rest)
    (hblock : setup.handshake.Completes greeting reply block)
    (harrived : c.arrived = block ++ rest) (hclear : c.disturbed = false) (hrests : c.link.Rests) :
    c.HandedOver (Frame.ofMessage greeting ++ Frame.ofMessage reply) block
      ((setup.format.reader limit).readAll [rest] {}) := by
  have hfront : c.arrived <+: block ++ rest := harrived ▸ List.prefix_refl _
  obtain ⟨received, used, g, ht⟩ := h.tracks
  have hexhausted : c.failure = none → c.Exhausted setup.format limit := by
    intro hfailure
    obtain hdrained | hstopped := hrests
    · exact ht.exhausted hdrained
    · have hended := ht.exit
      rw [hstopped] at hended
      obtain ⟨cause, hcause⟩ := Option.isSome_iff_exists.mp hended
      rw [failure, hcause] at hfailure
      have houtcome := (h.undisturbed hclear).outcome
      cases hfailure
      simp only [Outcome, hcause] at houtcome
      exact houtcome.2
  cases hfailure : c.failure with
  | some fault => exact h.handedOver_of_failure hfront hclear (by rw [hfailure]; rfl)
  | none =>
      obtain ⟨hmark, place, hrun⟩ := (hexhausted hfailure).run (by rw [h.setup_eq]; exact hblock)
        harrived fun hmark => ((h.negotiates hfront).of_handshaked ht.hears.timely hmark).2
      exact h.handedOver hfront hmark hrests hrun hfailure

/-- All of it is dispatched before the owner is told of the closing. -/
theorem HandsOver.outline_front
    (h : c.HandsOver setup limit thresholds greeting reply block rest)
    (hblock : setup.handshake.Completes greeting reply block)
    (harrived : c.arrived = block ++ rest) (hclear : c.disturbed = false) :
    c.link.outline <+: .told .handshaked ::
      ((setup.format.reader limit).readAll [rest] {}).frames.map .dispatched ++
        [.told .closing, .told .closed] := by
  cases htakes : c.link.main.Takes with
  | false =>
      obtain ⟨farewell, hfarewell, houtline⟩ :=
        (h.handedOver_of_rests hblock harrived hclear (.inr htakes)).outline
      rw [houtline]
      exact (List.prefix_append_right_inj _).mpr hfarewell
  | true =>
      have hheard := h.heard_front (harrived ▸ List.prefix_refl _)
      refine (h.ages.outline_of_takes htakes).trans (List.IsPrefix.trans ?_
        (List.prefix_append _ _))
      exact (List.prefix_cons_inj _).mpr (hheard.map _)

end HandedOver

/-- **The upgrade hands over exactly.** However its block and what comes behind it come in: nothing
but the greeting and the reply is sent for it, each once; the handshake consumes the block, and the
frames that are dispatched are the first ones that a reader by itself finds in the rest.

If nothing gets in the way, the connection fails only as that reader does, with all of its frames
dispatched. When all of it has arrived, the owner is told of the handshake, then of all of these
frames, and then only of the end. That it comes to this takes nobody but the main task, once what
arrived was handed over to it. -/
theorem handover (setup : LinkSetup) {greeting reply : Option Bytes} {block : Bytes}
    (hblock : setup.handshake.Completes greeting reply block)
    (hsize : block.length ≤ setup.maxHandshake) (id peer : String) (limit : Nat)
    (hfits : ∀ bs, bs ∈ greeting ∨ bs ∈ reply → bs.length ≤ limit) (input output : Thresholds)
    (capacity : Nat) (moves : List Move) (rest : Bytes) {c : Course}
    (hrun : (new setup id peer limit input output capacity).run? moves = some c)
    (hfront : c.arrived <+: block ++ rest) :
    let messages := Frame.ofMessage greeting ++ Frame.ofMessage reply
    let reading := (setup.format.reader limit).readAll [rest] {}
    (c.greeted <+: messages ∧ c.link.heard <+: reading.frames ∧
      (c.link.connection.handshaked = true → c.greeted = messages ∧ c.examined = block)) ∧
    (c.disturbed = false →
      (c.failure.isSome = true → c.HandedOver messages block reading) ∧
      (c.arrived = block ++ rest →
        (c.link.Rests → c.HandedOver messages block reading) ∧
        c.link.outline <+: .told .handshaked :: reading.frames.map .dispatched ++
          [.told .closing, .told .closed] ∧
        (c.link.main ≠ .unstarted → c.link.wire.arriving = [] →
          c.link.transport.input.behind = [] →
          ∃ n c', c.run? (List.replicate n (.main .work)) = some c' ∧
            (c'.disturbed = false → c'.HandedOver messages block reading)))) := by
  intro messages reading
  have hkept : ∀ {c c' : Course} {moves : List Move},
      c.HandsOver setup limit input greeting reply block rest → c.run? moves = some c' →
      c'.HandsOver setup limit input greeting reply block rest := fun h hrun =>
    invariant_run (fun h hmove => h.move hblock hfits hsize hmove) h hrun
  have h := hkept (handsOver_new setup id peer limit input output capacity) hrun
  obtain ⟨received, used, g, ht⟩ := h.tracks
  have hnegotiates := h.negotiates hfront
  refine ⟨⟨hnegotiates.greeted_front, h.heard_front hfront,
    hnegotiates.of_handshaked ht.hears.timely⟩, fun hclear =>
    ⟨h.handedOver_of_failure hfront hclear, fun harrived =>
      ⟨h.handedOver_of_rests hblock harrived hclear, h.outline_front hblock harrived hclear, ?_⟩⟩⟩
  intro hstarted harriving hbehind
  obtain ⟨n, c', hrun', harrived', hrests⟩ := ht.rests hstarted harriving hbehind
  exact ⟨n, c', hrun', fun hclear' => (hkept h hrun').handedOver_of_rests hblock
    (harrived'.trans harrived) hclear' hrests⟩

/-- A server that allows a head of sixty-four bytes. -/
def smallServer : Course :=
  new { handshake := .upgradeServer, format := .webSocket, maxHandshake := 64 } "near" "far" 256
    {} {} 64

/-- A request with the key "k". -/
def knock : Bytes :=
  Bytes.ofString "GET / HTTP/1.1\r\nSec-WebSocket-Key: k\r\n\r\n"

/-- A frame under the identifier "i" in an envelope. -/
def noteBytes : Bytes :=
  [130, 11, 0, 0, 0, 1, 105, 0, 0, 0, 2, 1, 2]

/-- The server looks at the request without its last byte, then that comes in with the frame. -/
def knockMoves : List Move :=
  .start :: List.replicate 3 (.main .work) ++ .arrive (knock.take 39) ::
    List.replicate 4 (.receiver .work 2048) ++ List.replicate 6 (.main .work) ++
    .arrive (knock.drop 39 ++ noteBytes) :: List.replicate 4 (.receiver .work 2048) ++
    List.replicate 11 (.main .work)

/-- The main task sleeps until there is something to read. -/
def parked (c : Course) : Bool :=
  c.link.main matches .waiting .parked

theorem handover_of_knock : ∃ c, smallServer.run? knockMoves = some c ∧
    c.judged = [knock.take 39, knock ++ noteBytes] ∧
    c.link.heard = [.received "i" [1, 2]] ∧
    c.HandedOver [.raw (Bytes.ofString (Upgrade.response "k"))] knock
      ((WireFormat.webSocket.reader 256).readAll [noteBytes] {}) := by
  have hblock : Handshake.upgradeServer.Completes none
      (some (Bytes.ofString (Upgrade.response "k"))) knock := by
    have hread : (Upgrade.readRequest knock).toOption = some "k" := by decide +kernel
    refine .server (by decide +kernel) ?_
    cases hkey : Upgrade.readRequest knock with
    | error v =>
        rw [hkey] at hread
        cases hread
    | ok key =>
        rw [hkey] at hread
        cases hread
        rfl
  have hfits : ∀ bs, bs ∈ (none : Option Bytes) ∨
      bs ∈ some (Bytes.ofString (Upgrade.response "k")) → bs.length ≤ 256 := by
    rintro bs (hnone | hsome)
    · cases hnone
    · cases hsome
      decide +kernel
  have hseen : (smallServer.run? knockMoves).map (fun c =>
      (c.arrived, c.judged, c.disturbed, c.link.heard)) =
      some (knock ++ noteBytes, [knock.take 39, knock ++ noteBytes], false,
        [.received "i" [1, 2]]) := by
    decide +kernel
  have hstage : (smallServer.run? knockMoves).map (fun c =>
      (c.link.wire.arriving, c.link.transport.input.behind, c.parked,
        c.link.transport.input.dataSignal.waiter)) = some ([], [], true, .waiting) := by
    decide +kernel
  obtain ⟨c, hrun, hc⟩ := Option.map_eq_some_iff.mp hseen
  rw [hrun] at hstage
  simp only [Option.map_some, Option.some.injEq, Prod.mk.injEq] at hc hstage
  obtain ⟨harrived, hjudged, hclear, hheard⟩ := hc
  obtain ⟨harriving, hbehind, hmain, hwaiter⟩ := hstage
  have hrests : c.link.Rests := by
    refine .inl ⟨harriving, hbehind, ?_, by rw [hwaiter]; exact Waiter.noConfusion⟩
    unfold parked at hmain
    split at hmain
    · assumption
    · cases hmain
  obtain ⟨-, hcalm⟩ := handover _ hblock (by decide +kernel) "near" "far" 256 hfits {} {} 64
    knockMoves noteBytes hrun (harrived ▸ List.prefix_refl _)
  exact ⟨c, hrun, hjudged, hheard, ((hcalm hclear).2 harrived).1 hrests⟩

end Course

end Courier
