import Courier.Proofs.Handshake.Exchange
import Courier.Proofs.Link.Negotiation
import Courier.Proofs.Link.Relay

/-!
Courier.Proofs.Link.Delivery — what one end accepts, the other one dispatches.

What a relay delivers hangs on the handshakes of its two ends: the far one has to consume what the
near one sent, and nothing else. It does if both go by the same rule for where a block ends
(`BlockRule`): the near handshake sends one block (`Handshake.Offers`) and the far one consumes one
(`Handshake.Awaits`). A rule looks no further than the end of the block, so it makes no difference
how much of the stream is there. This holds of ends without a handshake, where the block is empty,
and of the two sides of the upgrade, where it is a head (`Relay.Pairing.Fitting.shaken_of_run`).
-/

namespace Courier

/-! ## 1. Blocks -/

/-- A rule for the size of the block with which a stream begins. It is known as soon as all of the
block is there, and what comes behind the block does not change it. -/
structure BlockRule where
  size? : Bytes → Option Nat
  append : ∀ {bs n}, size? bs = some n → ∀ more, size? (bs ++ more) = some n
  le : ∀ {bs n}, size? bs = some n → n ≤ bs.length

namespace BlockRule

/-- A stream that begins with its frames. -/
def empty : BlockRule where
  size? _ := some 0
  append h _ := h
  le h := by
    cases h
    exact Nat.zero_le _

/-- A stream that begins with a head. -/
def head : BlockRule where
  size? := Upgrade.headSize?
  append := Upgrade.headSize?_append
  le := Upgrade.headSize?_le

variable {rule : BlockRule} {bs : Bytes}

/-- The bytes are a block, and nothing behind it. -/
def IsBlock (rule : BlockRule) (bs : Bytes) : Prop :=
  rule.size? bs = some bs.length

/-- If there is a block in the bytes, it is all of them. -/
def AtMost (rule : BlockRule) (bs : Bytes) : Prop :=
  ∀ n, rule.size? bs = some n → n = bs.length

theorem IsBlock.atMost (h : rule.IsBlock bs) : rule.AtMost bs := by
  intro n hn
  cases hn.symm.trans h
  rfl

theorem atMost_nil (rule : BlockRule) : rule.AtMost [] :=
  fun _ hn => Nat.le_zero.mp (rule.le hn)

end BlockRule

/-! ## 2. Handshakes that go by a rule -/

namespace Handshake

variable {rule : BlockRule}

/-- What a handshake sends is one block, in its greeting and its reply together. -/
structure Offers (rule : BlockRule) (h : Handshake) : Prop where
  greeting : ∀ {message complete}, h.opening = .proceed message complete →
    rule.AtMost (message.getD []) ∧ (complete = true → rule.IsBlock (message.getD []))
  reply : ∀ {message complete bs answer size}, h.opening = .proceed message complete →
    h.judge bs = .accepted answer size → rule.IsBlock (message.getD [] ++ answer.getD [])

/-- What a handshake consumes is one block. -/
structure Awaits (rule : BlockRule) (h : Handshake) : Prop where
  greeting : ∀ {message}, h.opening = .proceed message true → rule.size? [] = some 0
  judge : ∀ {bs answer size}, h.judge bs = .accepted answer size → rule.size? bs = some size

theorem offers_instant : instant.Offers .empty where
  greeting hopening := by
    cases hopening
    exact ⟨BlockRule.atMost_nil _, fun _ => rfl⟩
  reply hopening hjudge := by
    cases hopening
    cases hjudge
    rfl

theorem awaits_instant : instant.Awaits .empty where
  greeting _ := rfl
  judge hjudge := by
    cases hjudge
    rfl

open Http Upgrade

/-- What a server sends is a head. -/
theorem isBlock_response (key : String) :
    BlockRule.head.IsBlock (Bytes.ofString (response key)) :=
  headSize?_response key

/-- What a client sends is a head. -/
theorem isBlock_request (target : Word isTarget) (host key : Value) :
    BlockRule.head.IsBlock (Bytes.ofString (request host.text target.text key.text)) :=
  headSize?_request target host key

/-- A server sends its response, and nothing before it. -/
theorem offers_upgradeServer : upgradeServer.Offers .head where
  greeting hopening := by
    cases hopening
    exact ⟨BlockRule.atMost_nil _, fun h => by cases h⟩
  reply hopening hjudge := by
    cases hopening
    obtain ⟨key, -, -, rfl⟩ := judgeRequest_eq_accepted hjudge
    rw [Option.getD_none, Option.getD_some, List.nil_append]
    exact isBlock_response key

/-- A client sends its request, and nothing behind it. -/
theorem offers_upgradeClient (target : Word isTarget) (host key : Value) :
    (upgradeClient host.text target.text key.text).Offers .head where
  greeting hopening := by
    cases hopening
    exact ⟨(isBlock_request target host key).atMost, fun h => by cases h⟩
  reply hopening hjudge := by
    cases hopening
    obtain ⟨-, rfl⟩ := judgeResponse_eq_accepted hjudge
    rw [Option.getD_none, Option.getD_some, List.append_nil]
    exact isBlock_request target host key

/-- Either side of the upgrade consumes a head. -/
theorem Upgrades.awaits {h : Handshake} (hside : h.Upgrades) : h.Awaits .head where
  greeting hopening := by
    obtain ⟨_, hproceed⟩ := hside.opening_eq
    cases hproceed.symm.trans hopening
  judge hjudge := by
    cases hside with
    | server =>
        obtain ⟨_, hsize, -, -⟩ := judgeRequest_eq_accepted hjudge
        exact hsize
    | client host path key => exact (judgeResponse_eq_accepted hjudge).1

end Handshake

/-! ## 3. What is sent and what is consumed -/

theorem WireFormat.flatMap_outgoing_ofMessage (format : WireFormat) (message : Option Bytes) :
    (Frame.ofMessage message).flatMap format.outgoing = message.getD [] := by
  cases message with
  | none => rfl
  | some bs =>
      show format.outgoing (.raw bs) ++ [] = bs
      rw [List.append_nil]
      exact List.append_nil bs

namespace Link

/-- What a link has sent for its handshake. -/
inductive Greeted (rule : BlockRule) (l : Link) : Bytes → Prop where
  /-- the handshake has not begun -/
  | silent (stage : l.main.chapter = .silent) : Greeted rule l []
  /-- it could not begin -/
  | mute (stopped : l.main.Takes = false) (pending : ¬ l.Agreed) : Greeted rule l []
  /-- it waits for what the peer sends -/
  | asks {message : Option Bytes} {complete : Bool} (begun : l.main.chapter ≠ .silent)
      (pending : ¬ l.Agreed) (opening : l.setup.handshake.opening = .proceed message complete) :
      Greeted rule l (message.getD [])
  /-- it is complete -/
  | agrees {greeting : Bytes} (agreed : l.Agreed) (block : rule.IsBlock greeting) :
      Greeted rule l greeting

/-- Once the handshake of a link is complete, it has consumed the block with which the stream
begins. -/
def Consumed (rule : BlockRule) (l : Link) (stream examined : Bytes) : Prop :=
  l.Agreed → rule.size? stream = some examined.length ∧ examined <+: stream

section Blocks

variable {rule : BlockRule} {l l' : Link} {m : Move} {portion : Portion}
variable {greeting stream examined : Bytes}

/-- What the handshake queues, as bytes. -/
theorem flatMap_greets {message : Option Bytes} (format : WireFormat)
    (hstage : l.main = .opening ∨ ∃ portion, l.main = .examining portion)
    (hgrows : Connection.Grows (Frame.ofMessage message) l.connection l'.connection) :
    (l.greets (.main .work) l').flatMap format.outgoing = message.getD [] := by
  rw [greets_of_grows hstage hgrows, format.flatMap_outgoing_ofMessage]

theorem Greeted.atMost (h : l.Greeted rule greeting) (hoffers : l.setup.handshake.Offers rule) :
    rule.AtMost greeting := by
  cases h with
  | silent | mute => exact rule.atMost_nil
  | asks begun pending opening => exact (hoffers.greeting opening).1
  | agrees agreed block => exact block.atMost

theorem Greeted.isBlock (h : l.Greeted rule greeting) (ht : l.Timely) (hagreed : l.Agreed) :
    rule.IsBlock greeting := by
  cases h with
  | silent stage => exact absurd hagreed (ht.not_agreed_of_silent stage)
  | mute stopped pending | asks begun pending => exact absurd hagreed pending
  | agrees agreed block => exact block

/-- Before the handshake nothing was sent for it. -/
theorem Greeted.eq_nil (h : l.Greeted rule greeting) (ht : l.Timely)
    (hstage : l.main = .opening) : greeting = [] := by
  have hsilent : l.main.chapter = .silent := by
    rw [hstage]
    rfl
  cases h with
  | silent | mute => rfl
  | asks begun => exact absurd hsilent begun
  | agrees agreed => exact absurd agreed (ht.not_agreed_of_silent hsilent)

/-- While it is shown what came in, its greeting was sent. -/
theorem Greeted.eq_opening (h : l.Greeted rule greeting) (ht : l.Timely)
    (hstage : l.main = .examining portion) : ∃ message complete,
      l.setup.handshake.opening = .proceed message complete ∧ greeting = message.getD [] := by
  cases h with
  | silent stage | mute stage =>
      rw [hstage] at stage
      cases stage
  | asks begun pending opening => exact ⟨_, _, opening, rfl⟩
  | agrees agreed =>
      have hmark : l.connection.handshaked = false := ht.early (by rw [hstage]; trivial)
      exact absurd agreed (not_agreed_of_serving hmark (by rw [hstage]; rfl))

/-- **What is sent for the handshake** is its greeting, and all of its block once it is complete. -/
theorem Greeted.move (h : l.Greeted rule greeting) (ht : l.Timely)
    (hoffers : l.setup.handshake.Offers rule) (hmove : l.move? m = some l') :
    l'.Greeted rule (greeting ++ (l.greets m l').flatMap l.setup.format.outgoing) := by
  have hopening : ∀ {opening}, l.setup.handshake.opening = opening →
      l'.setup.handshake.opening = opening :=
    (congrArg (·.handshake.opening) (move_keeps hmove).1).trans
  by_cases hturn : l.Negotiating m
  · obtain ⟨rfl, hmark, hspeaks⟩ := speaks_of_negotiating ht hmove hturn
    have hpending : l'.main.chapter = .serving → ¬ l'.Agreed := not_agreed_of_serving hmark
    cases hspeaks with
    | fails stage grows main_eq =>
        rw [greets_of_grows (.inl stage) grows, h.eq_nil ht stage]
        exact .mute (congrArg MainStage.Takes main_eq)
          (hpending (congrArg MainStage.chapter main_eq))
    | completes stage opening grows main_eq =>
        rw [flatMap_greets _ (.inl stage) grows, h.eq_nil ht stage, List.nil_append]
        exact .agrees (.inr (congrArg MainStage.chapter main_eq))
          ((hoffers.greeting opening).2 rfl)
    | opens stage opening grows main_eq =>
        have hserving : l'.main.chapter = .serving := congrArg MainStage.chapter main_eq
        rw [flatMap_greets _ (.inl stage) grows, h.eq_nil ht stage, List.nil_append]
        exact .asks (ne_of_eq_of_ne hserving Chapter.noConfusion) (hpending hserving)
          (hopening opening)
    | rejects stage grows main_eq | waits stage grows main_eq =>
        have hserving : l'.main.chapter = .serving := congrArg MainStage.chapter main_eq
        obtain ⟨message, complete, opening, rfl⟩ := h.eq_opening ht stage
        rw [greets_of_grows (.inr ⟨_, stage⟩) grows, List.flatMap_nil, List.append_nil]
        exact .asks (ne_of_eq_of_ne hserving Chapter.noConfusion) (hpending hserving)
          (hopening opening)
    | replies stage judge grows main_eq =>
        obtain ⟨message, complete, opening, rfl⟩ := h.eq_opening ht stage
        rw [flatMap_greets _ (.inr ⟨_, stage⟩) grows]
        exact .agrees (.inr (congrArg MainStage.chapter main_eq)) (hoffers.reply opening judge)
  · rw [greets_of_not_negotiating hturn, List.flatMap_nil, List.append_nil]
    obtain ⟨hsilent, hagreed⟩ := move_apart ht hmove hturn
    cases h with
    | silent stage => exact .silent (hsilent.mpr stage)
    | mute stopped pending =>
        exact .mute (same_of_not_takes hmove stopped).1 (mt hagreed.mp pending)
    | asks begun pending opening =>
        exact .asks (mt hsilent.mp begun) (mt hagreed.mp pending) (hopening opening)
    | agrees agreed block => exact .agrees (hagreed.mpr agreed) block

/-- What is still to come does not change what was consumed. -/
theorem Consumed.grow {stream' : Bytes} (h : l.Consumed rule stream examined)
    (hfront : stream <+: stream') : l.Consumed rule stream' examined := by
  intro hagreed
  obtain ⟨more, rfl⟩ := hfront
  obtain ⟨hsize, hexamined⟩ := h hagreed
  exact ⟨rule.append hsize more, hexamined.trans (List.prefix_append _ _)⟩

/-- **What the handshake consumes** is the block with which the stream begins. -/
theorem Consumed.move {format : WireFormat} {limit : Nat} {arrived received used : Bytes}
    (h : l.Consumed rule stream examined)
    (hhears : l.Hears format limit arrived received examined used) (hfront : arrived <+: stream)
    (hawaits : l.setup.handshake.Awaits rule) (hmove : l.move? m = some l') :
    l'.Consumed rule stream (examined ++ l.examines m l') := by
  by_cases hturn : l.Negotiating m
  · obtain ⟨rfl, hmark, hspeaks⟩ := speaks_of_negotiating hhears.timely hmove hturn
    have hpending : l'.main.chapter = .serving → ¬ l'.Agreed := not_agreed_of_serving hmark
    have hprogress := hhears.progress
    cases hspeaks with
    | fails stage grows main_eq | opens stage opening grows main_eq | rejects stage grows main_eq
      | waits stage grows main_eq =>
        exact fun hagreed => absurd hagreed (hpending (congrArg MainStage.chapter main_eq))
    | completes stage opening grows main_eq =>
        simp only [Progress, stage] at hprogress
        obtain ⟨rfl, -, -⟩ := hprogress
        rw [examines_eq_nil (by simp [main_eq]), List.append_nil]
        exact fun _ => ⟨rule.append (hawaits.greeting opening) stream, List.nil_prefix⟩
    | @replies portion answer size stage judge grows main_eq =>
        simp only [Progress, stage] at hprogress
        obtain ⟨rfl, -, -⟩ := hprogress
        have hsound := hhears.receives.main_sound portion (by rw [stage]; rfl)
        have hblock := hawaits.judge judge
        obtain ⟨more, rfl⟩ := (hhears.examining_front stage).trans hfront
        intro _
        rw [examines_of_replies hsound stage main_eq, List.nil_append, List.length_take,
          Nat.min_eq_left (rule.le hblock)]
        exact ⟨rule.append hblock more, (List.take_prefix _ _).trans (List.prefix_append _ _)⟩
  · rw [examines_of_not_negotiating hturn, List.append_nil]
    exact fun hagreed => h ((move_apart hhears.timely hmove hturn).agreed_iff.mp hagreed)

end Blocks

end Link

/-! ## 4. Ends that fit -/

namespace Relay

/-- The handshakes of both ends go by a rule: what the near one sent is no more than a block, and
the far one consumes the block with which all begins that the near end has to send. -/
structure Fits (rule : BlockRule) (p : Pairing) (r : Relay) : Prop where
  greeted : r.near.Greeted rule r.greeting
  consumed : r.far.Consumed rule (r.outgoing p.near.setup.format) r.examined
  setup_eq : r.far.setup = p.far.setup

/-- Two ends whose handshakes fit: both have none, or they are the two sides of the upgrade. -/
inductive Pairing.Fitting (p : Pairing) : Prop where
  | bare (near : p.near.setup.handshake = .instant) (far : p.far.setup.handshake = .instant) :
      Fitting p
  | asking (target : Http.Word Http.isTarget) (host key : Http.Value)
      (near : p.near.setup.handshake = .upgradeClient host.text target.text key.text)
      (far : p.far.setup.handshake = .upgradeServer) : Fitting p
  | answering (host path key : String) (near : p.near.setup.handshake = .upgradeServer)
      (far : p.far.setup.handshake = .upgradeClient host path key) : Fitting p

section Fits

variable {rule : BlockRule} {p : Pairing} {r r' : Relay}

theorem fits_relay (rule : BlockRule) (p : Pairing) : p.relay.Fits rule p where
  greeted := .silent rfl
  consumed hagreed := absurd hagreed (Link.not_agreed_of_early rfl Chapter.noConfusion)
  setup_eq := rfl

theorem Fits.nearMove {m : Move} (h : r.Fits rule p) (ht : r.Tied p)
    (hoffers : p.near.setup.handshake.Offers rule) (hmove : r.nearMove? m = some r') :
    r'.Fits rule p := by
  rw [← ht.setup_eq] at hoffers
  obtain ⟨-, -, near, hnear, hr'⟩ := nearMove?_eq hmove
  have hconsumed := h.consumed.grow ⟨_, (ht.outgoing_nearMove hnear hmove).symm⟩
  subst hr'
  exact ⟨h.greeted.move ht.timely hoffers hnear, hconsumed, h.setup_eq⟩

theorem Fits.farMove {m : Move} (h : r.Fits rule p) (ht : r.Tied p)
    (hawaits : p.far.setup.handshake.Awaits rule) (hmove : r.farMove? m = some r') :
    r'.Fits rule p := by
  rw [← h.setup_eq] at hawaits
  obtain ⟨-, far, hfar, rfl⟩ := farMove?_eq hmove
  obtain ⟨written, sent, arrived, received, used, hsends, hhears⟩ := ht.way
  have hfront := (List.prefix_append arrived r.transit).trans hsends.taken_prefix
  exact ⟨h.greeted, h.consumed.move hhears hfront hawaits hfar,
    (Link.move_keeps hfar).1.trans h.setup_eq⟩

/-- **Every turn goes by the rule.** -/
theorem Fits.move {t : Turn} (h : r.Fits rule p) (ht : r.Tied p)
    (hoffers : p.near.setup.handshake.Offers rule) (hawaits : p.far.setup.handshake.Awaits rule)
    (hmove : r.move? t = some r') : r'.Fits rule p := by
  cases t with
  | near m => exact h.nearMove ht hoffers hmove
  | far m => exact h.farMove ht hawaits hmove
  | depart most =>
      cases hmove
      rw [← ht.setup_eq] at hoffers
      -- nothing is queued by a departure
      have hgreeted := h.greeted.move (m := .depart most) ht.timely hoffers rfl
      exact ⟨(List.append_nil r.greeting) ▸ hgreeted, h.consumed, h.setup_eq⟩
  | arrive most =>
      cases hmove
      exact ⟨h.greeted, h.consumed, h.setup_eq⟩

theorem Fits.run {turns : List Turn} (h : r.Fits rule p) (ht : r.Tied p)
    (hoffers : p.near.setup.handshake.Offers rule) (hawaits : p.far.setup.handshake.Awaits rule)
    (hrun : r.run? turns = some r') : r'.Fits rule p := by
  induction turns generalizing r with
  | nil =>
      cases hrun
      exact h
  | cons t turns ih =>
      simp only [run?] at hrun
      split at hrun
      · cases hrun
      · next hmove => exact ih (h.move ht hoffers hawaits hmove) (ht.move hmove) hrun

/-- Frames come only behind a whole block, so the first block of all that the near end has to send
is what its handshake sent. -/
theorem Fits.shaken (h : r.Fits rule p) (ht : r.Tied p)
    (hoffers : p.near.setup.handshake.Offers rule) : r.Shaken := by
  intro hmark
  obtain ⟨hsize, hfront⟩ := h.consumed (.inl hmark)
  have hlength : r.examined.length = r.greeting.length := by
    -- before the first frame the near handshake may be under way: what it has sent is at most one
    -- block
    by_cases haccepted : r.accepted = []
    · rw [← ht.setup_eq] at hoffers
      unfold outgoing at hsize
      rw [haccepted, List.flatMap_nil, List.append_nil] at hsize
      exact h.greeted.atMost hoffers _ hsize
    · have hblock := h.greeted.isBlock ht.timely (.inl (ht.late haccepted))
      exact Option.some.inj (hsize.symm.trans (rule.append hblock _))
  obtain ⟨more, hmore⟩ := hfront
  exact (List.append_inj hmore hlength).1

end Fits

/-- **Between ends whose handshakes fit the one consumes what the other one sent**, at every moment
of every run. -/
theorem Pairing.Fitting.shaken_of_run {p : Pairing} (h : p.Fitting) {turns : List Turn} {r : Relay}
    (hrun : p.relay.run? turns = some r) : r.Shaken := by
  have hrule : ∃ rule, p.near.setup.handshake.Offers rule ∧ p.far.setup.handshake.Awaits rule := by
    cases h with
    | bare near far =>
        rw [near, far]
        exact ⟨.empty, Handshake.offers_instant, Handshake.awaits_instant⟩
    | asking target host key near far =>
        rw [near, far]
        exact ⟨.head, Handshake.offers_upgradeClient target host key,
          Handshake.Upgrades.server.awaits⟩
    | answering host path key near far =>
        rw [near, far]
        exact ⟨.head, Handshake.offers_upgradeServer,
          (Handshake.Upgrades.client host path key).awaits⟩
  obtain ⟨rule, hoffers, hawaits⟩ := hrule
  have hfits := (fits_relay rule p).run (tied_relay p) hoffers hawaits hrun
  exact hfits.shaken ((tied_relay p).run hrun) hoffers

/-! ## 5. The whole way -/

/-- **What one end accepts the other one dispatches**, at every moment of every run: the same
identifiers and payloads in the same order, nothing left out, doubled or altered; and all of them
once nothing is left on the way and nothing has cut it. -/
theorem delivered_prefix_promised (p : Pairing) (turns : List Turn) {r : Relay}
    (hrun : p.relay.run? turns = some r) (hshaken : r.Shaken) :
    r.delivered <+: r.promised ∧ (r.Unbroken → r.Idle → r.delivered = r.promised) := by
  have htied := (tied_relay p).run hrun
  exact ⟨htied.delivered_prefix hshaken, htied.delivered_eq hshaken⟩

/-- A client and a server of the upgrade. The client's output pauses at sixteen bytes, and the
stream to the server holds sixty-four. -/
def Pairing.upgraded : Pairing where
  near :=
    { setup := { handshake := .upgradeClient "h" "/" "k", format := .webSocket }, id := "near"
      peer := "far", output := { pause := 16, resume := 8 }, capacity := 256 }
  far :=
    { setup := { handshake := .upgradeServer, format := .webSocket }, id := "far", peer := "near"
      capacity := 64 }
  limit := 256
  same_format := rfl
  limit_le := by decide

theorem Pairing.fitting_upgraded : Pairing.upgraded.Fitting :=
  .asking ⟨"/", by decide +kernel, by decide +kernel⟩ ⟨"h", by decide +kernel⟩
    ⟨"k", by decide +kernel⟩ rfl rfl

/-- The request goes through the stream in two parts and the response comes back; then two frames
are sent, which are more than the output takes. -/
def suspendingTurns : List Turn :=
  let asking := Move.start :: List.replicate 3 (.main .work) ++ List.replicate 5 (.writer .work) ++
    List.replicate 8 (.sender .work 128) ++ List.replicate 2 (.writer .work)
  let listening := Move.start :: List.replicate 3 (.main .work)
  let asked := List.replicate 5 (Move.receiver .work 64) ++ List.replicate 6 (.main .work)
  let answering := List.replicate 4 (Move.receiver .work 64) ++ List.replicate 10 (.main .work)
  let answered := Move.arrive (Bytes.ofString (Upgrade.response "k")) ::
    List.replicate 5 (.receiver .work 256) ++ List.replicate 10 (.main .work)
  let writing := Move.call (.send "a" [1, 2, 3]) :: .call (.send "b" []) ::
    List.replicate 6 (.writer .work)
  [asking.map .near, listening.map .far, [.depart 128, .arrive 128], asked.map .far, [.arrive 128],
    answering.map .far, answered.map .near, writing.map .near].flatten

/-- One more frame is queued, and the sender makes room for it. The server is shown the first frame
and a front of the second one before it is shown the rest. -/
def resumingTurns : List Turn :=
  let sending := Move.call (.send "c" [9]) :: List.replicate 9 (.sender .work 10)
  let receiving := List.replicate 4 (Move.receiver .work 64) ++ List.replicate 7 (.main .work)
  let writing := List.replicate 6 (Move.writer .work) ++ List.replicate 8 (.sender .work 10)
  [sending.map .near, [.depart 64, .arrive 20], receiving.map .far, writing.map .near,
    [.depart 64, .arrive 64], receiving.map .far, [.far (.main .work)]].flatten

/-- The main task waits for input. -/
def waits (l : Link) : Bool :=
  match l.main with
  | .waiting _ => true
  | _ => false

/-- The flush behind the first two frames is suspended, and all three frames are delivered. -/
theorem delivered_of_upgraded :
    (∃ r, Pairing.upgraded.relay.run? suspendingTurns = some r ∧
      r.near.writer = .flushing .parked ∧
      r.promised = [(some "a", [1, 2, 3]), (some "b", [])] ∧ r.delivered = []) ∧
    ∃ r, Pairing.upgraded.relay.run? (suspendingTurns ++ resumingTurns) = some r ∧ r.Shaken ∧
      r.Unbroken ∧ r.Idle ∧
      r.delivered = [(some "a", [1, 2, 3]), (some "b", []), (some "c", [9])] := by
  have hsuspended : (Pairing.upgraded.relay.run? suspendingTurns).map (fun r =>
      (r.promised, r.delivered, r.near.writer)) =
      some ([(some "a", [1, 2, 3]), (some "b", [])], [], .flushing .parked) := by
    decide +kernel
  have hseen : (Pairing.upgraded.relay.run? (suspendingTurns ++ resumingTurns)).map (fun r =>
      (r.promised, [r.near.wire.departing, r.near.transport.output.pendingBytes, r.transit,
        r.far.wire.arriving, r.far.transport.input.pendingBytes], r.near.connection.queue,
      [r.near.connection.accepting, !r.near.transport.output.readerCompleted,
        !r.near.wire.peerGone, !r.near.wire.departingEnded, r.far.connection.handshaked,
        waits r.far])) =
      some ([(some "a", [1, 2, 3]), (some "b", []), (some "c", [9])], [[], [], [], [], []], [],
        [true, true, true, true, true, true]) := by
    decide +kernel
  obtain ⟨s, hrun, hs⟩ := Option.map_eq_some_iff.mp hsuspended
  simp only [Prod.mk.injEq] at hs
  obtain ⟨hpromised, hdelivered, hwriter⟩ := hs
  refine ⟨⟨s, hrun, hwriter, hpromised, hdelivered⟩, ?_⟩
  obtain ⟨r, hrun, hr⟩ := Option.map_eq_some_iff.mp hseen
  simp only [Prod.mk.injEq, List.cons.injEq, Bool.not_eq_true', and_true] at hr
  obtain ⟨hpromised, ⟨hdeparting, houtput, htransit, harriving, hinput⟩, hqueue, haccepting, hread,
    htaken, hsending, hmark, hwaits⟩ := hr
  have hshaken : r.Shaken := Pairing.fitting_upgraded.shaken_of_run hrun
  have hunbroken : r.Unbroken := ⟨haccepting, hread, htaken, hsending⟩
  have hwaiting : ∃ read, r.far.main = .waiting read := by
    unfold waits at hwaits
    split at hwaits
    · next read hstage => exact ⟨read, hstage⟩
    · cases hwaits
  have hidle : r.Idle :=
    ⟨hqueue, houtput, hdeparting, htransit, harriving, hinput, hmark, hwaiting⟩
  refine ⟨r, hrun, hshaken, hunbroken, hidle, ?_⟩
  exact ((delivered_prefix_promised Pairing.upgraded _ hrun hshaken).2 hunbroken hidle).trans
    hpromised

end Relay

end Courier
