import Courier.Proofs.Handshake.Upgrade
import Courier.Proofs.Link.Calm

/-!
Courier.Proofs.Link.Negotiation — how the upgrade goes on a connection.

A handshake has its turn when it begins and when it is shown something, and `Link.Speaks` says all
that a turn can come to; no other move has a part in it (`Link.move_apart`). The upgrade is shown
the same bytes again and again, from the start and a little more of them each time, until all of its
block is there; only then does it send its reply and consume anything, and what it consumes is the
block. So there are few things that an upgrade can have come to (`Course.Negotiates`), and every
move goes on with it (`Course.Negotiates.move`). If nothing gets in the way, it does not fail
(`Course.Tracks.handshaked_of_exits`).
-/

namespace Courier

/-! ## 1. What the handshake sends -/

/-- A message that is sent as bare bytes. -/
def Frame.ofMessage (message : Option Bytes) : List Frame :=
  message.toList.map .raw

namespace Connection

variable {h : Handshake} {greeting reply message : Option Bytes} {block rest : Bytes}
variable {c c' : Connection} {b b' : Buffer} {cause : Fault}

theorem validate_raw {bs : Bytes} {limit : Nat} (hfits : bs.length ≤ limit) :
    (Frame.raw bs).validate limit = .ok () := by
  have hidentifier : ¬ Frame.maxIdentifierSize < (Frame.raw bs).identifierBytes.length :=
    Nat.not_lt_zero _
  have hpayload : ¬ limit < (Frame.raw bs).payload.length := Nat.not_lt.mpr hfits
  unfold Frame.validate
  rw [if_neg hidentifier, if_neg hpayload]

/-- Bare bytes are queued, unless they are too long or the connection is at its end. -/
theorem exists_sendIfAny (hfits : ∀ bs ∈ message, bs.length ≤ c.maxPayload)
    (huncancelled : c.cancelled = false) (haccepting : c.accepting = true) :
    ∃ c', Handshake.sendIfAny rawSender message c = .ok c' := by
  cases message with
  | none => exact ⟨c, rfl⟩
  | some bs =>
      have hvalid : (Frame.raw bs).validate c.maxPayload = .ok () := validate_raw (hfits bs rfl)
      refine ⟨{ c with queue := c.queue ++ [.raw bs] }, ?_⟩
      simp [Handshake.sendIfAny, rawSender, sendRaw, enqueue, hvalid, huncancelled, haccepting]

/-- The upgrade begins with its greeting. -/
theorem start_cases (hblock : h.Completes greeting reply block)
    {outcome : Except Fault Bool} (hstart : h.start rawSender c = (outcome, c')) :
    (∃ cause, outcome = .error cause ∧ c' = c ∧
      Handshake.sendIfAny rawSender greeting c = .error cause) ∨
    outcome = .ok false ∧ Handshake.sendIfAny rawSender greeting c = .ok c' := by
  have hopening := hblock.opening_eq
  cases Handshake.starts_of_eq hstart with
  | failed opening => cases hopening.symm.trans opening
  | refused opening sends =>
      cases hopening.symm.trans opening
      exact .inl ⟨_, rfl, rfl, sends⟩
  | opened opening sends =>
      cases hopening.symm.trans opening
      exact .inr ⟨rfl, sends⟩

/-- Shown some of the block, the upgrade waits; shown all of it, it replies and consumes it. -/
theorem examine_cases (hblock : h.Completes greeting reply block)
    (hfront : b.toList <+: block ++ rest) {outcome : Except Fault Bool}
    (hexamine : h.examine rawSender b c = (outcome, b', c')) :
    (b.toList.length < block.length ∧ outcome = .ok false ∧ b' = b ∧ c' = c) ∨
    (block.length ≤ b.toList.length ∧
      ((∃ cause, outcome = .error cause ∧ c' = c ∧
          Handshake.sendIfAny rawSender reply c = .error cause) ∨
        outcome = .ok true ∧ b' = b.drop block.length ∧
          Handshake.sendIfAny rawSender reply c = .ok c')) := by
  have hjudge := hblock.judge_eq hfront
  rcases Nat.lt_or_ge b.toList.length block.length with hlt | hle
  · rw [if_neg (Nat.not_le.mpr hlt)] at hjudge
    cases Handshake.examines_of_eq hexamine with
    | pending judge => exact .inl ⟨hlt, rfl, rfl, rfl⟩
    | rejected judge | refused judge sends | completed judge sends =>
        cases hjudge.symm.trans judge
  · rw [if_pos hle] at hjudge
    cases Handshake.examines_of_eq hexamine with
    | pending judge | rejected judge => cases hjudge.symm.trans judge
    | refused judge sends =>
        cases hjudge.symm.trans judge
        exact .inr ⟨hle, .inl ⟨_, rfl, rfl, sends⟩⟩
    | completed judge sends =>
        cases hjudge.symm.trans judge
        exact .inr ⟨hle, .inr ⟨rfl, rfl, sends⟩⟩

end Connection

/-! ## 2. Whose turn it is -/

/-- Neither has the handshake to begin, nor is it about to be marked. -/
def Chapter.Working : Chapter → Prop
  | .silent | .sealing => False
  | _ => True

namespace Link

/-- The handshake is complete. -/
def Agreed (l : Link) : Prop :=
  l.connection.handshaked = true ∨ l.main.chapter = .sealing

/-- It is the handshake's turn: it is about to begin, or to be shown something. -/
def Negotiating (m : Move) (l : Link) : Prop :=
  m = .main .work ∧ (l.main = .opening ∨ ∃ portion, l.main = .examining portion)

section Agreed

variable {l l' : Link} {m : Move}

theorem greets_of_not_negotiating (h : ¬ l.Negotiating m) : l.greets m l' = [] := by
  unfold greets
  split
  · next hstage => exact absurd ⟨rfl, .inl hstage⟩ h
  · next hstage => exact absurd ⟨rfl, .inr ⟨_, hstage⟩⟩ h
  · rfl

theorem examines_of_not_negotiating (h : ¬ l.Negotiating m) : l.examines m l' = [] := by
  unfold examines
  split
  · next hstage _ => exact absurd ⟨rfl, .inr ⟨_, hstage⟩⟩ h
  · rfl

/-- What the handshake queues is sent for it. -/
theorem greets_of_grows {fs : List Frame}
    (hstage : l.main = .opening ∨ ∃ portion, l.main = .examining portion)
    (hgrows : Connection.Grows fs l.connection l'.connection) :
    l.greets (.main .work) l' = fs := by
  have hdrop : l.greets (.main .work) l' =
      l'.connection.queue.drop l.connection.queue.length := by
    obtain hstage | ⟨portion, hstage⟩ := hstage <;> simp only [greets, hstage]
  rw [hdrop, hgrows.queue, List.drop_left]

theorem not_agreed_of_early (hmark : l.connection.handshaked = false)
    (hchapter : l.main.chapter ≠ .sealing) : ¬ l.Agreed := by
  rintro (hmark' | hchapter')
  · cases hmark.symm.trans hmark'
  · exact hchapter hchapter'

theorem not_agreed_of_serving (hmark : l.connection.handshaked = false)
    (hchapter : l.main.chapter = .serving) : ¬ l.Agreed :=
  not_agreed_of_early hmark (ne_of_eq_of_ne hchapter Chapter.noConfusion)

theorem Timely.not_agreed_of_silent (h : l.Timely) (hchapter : l.main.chapter = .silent) :
    ¬ l.Agreed := by
  refine not_agreed_of_early ?_ (by rw [hchapter]; exact Chapter.noConfusion)
  cases hstage : l.main with
  | unstarted | opening => exact h.early (by rw [hstage]; trivial)
  | _ =>
      rw [hstage] at hchapter
      cases hchapter

/-- What the main task does has no part in the handshake. -/
structure Apart (l l' : Link) : Prop where
  silent_iff : l'.main.chapter = .silent ↔ l.main.chapter = .silent
  agreed_iff : l'.Agreed ↔ l.Agreed

/-- So it is where input is waited for and worked off, and at the end. -/
theorem apart_of_working (hmark : l'.connection.handshaked = l.connection.handshaked)
    (hchapter : l.main.chapter.Working) (hchapter' : l'.main.chapter.Working) : l.Apart l' := by
  have hne : ∀ {c : Chapter}, c.Working → c ≠ .silent ∧ c ≠ .sealing := by
    rintro c hworking
    constructor <;> rintro rfl <;> exact hworking
  refine ⟨iff_of_false (hne hchapter').1 (hne hchapter).1, ?_⟩
  unfold Agreed
  rw [hmark, or_iff_left (hne hchapter').2, or_iff_left (hne hchapter).2]

theorem apart_of_agreed (hagreed : l.Agreed) (hagreed' : l'.Agreed)
    (hchapter : l.main.chapter ≠ .silent) (hchapter' : l'.main.chapter ≠ .silent) : l.Apart l' :=
  ⟨iff_of_false hchapter' hchapter, iff_of_true hagreed' hagreed⟩

theorem Works.apart (hworks : l.Works l') (ht : l.Timely)
    (hquiet : ¬ l.Negotiating (.main .work)) : l.Apart l' := by
  have hopening : l.main ≠ .opening := fun hstage => hquiet ⟨rfl, .inl hstage⟩
  have hexamining : ∀ portion, l.main ≠ .examining portion :=
    fun portion hstage => hquiet ⟨rfl, .inr ⟨portion, hstage⟩⟩
  cases hworks with
  | openFailed stage | openCompleted stage | openPending stage => exact absurd stage hopening
  | examineFailed stage | examineCompleted stage | examineLong stage | examinePending stage =>
      exact absurd stage (hexamining _)
  | marks stage =>
      exact apart_of_agreed (.inr (by rw [stage]; rfl)) (.inl rfl)
        (by rw [stage]; exact Chapter.noConfusion) Chapter.noConfusion
  | shows stage =>
      have hmark : l.connection.handshaked = true := ht.late (by rw [stage]; trivial)
      exact apart_of_agreed (.inl hmark) (.inl hmark)
        (by rw [stage]; exact Chapter.noConfusion) Chapter.noConfusion
  | takes stage step =>
      refine apart_of_working rfl (by rw [stage]; trivial) ?_
      rw [chapter_takeInput]
      trivial
  | @readFrame portion f reader buffer stage read =>
      have hd := dispatch_dispatches f { portion with buffer } reader l
      refine apart_of_working (by rw [hd.connection_eq]) (by rw [stage]; trivial) ?_
      obtain hmain | ⟨job, hmain⟩ := hd.main_eq <;> rw [hmain] <;> trivial
  | @handles job portion stage =>
      refine apart_of_working (job.handshaked_step l.connection) (by rw [stage]; trivial) ?_
      dsimp only
      cases (l.goOn job).1 <;> trivial
  | @settles portion memory input stage consume =>
      refine apart_of_working rfl (by rw [stage]; trivial) ?_
      dsimp only
      cases portion.last <;> trivial
  | @cuts reason stage =>
      refine apart_of_working ?_ (by rw [stage]; trivial) trivial
      cases reason.isError with
      | false => rfl
      | true => exact (shutDown_reserves reason l).connection.handshaked_eq
  | givesUp stage =>
      exact apart_of_working (shutDown_reserves _ l).connection.handshaked_eq
        (by rw [stage]; trivial) trivial
  | @shuts reason stage =>
      exact apart_of_working (shutDown_reserves reason l).connection.handshaked_eq
        (by rw [stage]; trivial) trivial
  | tells stage | tellsWith stage | looks stage | readFault stage | readNothing stage | jams stage
    | leaves stage | concludes stage | notifies stage | records stage | cancels stage
    | seesWriter stage | drains stage | seesSender stage | releases stage | seesReceiver stage
    | ends stage | tellsEnd stage | marksEnd stage =>
      exact apart_of_working rfl (by rw [stage]; trivial) trivial

/-- **Nothing else has a part in the handshake.** -/
theorem move_apart (ht : l.Timely) (hmove : l.move? m = some l') (hquiet : ¬ l.Negotiating m) :
    l.Apart l' := by
  cases m with
  | main choice =>
      cases choice with
      | work => exact (works_of_workMain hmove).apart ht hquiet
      | stop =>
          obtain ⟨read, hstage, -, -, rfl⟩ := stopMain_eq hmove
          exact apart_of_working rfl (by rw [hstage]; trivial) trivial
  | start =>
      cases hmove
      unfold Link.start
      split
      · next hstage =>
        refine ⟨iff_of_true rfl (by rw [hstage]; rfl), iff_of_false ?_ ?_⟩
        · exact not_agreed_of_early (ht.early (by rw [hstage]; trivial)) Chapter.noConfusion
        · exact ht.not_agreed_of_silent (by rw [hstage]; rfl)
      · exact ⟨Iff.rfl, Iff.rfl⟩
  | _ =>
      have haside := (move_aside (fun _ => Move.noConfusion) Move.noConfusion hmove).1
      refine ⟨by rw [haside.main_eq], ?_⟩
      unfold Agreed
      rw [haside.main_eq, haside.handshaked_eq]

end Agreed

end Link

/-! ## 3. The handshake's turn -/

namespace Link

/-- What the handshake's turn comes to: what it queues, and where the main task goes. -/
inductive Speaks (l l' : Link) : Prop where
  /-- it cannot begin -/
  | fails {cause : Fault} (stage : l.main = .opening)
      (grows : Connection.Grows [] l.connection l'.connection)
      (main_eq : l'.main = .leaving (some cause)) : Speaks l l'
  /-- it is complete with its greeting -/
  | completes {message : Option Bytes} (stage : l.main = .opening)
      (opening : l.setup.handshake.opening = .proceed message true)
      (grows : Connection.Grows (Frame.ofMessage message) l.connection l'.connection)
      (main_eq : l'.main = .marking none) : Speaks l l'
  /-- it begins with its greeting -/
  | opens {message : Option Bytes} (stage : l.main = .opening)
      (opening : l.setup.handshake.opening = .proceed message false)
      (grows : Connection.Grows (Frame.ofMessage message) l.connection l'.connection)
      (main_eq : l'.main = .waiting .looking) : Speaks l l'
  /-- what came in is wrong or too long, or the reply is refused -/
  | rejects {portion : Portion} {cause : Fault} (stage : l.main = .examining portion)
      (grows : Connection.Grows [] l.connection l'.connection)
      (main_eq : l'.main = .leaving (some cause)) : Speaks l l'
  /-- more has to come in -/
  | waits {portion : Portion} (stage : l.main = .examining portion)
      (grows : Connection.Grows [] l.connection l'.connection)
      (main_eq : l'.main = .settling portion) : Speaks l l'
  /-- it replies to what came in, and consumes what belongs to it -/
  | replies {portion : Portion} {answer : Option Bytes} {size : Nat}
      (stage : l.main = .examining portion)
      (judge : l.setup.handshake.judge portion.buffer.toList = .accepted answer size)
      (grows : Connection.Grows (Frame.ofMessage answer) l.connection l'.connection)
      (main_eq : l'.main = .marking (some { portion with buffer := portion.buffer.drop size })) :
      Speaks l l'

section Turn

variable {l l' : Link} {m : Move} {portion : Portion}

theorem speaks_openHandshake (hstage : l.main = .opening) :
    l.Speaks (l.enter .handshaking).openHandshake := by
  unfold openHandshake
  cases hstart : (l.enter .handshaking).setup.handshake.start Connection.rawSender
      (l.enter .handshaking).connection with
  | mk outcome connection =>
    cases Handshake.starts_of_eq hstart with
    | failed opening | refused opening sends => exact .fails hstage (.of_same rfl rfl rfl id) rfl
    | @opened message complete _ opening sends =>
        have hgrows := Connection.sendIfAny_grows sends
        have hgrows' : Connection.Grows (Frame.ofMessage message) l.connection connection :=
          ⟨hgrows.queue, hgrows.accepting, hgrows.maxPayload, hgrows.handshaked, hgrows.accepted⟩
        cases complete with
        | true => exact .completes hstage opening hgrows' rfl
        | false => exact .opens hstage opening hgrows' rfl

theorem speaks_examine (hstage : l.main = .examining portion) : l.Speaks (l.examine portion) := by
  unfold examine
  cases hexamine : l.setup.handshake.examine Connection.rawSender portion.buffer l.connection with
  | mk outcome kept =>
    cases Handshake.examines_of_eq hexamine with
    | pending judge =>
        dsimp only
        split
        · exact .rejects hstage (.refl _) rfl
        · exact .waits hstage (.refl _) rfl
    | rejected judge | refused judge sends => exact .rejects hstage (.refl _) rfl
    | completed judge sends => exact .replies hstage judge (Connection.sendIfAny_grows sends) rfl

theorem handshaked_openHandshake (l : Link) :
    l.openHandshake.connection.handshaked = l.connection.handshaked := by
  have hsame := Connection.handshaked_start l.setup.handshake l.connection
  unfold openHandshake
  generalize l.setup.handshake.start Connection.rawSender l.connection = started at hsame ⊢
  dsimp only
  split <;> exact hsame

theorem handshaked_examine (portion : Portion) (l : Link) :
    (l.examine portion).connection.handshaked = l.connection.handshaked := by
  have hsame := Connection.handshaked_examine l.setup.handshake portion.buffer l.connection
  unfold examine
  generalize l.setup.handshake.examine Connection.rawSender portion.buffer l.connection =
    examined at hsame ⊢
  dsimp only
  split
  · exact hsame
  · exact hsame
  · split <;> exact hsame

/-- **The handshake's turn**: whatever it comes to, nothing is marked in it. -/
theorem speaks_of_negotiating (ht : l.Timely) (hmove : l.move? m = some l')
    (hturn : l.Negotiating m) :
    m = .main .work ∧ l'.connection.handshaked = false ∧ l.Speaks l' := by
  obtain ⟨rfl, hstage | ⟨portion, hstage⟩⟩ := hturn
  all_goals
    have hmark : l.connection.handshaked = false := ht.early (by rw [hstage]; trivial)
    have hwork : l.workMain = some l' := hmove
    unfold workMain at hwork
    rw [hstage] at hwork
    cases hwork
  · have hsame := handshaked_openHandshake (l.enter .handshaking)
    exact ⟨rfl, hsame.trans hmark, speaks_openHandshake hstage⟩
  · exact ⟨rfl, (handshaked_examine portion l).trans hmark, speaks_examine hstage⟩

/-- What the handshake consumes with its reply. -/
theorem examines_of_replies {size : Nat} (hsound : portion.buffer.Sound)
    (hstage : l.main = .examining portion)
    (hmain : l'.main = .marking (some { portion with buffer := portion.buffer.drop size })) :
    l.examines (.main .work) l' = portion.buffer.toList.take size := by
  have hsize : portion.buffer.size - (portion.buffer.drop size).size =
      min size portion.buffer.toList.length := by
    rw [hsound.size_eq, (hsound.drop _).size_eq, Buffer.toList_drop, List.length_drop]
    omega
  simp only [examines, hstage, hmain, hsize]
  exact List.take_eq_take_min.symm

/-- It consumes nothing before. -/
theorem examines_eq_nil (hmain : ∀ portion, l'.main ≠ .marking (some portion)) :
    l.examines m l' = [] := by
  unfold examines
  split
  · next hmarking => exact absurd hmarking (hmain _)
  · rfl

end Turn

end Link

/-! ## 4. How far it has come -/

namespace Course

/-- How far the upgrade has come: what was sent for it, and whether its block was consumed. -/
inductive Negotiates (greeting reply : Option Bytes) (block : Bytes) (c : Course) : Prop where
  /-- it has not begun -/
  | silent (stage : c.link.main.chapter = .silent) (greeted : c.greeted = [])
      (examined : c.examined = []) : Negotiates greeting reply block c
  /-- it could not begin -/
  | mute (stopped : c.link.main.Takes = false) (pending : ¬ c.link.Agreed)
      (greeted : c.greeted = []) (examined : c.examined = []) : Negotiates greeting reply block c
  /-- the block is awaited -/
  | asks (begun : c.link.main.chapter ≠ .silent) (pending : ¬ c.link.Agreed)
      (greeted : c.greeted = Frame.ofMessage greeting) (examined : c.examined = []) :
      Negotiates greeting reply block c
  /-- the block was there -/
  | agrees (agreed : c.link.Agreed)
      (greeted : c.greeted = Frame.ofMessage greeting ++ Frame.ofMessage reply)
      (examined : c.examined = block) : Negotiates greeting reply block c

section Negotiates

variable {format : WireFormat} {limit : Nat} {thresholds : Thresholds} {c c' : Course}
variable {greeting reply : Option Bytes} {block rest : Bytes}
variable {received used : Bytes} {g : Gauge} {m : Move} {l' : Link} {portion : Portion}

/-- What the handshake queues is noted. -/
theorem greeted_follow {fs : List Frame}
    (hstage : c.link.main = .opening ∨ ∃ portion, c.link.main = .examining portion)
    (hgrows : Connection.Grows fs c.link.connection l'.connection) :
    (c.follow (.main .work) l').greeted = c.greeted ++ fs := by
  simp only [follow, Link.greets_of_grows hstage hgrows]

/-- Nothing is consumed before the handshake is complete. -/
theorem examined_follow_of_not_marking (hmain : ∀ portion, l'.main ≠ .marking (some portion)) :
    (c.follow m l').examined = c.examined := by
  simp only [follow, Link.examines_eq_nil hmain, List.append_nil]

/-- What has no part in the handshake adds nothing to it. -/
theorem Negotiates.other (h : c.Negotiates greeting reply block)
    (ht : c.Tracks format limit thresholds received used g) (hmove : c.link.move? m = some l')
    (hquiet : ¬ c.link.Negotiating m) : (c.follow m l').Negotiates greeting reply block := by
  obtain ⟨hsilent, hagreed⟩ := Link.move_apart ht.hears.timely hmove hquiet
  have hgreeted : (c.follow m l').greeted = c.greeted := by
    simp only [follow, Link.greets_of_not_negotiating hquiet, List.append_nil]
  have hexamined : (c.follow m l').examined = c.examined := by
    simp only [follow, Link.examines_of_not_negotiating hquiet, List.append_nil]
  cases h with
  | silent stage greeted examined =>
      exact .silent (hsilent.mpr stage) (hgreeted.trans greeted) (hexamined.trans examined)
  | mute stopped pending greeted examined =>
      exact .mute (Link.same_of_not_takes hmove stopped).1 (mt hagreed.mp pending)
        (hgreeted.trans greeted) (hexamined.trans examined)
  | asks begun pending greeted examined =>
      exact .asks (mt hsilent.mp begun) (mt hagreed.mp pending) (hgreeted.trans greeted)
        (hexamined.trans examined)
  | agrees agreed greeted examined =>
      exact .agrees (hagreed.mpr agreed) (hgreeted.trans greeted) (hexamined.trans examined)

/-- When the upgrade begins, nothing was sent or consumed for it. -/
theorem Negotiates.of_opening (h : c.Negotiates greeting reply block)
    (ht : c.Tracks format limit thresholds received used g) (hstage : c.link.main = .opening) :
    c.greeted = [] ∧ c.examined = [] := by
  have hsilent : c.link.main.chapter = .silent := by
    rw [hstage]
    rfl
  cases h with
  | silent stage greeted examined | mute stopped pending greeted examined =>
      exact ⟨greeted, examined⟩
  | asks begun => exact absurd hsilent begun
  | agrees agreed => exact absurd agreed (ht.hears.timely.not_agreed_of_silent hsilent)

/-- While it is shown something, only its greeting was sent. -/
theorem Negotiates.of_examining (h : c.Negotiates greeting reply block)
    (ht : c.Tracks format limit thresholds received used g)
    (hstage : c.link.main = .examining portion) :
    c.greeted = Frame.ofMessage greeting ∧ c.examined = [] := by
  cases h with
  | silent stage | mute stage =>
      rw [hstage] at stage
      cases stage
  | asks begun pending greeted examined => exact ⟨greeted, examined⟩
  | agrees agreed =>
      have hmark : c.link.connection.handshaked = false :=
        ht.hears.timely.early (by rw [hstage]; trivial)
      exact absurd agreed (Link.not_agreed_of_serving hmark (by rw [hstage]; rfl))

/-- The upgrade's turn. -/
theorem Negotiates.turn (h : c.Negotiates greeting reply block)
    (ht : c.Tracks format limit thresholds received used g)
    (hblock : c.link.setup.handshake.Completes greeting reply block)
    (hfront : c.arrived <+: block ++ rest) (hmark : l'.connection.handshaked = false)
    (hspeaks : c.link.Speaks l') : (c.follow (.main .work) l').Negotiates greeting reply block := by
  have hopening := hblock.opening_eq
  have hpending : l'.main.chapter = .serving → ¬ l'.Agreed := Link.not_agreed_of_serving hmark
  have hbegun : l'.main.chapter = .serving → l'.main.chapter ≠ .silent := fun hserving =>
    ne_of_eq_of_ne hserving Chapter.noConfusion
  cases hspeaks with
  | fails stage grows main_eq =>
      obtain ⟨hgreeted, hexamined⟩ := h.of_opening ht stage
      have hserving : l'.main.chapter = .serving := congrArg MainStage.chapter main_eq
      refine .mute (congrArg MainStage.Takes main_eq) (hpending hserving) ?_ ?_
      · rw [greeted_follow (.inl stage) grows, hgreeted, List.nil_append]
      · rw [examined_follow_of_not_marking (by simp [main_eq]), hexamined]
  | completes stage opening => cases hopening.symm.trans opening
  | opens stage opening grows main_eq =>
      cases hopening.symm.trans opening
      obtain ⟨hgreeted, hexamined⟩ := h.of_opening ht stage
      have hserving : l'.main.chapter = .serving := congrArg MainStage.chapter main_eq
      refine .asks (hbegun hserving) (hpending hserving) ?_ ?_
      · rw [greeted_follow (.inl stage) grows, hgreeted, List.nil_append]
      · rw [examined_follow_of_not_marking (by simp [main_eq]), hexamined]
  | rejects stage grows main_eq | waits stage grows main_eq =>
      obtain ⟨hgreeted, hexamined⟩ := h.of_examining ht stage
      have hserving : l'.main.chapter = .serving := congrArg MainStage.chapter main_eq
      refine .asks (hbegun hserving) (hpending hserving) ?_ ?_
      · rw [greeted_follow (.inr ⟨_, stage⟩) grows, hgreeted, List.append_nil]
      · rw [examined_follow_of_not_marking (by simp [main_eq]), hexamined]
  | @replies portion answer size stage judge grows main_eq =>
      obtain ⟨hgreeted, hexamined⟩ := h.of_examining ht stage
      have hshown := (ht.judged_front stage).trans hfront
      have hjudge := hblock.judge_eq hshown
      split at hjudge
      · next hlong =>
        cases hjudge.symm.trans judge
        have hsound := ht.hears.receives.main_sound portion (by rw [stage]; rfl)
        refine .agrees (.inr (congrArg MainStage.chapter main_eq)) ?_ ?_
        · rw [greeted_follow (.inr ⟨_, stage⟩) grows, hgreeted]
        · simp only [follow, Link.examines_of_replies hsound stage main_eq, hexamined,
            List.nil_append]
          exact Bytes.take_of_front hshown hlong
      · cases hjudge.symm.trans judge

/-- **Every move goes on with the upgrade as it should.** -/
theorem Negotiates.move (h : c.Negotiates greeting reply block)
    (ht : c.Tracks format limit thresholds received used g)
    (hblock : c.link.setup.handshake.Completes greeting reply block)
    (hfront : c.arrived <+: block ++ rest) (hmove : c.link.move? m = some l') :
    (c.follow m l').Negotiates greeting reply block := by
  by_cases hturn : c.link.Negotiating m
  · obtain ⟨rfl, hmark, hspeaks⟩ := Link.speaks_of_negotiating ht.hears.timely hmove hturn
    exact h.turn ht hblock hfront hmark hspeaks
  · exact h.other ht hmove hturn

/-- What was sent for the upgrade is the beginning of what is to be sent. -/
theorem Negotiates.greeted_front (h : c.Negotiates greeting reply block) :
    c.greeted <+: Frame.ofMessage greeting ++ Frame.ofMessage reply := by
  cases h with
  | silent stage greeted | mute stopped pending greeted =>
      rw [greeted]
      exact List.nil_prefix
  | asks begun pending greeted =>
      rw [greeted]
      exact List.prefix_append _ _
  | agrees agreed greeted => exact greeted ▸ List.prefix_refl _

/-- When the handshake is complete, all of it was sent, and the block was consumed. -/
theorem Negotiates.of_handshaked (h : c.Negotiates greeting reply block) (ht : c.link.Timely)
    (hmark : c.link.connection.handshaked = true) :
    c.greeted = Frame.ofMessage greeting ++ Frame.ofMessage reply ∧ c.examined = block := by
  cases h with
  | silent stage => exact absurd (.inl hmark) (ht.not_agreed_of_silent stage)
  | mute stopped pending | asks begun pending => exact absurd (.inl hmark) pending
  | agrees agreed greeted examined => exact ⟨greeted, examined⟩

/-! ## 5. No fault before the frames -/

/-- **If nothing gets in the way, the upgrade does not fail**, as its messages fit and its block is
not too long. -/
theorem Tracks.handshaked_of_exits {fault : Fault}
    (ht : c.Tracks format limit thresholds received used g) (hcalm : c.link.Calm c.ended)
    (hblock : c.link.setup.handshake.Completes greeting reply block)
    (hfits : ∀ bs, bs ∈ greeting ∨ bs ∈ reply → bs.length ≤ c.link.connection.maxPayload)
    (hsize : block.length ≤ c.link.setup.maxHandshake) (hfront : c.arrived <+: block ++ rest)
    (hexits : c.link.Exits (some fault)) : c.link.connection.handshaked = true := by
  have huncancelled := hcalm.uncancelled
  have haccepting := hcalm.outbound.accepting
  cases hexits with
  | unopened stage start =>
      obtain ⟨_, -, -, hsend⟩ | ⟨hok, -⟩ := Connection.start_cases hblock start
      · obtain ⟨_, hok⟩ := Connection.exists_sendIfAny (c := (c.link.enter .handshaking).connection)
          (fun bs hbs => hfits bs (.inl hbs)) huncancelled haccepting
        cases hok.symm.trans hsend
      · cases hok
  | rejected stage examine =>
      have hshown := (ht.judged_front stage).trans hfront
      obtain ⟨-, hpending, -⟩ | ⟨-, ⟨_, -, -, hsend⟩ | ⟨hok, -⟩⟩ :=
        Connection.examine_cases hblock hshown examine
      · cases hpending
      · obtain ⟨_, hok⟩ := Connection.exists_sendIfAny (c := c.link.connection)
          (fun bs hbs => hfits bs (.inr hbs)) huncancelled haccepting
        cases hok.symm.trans hsend
      · cases hok
  | @tooLong portion buffer connection stage examine long =>
      have hsound : portion.buffer.Sound :=
        ht.hears.receives.main_sound portion (by rw [stage]; rfl)
      have hshown := (ht.judged_front stage).trans hfront
      obtain ⟨hshort, -, rfl, -⟩ | ⟨-, ⟨_, hfailed, -⟩ | ⟨hcomplete, -⟩⟩ :=
        Connection.examine_cases hblock hshown examine
      · rw [hsound.size_eq] at long
        omega
      · cases hfailed
      · cases hcomplete
  | spoiled stage read => exact ht.hears.timely.late (by rw [stage]; trivial)

end Negotiates

end Course

end Courier
