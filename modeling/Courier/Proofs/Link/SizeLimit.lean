import Courier.Proofs.Handshake.Upgrade
import Courier.Proofs.Link.Course

/-!
Courier.Proofs.Link.SizeLimit — how long the head of an upgrade may be.

A head is measured only when the handshake was shown a front of it that has no end yet: a connection
is rejected exactly if one such front is longer than the limit (`Course.Measures`). So a head that
is not too long is never rejected, and neither does it matter how a stream without a head's end
comes in (`Course.rejected_iff_judged_long`).

A head that is too long is accepted if its end comes in before a front of it that is too long was
looked at, so it does matter how it comes in (`Course.rejected_of_cut`).
-/

namespace Courier

open Upgrade

/-- What ends a connection whose handshake is too long. -/
abbrev Fault.overlong (limit : Nat) : Fault :=
  .violation (.longHandshake limit)

/-! ## 1. What fails a handshake -/

namespace Connection

variable {h : Handshake} {b b' : Buffer} {c c' : Connection} {cause : Fault}

/-- Sending bare bytes fails only if it is refused. -/
theorem refused_of_sendIfAny {message : Option Bytes}
    (hsend : Handshake.sendIfAny rawSender message c = .error cause) : ∃ r, cause = .refused r := by
  obtain ⟨-, hok⟩ | ⟨bs, -, ⟨c₁, -, hok⟩ | ⟨r, -, hrefused⟩⟩ := sendIfAny_cases message c
  · cases hok.symm.trans hsend
  · cases hok.symm.trans hsend
  · cases hrefused.symm.trans hsend
    exact ⟨r, rfl⟩

/-- The upgrade fails to begin only if its greeting is refused. -/
theorem refused_of_start (hside : h.Upgrades) (hstart : h.start rawSender c = (.error cause, c')) :
    ∃ r, cause = .refused r := by
  obtain ⟨greeting, hopening⟩ := hside.opening_eq
  cases Handshake.starts_of_eq hstart with
  | failed opening => cases hopening.symm.trans opening
  | refused opening sends => exact refused_of_sendIfAny sends

/-- The upgrade fails on what it was shown if that has a head, and it is not the length of it. -/
theorem judge_of_examine_error (hside : h.Upgrades)
    (hexamine : h.examine rawSender b c = (.error cause, b', c')) (limit : Nat) :
    h.judge b.toList ≠ .pending ∧ cause ≠ .overlong limit := by
  cases Handshake.examines_of_eq hexamine with
  | rejected judge =>
      rw [judge]
      exact ⟨Verdict.noConfusion, hside.ne_longHandshake judge limit⟩
  | refused judge sends =>
      obtain ⟨r, rfl⟩ := refused_of_sendIfAny sends
      rw [judge]
      exact ⟨Verdict.noConfusion, Fault.noConfusion⟩

theorem judge_of_examine_completed (hexamine : h.examine rawSender b c = (.ok true, b', c')) :
    h.judge b.toList ≠ .pending := by
  cases Handshake.examines_of_eq hexamine with
  | completed judge sends =>
      rw [judge]
      exact Verdict.noConfusion

end Connection

namespace Course

/-! ## 2. Rejections -/

/-- The handshake was given up as too long while it was pending. -/
def Rejected (c : Course) : Prop :=
  c.exit = some (some (.overlong c.link.setup.maxHandshake)) ∧
    c.link.connection.handshaked = false

/-- The handshake was shown something too long that has no end of a head. -/
def JudgedLong (c : Course) : Prop :=
  ∃ content ∈ c.judged, headSize? content = none ∧ c.link.setup.maxHandshake < content.length

/-- What the handshake was shown was in front of what had arrived, and it is given up exactly when
that is too long and has no end of a head. -/
structure Measures (c : Course) : Prop where
  side : c.link.setup.handshake.Upgrades
  front : ∀ content ∈ c.judged, content <+: c.arrived
  rejected_iff : c.Rejected ↔ c.JudgedLong

section Measures

variable {format : WireFormat} {limit : Nat} {thresholds : Thresholds} {c c' : Course}
variable {received used : Bytes} {g : Gauge} {m : Move} {l' : Link} {portion : Portion}

theorem measures_new (setup : LinkSetup) (hside : setup.handshake.Upgrades) (id peer : String)
    (limit : Nat) (input output : Thresholds) (capacity : Nat) :
    (new setup id peer limit input output capacity).Measures where
  side := hside
  front _ h := by cases h
  rejected_iff := by
    constructor
    · rintro ⟨hexit, -⟩
      cases hexit
    · rintro ⟨content, hcontent, -⟩
      cases hcontent

/-- A look at the input ends in a rejection if it finds no end of a head, and too much. -/
theorem exit_examine_iff {l : Link} (hside : l.setup.handshake.Upgrades)
    (hsound : portion.buffer.Sound) (hmark : l.connection.handshaked = false) :
    ((l.examine portion).main.exit? =
          some (some (.overlong l.setup.maxHandshake)) ∧
        (l.examine portion).connection.handshaked = false) ↔
      headSize? portion.buffer.toList = none ∧
        l.setup.maxHandshake < portion.buffer.toList.length := by
  rw [← hside.judge_eq_pending_iff, ← hsound.size_eq]
  unfold Link.examine
  cases hexamine :
      l.setup.handshake.examine Connection.rawSender portion.buffer l.connection with
  | mk outcome kept =>
    obtain ⟨buffer, connection⟩ := kept
    cases outcome with
    | error cause =>
        obtain ⟨hjudge, hcause⟩ := Connection.judge_of_examine_error hside hexamine
          l.setup.maxHandshake
        exact iff_of_false (fun h => hcause (by simpa [MainStage.exit?] using h.1))
          fun h => hjudge h.1
    | ok complete =>
        cases complete with
        | true =>
            have hjudge := Connection.judge_of_examine_completed hexamine
            exact iff_of_false (fun h => by cases h.1) fun h => hjudge h.1
        | false =>
            obtain ⟨hjudge, rfl, rfl⟩ := Link.examine_pending hexamine
            dsimp only
            split
            · next hlong => exact iff_of_true ⟨rfl, hmark⟩ ⟨hjudge, hlong⟩
            · next hshort => exact iff_of_false (fun h => by cases h.1) fun h => hshort h.2

/-- The handshake is shown something. -/
theorem Measures.examine (h : c.Measures)
    (ht : c.Tracks format limit thresholds received used g)
    (hstage : c.link.main = .examining portion)
    (hsetup : (c.link.examine portion).setup = c.link.setup) :
    (c.follow (.main .work) (c.link.examine portion)).Measures := by
  have hnone := ht.exit_eq_none (by rw [hstage]; rfl)
  have hjudges : c.link.judges (.main .work) = [portion.buffer.toList] := by
    simp only [Link.judges, hstage]
  have hfront := ht.judged_front hstage
  have hsound : portion.buffer.Sound :=
    ht.hears.receives.main_sound portion (by rw [hstage]; rfl)
  have hmark : c.link.connection.handshaked = false :=
    ht.hears.timely.early (by rw [hstage]; trivial)
  have hbefore : ¬ c.JudgedLong := fun hlong => by
    cases hnone.symm.trans (h.rejected_iff.mpr hlong).1
  refine ⟨by simp only [follow, hsetup]; exact h.side, fun content hcontent => ?_, ?_⟩
  · simp only [follow, hjudges, Link.arrives, List.append_nil] at hcontent ⊢
    rcases List.mem_append.mp hcontent with hcontent | hcontent
    · exact h.front content hcontent
    · rw [List.mem_singleton.mp hcontent]
      exact hfront
  · have hlast : (c.follow (.main .work) (c.link.examine portion)).JudgedLong ↔
        headSize? portion.buffer.toList = none ∧
          c.link.setup.maxHandshake < portion.buffer.toList.length := by
      unfold JudgedLong at hbefore ⊢
      simp only [follow, hjudges, hsetup, List.mem_append, List.mem_singleton]
      constructor
      · rintro ⟨content, hcontent | rfl, hlong⟩
        · exact absurd ⟨content, hcontent, hlong⟩ hbefore
        · exact hlong
      · exact fun hlong => ⟨_, .inr rfl, hlong⟩
    rw [hlast, ← exit_examine_iff h.side hsound hmark]
    simp [Rejected, follow, hnone, hsetup]

/-- What is not shown to the handshake does not end in a rejection. -/
theorem not_rejected_of_exits {l : Link} {cause : Option Fault} (hexits : l.Exits cause)
    (hside : l.setup.handshake.Upgrades) (hother : ¬ ∃ portion, l.main = .examining portion)
    (hlate : l.main.Late → l.connection.handshaked = true)
    (hmark : l.connection.handshaked = false) (limit : Nat) : cause ≠ some (.overlong limit) := by
  cases hexits with
  | unopened stage start =>
      obtain ⟨r, rfl⟩ := Connection.refused_of_start hside start
      exact fun h => by cases h
  | rejected stage examine | tooLong stage examine long => exact absurd ⟨_, stage⟩ hother
  | spoiled stage read =>
      rw [stage] at hlate
      cases (hlate trivial).symm.trans hmark
  | exhausted stage last | stopped cancelled => exact fun h => by cases h

/-- What the handshake is not shown does not matter. -/
theorem Measures.other (h : c.Measures) (ht : c.Tracks format limit thresholds received used g)
    (hother : m = .main .work → ¬ ∃ portion, c.link.main = .examining portion)
    (hmove : c.link.move? m = some l') : (c.follow m l').Measures := by
  have hsetup : l'.setup = c.link.setup := (Link.move_keeps hmove).1
  have hjudges : c.link.judges m = [] := by
    unfold Link.judges
    split
    · next hstage => exact absurd ⟨_, hstage⟩ (hother rfl)
    · rfl
  have hlong : (c.follow m l').JudgedLong ↔ c.JudgedLong := by
    simp only [JudgedLong, follow, hjudges, List.append_nil, hsetup]
  refine ⟨by simp only [follow, hsetup]; exact h.side, fun content hcontent => ?_, ?_⟩
  · simp only [follow, hjudges, List.append_nil] at hcontent ⊢
    exact (h.front content hcontent).trans (List.prefix_append _ _)
  · rw [hlong, ← h.rejected_iff]
    cases htakes : c.link.main.Takes with
    | false =>
        have hexit := ht.exit
        rw [htakes] at hexit
        obtain ⟨cause, hcause⟩ := Option.isSome_iff_exists.mp hexit
        simp [Rejected, follow, hcause, hsetup, (Link.same_of_not_takes hmove htakes).2.2]
    | true =>
        have hnone := ht.exit_eq_none htakes
        refine iff_of_false (fun hrejected => ?_) fun hrejected => by
          cases hnone.symm.trans hrejected.1
        obtain ⟨hexit, hmark⟩ := hrejected
        have hexit' : l'.main.exit? = some (some (.overlong c.link.setup.maxHandshake)) := by
          simpa [follow, hnone, hsetup] using hexit
        have htakes' : l'.main.Takes = false := by
          unfold MainStage.exit? at hexit'
          split at hexit'
          · next hstage =>
            rw [hstage]
            rfl
          · cases hexit'
        obtain ⟨cause, hexits, hleaving, -, hsame, hwork⟩ :=
          ht.hears.exits_of_move hmove htakes htakes'
        rw [hleaving] at hexit'
        cases hexit'
        obtain hwork | ⟨-, hnone'⟩ := hwork
        · exact not_rejected_of_exits hexits h.side (hother hwork) ht.hears.timely.late
            (hsame.symm.trans hmark) _ rfl
        · cases hnone'

/-- **Every move** rejects what is found too long, and nothing else. -/
theorem Measures.move (h : c.Measures) (ht : c.Tracks format limit thresholds received used g)
    (hmove : c.move? m = some c') : c'.Measures := by
  obtain ⟨-, l', hl', rfl⟩ := move_eq hmove
  by_cases hexamining : m = .main .work ∧ ∃ portion, c.link.main = .examining portion
  · obtain ⟨rfl, portion, hstage⟩ := hexamining
    have hwork : c.link.workMain = some l' := hl'
    unfold Link.workMain at hwork
    rw [hstage] at hwork
    cases hwork
    exact h.examine ht hstage (Link.move_keeps hl').1
  · exact h.other ht (fun hm hex => hexamining ⟨hm, hex⟩) hl'

end Measures

/-! ## 3. What is rejected -/

/-- **A pending upgrade is rejected exactly when it was shown more than the limit without the end of
a head in it.** What it is shown has arrived, so no head is rejected that is not too long, however
it arrives. And as long as the end of the head is not found, nothing too long is kept: when all that
arrived was looked at and is not rejected, it is not too long. -/
theorem rejected_iff_judged_long (setup : LinkSetup) (hside : setup.handshake.Upgrades)
    (id peer : String) (limit : Nat) (input output : Thresholds) (capacity : Nat)
    (moves : List Move) {c : Course}
    (hrun : (new setup id peer limit input output capacity).run? moves = some c) :
    (c.Rejected ↔ ∃ content ∈ c.judged, headSize? content = none ∧
      setup.maxHandshake < content.length) ∧
    (∀ content ∈ c.judged, content <+: c.arrived) ∧
    (c.Rejected → setup.maxHandshake < headLength c.arrived) ∧
    (c.link.Drained → c.link.connection.handshaked = false →
      headLength c.arrived ≤ setup.maxHandshake) := by
  have hinvariant : c.link.setup = setup ∧ c.Measures ∧
      ∃ received used g, c.Tracks setup.format limit input received used g := by
    refine invariant_run (P := fun c => c.link.setup = setup ∧ c.Measures ∧
      ∃ received used g, c.Tracks setup.format limit input received used g) ?_
      ⟨rfl, measures_new setup hside id peer limit input output capacity,
        [], [], {}, tracks_new setup id peer limit input output capacity⟩ hrun
    rintro c c' m ⟨hsetup, hmeasures, received, used, g, htracks⟩ hmove
    obtain ⟨-, l', hl', rfl⟩ := move_eq hmove
    exact ⟨(Link.move_keeps hl').1.trans hsetup, hmeasures.move htracks hmove,
      htracks.move hmove⟩
  obtain ⟨rfl, hmeasures, received, used, g, htracks⟩ := hinvariant
  refine ⟨hmeasures.rejected_iff, hmeasures.front, fun hrejected => ?_, fun hdrained hmark => ?_⟩
  · obtain ⟨content, hcontent, hnone, hlong⟩ := hmeasures.rejected_iff.mp hrejected
    exact Nat.lt_of_lt_of_le hlong (length_le_headLength hnone (hmeasures.front content hcontent))
  · obtain ⟨harrived, hawaits⟩ := htracks.awaits_of_drained hdrained
    have hprogress := htracks.hears.progress
    simp only [Link.Progress, hdrained.main, hmark] at hprogress
    obtain ⟨-, rfl, -⟩ := hprogress
    rw [List.nil_append] at harrived
    simp only [Link.Awaits, hmark, ← harrived] at hawaits
    obtain hnil | ⟨hjudge, hle⟩ := hawaits
    · rw [hnil]
      exact Nat.zero_le _
    · rw [hside.judge_eq_pending_iff] at hjudge
      rw [headLength, hjudge]
      exact hle

/-- A client that allows a head of sixteen bytes. -/
def narrowClient : Course :=
  new { handshake := .upgradeClient "example.com" "/chat" "key", format := .webSocket,
        maxHandshake := 16 } "near" "far" 256 {} {} 64

/-- A head of nineteen bytes. -/
def longHead : Bytes :=
  Bytes.ofString "HTTP/1.1 101 OK\r\n\r\n"

/-- The client is opened, then bytes arrive and it looks at them. -/
def lookMoves (bs : Bytes) : List Move :=
  .start :: List.replicate 3 (.main .work) ++ .arrive bs ::
    List.replicate 4 (.receiver .work 2048) ++ List.replicate 4 (.main .work)

/-- The client looks at seventeen bytes of the head before the others arrive. -/
def cutMoves : List Move :=
  lookMoves (longHead.take 17) ++ [.arrive (longHead.drop 17)]

theorem rejected_of_seventeen : ∃ c, narrowClient.run? cutMoves = some c ∧
    c.judged = [longHead.take 17] ∧ c.Rejected ∧ 16 < headLength c.arrived := by
  have hseen : (narrowClient.run? cutMoves).map (fun c => c.judged) =
      some [longHead.take 17] := by
    decide +kernel
  obtain ⟨c, hrun, hjudged⟩ := Option.map_eq_some_iff.mp hseen
  obtain ⟨hiff, -, hlong, -⟩ := rejected_iff_judged_long _ (.client "example.com" "/chat" "key")
    "near" "far" 256 {} {} 64 cutMoves hrun
  have hrejected : c.Rejected := by
    refine hiff.mpr ⟨longHead.take 17, ?_, ?_⟩
    · rw [hjudged]
      exact List.mem_singleton.mpr rfl
    · decide +kernel
  exact ⟨c, hrun, hjudged, hrejected, hlong hrejected⟩

/-- **The same head is accepted or rejected as it comes in**: it is too long, and is rejected when
the client has looked at seventeen bytes of it, and accepted when it has looked at all of it at
once. -/
theorem rejected_of_cut : ∃ whole cut,
    narrowClient.run? (lookMoves longHead) = some whole ∧
    narrowClient.run? cutMoves = some cut ∧
    whole.arrived = longHead ∧ cut.arrived = longHead ∧ 16 < headLength longHead ∧
    cut.Rejected ∧ ¬ whole.Rejected ∧ whole.link.connection.handshaked = true := by
  have hwhole : (narrowClient.run? (lookMoves longHead)).map (fun c =>
      (c.arrived, c.exit, c.link.connection.handshaked)) = some (longHead, none, true) := by
    decide +kernel
  have hcut : (narrowClient.run? cutMoves).map (fun c =>
      (c.arrived, c.exit, c.link.setup.maxHandshake, c.link.connection.handshaked)) =
      some (longHead, some (some (.overlong 16)), 16, false) := by
    decide +kernel
  obtain ⟨whole, hrun, hseen⟩ := Option.map_eq_some_iff.mp hwhole
  obtain ⟨cut, hrun', hseen'⟩ := Option.map_eq_some_iff.mp hcut
  simp only [Prod.mk.injEq] at hseen hseen'
  obtain ⟨harrived, hexit, hmark⟩ := hseen
  obtain ⟨harrived', hexit', hlimit, hmark'⟩ := hseen'
  refine ⟨whole, cut, hrun, hrun', harrived, harrived', by decide +kernel, ⟨?_, hmark'⟩, ?_, hmark⟩
  · rw [hexit', hlimit]
  · rintro ⟨hrejected, -⟩
    cases hexit.symm.trans hrejected

end Course

end Courier
