import Courier.Proofs.Buffer
import Courier.Socket.Sender

/-!
Courier.Proofs.Socket.Transmission — sending part by part loses nothing.

A socket takes as much of an offer as it likes, and what it took goes from the front of what is
left. `Transmission.Carries` says how the two make up the buffer and how far that is; every round
keeps it, so it holds at every moment of a transmission. It holds when a transmission starts too,
whatever the sender has left of an earlier one, because the sender is cleared first.
-/

namespace Courier

/-! ## 1. Senders -/

namespace SocketSender

/-- A single segment is offered as several are: in a row. -/
theorem offer_eq (s : SocketSender) : s.offer = (s.pending.chunks maxOffered).flatten := by
  unfold offer
  split
  · next chunk hchunks =>
    rw [hchunks]
    unfold Buffer.chunks at hchunks
    cases hsegments : s.pending.segments with
    | nil => simp [hsegments] at hchunks
    | cons first rest =>
        rw [hsegments, maxOffered, List.take_succ_cons, List.map_cons] at hchunks
        injection hchunks with hfirst
        simp [Buffer.chunk, hsegments, hfirst]
  · rfl

/-- What is offered to a socket is a front of what is still to be sent. -/
theorem offer_prefix (s : SocketSender) : s.offer <+: s.pending.toList := by
  rw [offer_eq]
  unfold Buffer.chunks Buffer.toList
  obtain ⟨rest, hrest⟩ := List.take_prefix maxOffered s.pending.segments
  refine ⟨(rest.map (·.bytes)).flatten, ?_⟩
  rw [List.flatMap_def, ← List.flatten_append, ← List.map_append, hrest]

/-- As long as something is left, something is offered. -/
theorem offer_ne_nil {s : SocketSender} (h : s.pending.Sound) (hleft : s.pending.toList ≠ []) :
    s.offer ≠ [] := by
  rw [offer_eq, Buffer.chunks]
  intro hnil
  apply hleft
  have hchunk : s.pending.chunk = [] := by
    unfold Buffer.chunk
    cases hsegments : s.pending.segments with
    | nil => rfl
    | cons first rest =>
        rw [hsegments, maxOffered, List.take_succ_cons, List.map_cons, List.flatten_cons] at hnil
        exact (List.append_eq_nil_iff.mp hnil).1
  exact h.chunk_eq_nil_iff.mp hchunk

theorem toList_load (b : Buffer) (s : SocketSender) : (s.load b).pending.toList = b.toList :=
  Buffer.toList_foldl_push b.segments {}

theorem sound_load (b : Buffer) (s : SocketSender) : (s.load b).pending.Sound :=
  Buffer.sound_empty.foldl_push b.segments

end SocketSender

/-! ## 2. Rounds -/

/-- The failure in what comes of a round: a socket that takes nothing of what it is offered has
failed, one that takes nothing now has not. -/
def WriteOutcome.fault? : WriteOutcome → Option IoError
  | .unready cause => some cause
  | .took 0 => some (.ofKind .writeZero)
  | .took _ => none
  | .failed cause => if cause.kind = .wouldBlock then none else some cause

/-- Where there is no failure, the socket took something or takes nothing now. -/
theorem WriteOutcome.of_fault?_eq_none {outcome : WriteOutcome} (h : outcome.fault? = none) :
    (∃ count, 0 < count ∧ outcome = .took count) ∨
      ∃ cause, cause.kind = .wouldBlock ∧ outcome = .failed cause := by
  cases outcome with
  | unready cause => cases h
  | took count =>
      cases count with
      | zero => cases h
      | succ count => exact .inl ⟨count + 1, Nat.succ_pos count, rfl⟩
  | failed cause =>
      by_cases hkind : cause.kind = .wouldBlock
      · exact .inr ⟨cause, hkind, rfl⟩
      · simp [fault?, hkind] at h

namespace Transmission

/-- A transmission of the buffer `b` at a socket with these outcomes: what was taken and what is
left make up the buffer, it is complete when nothing is left, and broken by the first failure. -/
structure Carries (b : Buffer) (outcomes : List WriteOutcome) (t : Transmission) : Prop where
  source_eq : t.source = b
  sound : t.sender.pending.Sound
  whole : t.accepted ++ t.sender.pending.toList = b.toList
  complete_iff : t.progress = .complete ↔ t.sender.pending.toList = []
  ongoing : t.progress = .ongoing → outcomes.findSome? WriteOutcome.fault? = none
  broken : ∀ cause, t.progress = .broken cause →
    outcomes.findSome? WriteOutcome.fault? = some cause
  sane : ∀ misuse, t.progress ≠ .crashed misuse

variable {b : Buffer} {outcomes : List WriteOutcome} {t : Transmission}

theorem progress_proceed (h : t.sender.pending.Sound) :
    t.proceed.progress = if t.sender.pending.toList = [] then .complete else .ongoing := by
  unfold proceed
  simp only [h.isEmpty_iff]

theorem Carries.proceed (hsource : t.source = b) (hsound : t.sender.pending.Sound)
    (hwhole : t.accepted ++ t.sender.pending.toList = b.toList)
    (hclear : outcomes.findSome? WriteOutcome.fault? = none) : t.proceed.Carries b outcomes := by
  have hprogress := progress_proceed hsound
  refine ⟨hsource, hsound, hwhole, ?_, fun _ => hclear, fun cause hbroken => ?_,
    fun misuse hcrashed => ?_⟩
  · rw [hprogress]
    by_cases hnil : t.sender.pending.toList = []
    · simp [Transmission.proceed, hnil]
    · simp [Transmission.proceed, hnil]
  · rw [hprogress] at hbroken
    split at hbroken <;> cases hbroken
  · rw [hprogress] at hcrashed
    split at hcrashed <;> cases hcrashed

theorem carries_start (b : Buffer) (s : SocketSender) : (start b s).Carries b [] :=
  Carries.proceed rfl (SocketSender.sound_load b s) (SocketSender.toList_load b s) rfl

/-- After its end nothing more comes of a transmission. -/
theorem round_of_ended (h : t.progress ≠ .ongoing) (outcome : WriteOutcome) :
    t.round outcome = t := by
  unfold round
  split
  · next hongoing => exact absurd hongoing h
  · rfl

theorem Carries.left_ne_nil (h : t.Carries b outcomes) (hongoing : t.progress = .ongoing) :
    t.sender.pending.toList ≠ [] := by
  intro hnil
  cases hongoing.symm.trans (h.complete_iff.mpr hnil)

/-- A failure ends a transmission, and nothing else changes. -/
theorem round_of_fault (hongoing : t.progress = .ongoing) {outcome : WriteOutcome} {cause : IoError}
    (hfault : outcome.fault? = some cause) :
    t.round outcome = { t with progress := .broken cause } := by
  unfold round
  rw [hongoing]
  cases outcome with
  | unready cause' =>
      injection hfault with hcause
      rw [hcause]
  | took count =>
      cases count with
      | zero =>
          injection hfault with hcause
          simp [hcause]
      | succ count => cases hfault
  | failed cause' =>
      simp only [WriteOutcome.fault?] at hfault
      split at hfault
      · cases hfault
      · next hkind =>
        injection hfault with hcause
        rw [← hcause]
        exact if_neg hkind

/-- A socket that takes nothing now is offered the same again. -/
theorem round_of_wouldBlock {cause : IoError} (hkind : cause.kind = .wouldBlock) :
    t.round (.failed cause) = t := by
  unfold round
  split
  · simp only [if_pos hkind]
  · rfl

/-- What a socket takes goes from the front of what is left. -/
theorem Carries.round_took (h : t.Carries b outcomes) (hongoing : t.progress = .ongoing)
    {count : Nat} (hcount : 0 < count) :
    let taken := t.sender.offer.take count
    t.round (.took count) = Transmission.proceed { t with
      sender := { pending := t.sender.pending.drop taken.length },
      accepted := t.accepted ++ taken } := by
  have hoffer := SocketSender.offer_ne_nil h.sound (h.left_ne_nil hongoing)
  have htaken : t.sender.offer.take count ≠ [] := by
    intro hnil
    rcases List.take_eq_nil_iff.mp hnil with hzero | hnil
    · omega
    · exact hoffer hnil
  have hfits : (t.sender.offer.take count).length ≤ t.sender.pending.size := by
    rw [h.sound.size_eq]
    exact ((List.take_prefix _ _).trans t.sender.offer_prefix).length_le
  simp only [Transmission.round, hongoing, if_neg htaken, Buffer.advance,
    if_neg (Nat.not_lt.mpr hfits)]

/-- **A round keeps what was taken and what is left together.** -/
theorem Carries.round (h : t.Carries b outcomes) (outcome : WriteOutcome) :
    (t.round outcome).Carries b (outcomes ++ [outcome]) := by
  have hmore : ∀ cause, outcomes.findSome? WriteOutcome.fault? = some cause →
      (outcomes ++ [outcome]).findSome? WriteOutcome.fault? = some cause := by
    intro cause hcause
    rw [List.findSome?_append, hcause]
    rfl
  by_cases hongoing : t.progress = .ongoing
  · have hclear : (outcomes ++ [outcome]).findSome? WriteOutcome.fault? = outcome.fault? := by
      rw [List.findSome?_append, h.ongoing hongoing]
      simp
    cases hfault : outcome.fault? with
    | some cause =>
        rw [round_of_fault hongoing hfault]
        refine ⟨h.source_eq, h.sound, h.whole, ?_, Progress.noConfusion, ?_,
          fun _ => Progress.noConfusion⟩
        · constructor
          · intro hcomplete
            cases hcomplete
          · intro hnil
            exact absurd hnil (h.left_ne_nil hongoing)
        · intro cause' hbroken
          injection hbroken with hcause
          rw [hclear, hfault, hcause]
    | none =>
        rw [hfault] at hclear
        obtain ⟨count, hcount, rfl⟩ | ⟨cause, hkind, rfl⟩ := WriteOutcome.of_fault?_eq_none hfault
        · rw [h.round_took hongoing hcount]
          refine Carries.proceed h.source_eq (h.sound.drop _) ?_ hclear
          obtain ⟨behind, hbehind⟩ :=
            (List.take_prefix count t.sender.offer).trans t.sender.offer_prefix
          rw [Buffer.toList_drop, ← h.whole, ← hbehind, List.drop_left, List.append_assoc]
        · rw [round_of_wouldBlock hkind]
          exact { h with
            ongoing := fun _ => hclear
            broken := fun cause hbroken => hmore cause (h.broken cause hbroken) }
  · rw [round_of_ended hongoing]
    exact { h with
      ongoing := fun hagain => absurd hagain hongoing
      broken := fun cause hbroken => hmore cause (h.broken cause hbroken) }

/-- Rounds one after another. -/
theorem Carries.rounds (h : t.Carries b outcomes) (more : List WriteOutcome) :
    (more.foldl Transmission.round t).Carries b (outcomes ++ more) := by
  induction more generalizing outcomes t with
  | nil => simpa using h
  | cons outcome more ih => simpa using ih (h.round outcome)

/-- After its end a transmission stays as it is. -/
theorem rounds_of_ended (h : t.progress ≠ .ongoing) (more : List WriteOutcome) :
    more.foldl round t = t := by
  induction more with
  | nil => rfl
  | cons outcome more ih => rw [List.foldl_cons, round_of_ended h, ih]

/-- A round only adds to what was taken. -/
theorem Carries.accepted_round (h : t.Carries b outcomes) (outcome : WriteOutcome) :
    t.accepted <+: (t.round outcome).accepted := by
  by_cases hongoing : t.progress = .ongoing
  · cases hfault : outcome.fault? with
    | some cause => simp [round_of_fault hongoing hfault]
    | none =>
        obtain ⟨count, hcount, rfl⟩ | ⟨cause, hkind, rfl⟩ := WriteOutcome.of_fault?_eq_none hfault
        · rw [h.round_took hongoing hcount]
          exact List.prefix_append _ _
        · simp [round_of_wouldBlock hkind]
  · simp [round_of_ended hongoing]

theorem Carries.accepted_rounds (h : t.Carries b outcomes) (more : List WriteOutcome) :
    t.accepted <+: (more.foldl Transmission.round t).accepted := by
  induction more generalizing outcomes t with
  | nil => exact List.prefix_rfl
  | cons outcome more ih => exact (h.accepted_round outcome).trans (ih (h.round outcome))

/-- A transmission is complete when everything was taken. -/
theorem Carries.complete_iff_accepted (h : t.Carries b outcomes) :
    t.progress = .complete ↔ t.accepted = b.toList := by
  rw [h.complete_iff, ← h.whole]
  simp

/-- It is broken when a failure came before that. -/
theorem Carries.broken_iff (h : t.Carries b outcomes) (cause : IoError) :
    t.progress = .broken cause ↔
      t.accepted ≠ b.toList ∧ outcomes.findSome? WriteOutcome.fault? = some cause := by
  constructor
  · intro hbroken
    refine ⟨fun hall => ?_, h.broken cause hbroken⟩
    cases hbroken.symm.trans (h.complete_iff_accepted.mpr hall)
  · rintro ⟨hpart, hfirst⟩
    cases hprogress : t.progress with
    | ongoing => cases (h.ongoing hprogress).symm.trans hfirst
    | complete => exact absurd (h.complete_iff_accepted.mp hprogress) hpart
    | broken cause' =>
        have hsame := (h.broken cause' hprogress).symm.trans hfirst
        injection hsame with hcause
        rw [hcause]
    | crashed misuse => exact absurd hprogress (h.sane misuse)

/-- Of what is offered, as much is taken as the socket likes. -/
theorem Carries.accepted_took (h : t.Carries b outcomes) (hongoing : t.progress = .ongoing)
    {count : Nat} (hcount : 0 < count) (hfits : count ≤ t.sender.offer.length) :
    (t.round (.took count)).accepted = b.toList.take (t.accepted.length + count) := by
  obtain ⟨behind, hbehind⟩ := t.sender.offer_prefix
  rw [h.round_took hongoing hcount, ← h.whole, List.take_length_add_append, ← hbehind,
    List.take_append_of_le_length hfits]
  rfl

/-- After a failure nothing more is taken. -/
theorem accepted_of_fault {outcome : WriteOutcome} {cause : IoError}
    (hfault : outcome.fault? = some cause) (more : List WriteOutcome) :
    ((outcome :: more).foldl round t).accepted = t.accepted := by
  by_cases hongoing : t.progress = .ongoing
  · rw [List.foldl_cons, round_of_fault hongoing hfault, rounds_of_ended (by simp)]
  · rw [rounds_of_ended hongoing]

end Transmission

/-! ## 3. Whole transmissions -/

namespace SocketSender

theorem carries_send (outcomes : List WriteOutcome) (b : Buffer) (s : SocketSender) :
    (s.send outcomes b).Carries b outcomes :=
  (Transmission.carries_start b s).rounds outcomes

theorem send_append (outcomes more : List WriteOutcome) (b : Buffer) (s : SocketSender) :
    s.send (outcomes ++ more) b = more.foldl Transmission.round (s.send outcomes b) :=
  List.foldl_append

/-- **What a socket takes is a front of the buffer**, however much it takes at a time, however the
buffer is cut, and whatever the sender has left of an earlier one. It only grows. The sender is
done exactly when the socket has taken everything, and it breaks off with the first failure before
that, after which nothing more is taken. Until then a round offers something, of which as much is
taken as the socket likes, and a socket that takes nothing now changes nothing. The program makes no
mistake, and the buffer is as it was. -/
theorem accepted_prefix_of_send (outcomes : List WriteOutcome) (b : Buffer) (s : SocketSender) :
    let t := s.send outcomes b
    t.accepted <+: b.toList ∧
      (∀ earlier later, outcomes = earlier ++ later →
        (s.send earlier b).accepted <+: t.accepted) ∧
      (t.progress = .complete ↔ t.accepted = b.toList) ∧
      (∀ cause, t.progress = .broken cause ↔
        t.accepted ≠ b.toList ∧ outcomes.findSome? WriteOutcome.fault? = some cause) ∧
      (∀ earlier outcome later, outcomes = earlier ++ outcome :: later → outcome.fault? ≠ none →
        t.accepted = (s.send earlier b).accepted) ∧
      (t.progress = .ongoing → 0 < t.sender.offer.length ∧
        (∀ count, 0 < count → count ≤ t.sender.offer.length →
          (s.send (outcomes ++ [.took count]) b).accepted =
            b.toList.take (t.accepted.length + count)) ∧
        ∀ cause, cause.kind = .wouldBlock → s.send (outcomes ++ [.failed cause]) b = t) ∧
      (∀ misuse, t.progress ≠ .crashed misuse) ∧
      t.source = b ∧
      ∀ s' : SocketSender, s'.send outcomes b = t := by
  intro t
  have h : t.Carries b outcomes := carries_send outcomes b s
  refine ⟨⟨_, h.whole⟩, ?_, h.complete_iff_accepted, h.broken_iff, ?_,
    fun hongoing => ⟨?_, ?_, ?_⟩, h.sane, h.source_eq, fun s' => rfl⟩
  · rintro earlier later rfl
    have hmore := (carries_send earlier b s).accepted_rounds later
    rwa [← send_append] at hmore
  · rintro earlier outcome later rfl hfault
    obtain ⟨cause, hcause⟩ := Option.ne_none_iff_exists'.mp hfault
    show (s.send (earlier ++ outcome :: later) b).accepted = _
    rw [send_append]
    exact Transmission.accepted_of_fault hcause later
  · exact List.length_pos_iff.mpr (offer_ne_nil h.sound (h.left_ne_nil hongoing))
  · intro count hcount hfits
    rw [send_append]
    exact h.accepted_took hongoing hcount hfits
  · intro cause hkind
    rw [send_append]
    exact Transmission.round_of_wouldBlock hkind

/-- A sender that has bytes of an earlier buffer left, and a socket that takes four bytes of three
segments, then nothing for now, and then nothing any more. -/
example :
    let used : SocketSender := { pending := .ofBytes [9, 9] }
    let b := ((Buffer.ofBytes [1, 2]).pushBytes [3]).pushBytes [4, 5]
    let t := used.send [.took 4, .failed (.ofKind .wouldBlock), .took 0, .took 1] b
    t.accepted = [1, 2, 3, 4] ∧ t.progress = .broken (.ofKind .writeZero) := by
  decide

end SocketSender

end Courier
