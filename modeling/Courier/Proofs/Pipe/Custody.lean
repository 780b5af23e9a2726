import Courier.Proofs.Pipe.Finality

/-!
Courier.Proofs.Pipe.Custody — when a call of a pipe breaks off.

The writer may declare written what it was provided memory for, and the reader may consume what a
read has shown it. `Custody` is a conduit with what the writer has left of the memory provided;
what the reader was shown and has not consumed is told from the conduit. A call that keeps to this
is a call of correct use, whatever other calls come between.

A call breaks off when it asks for what the pipe does not have. What both sides share is behind a
lock, and a call that breaks off while it holds the lock poisons it: from then on every call that
takes the lock breaks off. Calls of correct use break off for one reason only
(`Custody.breaks_off_of_run`): what a reader has in its hands may be taken away from it. When the
reader is declared finished between a read and the consumption of what it has shown, what is unread
is dropped, the consumption asks for more than there is, and poisons the lock.
-/

namespace Courier

/-! ## 1. The memory provided -/

namespace Pipe

variable {pool : BlockPool} {p q : Pipe}

theorem room_advance {n : Nat} (h : p.advance n = .ok q) : q.room = p.room - n := by
  obtain ⟨rfl, rfl⟩ | ⟨b, b', hcurrent, hb, rfl⟩ := advance_eq h
  · rfl
  · obtain ⟨-, rfl⟩ := Block.advance_eq hb
    have hlength : (b.spare n).length = n := b.length_spare n
    simp only [room, hcurrent, Block.room, List.length_append, hlength]
    omega

/-- What is written takes its room from the memory provided, if it fits. -/
theorem sub_le_room_write (bs : Bytes) (pool : BlockPool) (p : Pipe) :
    p.room - bs.length ≤ (p.write bs pool).2.room := by
  cases bs with
  | nil =>
      rw [write]
      exact Nat.sub_le _ _
  | cons b rest =>
      by_cases hfits : (b :: rest).length ≤ p.room
      · rw [List.length_cons] at hfits
        have hready : p.ensureMemory 1 pool = (pool, p) := by
          have hwanted : max 1 (min 1 Block.capacity) ≤ p.room := by
            have : max 1 (min 1 Block.capacity) = 1 := by decide
            omega
          simp only [ensureMemory, if_pos hwanted]
        have hdrop : rest.drop (p.room - 1) = [] := List.drop_eq_nil_of_le (by omega)
        have htake : rest.take (p.room - 1) = rest := List.take_of_length_le (by omega)
        rw [write]
        simp only [hready, hdrop, htake]
        rw [write]
        cases hcurrent : p.current with
        | none => simp [room, hcurrent]
        | some block =>
            simp only [room, hcurrent, Option.map_some, Block.room, List.length_append]
            omega
      · have hnone : p.room - (b :: rest).length = 0 := by omega
        rw [hnone]
        exact Nat.zero_le _

/-- A block that nothing was written to stays where it is. -/
theorem Tidy.stageCurrent_eq (h : p.Tidy) (hnone : p.unflushed = 0) (pool : BlockPool) :
    p.stageCurrent pool = (pool, p) := by
  have hbehind : p.behind = [] := List.eq_nil_of_length_eq_zero (h.unflushed_eq.symm.trans hnone)
  rw [behind, List.append_eq_nil_iff] at hbehind
  unfold Pipe.stageCurrent
  cases hcurrent : p.current with
  | none => rfl
  | some b =>
      have hfilled : b.filled = [] := by simpa [hcurrent] using hbehind.2
      simp [hfilled]

theorem Tidy.room_publish (h : p.Tidy) (hnone : p.unflushed = 0) (pool : BlockPool) :
    (p.publish pool).2.2.room = p.room := by
  unfold Pipe.publish
  rw [h.stageCurrent_eq hnone]
  dsimp only
  split <;> rfl

theorem Tidy.room_completeWriter (h : p.Tidy) (hnone : p.unflushed = 0) (pool : BlockPool) :
    (p.completeWriter pool).2.room = p.room := by
  unfold Pipe.completeWriter
  rw [h.stageCurrent_eq hnone]
  dsimp only
  split <;> rfl

/-- It is only ever too much that is consumed. -/
theorem consume_eq_error_iff (pool : BlockPool) {n : Nat} {m : Misuse} :
    p.consume n pool = .error m ↔ m = .advancedPastBuffer ∧ p.unread.size < n := by
  unfold consume Buffer.advance
  split
  · next hzero => simp [hzero]
  · split
    · next hlt => simp [hlt, Except.map, eq_comm]
    · next hle => simp [hle, Except.map]

end Pipe

/-! ## 2. Calls that break off -/

/-- How a call breaks off. -/
inductive Breakage where
  /-- it asks for what the pipe does not have -/
  | misuse (m : Misuse)
  /-- it takes a lock that is poisoned -/
  | poisoned
  deriving DecidableEq, Repr

namespace Conduit

/-- What a turn asks for that the pipe does not have. -/
def misuse? (t : Turn) (s : Conduit) : Option Misuse :=
  match t with
  | .writer (.write bs) =>
      match s.pipe.put bs s.pool with
      | .error m => some m
      | .ok _ => none
  | .writer (.commit n) =>
      match s.pipe.advance n with
      | .error m => some m
      | .ok _ => none
  | .reader (.consume n) =>
      match s.pipe.consume n s.pool with
      | .error m => some m
      | .ok _ => none
  | _ => none

/-- Whether a turn takes the lock. -/
def locks (t : Turn) (s : Conduit) : Bool :=
  match t with
  | .writer .complete | .completeWriter | .completeReader | .cancelFlush | .cancelRead => true
  | .reader (.consume n) => n ≠ 0
  | .stepFlush =>
      match s.flush with
      | some .publishing | some (.checking _) => true
      | _ => false
  | .stepRead => s.read = some .looking
  | _ => false

/-- How much the reader was shown and has not consumed. -/
def lent (s : Conduit) : Nat :=
  s.shown - s.consumed.length

/-- The current block is staged. -/
def staged (s : Conduit) : Conduit :=
  { s with pool := (s.pipe.stageCurrent s.pool).1, pipe := (s.pipe.stageCurrent s.pool).2 }

/-- What a turn leaves behind that breaks off. The current block is staged before the lock is
taken, and a flush or a read that breaks off is over. -/
def brokenOff (t : Turn) (s : Conduit) : Conduit :=
  match t with
  | .writer .complete => s.staged
  | .stepFlush =>
      match s.flush with
      | some .publishing => { s.staged with flush := none }
      | _ => { s with flush := none }
  | .stepRead => { s with read := none }
  | _ => s

end Conduit

/-- A conduit with what its writer has in its hands, and what has become of its lock. -/
structure Custody where
  conduit : Conduit
  /-- how much of the memory provided the writer may still declare written -/
  granted : Nat := 0
  poisoned : Bool := false
  /-- the calls that broke off, the first one first -/
  breakages : List Breakage := []

namespace Custody

/-- A pipe that is not used yet. -/
def new (thresholds : Thresholds) : Custody :=
  { conduit := .new thresholds }

/-- What is called next. -/
inductive Call where
  | turn (t : Conduit.Turn)
  /-- somebody asks how much is unread -/
  | measure

/-- A call of correct use: neither side does two things at a time, the writer declares written no
more than it was provided memory for, and the reader consumes no more than it was shown. -/
def correct (call : Call) (c : Custody) : Bool :=
  match call with
  | .turn (.writer (.commit n)) => c.conduit.flush.isNone && n ≤ c.granted
  | .turn (.writer _) => c.conduit.flush.isNone
  | .turn (.reader (.consume n)) => c.conduit.read.isNone && n ≤ c.conduit.lent
  | .turn (.reader _) => c.conduit.read.isNone
  | _ => true

/-- Whether a call takes the lock. -/
def locks (call : Call) (c : Custody) : Bool :=
  match call with
  | .turn t => c.conduit.locks t
  | .measure => true

/-- How a call breaks off, if it does. -/
def breakage? (call : Call) (c : Custody) : Option Breakage :=
  if c.poisoned && c.locks call then some .poisoned
  else
    match call with
    | .turn t => (c.conduit.misuse? t).map .misuse
    | .measure => none

/-- What the writer may declare written after a turn. What was written to a block goes with it when
it is handed over. -/
def grantedAfter (t : Conduit.Turn) (c : Custody) : Nat :=
  match t with
  | .writer (.write bs) => c.granted - bs.length
  | .writer (.provide atLeast) => (c.conduit.pipe.ensureMemory atLeast c.conduit.pool).2.room
  | .writer (.commit n) => c.granted - n
  | .writer .flush | .writer .complete => if c.conduit.pipe.unflushed = 0 then c.granted else 0
  | _ => c.granted

/-- What is after a call that breaks off. -/
def breakOff (b : Breakage) (call : Call) (c : Custody) : Custody :=
  let broken := { c with
    poisoned := c.poisoned || c.locks call, breakages := c.breakages ++ [b] }
  match call with
  | .turn t => { broken with conduit := c.conduit.brokenOff t, granted := c.grantedAfter t }
  | .measure => broken

/-- What is after a call of correct use, if it need not wait. -/
def next? (call : Call) (c : Custody) : Option Custody :=
  if c.correct call then
    match c.breakage? call, call with
    | some b, _ => some (c.breakOff b call)
    | none, .turn t =>
        (c.conduit.turn? t).map fun conduit => { c with conduit, granted := c.grantedAfter t }
    | none, .measure => some c
  else none

/-- What is after some calls of correct use in a row. -/
def run? : List Call → Custody → Option Custody
  | [], c => some c
  | call :: calls, c =>
      match c.next? call with
      | none => none
      | some c => run? calls c

/-! ## 3. What the sides have in their hands -/

variable {c c' : Custody} {s : Conduit}

/-- What the writer has in its hands is memory, and a flush has nothing of it to hand over. -/
structure Grants (granted : Nat) (s : Conduit) : Prop where
  le_room : granted ≤ s.pipe.room
  flushing : s.flush ≠ none → granted = 0 ∨ s.pipe.unflushed = 0

theorem Grants.keeps {granted : Nat} {s s' : Conduit} (h : Grants granted s)
    (hkeeps : s.pipe.Keeps s'.pipe) (hflush : s'.flush ≠ none → s.flush ≠ none) :
    Grants granted s' where
  le_room := by
    rw [Pipe.room, hkeeps.current_eq]
    exact h.le_room
  flushing hne := by
    rw [hkeeps.unflushed_eq]
    exact h.flushing (hflush hne)

/-- A step of a flush hands over the block, or nothing was written to it. -/
theorem grants_stepFlush {stage : FlushStage} {result : Staged FlushStage FlushOutcome}
    {pool : BlockPool} {pipe : Pipe} (hsound : c.conduit.Sound) (h : Grants c.granted c.conduit)
    (hbegun : c.conduit.flush = some stage)
    (hstep : stage.step? c.conduit.pool c.conduit.pipe = some (result, pool, pipe)) :
    Grants c.granted { c.conduit with
      pool, pipe, flush := result.next?, waited := c.conduit.waitedAfter stage } := by
  have hflush : c.conduit.flush ≠ none := by
    rw [hbegun]
    exact Option.some_ne_none stage
  obtain hpublish | ⟨-, hkeeps⟩ := Pipe.flush_cases hstep
  · have hpipe : pipe = (c.conduit.pipe.publish c.conduit.pool).2.2 := by rw [hpublish]
    refine ⟨?_, fun _ => .inr ?_⟩
    · obtain hzero | hnone := h.flushing hflush
      · rw [hzero]
        exact Nat.zero_le _
      · have hroom := hsound.tidy.room_publish hnone c.conduit.pool
        rw [← hpipe] at hroom
        exact Nat.le_trans h.le_room (Nat.le_of_eq hroom.symm)
    · rw [hpipe]
      exact Pipe.unflushed_publish _ _
  · exact h.keeps hkeeps fun _ => hflush

theorem grants_turn {t : Conduit.Turn} (hsound : c.conduit.Sound)
    (h : Grants c.granted c.conduit) (hturn : c.conduit.turn? t = some s) :
    Grants (c.grantedAfter t) s := by
  cases Conduit.does_of_turn hturn with
  | writes bs idle =>
      refine ⟨?_, fun hne => absurd idle hne⟩
      exact Nat.le_trans (Nat.sub_le_sub_right h.le_room _) (Pipe.sub_le_room_write bs _ _)
  | provides atLeast idle => exact ⟨Nat.le_refl _, fun hne => absurd idle hne⟩
  | fills bs idle =>
      exact ⟨Nat.le_trans h.le_room (Nat.le_of_eq (Pipe.room_fillMemory bs _).symm),
        fun hne => absurd idle hne⟩
  | @commits n pipe idle advance =>
      refine ⟨?_, fun hne => absurd idle hne⟩
      simp only [Pipe.room_advance advance]
      exact Nat.sub_le_sub_right h.le_room n
  | flushes =>
      simp only [grantedAfter]
      split
      · next hnone => exact ⟨h.le_room, fun _ => .inr hnone⟩
      · exact ⟨Nat.zero_le _, fun _ => .inl rfl⟩
  | completes idle =>
      simp only [grantedAfter]
      split
      · next hnone =>
        have hroom := hsound.tidy.room_completeWriter hnone c.conduit.pool
        exact ⟨Nat.le_trans h.le_room (Nat.le_of_eq hroom.symm), fun hne => absurd idle hne⟩
      · exact ⟨Nat.zero_le _, fun _ => .inl rfl⟩
  | consumes idle consume =>
      obtain ⟨-, -, rfl⟩ | ⟨-, -, -, rfl⟩ := Pipe.consume_eq consume <;>
        exact ⟨h.le_room, h.flushing⟩
  | stepsFlush begun step => exact grants_stepFlush hsound h begun step
  | stepsRead begun step => exact h.keeps (Pipe.read_keeps step).1 id
  | dropsFlush => exact ⟨h.le_room, fun hne => absurd rfl hne⟩
  | reads | dropsRead | completesWriter | completesReader | cancelsFlush | cancelsRead | shares =>
      exact ⟨h.le_room, h.flushing⟩

end Custody

namespace Conduit

variable {s s' : Conduit}

/-- A read shows how far the reader has received, and nothing else shows anything. -/
theorem shown_turn {t : Turn} (hsound : s.Sound) (hturn : s.turn? t = some s') :
    s'.shown = s.shown ∨ s'.shown = s'.received.length := by
  cases does_of_turn hturn with
  | @stepsRead stage result pipe begun step =>
      cases result with
      | next stage => exact .inl rfl
      | done outcome =>
          obtain ⟨hkeeps, hbuffer⟩ := Pipe.read_keeps step
          refine .inr ?_
          simp only [shownAfter, received, List.length_append, hbuffer outcome rfl,
            hkeeps.unread_eq, hsound.tidy.sound.size_eq]
  | _ => exact .inl rfl

/-- As long as the pipe is read, the reader was shown no more than it has received. -/
theorem shown_le_turn {t : Turn} (hsound : s.Sound)
    (h : s.pipe.readerCompleted = false → s.shown ≤ s.received.length)
    (hturn : s.turn? t = some s') (hopen : s'.pipe.readerCompleted = false) :
    s'.shown ≤ s'.received.length := by
  have hextends := extends_turn hturn
  obtain hsame | hshown := shown_turn hsound hturn
  · rw [hsame]
    exact Nat.le_trans (h (hextends.open_of_open hopen)) (hextends.received hopen).length_le
  · exact Nat.le_of_eq hshown

/-- So what it has in its hands is unread. -/
theorem lent_le (hsound : s.Sound) (h : s.shown ≤ s.received.length) :
    s.lent ≤ s.pipe.unread.size := by
  rw [lent, hsound.tidy.sound.size_eq]
  simp only [received, List.length_append] at h
  omega

end Conduit

namespace Custody

variable {c c' : Custody}

/-! ## 4. Correct use -/

/-- What calls of correct use keep: each side has in its hands what is there, as long as the pipe is
read; and when a call breaks off, the pipe is not read any more. -/
structure Kept (c : Custody) : Prop where
  sound : c.conduit.Sound
  grants : Grants c.granted c.conduit
  shown : c.conduit.pipe.readerCompleted = false →
    c.conduit.shown ≤ c.conduit.received.length
  poisoned_iff : c.poisoned = true ↔ c.breakages ≠ []
  closed : c.breakages ≠ [] → c.conduit.pipe.readerCompleted = true
  row : c.breakages = [] ∨
    ∃ later, c.breakages = .misuse .advancedPastBuffer :: later ∧ ∀ b ∈ later, b = .poisoned

theorem kept_new (thresholds : Thresholds) : (new thresholds).Kept where
  sound := Conduit.sound_new thresholds
  grants := ⟨Nat.zero_le _, fun _ => .inl rfl⟩
  shown _ := Nat.zero_le _
  poisoned_iff := ⟨fun h => absurd h Bool.false_ne_true, fun h => absurd rfl h⟩
  closed h := absurd rfl h
  row := .inl rfl

/-- Correct use asks for too much in one case only: something is consumed of a pipe that is not read
any more. -/
theorem Kept.misuse?_eq_some_iff (h : c.Kept) {t : Conduit.Turn} {m : Misuse}
    (hcorrect : c.correct (.turn t) = true) : c.conduit.misuse? t = some m ↔
      m = .advancedPastBuffer ∧ c.conduit.pipe.readerCompleted = true ∧
        ∃ n, 0 < n ∧ t = .reader (.consume n) := by
  cases t with
  | writer t =>
      cases t with
      | write bs =>
          simp [Conduit.misuse?, Pipe.put_eq_write h.sound.blank]
      | commit n =>
          simp only [correct, Bool.and_eq_true, decide_eq_true_eq] at hcorrect
          obtain ⟨q, hq⟩ := Pipe.exists_advance (Nat.le_trans hcorrect.2 h.grants.le_room)
          simp [Conduit.misuse?, hq]
      | provide | fill | flush | complete => simp [Conduit.misuse?]
  | reader t =>
      cases t with
      | read => simp [Conduit.misuse?]
      | consume n =>
          simp only [correct, Bool.and_eq_true, decide_eq_true_eq] at hcorrect
          have hmisuse : c.conduit.misuse? (.reader (.consume n)) = some m ↔
              m = .advancedPastBuffer ∧ c.conduit.pipe.unread.size < n := by
            rw [← Pipe.consume_eq_error_iff c.conduit.pool]
            simp only [Conduit.misuse?]
            split <;> simp_all
          rw [hmisuse]
          refine and_congr_right fun _ => ⟨fun hlt => ?_, ?_⟩
          · cases hopen : c.conduit.pipe.readerCompleted with
            | true => exact ⟨rfl, n, by omega, rfl⟩
            | false =>
                have hlent := Conduit.lent_le h.sound (h.shown hopen)
                omega
          · rintro ⟨hclosed, _, hpos, heq⟩
            cases heq
            rw [h.sound.tidy.unread_of_completed hclosed]
            exact hpos
  | stepFlush | stepRead | dropFlush | dropRead | completeWriter | completeReader | cancelFlush
  | cancelRead | share => simp [Conduit.misuse?]

variable {call : Call} {b : Breakage}

/-- The first call of correct use that breaks off asks for too much of a pipe that is not read any
more. -/
theorem Kept.breakage?_eq_some_iff (h : c.Kept) (hcorrect : c.correct call = true)
    (hpoisoned : c.poisoned = false) : c.breakage? call = some b ↔
      b = .misuse .advancedPastBuffer ∧ c.conduit.pipe.readerCompleted = true ∧
        ∃ n, 0 < n ∧ call = .turn (.reader (.consume n)) := by
  unfold breakage?
  rw [hpoisoned, Bool.false_and, if_neg Bool.false_ne_true]
  cases call with
  | turn t =>
      simp only [Option.map_eq_some_iff, h.misuse?_eq_some_iff hcorrect, Call.turn.injEq]
      constructor
      · rintro ⟨m, ⟨rfl, hclosed, hconsume⟩, rfl⟩
        exact ⟨rfl, hclosed, hconsume⟩
      · rintro ⟨rfl, hclosed, hconsume⟩
        exact ⟨_, ⟨rfl, hclosed, hconsume⟩, rfl⟩
  | measure => simp

/-- Once the lock is poisoned, just the calls that take it break off. -/
theorem Kept.breakage?_eq_some_iff_of_poisoned (h : c.Kept) (hcorrect : c.correct call = true)
    (hpoisoned : c.poisoned = true) :
    c.breakage? call = some b ↔ b = .poisoned ∧ c.locks call = true := by
  unfold breakage?
  rw [hpoisoned, Bool.true_and]
  split
  · next hlocks => simp [hlocks, eq_comm]
  · next hlocks =>
    refine ⟨fun hbreakage => ?_, fun hb => absurd hb.2 hlocks⟩
    cases call with
    | measure => cases hbreakage
    | turn t =>
        obtain ⟨m, hmisuse, -⟩ := Option.map_eq_some_iff.mp hbreakage
        obtain ⟨-, -, n, hpos, rfl⟩ := (h.misuse?_eq_some_iff hcorrect).mp hmisuse
        exact absurd (decide_eq_true (Nat.ne_of_gt hpos)) hlocks

/-- A call that breaks off does so with the lock in its hands, or for want of it. -/
theorem Kept.locks_of_breakage? (h : c.Kept) (hcorrect : c.correct call = true)
    (hbreakage : c.breakage? call = some b) : c.locks call = true := by
  cases hpoisoned : c.poisoned with
  | true => exact ((h.breakage?_eq_some_iff_of_poisoned hcorrect hpoisoned).mp hbreakage).2
  | false =>
      obtain ⟨-, -, n, hpos, rfl⟩ := (h.breakage?_eq_some_iff hcorrect hpoisoned).mp hbreakage
      exact decide_eq_true (Nat.ne_of_gt hpos)

/-- A call breaks off, or does what it does to a conduit. -/
theorem next?_cases (hnext : c.next? call = some c') : c.correct call = true ∧
    ((∃ b, c.breakage? call = some b ∧ c' = c.breakOff b call) ∨
      (∃ t s, call = .turn t ∧ c.conduit.turn? t = some s ∧
        c' = { c with conduit := s, granted := c.grantedAfter t }) ∨
      call = .measure ∧ c' = c) := by
  unfold next? at hnext
  split at hnext
  · next hcorrect =>
    refine ⟨hcorrect, ?_⟩
    split at hnext
    · next b hbreakage =>
      cases hnext
      exact .inl ⟨b, hbreakage, rfl⟩
    · next t _ =>
      obtain ⟨s, hturn, rfl⟩ := Option.map_eq_some_iff.mp hnext
      exact .inr (.inl ⟨t, s, rfl, hturn, rfl⟩)
    · cases hnext
      exact .inr (.inr ⟨rfl, rfl⟩)
  · cases hnext

/-! ## 5. What a call leaves behind that breaks off -/

theorem sound_staged {s : Conduit} (h : s.Sound) : s.staged.Sound := by
  have hgrows := Pipe.stageCurrent_grows s.pool s.pipe
  refine ⟨hgrows.blank h.blank, h.tidy.stageCurrent s.pool, fun hopen => ?_⟩
  have hopen' : s.pipe.readerCompleted = false := hgrows.readerCompleted_eq.symm.trans hopen
  rw [show s.staged.pipe.pendingBytes = s.pipe.pendingBytes ++ [] from
    hgrows.pending h.blank hopen', List.append_nil]
  exact h.account hopen'

theorem sound_brokenOff (t : Conduit.Turn) {s : Conduit} (h : s.Sound) :
    (s.brokenOff t).Sound := by
  have hstaged := sound_staged h
  unfold Conduit.brokenOff
  split
  · exact hstaged
  · split
    · exact ⟨hstaged.blank, hstaged.tidy, hstaged.account⟩
    · exact ⟨h.blank, h.tidy, h.account⟩
  · exact ⟨h.blank, h.tidy, h.account⟩
  · exact h

theorem readerCompleted_brokenOff (t : Conduit.Turn) (s : Conduit) :
    (s.brokenOff t).pipe.readerCompleted = s.pipe.readerCompleted := by
  have hstaged : s.staged.pipe.readerCompleted = s.pipe.readerCompleted :=
    (Pipe.stageCurrent_grows s.pool s.pipe).readerCompleted_eq
  unfold Conduit.brokenOff
  split
  · exact hstaged
  · split
    · exact hstaged
    · rfl
  · rfl
  · rfl

/-- Where nothing was written to the memory provided, it is not handed over. -/
theorem grants_brokenOff {t : Conduit.Turn} (hsound : c.conduit.Sound)
    (h : Grants c.granted c.conduit) (hcorrect : c.correct (.turn t) = true)
    (hlocks : c.conduit.locks t = true) : Grants (c.grantedAfter t) (c.conduit.brokenOff t) := by
  have hstaged (hnone : c.conduit.pipe.unflushed = 0) :
      c.granted ≤ c.conduit.staged.pipe.room := by
    rw [Conduit.staged, hsound.tidy.stageCurrent_eq hnone]
    exact h.le_room
  cases t with
  | writer t =>
      cases t with
      | complete =>
          have hflush : c.conduit.flush = none := by simpa [correct] using hcorrect
          simp only [grantedAfter]
          split
          · next hnone => exact ⟨hstaged hnone, fun hne => absurd hflush hne⟩
          · exact ⟨Nat.zero_le _, fun _ => .inl rfl⟩
      | write | provide | fill | commit | flush => cases hlocks
  | stepFlush =>
      simp only [Conduit.brokenOff]
      split
      · next hstage =>
        have hflush : c.conduit.flush ≠ none := by simp [hstage]
        refine ⟨?_, fun hne => absurd rfl hne⟩
        obtain hzero | hnone := h.flushing hflush
        · simp only [grantedAfter, hzero, Nat.zero_le]
        · exact hstaged hnone
      · exact ⟨h.le_room, fun hne => absurd rfl hne⟩
  | reader t =>
      cases t with
      | read => cases hlocks
      | consume n => exact h
  | stepRead => exact ⟨h.le_room, h.flushing⟩
  | completeWriter | completeReader | cancelFlush | cancelRead => exact h
  | dropFlush | dropRead | share => cases hlocks

/-! ## 6. Every call -/

theorem Kept.closed_of_breakage? (h : c.Kept) (hcorrect : c.correct call = true)
    (hbreakage : c.breakage? call = some b) : c.conduit.pipe.readerCompleted = true := by
  cases hpoisoned : c.poisoned with
  | true => exact h.closed (h.poisoned_iff.mp hpoisoned)
  | false => exact ((h.breakage?_eq_some_iff hcorrect hpoisoned).mp hbreakage).2.1

theorem Kept.breakOff (h : c.Kept) (hcorrect : c.correct call = true)
    (hbreakage : c.breakage? call = some b) : (c.breakOff b call).Kept := by
  have hlocks := h.locks_of_breakage? hcorrect hbreakage
  have hclosed := h.closed_of_breakage? hcorrect hbreakage
  have hpoisoned : (c.poisoned || c.locks call) = true ↔ c.breakages ++ [b] ≠ [] := by
    simp [hlocks]
  have hrow : c.breakages ++ [b] = [] ∨
      ∃ later, c.breakages ++ [b] = .misuse .advancedPastBuffer :: later ∧
        ∀ b ∈ later, b = .poisoned := by
    obtain hnil | ⟨later, hlater, hall⟩ := h.row
    · have hfirst : c.poisoned = false := by
        rw [← Bool.not_eq_true, h.poisoned_iff]
        exact not_not_intro hnil
      obtain ⟨rfl, -⟩ := (h.breakage?_eq_some_iff hcorrect hfirst).mp hbreakage
      exact .inr ⟨[], by rw [hnil]; rfl, fun b hb => by cases hb⟩
    · have hagain : c.poisoned = true := h.poisoned_iff.mpr (by simp [hlater])
      obtain ⟨rfl, -⟩ := (h.breakage?_eq_some_iff_of_poisoned hcorrect hagain).mp hbreakage
      refine .inr ⟨later ++ [.poisoned], by rw [hlater]; rfl, fun b hb => ?_⟩
      rcases List.mem_append.mp hb with hb | hb
      · exact hall b hb
      · exact List.mem_singleton.mp hb
  cases call with
  | measure => exact ⟨h.sound, h.grants, h.shown, hpoisoned, fun _ => hclosed, hrow⟩
  | turn t =>
      have hclosed' : (c.conduit.brokenOff t).pipe.readerCompleted = true :=
        (readerCompleted_brokenOff t c.conduit).trans hclosed
      exact ⟨sound_brokenOff t h.sound, grants_brokenOff h.sound h.grants hcorrect hlocks,
        fun hopen => absurd (hopen.symm.trans hclosed') Bool.false_ne_true, hpoisoned,
        fun _ => hclosed', hrow⟩

/-- **Every call of correct use keeps this.** -/
theorem Kept.next (h : c.Kept) (hnext : c.next? call = some c') : c'.Kept := by
  obtain ⟨hcorrect, ⟨b, hbreakage, rfl⟩ | ⟨t, s, rfl, hturn, rfl⟩ | ⟨-, rfl⟩⟩ := next?_cases hnext
  · exact h.breakOff hcorrect hbreakage
  · exact ⟨h.sound.turn hturn, grants_turn h.sound h.grants hturn,
      Conduit.shown_le_turn h.sound h.shown hturn, h.poisoned_iff,
      fun hne => Conduit.readerCompleted_turn (h.closed hne) hturn, h.row⟩
  · exact h

/-- Something is consumed after the reader was declared finished. -/
def ConsumesAfterEnd (calls : List Call) : Prop :=
  ∃ front n rest, calls = front ++ .turn (.reader (.consume n)) :: rest ∧ 0 < n ∧
    .turn .completeReader ∈ front

/-- A pipe that is not read any more was declared so, and a call that broke off came after it. -/
structure Traced (past : List Call) (c : Custody) : Prop where
  closed : c.conduit.pipe.readerCompleted = true → .turn .completeReader ∈ past
  broken : c.breakages ≠ [] → ConsumesAfterEnd past

theorem ConsumesAfterEnd.append {past : List Call} (h : ConsumesAfterEnd past)
    (more : List Call) : ConsumesAfterEnd (past ++ more) := by
  obtain ⟨front, n, rest, rfl, hpos, hclosed⟩ := h
  exact ⟨front, n, rest ++ more, by simp, hpos, hclosed⟩

theorem Traced.next {past : List Call} (htraced : c.Traced past) (h : c.Kept)
    (hnext : c.next? call = some c') : c'.Traced (past ++ [call]) := by
  obtain ⟨hcorrect, ⟨b, hbreakage, rfl⟩ | ⟨t, s, rfl, hturn, rfl⟩ | ⟨-, rfl⟩⟩ := next?_cases hnext
  · have hclosed := h.closed_of_breakage? hcorrect hbreakage
    refine ⟨fun _ => List.mem_append_left _ (htraced.closed hclosed), fun _ => ?_⟩
    cases hpoisoned : c.poisoned with
    | true => exact (htraced.broken (h.poisoned_iff.mp hpoisoned)).append _
    | false =>
        obtain ⟨-, -, n, hpos, rfl⟩ := (h.breakage?_eq_some_iff hcorrect hpoisoned).mp hbreakage
        exact ⟨past, n, [], rfl, hpos, htraced.closed hclosed⟩
  · refine ⟨fun hclosed => ?_, fun hne => (htraced.broken hne).append _⟩
    have hdeclares := (Conduit.declares_turn hturn).reader
    rw [hclosed, eq_comm, Bool.or_eq_true] at hdeclares
    rcases hdeclares with hbefore | hnow
    · exact List.mem_append_left _ (htraced.closed hbefore)
    · have heq : t = .completeReader := by
        cases t <;> first | rfl | cases hnow
      simp [heq]
  · exact ⟨fun hclosed => List.mem_append_left _ (htraced.closed hclosed),
      fun hne => (htraced.broken hne).append _⟩

theorem Kept.run {past calls : List Call} (h : c.Kept) (htraced : c.Traced past)
    (hrun : c.run? calls = some c') : c'.Kept ∧ c'.Traced (past ++ calls) := by
  induction calls generalizing c past with
  | nil =>
      cases hrun
      rw [List.append_nil]
      exact ⟨h, htraced⟩
  | cons call calls ih =>
      simp only [run?] at hrun
      split at hrun
      · cases hrun
      · next hnext =>
        rw [← List.singleton_append, ← List.append_assoc]
        exact ih (h.next hnext) (htraced.next h hnext) hrun

/-- A call of correct use that does not break off is done, unless it has to wait for another. -/
theorem waits_of_next?_eq_none {t : Conduit.Turn} (hcorrect : c.correct (.turn t) = true)
    (hnone : c.breakage? (.turn t) = none) (hblocked : c.next? (.turn t) = none) :
    t = .stepFlush ∨ t = .stepRead ∨ t = .dropFlush ∨ t = .dropRead ∨ ∃ pool, t = .share pool := by
  have hturn : c.conduit.turn? t = none := by
    simpa [next?, hcorrect, hnone] using hblocked
  have hmisuse : c.conduit.misuse? t = none := by
    unfold breakage? at hnone
    split at hnone
    · cases hnone
    · exact Option.map_eq_none_iff.mp hnone
  cases t with
  | writer t =>
      have hflush : c.conduit.flush = none := by
        cases t <;> simp only [correct, Bool.and_eq_true, Option.isNone_iff_eq_none] at hcorrect <;>
          first | exact hcorrect | exact hcorrect.1
      rw [Conduit.turn?, if_pos hflush] at hturn
      cases t with
      | commit n =>
          simp only [Conduit.misuse?] at hmisuse
          simp only [Conduit.writerTurn?] at hturn
          split at hturn
          · next hadvance => simp [hadvance] at hmisuse
          · cases hturn
      | write | provide | fill | flush | complete => cases hturn
  | reader t =>
      have hread : c.conduit.read = none := by
        cases t <;> simp only [correct, Bool.and_eq_true, Option.isNone_iff_eq_none] at hcorrect <;>
          first | exact hcorrect | exact hcorrect.1
      rw [Conduit.turn?, if_pos hread] at hturn
      cases t with
      | read => cases hturn
      | consume n =>
          simp only [Conduit.misuse?] at hmisuse
          simp only [Conduit.readerTurn?] at hturn
          split at hturn
          · next hconsume => simp [hconsume] at hmisuse
          · cases hturn
  | stepFlush | stepRead | dropFlush | dropRead | share => simp
  | completeWriter | completeReader | cancelFlush | cancelRead => cases hturn

/-- **Calls of correct use break off for one reason only**, in whichever order the two sides and
others make them. As long as none has broken off, the next one does just if it consumes bytes of a
pipe whose reader was declared finished after it was shown them; so none ever does unless something
is consumed after that. From then on just the calls that take the lock break off, and all of them
do. Any other call is done, or has to wait. -/
theorem breaks_off_of_run (thresholds : Thresholds) (calls : List Call)
    (hrun : (new thresholds).run? calls = some c) :
    (¬ ConsumesAfterEnd calls → c.breakages = []) ∧
    (c.breakages = [] → ∀ call b, c.correct call = true →
      (c.breakage? call = some b ↔ b = .misuse .advancedPastBuffer ∧
        c.conduit.pipe.readerCompleted = true ∧
          ∃ n, 0 < n ∧ call = .turn (.reader (.consume n)))) ∧
    (c.breakages ≠ [] →
      (∃ later, c.breakages = .misuse .advancedPastBuffer :: later ∧
        ∀ b ∈ later, b = .poisoned) ∧
      ∀ call b, c.correct call = true →
        (c.breakage? call = some b ↔ b = .poisoned ∧ c.locks call = true)) ∧
    (∀ t, c.correct (.turn t) = true → c.breakage? (.turn t) = none →
      c.next? (.turn t) = none → t = .stepFlush ∨ t = .stepRead ∨ t = .dropFlush ∨
        t = .dropRead ∨ ∃ pool, t = .share pool) := by
  have hfresh : (new thresholds).Traced [] :=
    ⟨fun hclosed => absurd hclosed Bool.false_ne_true, fun hne => absurd rfl hne⟩
  obtain ⟨h, htraced⟩ := (kept_new thresholds).run hfresh hrun
  rw [List.nil_append] at htraced
  refine ⟨fun hnone => ?_, fun hnil call b hcorrect => ?_,
    fun hne => ⟨?_, fun call b hcorrect => ?_⟩, fun t hcorrect => waits_of_next?_eq_none hcorrect⟩
  · exact Decidable.not_not.mp fun hne => hnone (htraced.broken hne)
  · refine h.breakage?_eq_some_iff hcorrect ?_
    rw [← Bool.not_eq_true, h.poisoned_iff]
    exact not_not_intro hnil
  · exact h.row.resolve_left hne
  · exact h.breakage?_eq_some_iff_of_poisoned hcorrect (h.poisoned_iff.mpr hne)

/-- Memory is provided, filled and declared written, a flush waits, and what is shown is consumed in
pieces; between them the writer is declared finished. -/
def orderlyCalls : List Call :=
  [.turn (.writer (.provide 4)), .turn (.writer (.fill [1, 2, 3, 4])), .turn (.writer (.commit 4)),
    .turn (.writer .flush), .turn .stepFlush, .turn .stepFlush, .turn .stepFlush,
    .turn (.reader .read), .turn .stepRead, .turn (.reader (.consume 1)), .turn .completeWriter,
    .measure, .turn (.reader (.consume 2)), .turn .stepFlush, .turn .stepFlush]

theorem breaks_off_of_orderlyCalls : ∃ c, (new ⟨4, 2⟩).run? orderlyCalls = some c ∧
    c.conduit.consumed = [1, 2, 3] ∧ ¬ ConsumesAfterEnd orderlyCalls ∧ c.breakages = [] ∧
      c.breakage? (.turn (.reader (.consume 1))) = none := by
  have hseen : ((new ⟨4, 2⟩).run? orderlyCalls).map (fun c => (c.conduit.consumed,
      c.correct (.turn (.reader (.consume 1))), c.conduit.pipe.readerCompleted)) =
      some ([1, 2, 3], true, false) := by
    decide +kernel
  obtain ⟨c, hrun, hc⟩ := Option.map_eq_some_iff.mp hseen
  simp only [Prod.mk.injEq] at hc
  obtain ⟨hconsumed, hcorrect, hopen⟩ := hc
  have hends : ¬ ConsumesAfterEnd orderlyCalls := by
    rintro ⟨front, n, rest, heq, -, hclosed⟩
    have hmem : Call.turn .completeReader ∈ orderlyCalls := by
      rw [heq]
      exact List.mem_append_left _ hclosed
    simp [orderlyCalls] at hmem
  obtain ⟨hnever, hfirst, -⟩ := breaks_off_of_run ⟨4, 2⟩ orderlyCalls hrun
  refine ⟨c, hrun, hconsumed, hends, hnever hends, Option.eq_none_iff_forall_ne_some.mpr ?_⟩
  intro b hb
  obtain ⟨-, hclosed, -⟩ := (hfirst (hnever hends) _ b hcorrect).mp hb
  cases hopen.symm.trans hclosed

/-- The reader is shown four bytes, is declared finished from outside, and consumes what it was
shown: this breaks off, and with it the next call of the writer that takes the lock. -/
theorem broken_off_of_correct_use : ∃ c, (new {}).run? [.turn (.writer (.write [1, 2, 3, 4])),
      .turn (.writer .flush), .turn .stepFlush, .turn .stepFlush, .turn (.reader .read),
      .turn .stepRead, .turn .completeReader, .turn (.reader (.consume 4)),
      .turn (.writer (.write [5])), .turn (.writer .complete)] = some c ∧
    c.breakages = [.misuse .advancedPastBuffer, .poisoned] ∧
      Misuse.message? .advancedPastBuffer = some "advancing beyond the end of the buffer" := by
  have hseen : ((new {}).run? [.turn (.writer (.write [1, 2, 3, 4])),
      .turn (.writer .flush), .turn .stepFlush, .turn .stepFlush, .turn (.reader .read),
      .turn .stepRead, .turn .completeReader, .turn (.reader (.consume 4)),
      .turn (.writer (.write [5])), .turn (.writer .complete)]).map (·.breakages) =
      some [.misuse .advancedPastBuffer, .poisoned] := by
    decide +kernel
  obtain ⟨c, hrun, hc⟩ := Option.map_eq_some_iff.mp hseen
  exact ⟨c, hrun, hc, rfl⟩

end Custody

end Courier
