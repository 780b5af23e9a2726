import Courier.Proofs.Buffer
import Courier.Proofs.Memory.Pool
import Courier.Proofs.Pipe.Steps

/-!
Courier.Proofs.Pipe.Content — what a pipe holds, seen from both of its ends.

`Pipe.Grows` says what the writer's side can do to a pipe: it adds bytes behind those that are
there, and takes nothing away from the reader. `Pipe.Feeds` says what has become of the bytes that
were put in: the reader has got a front of them, and as long as it reads the rest is in the pipe.
What the reader has in its hands, and has not given back, is part of both.

Memory comes from a pool, and a block that comes from it must be blank.
-/

namespace Courier

namespace Pipe

/-! ## 1. The writer's side -/

/-- The bytes that were written and not flushed. -/
def behind (p : Pipe) : Bytes :=
  p.staged.flatMap (·.bytes) ++ (p.current.map (·.filled)).getD []

theorem pendingBytes_eq (p : Pipe) : p.pendingBytes = p.unread.toList ++ p.behind := by
  simp [pendingBytes, behind]

/-- What a pipe holds is left alone. -/
structure Keeps (p q : Pipe) : Prop where
  readerCompleted_eq : q.readerCompleted = p.readerCompleted
  unread_eq : q.unread = p.unread
  staged_eq : q.staged = p.staged
  current_eq : q.current = p.current
  unflushed_eq : q.unflushed = p.unflushed

theorem Keeps.refl (p : Pipe) : p.Keeps p := ⟨rfl, rfl, rfl, rfl, rfl⟩

/-- A pool and a pipe before and after something that adds `bs` to the pipe. -/
structure Grows (bs : Bytes) (s s' : BlockPool × Pipe) : Prop where
  blank : s.1.Blank → s'.1.Blank
  readerCompleted_eq : s'.2.readerCompleted = s.2.readerCompleted
  unread : s.2.unread.toList <+: s'.2.unread.toList
  sound : s.2.unread.Sound → s'.2.unread.Sound
  pending : s.1.Blank → s.2.readerCompleted = false →
    s'.2.pendingBytes = s.2.pendingBytes ++ bs

namespace Grows

variable {pool : BlockPool} {p q : Pipe} {s s₁ s₂ : BlockPool × Pipe} {xs ys : Bytes}

theorem refl (s : BlockPool × Pipe) : Grows [] s s :=
  ⟨id, rfl, List.prefix_refl _, id, fun _ _ => (List.append_nil _).symm⟩

theorem trans (h : Grows xs s s₁) (h' : Grows ys s₁ s₂) : Grows (xs ++ ys) s s₂ where
  blank := h'.blank ∘ h.blank
  readerCompleted_eq := h'.readerCompleted_eq.trans h.readerCompleted_eq
  unread := h.unread.trans h'.unread
  sound := h'.sound ∘ h.sound
  pending hblank hopen := by
    rw [h'.pending (h.blank hblank) (h.readerCompleted_eq.trans hopen), h.pending hblank hopen,
      List.append_assoc]

theorem of_keeps (hblank : s.1.Blank → s₁.1.Blank) (h : s.2.Keeps s₁.2) : Grows [] s s₁ where
  blank := hblank
  readerCompleted_eq := h.readerCompleted_eq
  unread := by simp only [h.unread_eq, List.prefix_rfl]
  sound hs := by rwa [h.unread_eq]
  pending _ _ := by simp [pendingBytes, h.unread_eq, h.staged_eq, h.current_eq]

/-- Another pipe that takes memory from the same pool. -/
theorem beside (h : Grows xs s s₁) (q : Pipe) : Grows [] (s.1, q) (s₁.1, q) :=
  of_keeps h.blank (.refl q)

end Grows

variable {pool pool' : BlockPool} {p q : Pipe}

theorem stageCurrent_grows (pool : BlockPool) (p : Pipe) :
    Grows [] (pool, p) (p.stageCurrent pool) := by
  unfold stageCurrent
  cases hcurrent : p.current with
  | none => exact .refl _
  | some b =>
      dsimp only
      split
      · exact .refl _
      · refine ⟨fun h => h.freeze b, rfl, List.prefix_refl _, id, fun _ _ => ?_⟩
        simp [pendingBytes, hcurrent, BlockPool.freeze]

/-- Nothing is left in the current block once it is staged. -/
theorem filled_stageCurrent (pool : BlockPool) (p : Pipe) :
    ((p.stageCurrent pool).2.current.map (·.filled)).getD [] = [] := by
  unfold stageCurrent
  cases hcurrent : p.current with
  | none => simp [hcurrent]
  | some b =>
      dsimp only
      split
      · next hfilled => simpa [hcurrent] using hfilled
      · rfl

/-- After the current block is staged, a new block takes its place. -/
theorem ensureMemory_grows (atLeast : Nat) (pool : BlockPool) (p : Pipe) :
    Grows [] (pool, p) (p.ensureMemory atLeast pool) := by
  unfold ensureMemory
  dsimp only
  split
  · exact .refl _
  · have hstage := stageCurrent_grows pool p
    have hfilled := filled_stageCurrent pool p
    generalize p.stageCurrent pool = staged at hstage hfilled ⊢
    have hrent : Grows [] staged
        (staged.1.rent.2, { staged.2 with current := some staged.1.rent.1 }) := by
      refine ⟨fun h => h.rent, rfl, List.prefix_refl _, id, fun hblank _ => ?_⟩
      simp [pendingBytes, hfilled, hblank.filled_rent]
    exact hstage.trans hrent

/-- There is a block to be filled. -/
theorem exists_current_ensureMemory (atLeast : Nat) (pool : BlockPool) (p : Pipe) :
    ∃ b, (p.ensureMemory atLeast pool).2.current = some b := by
  unfold ensureMemory
  dsimp only
  split
  · next hroom =>
    cases hcurrent : p.current with
    | none =>
        simp only [room, hcurrent] at hroom
        omega
    | some b => exact ⟨b, rfl⟩
  · exact ⟨_, rfl⟩

/-- The first `n` bytes of the memory that is provided to the writer. -/
def memory (n : Nat) (p : Pipe) : Bytes :=
  (p.current.map (·.spare n)).getD []

theorem fillMemory_grows (bs : Bytes) (pool : BlockPool) (p : Pipe) :
    Grows [] (pool, p) (pool, p.fillMemory bs) := by
  refine ⟨id, rfl, List.prefix_refl _, id, fun _ _ => ?_⟩
  cases hcurrent : p.current <;> simp [pendingBytes, fillMemory, hcurrent, Block.writeSpare]

theorem advance_eq {n : Nat} (h : p.advance n = .ok q) :
    n = 0 ∧ q = p ∨ ∃ b b', p.current = some b ∧ b.advance n = .ok b' ∧
      q = { p with current := some b', unflushed := p.unflushed + n } := by
  unfold advance at h
  split at h
  · next hzero =>
    cases h
    exact .inl ⟨hzero, rfl⟩
  · split at h
    · cases h
    · next b hcurrent =>
      cases hadvance : b.advance n with
      | error m =>
          rw [hadvance] at h
          cases h
      | ok b' =>
          rw [hadvance] at h
          cases h
          exact .inr ⟨b, b', hcurrent, hadvance, rfl⟩

/-- What is declared written is what the memory holds. -/
theorem advance_grows {n : Nat} (pool : BlockPool) (h : p.advance n = .ok q) :
    Grows (p.memory n) (pool, p) (pool, q) := by
  obtain ⟨rfl, rfl⟩ | ⟨b, b', hcurrent, hb, rfl⟩ := advance_eq h
  · have hnone : q.memory 0 = [] := by
      cases hcurrent : q.current <;> simp [memory, hcurrent, Block.spare]
    rw [hnone]
    exact .refl _
  · obtain ⟨-, rfl⟩ := Block.advance_eq hb
    refine ⟨id, rfl, List.prefix_refl _, id, fun _ _ => ?_⟩
    simp [pendingBytes, memory, hcurrent]

/-- As much as there is room for can be declared written. -/
theorem exists_advance {n : Nat} (hroom : n ≤ p.room) : ∃ q, p.advance n = .ok q := by
  unfold advance
  split
  · exact ⟨p, rfl⟩
  · next hpos =>
    cases hcurrent : p.current with
    | none =>
        simp only [room, hcurrent] at hroom
        omega
    | some b =>
        have hfits : ¬ Block.capacity < b.size + n := by
          simp only [room, hcurrent, Block.room] at hroom
          simp only [Block.size]
          omega
        simp only [Block.advance, if_neg hfits]
        exact ⟨_, rfl⟩

/-- What fits is what the memory holds afterwards. -/
theorem memory_fillMemory {bs : Bytes} (hroom : bs.length ≤ p.room) :
    (p.fillMemory bs).memory bs.length = bs := by
  unfold room at hroom
  cases hcurrent : p.current with
  | none =>
      rw [hcurrent] at hroom
      simp [memory, fillMemory, hcurrent, List.eq_nil_of_length_eq_zero (Nat.le_zero.mp hroom)]
  | some b =>
      rw [hcurrent] at hroom
      simp [memory, fillMemory, hcurrent, Block.spare, Block.writeSpare,
        List.take_of_length_le hroom]

theorem room_fillMemory (bs : Bytes) (p : Pipe) : (p.fillMemory bs).room = p.room := by
  cases hcurrent : p.current <;> simp [room, fillMemory, hcurrent, Block.room, Block.writeSpare]

/-- Bytes that are received fill the memory that was provided, and are declared written. -/
theorem fillMemory_advance_grows {bs : Bytes} (pool : BlockPool) (hroom : bs.length ≤ p.room) :
    ∃ q, (p.fillMemory bs).advance bs.length = .ok q ∧ Grows bs (pool, p) (pool, q) := by
  have hroom' : bs.length ≤ (p.fillMemory bs).room := by rwa [room_fillMemory]
  obtain ⟨q, hq⟩ := exists_advance hroom'
  have hgrows := (fillMemory_grows bs pool p).trans (advance_grows pool hq)
  rw [List.nil_append, memory_fillMemory hroom] at hgrows
  exact ⟨q, hq, hgrows⟩

/-- **What is written is added behind all that the pipe holds.** -/
theorem write_grows (bs : Bytes) (pool : BlockPool) (p : Pipe) :
    Grows bs (pool, p) (p.write bs pool) := by
  fun_induction p.write bs pool with
  | case1 pool p => exact .refl _
  | case2 pool p b rest ready more piece written ih =>
      have hready : Grows [] (pool, p) ready := ensureMemory_grows 1 pool p
      obtain ⟨block, hcurrent⟩ := exists_current_ensureMemory 1 pool p
      have hwritten : Grows piece ready (ready.1, written) := by
        refine ⟨id, rfl, List.prefix_refl _, id, fun _ _ => ?_⟩
        have hcurrent' : ready.2.current = some block := hcurrent
        simp [pendingBytes, written, hcurrent']
      have hpiece : piece ++ rest.drop more = b :: rest := by simp [piece]
      have h := (hready.trans hwritten).trans ih
      rwa [List.nil_append, hpiece] at h

/-! ## 2. Handing over -/

theorem toList_appendUnread (ss : List Segment) (p : Pipe) :
    (p.appendUnread ss).unread.toList = p.unread.toList ++ ss.flatMap (·.bytes) :=
  Buffer.toList_foldl_push ss p.unread

theorem sound_appendUnread (ss : List Segment) (h : p.unread.Sound) :
    (p.appendUnread ss).unread.Sound :=
  h.foldl_push ss

/-- Staged segments that become unread are where they were among the bytes of the pipe. -/
theorem appendUnread_grows (pool : BlockPool) (hq : q.unread = (p.appendUnread p.staged).unread)
    (hreader : q.readerCompleted = p.readerCompleted) (hstaged : q.staged = [])
    (hcurrent : q.current = p.current) : Grows [] (pool, p) (pool, q) := by
  refine ⟨id, hreader, ?_, fun h => ?_, fun _ _ => ?_⟩
  · show p.unread.toList <+: q.unread.toList
    rw [hq, toList_appendUnread]
    exact List.prefix_append _ _
  · show q.unread.Sound
    rw [hq]
    exact sound_appendUnread _ h
  · simp [pendingBytes, hq, toList_appendUnread, hstaged, hcurrent]

/-- What was written is dropped if nobody reads it any more. -/
theorem dropStaged_grows (ss : List Segment) (hdone : p.readerCompleted = true)
    (hunread : q.unread = p.unread) (hreader : q.readerCompleted = p.readerCompleted) :
    Grows [] (pool, p) (pool.releaseAll ss, q) where
  blank h := h.releaseAll ss
  readerCompleted_eq := hreader
  unread := by simp only [hunread, List.prefix_rfl]
  sound h := by rwa [hunread]
  pending _ hopen := by cases hopen.symm.trans hdone

theorem publish_grows (pool : BlockPool) (p : Pipe) :
    Grows [] (pool, p) (p.publish pool).2 := by
  have hstage := stageCurrent_grows pool p
  unfold publish
  generalize p.stageCurrent pool = staged at hstage ⊢
  obtain ⟨pool', p'⟩ := staged
  dsimp only
  split
  · next hdone => exact hstage.trans (dropStaged_grows p'.staged hdone rfl rfl)
  · split
    · exact hstage.trans (appendUnread_grows pool' rfl rfl rfl rfl)
    · exact hstage.trans (appendUnread_grows pool' rfl rfl rfl rfl)

/-- A step of a flush hands over what was written, or leaves alone what the pipe holds. -/
theorem flush_cases {stage : FlushStage} {result : Staged FlushStage FlushOutcome}
    (h : stage.step? pool p = some (result, pool', q)) :
    (p.publish pool).2 = (pool', q) ∨ pool' = pool ∧ p.Keeps q := by
  cases flush_step h with
  | dropped outcome hpublish => exact .inl (by rw [hpublish])
  | published hpublish => exact .inl (by rw [hpublish])
  | done | idle | permitted | waits | woken => exact .inr ⟨rfl, rfl, rfl, rfl, rfl, rfl⟩

theorem flush_grows {stage : FlushStage} {result : Staged FlushStage FlushOutcome}
    (h : stage.step? pool p = some (result, pool', q)) : Grows [] (pool, p) (pool', q) := by
  obtain hpublish | ⟨rfl, hkeeps⟩ := flush_cases h
  · rw [← hpublish]
    exact publish_grows pool p
  · exact .of_keeps id hkeeps

theorem abandonFlush_grows (pool : BlockPool) (p : Pipe) :
    Grows [] (pool, p) (pool, p.abandonFlush) :=
  .of_keeps id ⟨rfl, rfl, rfl, rfl, rfl⟩

theorem cancelFlush_grows (pool : BlockPool) (p : Pipe) :
    Grows [] (pool, p) (pool, p.cancelFlush) :=
  .of_keeps id ⟨rfl, rfl, rfl, rfl, rfl⟩

theorem completeWriterOutside_grows (pool : BlockPool) (p : Pipe) :
    Grows [] (pool, p) (pool, p.completeWriterOutside) :=
  .of_keeps id ⟨rfl, rfl, rfl, rfl, rfl⟩

theorem completeWriter_grows (pool : BlockPool) (p : Pipe) :
    Grows [] (pool, p) (p.completeWriter pool) := by
  have hstage := stageCurrent_grows pool p
  unfold completeWriter
  generalize p.stageCurrent pool = staged at hstage ⊢
  obtain ⟨pool', p'⟩ := staged
  dsimp only
  split
  · next hdone => exact hstage.trans (dropStaged_grows p'.staged hdone rfl rfl)
  · exact hstage.trans (appendUnread_grows pool' rfl rfl rfl rfl)

/-! ## 3. The reader's side -/

theorem cancelRead_grows (pool : BlockPool) (p : Pipe) :
    Grows [] (pool, p) (pool, p.cancelRead) :=
  .of_keeps id ⟨rfl, rfl, rfl, rfl, rfl⟩

theorem abandonRead_grows (pool : BlockPool) (p : Pipe) :
    Grows [] (pool, p) (pool, p.abandonRead) :=
  .of_keeps id ⟨rfl, rfl, rfl, rfl, rfl⟩

/-- A read returns all that is unread, and takes nothing away. -/
theorem read_keeps {stage : ReadStage} {result : Staged ReadStage ReadOutcome}
    (h : stage.step? p = some (result, q)) :
    p.Keeps q ∧ ∀ outcome, result = .done outcome → outcome.buffer = p.unread := by
  cases read_step h with
  | done outcome unexamined readCanceled hbuffer =>
      exact ⟨⟨rfl, rfl, rfl, rfl, rfl⟩, fun _ ho => by cases ho; exact hbuffer⟩
  | idle | permitted | waits | woken =>
      exact ⟨⟨rfl, rfl, rfl, rfl, rfl⟩, fun _ ho => by cases ho⟩

theorem read_grows {stage : ReadStage} {result : Staged ReadStage ReadOutcome}
    (h : stage.step? p = some (result, q)) :
    (∀ pool, Grows [] (pool, p) (pool, q)) ∧
      ∀ outcome, result = .done outcome → outcome.buffer = q.unread := by
  obtain ⟨hkeeps, houtcome⟩ := read_keeps h
  exact ⟨fun pool => .of_keeps id hkeeps,
    fun outcome ho => (houtcome outcome ho).trans hkeeps.unread_eq.symm⟩

/-- What is consumed goes from the front of what is unread. -/
theorem consume_eq {n : Nat} (h : p.consume n pool = .ok (pool', q)) :
    n = 0 ∧ pool' = pool ∧ q = p ∨
      0 < n ∧ n ≤ p.unread.size ∧ pool' = pool.releaseAll (p.unread.usedUp (p.unread.drop n)) ∧
        q = { p with unread := p.unread.drop n, spaceSignal := p.spaceSignal.notify } := by
  unfold consume at h
  split at h
  · next hzero =>
    cases h
    exact .inl ⟨hzero, rfl, rfl⟩
  · next hpos =>
    unfold Buffer.advance at h
    split at h
    · cases h
    · next hle =>
      cases h
      exact .inr ⟨Nat.pos_of_ne_zero hpos, Nat.le_of_not_lt hle, rfl, rfl⟩

theorem blank_consume {n : Nat} (h : p.consume n pool = .ok (pool', q)) (hblank : pool.Blank) :
    pool'.Blank := by
  obtain ⟨-, rfl, -⟩ | ⟨-, -, rfl, -⟩ := consume_eq h
  · exact hblank
  · exact hblank.releaseAll _

theorem readerCompleted_consume {n : Nat} (h : p.consume n pool = .ok (pool', q)) :
    q.readerCompleted = p.readerCompleted := by
  obtain ⟨-, -, rfl⟩ | ⟨-, -, -, rfl⟩ := consume_eq h <;> rfl

theorem blank_completeReader (p : Pipe) (hblank : pool.Blank) : (p.completeReader pool).1.Blank :=
  hblank.releaseAll _

/-! ## 4. From one end to the other -/

/-- Of the bytes `put` into the pipe the reader has `got` a front. As long as it reads, the rest is
in the pipe, behind what it has got and not given back. Of an output of some size it may still hold
a part in its hands: `lent` is that part and the size. -/
structure Feeds (p : Pipe) (put got : Bytes) (lent : Option (Bytes × Nat)) : Prop where
  sound : p.unread.Sound
  got_prefix : got <+: put
  position : p.readerCompleted = false → ∃ used rest, p.unread.toList = used ++ rest ∧
    put = got ++ (rest ++ p.behind) ∧
      ∀ left size, lent = some (left, size) → left <+: rest ∧ used.length + left.length = size
  open_of_lent : lent ≠ none → p.readerCompleted = false

namespace Feeds

variable {put got : Bytes} {lent : Option (Bytes × Nat)} {left : Bytes} {size : Nat}

/-- A pipe with nothing in it, and a reader with nothing in its hands. -/
theorem new (thresholds : Thresholds) : ({ thresholds } : Pipe).Feeds [] [] (some ([], 0)) where
  sound := Buffer.sound_empty
  got_prefix := List.prefix_refl _
  position _ := ⟨[], [], rfl, rfl, fun left size h => by cases h; exact ⟨List.prefix_refl _, rfl⟩⟩
  open_of_lent _ := rfl

/-- What the writer's side does is added behind. -/
theorem grows {bs : Bytes} (h : p.Feeds put got lent) (hblank : pool.Blank)
    (hgrows : Grows bs (pool, p) (pool', q)) : q.Feeds (put ++ bs) got lent where
  sound := hgrows.sound h.sound
  got_prefix := h.got_prefix.trans (List.prefix_append _ _)
  position hopen := by
    have hopen' : p.readerCompleted = false := hgrows.readerCompleted_eq.symm.trans hopen
    obtain ⟨used, rest, hunread, hput, hlent⟩ := h.position hopen'
    obtain ⟨new, hnew⟩ : ∃ new, p.unread.toList ++ new = q.unread.toList := hgrows.unread
    have hpending : q.pendingBytes = p.pendingBytes ++ bs := hgrows.pending hblank hopen'
    rw [pendingBytes_eq, pendingBytes_eq, ← hnew, List.append_assoc, List.append_assoc,
      List.append_cancel_left_eq] at hpending
    refine ⟨used, rest ++ new, ?_, ?_, fun left size hls => ?_⟩
    · rw [← hnew, hunread, List.append_assoc]
    · rw [List.append_assoc rest, hpending, hput]
      simp
    · obtain ⟨hleft, hsize⟩ := hlent left size hls
      exact ⟨hleft.trans (List.prefix_append _ _), hsize⟩
  open_of_lent hne := hgrows.readerCompleted_eq.trans (h.open_of_lent hne)

theorem same (h : p.Feeds put got lent) (hblank : pool.Blank)
    (hgrows : Grows [] (pool, p) (pool', q)) : q.Feeds put got lent := by
  have h' := h.grows hblank hgrows
  rwa [List.append_nil] at h'

/-- The reader reads no more. -/
theorem quit (h : p.Feeds put got lent) : p.Feeds put got none where
  sound := h.sound
  got_prefix := h.got_prefix
  position hopen := by
    obtain ⟨used, rest, hunread, hput, -⟩ := h.position hopen
    exact ⟨used, rest, hunread, hput, fun left size h => by cases h⟩
  open_of_lent hne := absurd rfl hne

/-- The reader takes all that is unread in its hands. -/
theorem lend (h : p.Feeds put got (some ([], 0))) :
    p.Feeds put got (some (p.unread.toList, p.unread.size)) where
  sound := h.sound
  got_prefix := h.got_prefix
  position hopen := by
    obtain ⟨used, rest, hunread, hput, hlent⟩ := h.position hopen
    obtain ⟨-, hused⟩ := hlent [] 0 rfl
    have hnil : used = [] := List.eq_nil_of_length_eq_zero hused
    rw [hnil, List.nil_append] at hunread
    refine ⟨[], rest, hunread, hput, fun left size hls => ?_⟩
    cases hls
    exact ⟨by simp only [hunread, List.prefix_rfl], by simp [h.sound.size_eq]⟩
  open_of_lent _ := h.open_of_lent (by simp)

/-- The reader works off a part of what it has in its hands. -/
theorem use {bs : Bytes} (h : p.Feeds put got (some (bs ++ left, size))) :
    p.Feeds put (got ++ bs) (some (left, size)) := by
  have hopen := h.open_of_lent (by simp)
  obtain ⟨used, rest, hunread, hput, hlent⟩ := h.position hopen
  obtain ⟨⟨newer, hrest⟩, hsize⟩ := hlent _ _ rfl
  rw [← hrest] at hunread hput
  refine ⟨h.sound, ⟨left ++ newer ++ p.behind, ?_⟩,
    fun _ => ⟨used ++ bs, left ++ newer, ?_, ?_, ?_⟩, fun _ => hopen⟩
  · rw [hput]
    simp
  · rw [hunread]
    simp
  · rw [hput]
    simp
  · intro left' size' hls
    cases hls
    refine ⟨List.prefix_append _ _, ?_⟩
    simp only [List.length_append] at hsize ⊢
    omega

/-- The reader gives back what it has worked off, and what it has not worked off stays in front. -/
theorem settle (h : p.Feeds put got (some (left, size)))
    (hconsume : p.consume (size - left.length) pool = .ok (pool', q)) :
    q.Feeds put got (some ([], 0)) ∧ left <+: q.unread.toList := by
  have hopen := h.open_of_lent (by simp)
  obtain ⟨used, rest, hunread, hput, hlent⟩ := h.position hopen
  obtain ⟨hleft, hsize⟩ := hlent _ _ rfl
  rw [show size - left.length = used.length by omega] at hconsume
  obtain ⟨hzero, -, rfl⟩ | ⟨-, -, -, rfl⟩ := consume_eq hconsume
  · have hnil : used = [] := List.eq_nil_of_length_eq_zero hzero
    rw [hnil, List.nil_append] at hunread
    refine ⟨⟨h.sound, h.got_prefix, fun _ => ⟨[], rest, hunread, hput, fun left size hls => ?_⟩,
      fun _ => hopen⟩, by rw [hunread]; exact hleft⟩
    cases hls
    exact ⟨List.nil_prefix, rfl⟩
  · have hrest : (p.unread.drop used.length).toList = rest := by simp [hunread]
    refine ⟨⟨h.sound.drop _, h.got_prefix, fun _ => ⟨[], rest, hrest, hput,
      fun left size hls => ?_⟩, fun _ => hopen⟩, by rw [hrest]; exact hleft⟩
    cases hls
    exact ⟨List.nil_prefix, rfl⟩

/-- The reader is declared finished. -/
theorem close (h : p.Feeds put got lent) (pool : BlockPool) :
    (p.completeReader pool).2.Feeds put got none where
  sound := Buffer.sound_empty
  got_prefix := h.got_prefix
  position hopen := by cases hopen
  open_of_lent hne := absurd rfl hne

/-- What the reader has in its hands comes next among the bytes that were put in. -/
theorem lent_prefix (h : p.Feeds put got (some (left, size))) : got ++ left <+: put := by
  obtain ⟨used, rest, hunread, hput, hlent⟩ := h.position (h.open_of_lent (by simp))
  obtain ⟨hleft, -⟩ := hlent _ _ rfl
  rw [hput]
  exact (List.prefix_append_right_inj got).mpr (hleft.trans (List.prefix_append _ _))

/-- How much the reader has got and has in its hands is told from the pipe. -/
theorem got_append_lent {got' left' : Bytes} (h : p.Feeds put got (some (left, size)))
    (h' : p.Feeds put got' (some (left', size))) : got ++ left = got' ++ left' := by
  obtain ⟨used, rest, hunread, hput, hlent⟩ := h.position (h.open_of_lent (by simp))
  obtain ⟨used', rest', hunread', hput', hlent'⟩ := h'.position (h.open_of_lent (by simp))
  obtain ⟨-, hsize⟩ := hlent _ _ rfl
  obtain ⟨-, hsize'⟩ := hlent' _ _ rfl
  have hlength : (got ++ left).length = (got' ++ left').length := by
    have hall := congrArg List.length (hput.symm.trans hput')
    have hall' := congrArg List.length (hunread.symm.trans hunread')
    simp only [List.length_append] at hall hall' ⊢
    omega
  exact (List.prefix_of_prefix_length_le h.lent_prefix h'.lent_prefix
    (Nat.le_of_eq hlength)).eq_of_length hlength

/-- The reader has got all that was put into a pipe which holds nothing. -/
theorem got_eq_put (h : p.Feeds put got lent) (hopen : p.readerCompleted = false)
    (hempty : p.pendingBytes = []) : got = put := by
  obtain ⟨used, rest, hunread, hput, -⟩ := h.position hopen
  rw [pendingBytes_eq, hunread] at hempty
  simp only [List.append_eq_nil_iff] at hempty
  rw [hput, hempty.1.2, hempty.2]
  simp

end Feeds

end Pipe

end Courier
