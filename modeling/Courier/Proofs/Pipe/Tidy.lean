import Courier.Proofs.Pipe.Content

/-!
Courier.Proofs.Pipe.Tidy — how the bytes of a pipe are cut, and how they are counted.

A pipe keeps its bytes in three places and counts them twice. `Pipe.Tidy` says that both counts are
right, that no segment is empty or larger than a block, and that a pipe whose reader has finished
offers nothing. Every operation keeps it, whatever the other side has done.
-/

namespace Courier

theorem Buffer.le_of_mem_splitSegments {m n : Nat} {ss : List Segment}
    (h : ∀ s ∈ ss, s.bytes.length ≤ m) : ∀ s ∈ (splitSegments n ss).2, s.bytes.length ≤ m := by
  induction ss generalizing n with
  | nil => simp [splitSegments]
  | cons s rest ih =>
      have hrest : ∀ t ∈ rest, t.bytes.length ≤ m := fun t ht => h t (by simp [ht])
      unfold splitSegments
      split
      · exact h
      · split
        · exact ih hrest
        · intro t ht
          rcases List.mem_cons.mp ht with rfl | ht
          · exact Nat.le_trans (List.drop_suffix n s.bytes).length_le (h s (by simp))
          · exact hrest t ht

namespace Pipe

variable {pool pool' : BlockPool} {p q : Pipe}

/-! ## 1. Tidy pipes -/

/-- The counts are right, the segments are of a size, and nothing is offered to a reader that has
finished. -/
structure Tidy (p : Pipe) : Prop where
  sound : p.unread.Sound
  unflushed_eq : p.unflushed = p.behind.length
  staged_ne_nil : ∀ s ∈ p.staged, s.bytes ≠ []
  unread_le : ∀ s ∈ p.unread.segments, s.bytes.length ≤ Block.capacity
  staged_le : ∀ s ∈ p.staged, s.bytes.length ≤ Block.capacity
  current_le : ∀ b, p.current = some b → b.filled.length ≤ Block.capacity
  unread_of_completed : p.readerCompleted = true → p.unread = {}

namespace Tidy

theorem new (thresholds : Thresholds) : ({ thresholds } : Pipe).Tidy where
  sound := Buffer.sound_empty
  unflushed_eq := rfl
  staged_ne_nil _ h := by cases h
  unread_le _ h := by cases h
  staged_le _ h := by cases h
  current_le _ h := by cases h
  unread_of_completed _ := rfl

theorem of_keeps (h : p.Tidy) (hkeeps : p.Keeps q) : q.Tidy where
  sound := by
    rw [hkeeps.unread_eq]
    exact h.sound
  unflushed_eq := by
    rw [hkeeps.unflushed_eq, h.unflushed_eq, behind, behind, hkeeps.staged_eq, hkeeps.current_eq]
  staged_ne_nil := by
    rw [hkeeps.staged_eq]
    exact h.staged_ne_nil
  unread_le := by
    rw [hkeeps.unread_eq]
    exact h.unread_le
  staged_le := by
    rw [hkeeps.staged_eq]
    exact h.staged_le
  current_le := by
    rw [hkeeps.current_eq]
    exact h.current_le
  unread_of_completed := by
    rw [hkeeps.readerCompleted_eq, hkeeps.unread_eq]
    exact h.unread_of_completed

/-! ## 2. The writer's block -/

/-- The block that is filled is exchanged for one with the same bytes and some more. -/
theorem fill {b b' : Block} {bs : Bytes} (h : p.Tidy) (hcurrent : p.current = some b)
    (hfilled : b'.filled = b.filled ++ bs) (hfits : b.filled.length + bs.length ≤ Block.capacity) :
    { p with current := some b', unflushed := p.unflushed + bs.length : Pipe }.Tidy :=
  { h with
    unflushed_eq := by
      simp only [h.unflushed_eq, behind, hcurrent, hfilled, Option.map_some, Option.getD_some,
        List.length_append]
      omega
    current_le := fun c hc => by
      cases hc
      rw [hfilled, List.length_append]
      exact hfits }

theorem stageCurrent (h : p.Tidy) (pool : BlockPool) : (p.stageCurrent pool).2.Tidy := by
  unfold Pipe.stageCurrent
  cases hcurrent : p.current with
  | none => exact h
  | some b =>
      dsimp only
      split
      · exact h
      · next hfilled =>
        have hb : b.filled ≠ [] := by simpa using hfilled
        refine { h with
          unflushed_eq := by simp [h.unflushed_eq, behind, hcurrent, BlockPool.freeze],
          staged_ne_nil := fun s hs => ?_
          staged_le := fun s hs => ?_
          current_le := fun c hc => by cases hc }
        all_goals rcases List.mem_append.mp hs with hs | hs
        · exact h.staged_ne_nil s hs
        · rw [List.mem_singleton.mp hs]
          exact hb
        · exact h.staged_le s hs
        · rw [List.mem_singleton.mp hs]
          exact h.current_le b hcurrent

theorem ensureMemory (h : p.Tidy) (hblank : pool.Blank) (atLeast : Nat) :
    (p.ensureMemory atLeast pool).2.Tidy := by
  unfold Pipe.ensureMemory
  dsimp only
  split
  · exact h
  · have hstaged := h.stageCurrent pool
    have hfilled := filled_stageCurrent pool p
    have hrented := ((stageCurrent_grows pool p).blank hblank).filled_rent
    exact { hstaged with
      unflushed_eq := by simp [hstaged.unflushed_eq, behind, hfilled, hrented]
      current_le := fun b hb => by
        cases hb
        simp [hrented] }

end Tidy

/-- The memory that is provided is as large as was asked, up to a block. -/
theorem le_room_ensureMemory (hblank : pool.Blank) (atLeast : Nat) (p : Pipe) :
    max 1 (min atLeast Block.capacity) ≤ (p.ensureMemory atLeast pool).2.room := by
  unfold ensureMemory
  dsimp only
  split
  · next hroom => exact hroom
  · have hrented := ((stageCurrent_grows pool p).blank hblank).filled_rent
    have hcapacity : 1 ≤ Block.capacity := by decide
    simp only [room, Block.room, hrented, List.length_nil]
    omega

namespace Tidy

theorem write (h : p.Tidy) (hblank : pool.Blank) (bs : Bytes) : (p.write bs pool).2.Tidy := by
  fun_induction p.write bs pool with
  | case1 pool p => exact h
  | case2 pool p b rest ready more piece written ih =>
      have hready : ready.2.Tidy := h.ensureMemory hblank 1
      obtain ⟨block, hcurrent⟩ := exists_current_ensureMemory 1 pool p
      have hcurrent' : ready.2.current = some block := hcurrent
      have hroom : 1 ≤ ready.2.room :=
        Nat.le_trans (Nat.le_max_left _ _) (le_room_ensureMemory hblank 1 p)
      have hpiece : block.filled.length + piece.length ≤ Block.capacity := by
        have hle : piece.length ≤ more + 1 := by
          simp only [piece, List.length_cons, List.length_take]
          omega
        have hmore : more = ready.2.room - 1 := rfl
        simp only [room, hcurrent', Block.room] at hroom hmore
        omega
      have hwritten : written.Tidy := by
        simp only [written, hcurrent', Option.map_some]
        exact hready.fill hcurrent' rfl hpiece
      exact ih hwritten ((ensureMemory_grows 1 pool p).blank hblank)

theorem fillMemory (h : p.Tidy) (bs : Bytes) : (p.fillMemory bs).Tidy := by
  unfold Pipe.fillMemory
  cases hcurrent : p.current with
  | none =>
      rw [Option.map_none, ← hcurrent]
      exact h
  | some b =>
      have hfilled : (b.writeSpare bs).filled = b.filled ++ [] := by simp [Block.writeSpare]
      exact h.fill hcurrent hfilled (h.current_le b hcurrent)

end Tidy

theorem Tidy.advance {n : Nat} (h : p.Tidy) (hadvance : p.advance n = .ok q) : q.Tidy := by
  obtain ⟨-, rfl⟩ | ⟨b, b', hcurrent, hb, rfl⟩ := advance_eq hadvance
  · exact h
  · obtain ⟨hfits, hb'⟩ := Block.advance_eq hb
    have hlength : (b.spare n).length = n := b.length_spare n
    have hfill := h.fill hcurrent (congrArg Block.filled hb') (by rwa [hlength])
    rwa [hlength] at hfill

/-! ## 3. Handing over -/

theorem mem_segments_appendUnread {ss : List Segment} {s : Segment}
    (h : s ∈ (p.appendUnread ss).unread.segments) : s ∈ p.unread.segments ∨ s ∈ ss := by
  have hfold : ∀ b : Buffer, s ∈ (ss.foldl (fun b s => b.push s) b).segments →
      s ∈ b.segments ∨ s ∈ ss := by
    clear h
    induction ss with
    | nil => exact fun _ h => .inl h
    | cons t ss ih =>
        intro b h
        rcases ih (b.push t) h with hs | hs
        · unfold Buffer.push at hs
          split at hs
          · exact .inl hs
          · rcases List.mem_append.mp hs with hs | hs
            · exact .inl hs
            · exact .inr (by simp [List.mem_singleton.mp hs])
        · exact .inr (by simp [hs])
  exact hfold p.unread h

/-- Of a pipe without a block in work the staged segments become unread. -/
theorem Tidy.handOver (h : p.Tidy) (hopen : p.readerCompleted = false)
    (hfilled : (p.current.map (·.filled)).getD [] = [])
    (hunread : q.unread = (p.appendUnread p.staged).unread)
    (hreader : q.readerCompleted = p.readerCompleted) (hstaged : q.staged = [])
    (hcurrent : q.current = p.current) (hunflushed : q.unflushed = 0) : q.Tidy where
  sound := by
    rw [hunread]
    exact sound_appendUnread _ h.sound
  unflushed_eq := by simp [hunflushed, behind, hstaged, hcurrent, hfilled]
  staged_ne_nil := by simp [hstaged]
  unread_le s hs := by
    rw [hunread] at hs
    rcases mem_segments_appendUnread hs with hs | hs
    · exact h.unread_le s hs
    · exact h.staged_le s hs
  staged_le := by simp [hstaged]
  current_le := by
    rw [hcurrent]
    exact h.current_le
  unread_of_completed hdone := by cases (hreader.trans hopen).symm.trans hdone

/-- Of a pipe without a block in work the staged segments are dropped. -/
theorem Tidy.dropStaged (h : p.Tidy) (hfilled : (p.current.map (·.filled)).getD [] = [])
    (hunread : q.unread = p.unread) (hreader : q.readerCompleted = p.readerCompleted)
    (hstaged : q.staged = []) (hcurrent : q.current = p.current) (hunflushed : q.unflushed = 0) :
    q.Tidy where
  sound := by
    rw [hunread]
    exact h.sound
  unflushed_eq := by simp [hunflushed, behind, hstaged, hcurrent, hfilled]
  staged_ne_nil := by simp [hstaged]
  unread_le := by
    rw [hunread]
    exact h.unread_le
  staged_le := by simp [hstaged]
  current_le := by
    rw [hcurrent]
    exact h.current_le
  unread_of_completed := by
    rw [hreader, hunread]
    exact h.unread_of_completed

theorem Tidy.publish (h : p.Tidy) (pool : BlockPool) : (p.publish pool).2.2.Tidy := by
  have hstage := h.stageCurrent pool
  have hfilled := filled_stageCurrent pool p
  unfold Pipe.publish
  generalize p.stageCurrent pool = staged at hstage hfilled ⊢
  obtain ⟨pool', p'⟩ := staged
  dsimp only
  split
  · exact hstage.dropStaged hfilled rfl rfl rfl rfl rfl
  · next hopen =>
    have hopen' : p'.readerCompleted = false := by simpa using hopen
    split
    · next hzero => exact hstage.handOver hopen' hfilled rfl rfl rfl rfl hzero
    · exact hstage.handOver hopen' hfilled rfl rfl rfl rfl rfl

theorem Tidy.completeWriter (h : p.Tidy) (pool : BlockPool) : (p.completeWriter pool).2.Tidy := by
  have hstage := h.stageCurrent pool
  have hfilled := filled_stageCurrent pool p
  unfold Pipe.completeWriter
  generalize p.stageCurrent pool = staged at hstage hfilled ⊢
  obtain ⟨pool', p'⟩ := staged
  dsimp only
  split
  · exact hstage.dropStaged hfilled rfl rfl rfl rfl rfl
  · next hopen =>
    have hopen' : p'.readerCompleted = false := by simpa using hopen
    exact hstage.handOver hopen' hfilled rfl rfl rfl rfl rfl

theorem Tidy.flush {stage : FlushStage} {result : Staged FlushStage FlushOutcome} (h : p.Tidy)
    (hstep : stage.step? pool p = some (result, pool', q)) : q.Tidy := by
  obtain hpublish | ⟨-, hkeeps⟩ := flush_cases hstep
  · have htidy := h.publish pool
    rwa [hpublish] at htidy
  · exact h.of_keeps hkeeps

/-! ## 4. The reader's side -/

theorem Tidy.consume {n : Nat} (h : p.Tidy) (hconsume : p.consume n pool = .ok (pool', q)) :
    q.Tidy := by
  obtain ⟨-, -, rfl⟩ | ⟨hpos, hle, -, rfl⟩ := consume_eq hconsume
  · exact h
  · exact { h with
      sound := h.sound.drop n
      unread_le := by
        rw [Buffer.segments_drop]
        exact Buffer.le_of_mem_splitSegments h.unread_le
      unread_of_completed := fun hdone => by
        rw [h.unread_of_completed hdone] at hle
        exact absurd hle (Nat.not_le_of_lt hpos) }

theorem Tidy.completeReader (h : p.Tidy) (pool : BlockPool) : (p.completeReader pool).2.Tidy :=
  { h with
    sound := Buffer.sound_empty
    unread_le := fun _ hs => by cases hs
    unread_of_completed := fun _ => rfl }

end Pipe

end Courier
