import Courier.Proofs.Pipe.Tidy

/-!
Courier.Proofs.Pipe.Puts — bytes are put into a pipe piece by piece, and always fit.

`Pipe.write` writes bytes block by block and cannot fail. `Pipe.put` does it the way a writer has to
who is given memory: as much as fits is copied to the memory provided and then declared written,
which is refused where there is no memory, or not enough. It is never refused and is the same write
(`Pipe.put_eq_write`), however full the current block is. What is written comes behind all that is
unflushed, and is counted.
-/

namespace Courier

/-- What fits into a block is filled in as it was copied. -/
theorem Block.advance_writeSpare {b : Block} {bs : Bytes} (hne : bs ≠ [])
    (hroom : bs.length ≤ b.room) : (b.writeSpare bs).advance bs.length =
      .ok { b with filled := b.filled ++ bs, stale := b.stale.drop bs.length } := by
  have hpos : 0 < bs.length := List.length_pos_iff.mpr hne
  have hsize : (b.writeSpare bs).size = b.filled.length := rfl
  have hfits : ¬ capacity < (b.writeSpare bs).size + bs.length := by
    rw [room] at hroom
    omega
  have hspare : (b.writeSpare bs).spare bs.length = bs := by
    simp [spare, writeSpare, List.take_of_length_le hroom]
  rw [advance, if_neg hfits, hspare]
  simp [writeSpare, List.take_of_length_le hroom]

namespace Pipe

/-! ## 1. Putting -/

/-- Writes bytes: as many as there is memory for are copied to it and declared written, then the
others. -/
def put (bs : Bytes) (pool : BlockPool) (p : Pipe) : Except Misuse (BlockPool × Pipe) :=
  match bs with
  | [] => .ok (pool, p)
  | b :: rest =>
      let ready := p.ensureMemory 1 pool
      -- memory was asked for for one byte at least
      let more := ready.2.room - 1
      let piece := b :: rest.take more
      match (ready.2.fillMemory piece).advance piece.length with
      | .error misuse => .error misuse
      | .ok written => put (rest.drop more) ready.1 written
termination_by bs.length
decreasing_by simp only [List.length_drop, List.length_cons]; omega

variable {pool : BlockPool} {p : Pipe}

/-- What fits into the memory provided is filled in as it was copied. -/
theorem fillMemory_advance_eq {block : Block} {bs : Bytes} (hcurrent : p.current = some block)
    (hne : bs ≠ []) (hroom : bs.length ≤ p.room) : (p.fillMemory bs).advance bs.length =
      .ok { p with
        current := some
          { block with filled := block.filled ++ bs, stale := block.stale.drop bs.length },
        unflushed := p.unflushed + bs.length } := by
  have hlength : bs.length ≠ 0 := by simpa using hne
  have hfill : p.fillMemory bs = { p with current := some (block.writeSpare bs) } := by
    rw [fillMemory, hcurrent, Option.map_some]
  rw [room, hcurrent] at hroom
  rw [advance, if_neg hlength, hfill]
  simp only [Block.advance_writeSpare hne hroom, Except.map]

/-- **Bytes that are put piece by piece are never refused**, and are written. -/
theorem put_eq_write (hblank : pool.Blank) (bs : Bytes) (p : Pipe) :
    p.put bs pool = .ok (p.write bs pool) := by
  fun_induction p.write bs pool with
  | case1 pool p => rw [put]
  | case2 pool p b rest ready more piece written ih =>
      obtain ⟨block, hcurrent⟩ := exists_current_ensureMemory 1 pool p
      have hcurrent' : ready.2.current = some block := hcurrent
      have hmemory : max 1 (min 1 Block.capacity) ≤ ready.2.room := le_room_ensureMemory hblank 1 p
      have hroom : piece.length ≤ ready.2.room := by
        simp only [piece, more, List.length_cons, List.length_take]
        omega
      have hadvance := fillMemory_advance_eq hcurrent' (List.cons_ne_nil b _) hroom
      have hwritten : (ready.2.fillMemory piece).advance piece.length = .ok written := by
        rw [hadvance]
        simp only [written, hcurrent', Option.map_some]
        rfl
      rw [put]
      simp only [ready, piece, more] at hwritten ⊢
      rw [hwritten]
      exact ih ((ensureMemory_grows 1 pool p).blank hblank)

/-! ## 2. What is unflushed -/

theorem behind_stageCurrent (pool : BlockPool) (p : Pipe) :
    (p.stageCurrent pool).2.behind = p.behind := by
  unfold stageCurrent
  cases hcurrent : p.current with
  | none => rfl
  | some b =>
      dsimp only
      split
      · rfl
      · simp [behind, hcurrent, BlockPool.freeze]

theorem unflushed_stageCurrent (pool : BlockPool) (p : Pipe) :
    (p.stageCurrent pool).2.unflushed = p.unflushed := by
  unfold stageCurrent
  split
  · rfl
  · split <;> rfl

/-- Memory that is provided has nothing in it. -/
theorem ensureMemory_unflushed (hblank : pool.Blank) (atLeast : Nat) (p : Pipe) :
    (p.ensureMemory atLeast pool).2.behind = p.behind ∧
      (p.ensureMemory atLeast pool).2.unflushed = p.unflushed := by
  unfold ensureMemory
  dsimp only
  split
  · exact ⟨rfl, rfl⟩
  · have hfilled := filled_stageCurrent pool p
    have hrented := ((stageCurrent_grows pool p).blank hblank).filled_rent
    have hbehind := behind_stageCurrent pool p
    refine ⟨?_, unflushed_stageCurrent pool p⟩
    rw [behind, hfilled] at hbehind
    rw [← hbehind, behind, Option.map_some, Option.getD_some, hrented]

/-- What is written comes behind what is unflushed, and is counted. -/
theorem write_unflushed (hblank : pool.Blank) (bs : Bytes) (p : Pipe) :
    (p.write bs pool).2.behind = p.behind ++ bs ∧
      (p.write bs pool).2.unflushed = p.unflushed + bs.length := by
  fun_induction p.write bs pool with
  | case1 pool p => exact ⟨(List.append_nil _).symm, rfl⟩
  | case2 pool p b rest ready more piece written ih =>
      obtain ⟨hbehind, hunflushed⟩ := ensureMemory_unflushed hblank 1 p
      obtain ⟨block, hcurrent⟩ := exists_current_ensureMemory 1 pool p
      have hcurrent' : ready.2.current = some block := hcurrent
      have hwritten : written.behind = p.behind ++ piece := by
        rw [← hbehind]
        show written.behind = ready.2.behind ++ piece
        simp [behind, written, hcurrent']
      have hpiece : piece ++ rest.drop more = b :: rest := by simp [piece]
      obtain ⟨hlater, hcount⟩ := ih ((ensureMemory_grows 1 pool p).blank hblank)
      refine ⟨?_, ?_⟩
      · rw [hlater, hwritten, List.append_assoc, hpiece]
      · have hunflushed' : written.unflushed = p.unflushed + piece.length :=
          congrArg (· + piece.length) hunflushed
        rw [hcount, hunflushed', Nat.add_assoc, ← List.length_append, hpiece]

end Pipe

end Courier
