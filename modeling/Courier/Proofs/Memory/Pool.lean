import Mathlib.Data.List.Nodup
import Courier.Memory.Pool

/-!
Courier.Proofs.Memory.Pool — what lending, giving back and counting views do to a pool.

An idle block is blank: nothing is filled in in it, whatever it was used for before. Frozen blocks
are found by their number, and where no two of them have one number `BlockPool.release` is about
one of them: it counts one view less, or, with the last view, gives the block back
(`BlockPool.release_eq`).
-/

namespace Courier

/-! ## 1. Blank memory -/

/-- Nothing is filled in in an idle block. -/
def BlockPool.Blank (pool : BlockPool) : Prop :=
  ∀ b ∈ pool.idle, b.filled = []

namespace BlockPool

variable {pool : BlockPool}

theorem blank_empty : ({} : BlockPool).Blank := fun _ h => by cases h

theorem Blank.filled_rent (h : pool.Blank) : pool.rent.1.filled = [] := by
  unfold rent
  cases hidle : pool.idle with
  | nil => rfl
  | cons b rest => exact h b (by simp [hidle])

theorem Blank.rent (h : pool.Blank) : pool.rent.2.Blank := by
  unfold BlockPool.rent
  cases hidle : pool.idle with
  | nil => exact fun b' hb' => by cases hb'
  | cons b rest => exact fun b' hb' => h b' (by simp [hidle, show b' ∈ rest from hb'])

theorem Blank.giveBack (h : pool.Blank) (b : Block) : (pool.giveBack b).Blank := by
  intro b' hb'
  rcases List.mem_append.mp hb' with hb' | hb'
  · exact h b' hb'
  · rw [List.mem_singleton.mp hb']
    rfl

theorem Blank.freeze (h : pool.Blank) (b : Block) : (pool.freeze b).2.Blank := h

theorem Blank.release (h : pool.Blank) (number : Nat) : (pool.release number).Blank := by
  unfold BlockPool.release
  split
  · exact h
  · split
    · have hfewer :
          { pool with frozen := pool.frozen.filter (·.block.number ≠ number) }.Blank := h
      exact hfewer.giveBack _
    · exact h

theorem Blank.releaseSegment (h : pool.Blank) (s : Segment) : (pool.releaseSegment s).Blank := by
  unfold BlockPool.releaseSegment
  split
  · exact h
  · exact h.release _

theorem Blank.releaseAll (h : pool.Blank) (ss : List Segment) : (pool.releaseAll ss).Blank := by
  unfold BlockPool.releaseAll
  induction ss generalizing pool with
  | nil => exact h
  | cons s ss ih => exact ih (h.releaseSegment s)

end BlockPool

theorem Block.length_spare (n : Nat) (b : Block) : (b.spare n).length = n := by
  simp only [Block.spare, List.length_append, List.length_replicate, List.length_take]
  omega

theorem Block.advance_eq {n : Nat} {b b' : Block} (h : b.advance n = .ok b') :
    b.filled.length + n ≤ capacity ∧
      b' = { b with filled := b.filled ++ b.spare n, stale := b.stale.drop n } := by
  unfold Block.advance at h
  split at h
  · cases h
  · next hfits =>
    cases h
    exact ⟨Nat.le_of_not_lt hfits, rfl⟩

/-! ## 2. Rows in which every item has a number of its own -/

section Numbered

variable {α : Type} {number : α → Nat} {row : List α} {a : α}

/-- An item is found by its number. -/
theorem find?_number (hnodup : (row.map number).Nodup) (ha : a ∈ row) :
    row.find? (number · = number a) = some a := by
  have hfound : (row.find? (number · = number a)).isSome := by
    rw [List.find?_isSome]
    exact ⟨a, ha, by simp⟩
  obtain ⟨b, hb⟩ := Option.isSome_iff_exists.mp hfound
  have hnumber : number b = number a := by simpa using List.find?_some hb
  rw [hb, List.inj_on_of_nodup_map hnodup (List.mem_of_find?_eq_some hb) ha hnumber]

/-- A row is one of its items and those of other numbers. -/
theorem perm_cons_filter (hnodup : (row.map number).Nodup) (ha : a ∈ row) :
    row.Perm (a :: row.filter (number · ≠ number a)) := by
  obtain ⟨front, rest, rfl⟩ := List.append_of_mem ha
  have hothers : ∀ b ∈ front ++ rest, number b ≠ number a := by
    have hmiddle := (List.perm_middle.map number).nodup_iff.mp hnodup
    rw [List.map_cons, List.nodup_cons] at hmiddle
    intro b hb h
    exact hmiddle.1 (h ▸ List.mem_map_of_mem hb)
  have hfilter : (front ++ a :: rest).filter (number · ≠ number a) = front ++ rest := by
    have hself := List.filter_eq_self (p := fun b => decide (number b ≠ number a)).mpr
      fun b hb => decide_eq_true (hothers b hb)
    simpa [List.filter_append] using hself
  rw [hfilter]
  exact List.perm_middle

end Numbered

/-! ## 3. Blocks by number -/

namespace BlockPool

variable {pool : BlockPool} {f g : FrozenBlock} {number : Nat}

theorem rent_cases (pool : BlockPool) :
    (∃ b rest, pool.idle = b :: rest ∧ pool.rent = (b, { pool with idle := rest })) ∨
      pool.idle = [] ∧
        pool.rent = ({ number := pool.made }, { pool with made := pool.made + 1 }) := by
  unfold rent
  cases hidle : pool.idle with
  | nil => exact .inr ⟨rfl, rfl⟩
  | cons b rest => exact .inl ⟨b, rest, rfl, rfl⟩

theorem frozen_rent (pool : BlockPool) : pool.rent.2.frozen = pool.frozen := by
  obtain ⟨b, rest, -, hrent⟩ | ⟨-, hrent⟩ := pool.rent_cases <;> rw [hrent]

/-- The numbers of the frozen blocks. -/
def frozenNumbers (pool : BlockPool) : List Nat :=
  pool.frozen.map (·.block.number)

theorem idle_giveBack (b : Block) (pool : BlockPool) :
    (pool.giveBack b).idle.map (·.number) = pool.idle.map (·.number) ++ [b.number] := by
  simp [giveBack, Block.clear]

theorem frozenNumbers_retain (number : Nat) (pool : BlockPool) :
    (pool.retain number).frozenNumbers = pool.frozenNumbers := by
  simp only [frozenNumbers, retain, List.map_map]
  refine List.map_congr_left fun f _ => ?_
  simp only [Function.comp_apply]
  split <;> rfl

theorem mem_frozen_retain (hf : f ∈ (pool.retain number).frozen) : ∃ g ∈ pool.frozen,
    f.block = g.block ∧ f.views = if g.block.number = number then g.views + 1 else g.views := by
  obtain ⟨g, hg, rfl⟩ := List.mem_map.mp hf
  refine ⟨g, hg, ?_⟩
  split <;> exact ⟨rfl, rfl⟩

theorem exists_frozen_retain (number : Nat) (hg : g ∈ pool.frozen) :
    ∃ f ∈ (pool.retain number).frozen, f.block = g.block := by
  refine ⟨_, List.mem_map_of_mem hg, ?_⟩
  split <;> rfl

/-- The block is given back with its last view, and counts one view less before. -/
theorem release_eq (hnodup : pool.frozenNumbers.Nodup) (hf : f ∈ pool.frozen) :
    pool.release f.block.number =
      if f.views ≤ 1 then
        giveBack f.block
          { pool with frozen := pool.frozen.filter (·.block.number ≠ f.block.number) }
      else
        { pool with frozen := pool.frozen.map fun g =>
            if g.block.number = f.block.number then { g with views := g.views - 1 } else g } := by
  have hfind : pool.frozen.find? (·.block.number = f.block.number) = some f :=
    find?_number hnodup hf
  simp only [release, hfind]

end BlockPool

end Courier
