import Courier.Proofs.Memory.Pool

/-!
Courier.Proofs.Memory.Circulation — every block is in one place.

`Circulation` is a pool in use: blocks are lent, written, frozen and given back in any order, and
views of the frozen ones are sliced and dropped. A turn whose block or view is not there, or that
breaks the contract of its operation, changes nothing.

`Circulation.Orderly` holds of whatever comes of any turns: each block that was ever made is idle,
held or frozen, and once so; a frozen block has as many views as it counts, at least one; and a
view shows what is filled in in its block. From it `Circulation.blocks_of_run` says when a block is
given back, when a new one is made, and that what a view shows stays as it is.
-/

namespace Courier

/-- The bytes of a block's memory from `start` on. -/
def Block.read (start n : Nat) (b : Block) : Bytes :=
  ((b.filled ++ b.stale).drop start).take n

/-- A view in somebody's hands, the how manieth it is, and where in its block it begins. -/
structure View where
  id : Nat
  segment : Segment
  start : Nat
  deriving DecidableEq, Repr

/-- A pool in use: the blocks that are held, the views there are, and how many views there have
ever been. -/
structure Circulation where
  pool : BlockPool := {}
  held : List Block := []
  views : List View := []
  viewed : Nat := 0
  deriving DecidableEq, Repr

namespace Circulation

/-! ## 1. Turns -/

/-- What a holder does to its block's memory. -/
inductive Writing where
  | put (bs : Bytes)
  | writeSpare (bs : Bytes)
  | advance (n : Nat)
  | clear

/-- What happens next. Blocks go by their number, views by theirs. -/
inductive Turn where
  | rent
  | write (number : Nat) (w : Writing)
  | giveBack (number : Nat)
  | freeze (number : Nat)
  | slice (id start stop : Nat)
  | drop (id : Nat)

/-- The block after its holder has written to it. -/
def Writing.perform (b : Block) : Writing → Except Misuse Block
  | .put bs => b.put bs
  | .writeSpare bs => .ok (b.writeSpare bs)
  | .advance n => b.advance n
  | .clear => .ok b.clear

/-- The block of a number, if it is held. -/
def held? (number : Nat) (s : Circulation) : Option Block :=
  s.held.find? (·.number = number)

/-- The view of a number, if there is one. -/
def view? (id : Nat) (s : Circulation) : Option View :=
  s.views.find? (·.id = id)

/-- What is after a turn. -/
def turn (t : Turn) (s : Circulation) : Circulation :=
  match t with
  | .rent => { s with pool := s.pool.rent.2, held := s.pool.rent.1 :: s.held }
  | .write number w =>
      match s.held? number with
      | none => s
      | some b =>
          match w.perform b with
          | .error _ => s
          | .ok b' => { s with held := s.held.map fun c => if c.number = number then b' else c }
  | .giveBack number =>
      match s.held? number with
      | none => s
      | some b =>
          { s with pool := s.pool.giveBack b, held := s.held.filter (·.number ≠ number) }
  | .freeze number =>
      match s.held? number with
      | none => s
      | some b =>
          { pool := (s.pool.freeze b).2, held := s.held.filter (·.number ≠ number),
            views := ⟨s.viewed, (s.pool.freeze b).1, 0⟩ :: s.views, viewed := s.viewed + 1 }
  | .slice id start stop =>
      match s.view? id with
      | none => s
      | some v =>
          match v.segment.slice start stop with
          | .error _ => s
          | .ok part =>
              { s with
                pool := s.pool.retainSegment part
                views := ⟨s.viewed, part, v.start + start⟩ :: s.views, viewed := s.viewed + 1 }
  | .drop id =>
      match s.view? id with
      | none => s
      | some v =>
          { s with
            pool := s.pool.releaseSegment v.segment, views := s.views.filter (·.id ≠ id) }

/-- What is after some turns in a row. -/
def run (turns : List Turn) (s : Circulation) : Circulation :=
  turns.foldl (fun s t => s.turn t) s

/-! ## 2. Places -/

/-- The numbers of the idle blocks. -/
def idleNumbers (s : Circulation) : List Nat :=
  s.pool.idle.map (·.number)

/-- The numbers of the blocks that are held. -/
def heldNumbers (s : Circulation) : List Nat :=
  s.held.map (·.number)

/-- The numbers of all blocks, place by place. -/
def places (s : Circulation) : List Nat :=
  s.idleNumbers ++ (s.heldNumbers ++ s.pool.frozenNumbers)

/-- The views of a block. -/
def viewsOf (number : Nat) (s : Circulation) : List View :=
  s.views.filter (·.segment.block = some number)

/-- The block of a number, wherever it is. -/
def block? (number : Nat) (s : Circulation) : Option Block :=
  (s.pool.idle ++ (s.held ++ s.pool.frozen.map (·.block))).find? (·.number = number)

/-- The bytes that are seen through a view: those that the memory of its block holds now. -/
def seen (s : Circulation) (v : View) : Bytes :=
  match v.segment.block with
  | none => []
  | some number =>
      ((s.block? number).map (Block.read v.start v.segment.bytes.length)).getD []

end Circulation

/-- The view is of a part of what is filled in in the block. -/
def View.Shows (v : View) (b : Block) : Prop :=
  ∃ front rest, b.filled = front ++ v.segment.bytes ++ rest ∧ front.length = v.start

theorem View.Shows.read_eq {v : View} {b : Block} (h : v.Shows b) :
    b.read v.start v.segment.bytes.length = v.segment.bytes := by
  obtain ⟨front, rest, hfilled, hstart⟩ := h
  rw [Block.read, hfilled, ← hstart]
  simp

namespace Circulation

/-- Every block is in one place, views are counted, and each shows a part of its block. -/
structure Orderly (s : Circulation) : Prop where
  once : s.places.Perm (List.range s.pool.made)
  blank : s.pool.Blank
  ids : (s.views.map (·.id)).Nodup
  id_lt : ∀ v ∈ s.views, v.id < s.viewed
  counted : ∀ f ∈ s.pool.frozen, f.views = (s.viewsOf f.block.number).length ∧ 0 < f.views
  backed : ∀ v ∈ s.views, ∀ number, v.segment.block = some number →
    ∃ f ∈ s.pool.frozen, f.block.number = number ∧ v.Shows f.block
  bare : ∀ v ∈ s.views, v.segment.block = none → v.segment.bytes = []

variable {s s' : Circulation} {t : Turn}

/-! ## 3. What a turn does -/

/-- There is no such block, or no such view. -/
def Misses (s : Circulation) : Turn → Prop
  | .rent => False
  | .write number _ | .giveBack number | .freeze number => number ∉ s.heldNumbers
  | .slice id _ _ | .drop id => ∀ v ∈ s.views, v.id ≠ id

/-- The turn's operation has a contract. -/
def Turn.Demands : Turn → Prop
  | .write _ _ | .slice _ _ _ => True
  | _ => False

/-- What can come of a turn. -/
inductive Does (s : Circulation) : Turn → Circulation → Prop
  | nothing {t : Turn} (h : s.Misses t ∨ t.Demands) : Does s t s
  | lends : Does s .rent { s with pool := s.pool.rent.2, held := s.pool.rent.1 :: s.held }
  | writes {b b' : Block} (w : Writing) (held : b ∈ s.held) (number : b'.number = b.number) :
      Does s (.write b.number w)
        { s with held := s.held.map fun c => if c.number = b.number then b' else c }
  | takesBack {b : Block} (held : b ∈ s.held) :
      Does s (.giveBack b.number)
        { s with pool := s.pool.giveBack b, held := s.held.filter (·.number ≠ b.number) }
  | freezes {b : Block} (held : b ∈ s.held) :
      Does s (.freeze b.number)
        { pool := (s.pool.freeze b).2, held := s.held.filter (·.number ≠ b.number),
          views := ⟨s.viewed, (s.pool.freeze b).1, 0⟩ :: s.views, viewed := s.viewed + 1 }
  | slices {v : View} {start stop : Nat} {part : Segment} (view : v ∈ s.views)
      (slice : v.segment.slice start stop = .ok part) :
      Does s (.slice v.id start stop)
        { s with
          pool := s.pool.retainSegment part
          views := ⟨s.viewed, part, v.start + start⟩ :: s.views, viewed := s.viewed + 1 }
  | drops {v : View} (view : v ∈ s.views) :
      Does s (.drop v.id)
        { s with
          pool := s.pool.releaseSegment v.segment, views := s.views.filter (·.id ≠ v.id) }

theorem held?_cases (number : Nat) (s : Circulation) :
    s.held? number = none ∧ number ∉ s.heldNumbers ∨
      ∃ b ∈ s.held, b.number = number ∧ s.held? number = some b := by
  cases hheld : s.held? number with
  | none =>
      refine .inl ⟨rfl, fun hmem => ?_⟩
      obtain ⟨b, hb, hnumber⟩ := List.mem_map.mp hmem
      simpa [hnumber] using List.find?_eq_none.mp hheld b hb
  | some b =>
      exact .inr ⟨b, List.mem_of_find?_eq_some hheld, by simpa using List.find?_some hheld, rfl⟩

theorem view?_cases (id : Nat) (s : Circulation) :
    s.view? id = none ∧ (∀ v ∈ s.views, v.id ≠ id) ∨
      ∃ v ∈ s.views, v.id = id ∧ s.view? id = some v := by
  cases hview : s.view? id with
  | none => exact .inl ⟨rfl, fun v hv => by simpa using List.find?_eq_none.mp hview v hv⟩
  | some v =>
      exact .inr ⟨v, List.mem_of_find?_eq_some hview, by simpa using List.find?_some hview, rfl⟩

theorem Writing.number_eq {w : Writing} {b b' : Block} (h : w.perform b = .ok b') :
    b'.number = b.number := by
  cases w with
  | put bs =>
      simp only [perform, Block.put] at h
      split at h <;> cases h
      rfl
  | writeSpare bs | clear =>
      cases h
      rfl
  | advance n =>
      obtain ⟨-, rfl⟩ := Block.advance_eq h
      rfl

theorem does_turn (t : Turn) (s : Circulation) : s.Does t (s.turn t) := by
  cases t with
  | rent => exact .lends
  | write number w =>
      obtain ⟨hheld, hmisses⟩ | ⟨b, hb, rfl, hheld⟩ := s.held?_cases number <;>
        simp only [turn, hheld]
      · exact .nothing (.inl hmisses)
      · cases hw : w.perform b with
        | error m => exact .nothing (.inr trivial)
        | ok b' => exact .writes w hb (Writing.number_eq hw)
  | giveBack number =>
      obtain ⟨hheld, hmisses⟩ | ⟨b, hb, rfl, hheld⟩ := s.held?_cases number <;>
        simp only [turn, hheld]
      · exact .nothing (.inl hmisses)
      · exact .takesBack hb
  | freeze number =>
      obtain ⟨hheld, hmisses⟩ | ⟨b, hb, rfl, hheld⟩ := s.held?_cases number <;>
        simp only [turn, hheld]
      · exact .nothing (.inl hmisses)
      · exact .freezes hb
  | slice id start stop =>
      obtain ⟨hview, hmisses⟩ | ⟨v, hv, rfl, hview⟩ := s.view?_cases id <;>
        simp only [turn, hview]
      · exact .nothing (.inl hmisses)
      · cases hslice : v.segment.slice start stop with
        | error m => exact .nothing (.inr trivial)
        | ok part => exact .slices hv hslice
  | drop id =>
      obtain ⟨hview, hmisses⟩ | ⟨v, hv, rfl, hview⟩ := s.view?_cases id <;>
        simp only [turn, hview]
      · exact .nothing (.inl hmisses)
      · exact .drops hv

/-! ## 4. One place each -/

variable {b : Block} {f : FrozenBlock} {v w : View} {number : Nat}

namespace Orderly

theorem nodup_places (h : s.Orderly) : s.places.Nodup :=
  h.once.nodup_iff.mpr List.nodup_range

theorem nodup_held (h : s.Orderly) : s.heldNumbers.Nodup :=
  (List.nodup_append.mp (List.nodup_append.mp h.nodup_places).2.1).1

theorem nodup_frozen (h : s.Orderly) : s.pool.frozenNumbers.Nodup :=
  (List.nodup_append.mp (List.nodup_append.mp h.nodup_places).2.1).2.1

theorem not_frozen_of_held (h : s.Orderly) (hb : b ∈ s.held) : b.number ∉ s.pool.frozenNumbers := by
  intro hfrozen
  have hapart := (List.nodup_append.mp (List.nodup_append.mp h.nodup_places).2.1).2.2
  exact hapart b.number (List.mem_map_of_mem hb) b.number hfrozen rfl

/-- A block that is held is one number and those of the others. -/
theorem perm_held (h : s.Orderly) (hb : b ∈ s.held) :
    s.heldNumbers.Perm (b.number :: (s.held.filter (·.number ≠ b.number)).map (·.number)) :=
  (perm_cons_filter h.nodup_held hb).map _

theorem perm_frozen (h : s.Orderly) (hf : f ∈ s.pool.frozen) :
    s.pool.frozenNumbers.Perm (f.block.number ::
      (s.pool.frozen.filter (·.block.number ≠ f.block.number)).map (·.block.number)) :=
  (perm_cons_filter h.nodup_frozen hf).map _

/-- The views of a block are those among the others, and this one if it is. -/
theorem length_viewsOf (h : s.Orderly) (hv : v ∈ s.views) (number : Nat) :
    (s.viewsOf number).length =
      ((s.views.filter (·.id ≠ v.id)).filter (·.segment.block = some number)).length +
        if v.segment.block = some number then 1 else 0 := by
  have hperm := ((perm_cons_filter h.ids hv).filter (·.segment.block = some number)).length_eq
  rw [viewsOf, hperm, List.filter_cons]
  split <;> simp_all

/-- A block has one view if all of its views are this one. -/
theorem views_le_one_iff (h : s.Orderly) (hv : v ∈ s.views) (hf : f ∈ s.pool.frozen)
    (hblock : v.segment.block = some f.block.number) :
    f.views ≤ 1 ↔ ∀ w ∈ s.views, w.segment.block = some f.block.number → w = v := by
  have hcounted := (h.counted f hf).1
  rw [h.length_viewsOf hv, if_pos hblock] at hcounted
  constructor
  · intro hle w hw hother
    by_contra hne
    have hid : w.id ≠ v.id := fun hid => hne (List.inj_on_of_nodup_map h.ids hw hv hid)
    have hmem : w ∈ (s.views.filter (·.id ≠ v.id)).filter
        (·.segment.block = some f.block.number) := by
      simp [hw, hid, hother]
    have hpos := List.length_pos_of_mem hmem
    omega
  · intro halone
    have hnil : (s.views.filter (·.id ≠ v.id)).filter
        (·.segment.block = some f.block.number) = [] := by
      refine List.filter_eq_nil_iff.mpr fun w hw hother => ?_
      obtain ⟨hw, hid⟩ := List.mem_filter.mp hw
      rw [halone w hw (by simpa using hother)] at hid
      simp at hid
    rw [hnil] at hcounted
    exact Nat.le_of_eq hcounted

/-- No view is of a block that is held. -/
theorem viewsOf_held (h : s.Orderly) (hb : b ∈ s.held) : s.viewsOf b.number = [] := by
  refine List.filter_eq_nil_iff.mpr fun v hv hblock => ?_
  obtain ⟨f, hf, hnumber, -⟩ := h.backed v hv b.number (by simpa using hblock)
  exact h.not_frozen_of_held hb (hnumber ▸ List.mem_map_of_mem hf)

/-- The number of a new view is not that of another one. -/
theorem ids_cons (h : s.Orderly) (segment : Segment) (start : Nat) :
    ((⟨s.viewed, segment, start⟩ :: s.views : List View).map (·.id)).Nodup := by
  refine List.nodup_cons.mpr ⟨fun hmem => ?_, h.ids⟩
  obtain ⟨v, hv, hid⟩ := List.mem_map.mp hmem
  exact absurd hid (Nat.ne_of_lt (h.id_lt v hv))

theorem id_lt_cons (h : s.Orderly) (segment : Segment) (start : Nat) :
    ∀ v ∈ (⟨s.viewed, segment, start⟩ :: s.views : List View), v.id < s.viewed + 1 := by
  intro v hv
  rcases List.mem_cons.mp hv with rfl | hv
  · exact Nat.lt_succ_self _
  · exact Nat.lt_succ_of_lt (h.id_lt v hv)

end Orderly

/-- A block that is lent comes from the idle ones, or is new. -/
theorem Orderly.lends (h : s.Orderly) :
    { s with pool := s.pool.rent.2, held := s.pool.rent.1 :: s.held : Circulation }.Orderly := by
  refine { h with
    once := ?_
    blank := h.blank.rent
    counted := by rw [s.pool.frozen_rent]; exact h.counted
    backed := by rw [s.pool.frozen_rent]; exact h.backed }
  have hsame : places { s with pool := s.pool.rent.2, held := s.pool.rent.1 :: s.held } =
      s.pool.rent.2.idle.map (·.number) ++
        (s.pool.rent.1.number :: (s.heldNumbers ++ s.pool.frozenNumbers)) := by
    simp only [places, idleNumbers, heldNumbers, BlockPool.frozenNumbers, s.pool.frozen_rent,
      List.map_cons, List.cons_append]
  rw [hsame]
  refine List.perm_middle.trans ?_
  obtain ⟨b, rest, hidle, hrent⟩ | ⟨hidle, hrent⟩ := s.pool.rent_cases <;> rw [hrent] <;>
    have honce := h.once <;> simp only [places, idleNumbers, hidle, List.map_cons] at honce ⊢
  · exact honce
  · rw [List.range_succ]
    exact (honce.cons _).trans (List.perm_append_singleton _ _).symm

/-- A write leaves every block where it is. -/
theorem Orderly.writes {b' : Block} (h : s.Orderly) (hnumber : b'.number = b.number) :
    { s with held := s.held.map fun c => if c.number = b.number then b' else c :
      Circulation }.Orderly := by
  refine { h with once := ?_ }
  have hsame : (s.held.map fun c => if c.number = b.number then b' else c).map (·.number) =
      s.heldNumbers := by
    rw [List.map_map]
    refine List.map_congr_left fun c _ => ?_
    simp only [Function.comp_apply]
    split
    · next hc => rw [hnumber, hc]
    · rfl
  have honce := h.once
  simp only [places, heldNumbers] at honce hsame ⊢
  rwa [hsame]

/-- A block that is given back is idle. -/
theorem Orderly.takesBack (h : s.Orderly) (hb : b ∈ s.held) :
    { s with pool := s.pool.giveBack b, held := s.held.filter (·.number ≠ b.number) :
      Circulation }.Orderly := by
  refine { h with once := ?_, blank := h.blank.giveBack b }
  refine List.Perm.trans ?_ h.once
  have hheld := (h.perm_held hb).symm.append_right s.pool.frozenNumbers
  simp only [places, idleNumbers, BlockPool.idle_giveBack, List.append_assoc]
  exact hheld.append_left _

/-- A block that is frozen has one view, which shows all of it. -/
theorem Orderly.freezes (h : s.Orderly) (hb : b ∈ s.held) :
    { pool := (s.pool.freeze b).2, held := s.held.filter (·.number ≠ b.number),
      views := ⟨s.viewed, (s.pool.freeze b).1, 0⟩ :: s.views, viewed := s.viewed + 1 :
      Circulation }.Orderly where
  once := by
    refine List.Perm.trans ?_ h.once
    have hheld := (h.perm_held hb).symm.append_right s.pool.frozenNumbers
    exact (List.perm_middle.trans hheld).append_left _
  blank := h.blank
  ids := h.ids_cons _ _
  id_lt := h.id_lt_cons _ _
  counted f hf := by
    rcases List.mem_cons.mp hf with rfl | hf
    · have hothers := h.viewsOf_held hb
      simp only [viewsOf] at hothers ⊢
      simp [BlockPool.freeze, hothers]
    · have hne : b.number ≠ f.block.number := fun hsame =>
        h.not_frozen_of_held hb (hsame ▸ List.mem_map_of_mem hf)
      have hcounted := h.counted f hf
      simp only [viewsOf] at hcounted ⊢
      simpa [BlockPool.freeze, hne] using hcounted
  backed v hv number hblock := by
    rcases List.mem_cons.mp hv with rfl | hv
    · cases hblock
      exact ⟨⟨b, 1⟩, List.mem_cons_self, rfl, [], [], by simp [BlockPool.freeze], rfl⟩
    · obtain ⟨f, hf, hshows⟩ := h.backed v hv number hblock
      exact ⟨f, List.mem_cons_of_mem _ hf, hshows⟩
  bare v hv hblock := by
    rcases List.mem_cons.mp hv with rfl | hv
    · cases hblock
    · exact h.bare v hv hblock

theorem slice_cases {segment part : Segment} {start stop : Nat}
    (h : segment.slice start stop = .ok part) :
    part = { bytes := [] } ∨
      part = { segment with bytes := (segment.bytes.take stop).drop start } ∧
        start < stop ∧ stop ≤ segment.bytes.length := by
  unfold Segment.slice at h
  split at h
  · cases h
  · next hinside =>
    split at h <;> cases h
    · exact .inl rfl
    · simp only [Bool.or_eq_true, decide_eq_true_eq, not_or, Nat.not_lt] at hinside
      exact .inr ⟨rfl, by omega, hinside.2⟩

/-- A part of a view shows a part of the block. -/
theorem shows_slice {start stop : Nat} (h : v.Shows b) (hlt : start < stop)
    (hfits : stop ≤ v.segment.bytes.length) (id : Nat) :
    View.Shows ⟨id, { v.segment with bytes := (v.segment.bytes.take stop).drop start },
      v.start + start⟩ b := by
  obtain ⟨front, rest, hfilled, hstart⟩ := h
  have hbytes : v.segment.bytes.take start ++ ((v.segment.bytes.take stop).drop start ++
      v.segment.bytes.drop stop) = v.segment.bytes := by
    have htake : (v.segment.bytes.take stop).take start = v.segment.bytes.take start := by
      rw [List.take_take, Nat.min_eq_left (Nat.le_of_lt hlt)]
    rw [← htake, ← List.append_assoc, List.take_append_drop, List.take_append_drop]
  refine ⟨front ++ v.segment.bytes.take start, v.segment.bytes.drop stop ++ rest, ?_, ?_⟩
  · calc b.filled
        = front ++ v.segment.bytes ++ rest := hfilled
      _ = front ++ (v.segment.bytes.take start ++ ((v.segment.bytes.take stop).drop start ++
            v.segment.bytes.drop stop)) ++ rest := by rw [hbytes]
      _ = _ := by simp only [List.append_assoc]
  · rw [List.length_append, hstart, List.length_take, Nat.min_eq_left (by omega)]

/-- One more view of nothing. -/
theorem Orderly.bares (h : s.Orderly) (start : Nat) :
    { s with views := ⟨s.viewed, { bytes := [] }, start⟩ :: s.views, viewed := s.viewed + 1 :
      Circulation }.Orderly where
  once := h.once
  blank := h.blank
  ids := h.ids_cons _ _
  id_lt := h.id_lt_cons _ _
  counted f hf := by simpa [viewsOf] using h.counted f hf
  backed v hv number hblock := by
    rcases List.mem_cons.mp hv with rfl | hv
    · cases hblock
    · exact h.backed v hv number hblock
  bare v hv hblock := by
    rcases List.mem_cons.mp hv with rfl | hv
    · rfl
    · exact h.bare v hv hblock

/-- One more view of a block that is frozen. -/
theorem Orderly.shares (h : s.Orderly) (hf : f ∈ s.pool.frozen) {bytes : Bytes} {start : Nat}
    (hshows : View.Shows ⟨s.viewed, { bytes, block := some f.block.number }, start⟩ f.block) :
    { s with
      pool := s.pool.retain f.block.number
      views := ⟨s.viewed, { bytes, block := some f.block.number }, start⟩ :: s.views,
      viewed := s.viewed + 1 : Circulation }.Orderly where
  once := by
    have honce := h.once
    simp only [places] at honce ⊢
    rwa [s.pool.frozenNumbers_retain]
  blank := h.blank
  ids := h.ids_cons _ _
  id_lt := h.id_lt_cons _ _
  counted g hg := by
    obtain ⟨g', hg', hblock, hviews⟩ := BlockPool.mem_frozen_retain hg
    obtain ⟨hcount, hpos⟩ := h.counted g' hg'
    rw [hblock, hviews]
    simp only [viewsOf] at hcount ⊢
    by_cases hnumber : g'.block.number = f.block.number
    · simp [hnumber, hcount]
    · simpa [hnumber, Ne.symm hnumber, hcount] using hpos
  backed v hv number hblock := by
    obtain ⟨g, hg, hnumber, hshows⟩ : ∃ g ∈ s.pool.frozen,
        g.block.number = number ∧ v.Shows g.block := by
      rcases List.mem_cons.mp hv with rfl | hv
      · cases hblock
        exact ⟨f, hf, rfl, hshows⟩
      · exact h.backed v hv number hblock
    obtain ⟨g', hg', hsame⟩ := BlockPool.exists_frozen_retain f.block.number hg
    exact ⟨g', hg', by rw [hsame, hnumber], by rwa [hsame]⟩
  bare v hv hblock := by
    rcases List.mem_cons.mp hv with rfl | hv
    · cases hblock
    · exact h.bare v hv hblock

/-- A part of a view is a view of the same block, or of nothing. -/
theorem Orderly.slices {start stop : Nat} {part : Segment} (h : s.Orderly) (hv : v ∈ s.views)
    (hslice : v.segment.slice start stop = .ok part) :
    { s with
      pool := s.pool.retainSegment part
      views := ⟨s.viewed, part, v.start + start⟩ :: s.views, viewed := s.viewed + 1 :
      Circulation }.Orderly := by
  obtain rfl | ⟨rfl, hlt, hfits⟩ := slice_cases hslice
  · exact h.bares _
  · cases hblock : v.segment.block with
    | none =>
        rw [h.bare v hv hblock] at hfits
        exact absurd hlt (by simp at hfits; omega)
    | some number =>
        obtain ⟨f, hf, rfl, hshows⟩ := h.backed v hv number hblock
        have hpart := shows_slice hshows hlt hfits s.viewed
        simp only [hblock] at hpart
        exact h.shares hf hpart

/-- A view of nothing is dropped. -/
theorem Orderly.dropsBare (h : s.Orderly) (hv : v ∈ s.views) (hblock : v.segment.block = none) :
    { s with views := s.views.filter (·.id ≠ v.id) : Circulation }.Orderly where
  once := h.once
  blank := h.blank
  ids := h.ids.sublist (List.filter_sublist.map _)
  id_lt w hw := h.id_lt w (List.mem_filter.mp hw).1
  counted f hf := by
    have hcounted := h.counted f hf
    rw [h.length_viewsOf hv] at hcounted
    simpa [hblock, viewsOf] using hcounted
  backed w hw := h.backed w (List.mem_filter.mp hw).1
  bare w hw := h.bare w (List.mem_filter.mp hw).1

/-- A view is dropped that is not the last one of its block. -/
theorem Orderly.dropsOne (h : s.Orderly) (hv : v ∈ s.views) (hf : f ∈ s.pool.frozen)
    (hblock : v.segment.block = some f.block.number) (hviews : ¬ f.views ≤ 1) :
    { s with
      pool := { s.pool with frozen := s.pool.frozen.map fun g =>
        if g.block.number = f.block.number then { g with views := g.views - 1 } else g }
      views := s.views.filter (·.id ≠ v.id) : Circulation }.Orderly where
  once := by
    have hsame : (s.pool.frozen.map fun g => if g.block.number = f.block.number then
        { g with views := g.views - 1 } else g).map (·.block.number) = s.pool.frozenNumbers := by
      rw [List.map_map]
      refine List.map_congr_left fun g _ => ?_
      simp only [Function.comp_apply]
      split <;> rfl
    have honce := h.once
    simp only [places, BlockPool.frozenNumbers] at honce hsame ⊢
    rwa [hsame]
  blank := h.blank
  ids := h.ids.sublist (List.filter_sublist.map _)
  id_lt w hw := h.id_lt w (List.mem_filter.mp hw).1
  counted g' hg' := by
    obtain ⟨g, hg, rfl⟩ := List.mem_map.mp hg'
    have hcounted := h.counted g hg
    rw [h.length_viewsOf hv] at hcounted
    by_cases hnumber : g.block.number = f.block.number
    · have hsame : g = f := List.inj_on_of_nodup_map h.nodup_frozen hg hf hnumber
      subst hsame
      simp only [hblock, if_true, viewsOf] at hcounted ⊢
      omega
    · simpa [hnumber, Ne.symm hnumber, hblock, viewsOf] using hcounted
  backed w hw number hblock := by
    obtain ⟨g, hg, hnumber, hshows⟩ := h.backed w (List.mem_filter.mp hw).1 number hblock
    refine ⟨_, List.mem_map_of_mem hg, ?_, ?_⟩ <;> split <;> assumption
  bare w hw := h.bare w (List.mem_filter.mp hw).1

/-- The last view of a block is dropped. -/
theorem Orderly.dropsLast (h : s.Orderly) (hv : v ∈ s.views) (hf : f ∈ s.pool.frozen)
    (hblock : v.segment.block = some f.block.number) (hviews : f.views ≤ 1) :
    { s with
      pool := BlockPool.giveBack f.block { s.pool with
        frozen := s.pool.frozen.filter (·.block.number ≠ f.block.number) }
      views := s.views.filter (·.id ≠ v.id) : Circulation }.Orderly where
  once := by
    refine List.Perm.trans ?_ h.once
    have hfrozen := (h.perm_frozen hf).symm.append_left s.heldNumbers
    simp only [places, idleNumbers, BlockPool.idle_giveBack, List.append_assoc]
    exact (List.perm_middle.symm.trans hfrozen).append_left _
  blank := by
    refine BlockPool.Blank.giveBack ?_ f.block
    exact h.blank
  ids := h.ids.sublist (List.filter_sublist.map _)
  id_lt w hw := h.id_lt w (List.mem_filter.mp hw).1
  counted g hg := by
    obtain ⟨hg, hnumber⟩ := List.mem_filter.mp hg
    have hne : f.block.number ≠ g.block.number := fun hsame => by simp [hsame] at hnumber
    have hcounted := h.counted g hg
    rw [h.length_viewsOf hv] at hcounted
    simpa [hne, hblock, viewsOf] using hcounted
  backed w hw number hother := by
    obtain ⟨g, hg, rfl, hshows⟩ := h.backed w (List.mem_filter.mp hw).1 number hother
    have hne : g.block.number ≠ f.block.number := by
      intro hsame
      obtain ⟨hw, hid⟩ := List.mem_filter.mp hw
      rw [(h.views_le_one_iff hv hf hblock).mp hviews w hw (hsame ▸ hother)] at hid
      simp at hid
    exact ⟨g, List.mem_filter.mpr ⟨hg, by simpa using hne⟩, rfl, hshows⟩
  bare w hw := h.bare w (List.mem_filter.mp hw).1

theorem Orderly.drops (h : s.Orderly) (hv : v ∈ s.views) :
    { s with
      pool := s.pool.releaseSegment v.segment, views := s.views.filter (·.id ≠ v.id) :
      Circulation }.Orderly := by
  unfold BlockPool.releaseSegment
  cases hblock : v.segment.block with
  | none => exact h.dropsBare hv hblock
  | some number =>
      obtain ⟨f, hf, rfl, -⟩ := h.backed v hv number hblock
      dsimp only
      rw [BlockPool.release_eq h.nodup_frozen hf]
      split
      · next hviews => exact h.dropsLast hv hf hblock hviews
      · next hviews => exact h.dropsOne hv hf hblock hviews

/-- **Every turn leaves every block in one place.** -/
theorem Orderly.turn (h : s.Orderly) (t : Turn) : (s.turn t).Orderly := by
  have hdoes := s.does_turn t
  generalize s.turn t = s' at hdoes ⊢
  cases hdoes with
  | nothing => exact h
  | lends => exact h.lends
  | writes w held number => exact h.writes number
  | takesBack held => exact h.takesBack held
  | freezes held => exact h.freezes held
  | slices view slice => exact h.slices view slice
  | drops view => exact h.drops view

theorem Orderly.run (h : s.Orderly) (turns : List Turn) : (s.run turns).Orderly := by
  induction turns generalizing s with
  | nil => exact h
  | cons t turns ih => exact ih (h.turn t)

theorem orderly_new : ({} : Circulation).Orderly where
  once := .nil
  blank := BlockPool.blank_empty
  ids := .nil
  id_lt _ hv := by cases hv
  counted _ hf := by cases hf
  backed _ hv := by cases hv
  bare _ hv := by cases hv

/-! ## 5. What is seen through a view -/

theorem block?_of_frozen (h : s.Orderly) (hf : f ∈ s.pool.frozen) :
    s.block? f.block.number = some f.block := by
  have hnodup : ((s.pool.idle ++ (s.held ++ s.pool.frozen.map (·.block))).map
      (·.number)).Nodup := by
    have hplaces := h.nodup_places
    simp only [places, idleNumbers, heldNumbers, BlockPool.frozenNumbers] at hplaces
    simpa [Function.comp_def] using hplaces
  exact find?_number hnodup (by simp [List.mem_map_of_mem hf])

/-- The memory of its block holds what a view was made of. -/
theorem Orderly.seen_eq (h : s.Orderly) (hv : v ∈ s.views) : s.seen v = v.segment.bytes := by
  unfold seen
  cases hblock : v.segment.block with
  | none => exact (h.bare v hv hblock).symm
  | some number =>
      obtain ⟨f, hf, rfl, hshows⟩ := h.backed v hv number hblock
      simp only [block?_of_frozen h hf, Option.map_some, Option.getD_some, hshows.read_eq]

/-- A view is there already, or its number is new. -/
theorem mem_views_turn (hw : w ∈ (s.turn t).views) :
    w ∈ s.views ∨ w.id = s.viewed := by
  have hdoes := s.does_turn t
  generalize s.turn t = s' at hdoes hw
  cases hdoes with
  | nothing | lends | writes | takesBack => exact .inl hw
  | freezes | slices =>
      rcases List.mem_cons.mp hw with rfl | hw
      · exact .inr rfl
      · exact .inl hw
  | drops => exact .inl (List.mem_filter.mp hw).1

theorem viewed_le_turn (t : Turn) (s : Circulation) : s.viewed ≤ (s.turn t).viewed := by
  have hdoes := s.does_turn t
  generalize s.turn t = s' at hdoes ⊢
  cases hdoes with
  | nothing | lends | writes | takesBack | drops => exact Nat.le_refl _
  | freezes | slices => exact Nat.le_succ _

theorem mem_views_run {turns : List Turn} (hw : w ∈ (s.run turns).views) :
    w ∈ s.views ∨ s.viewed ≤ w.id := by
  induction turns generalizing s with
  | nil => exact .inl hw
  | cons t turns ih =>
      rcases ih hw with hw | hle
      · rcases mem_views_turn hw with hw | hid
        · exact .inl hw
        · exact .inr (Nat.le_of_eq hid.symm)
      · exact .inr (Nat.le_trans (viewed_le_turn t s) hle)

/-- A view that is still there is the one that it was. -/
theorem Orderly.eq_of_id_eq {turns : List Turn} (h : s.Orderly) (hv : v ∈ s.views)
    (hw : w ∈ (s.run turns).views) (hid : w.id = v.id) : w = v := by
  rcases mem_views_run hw with hw | hle
  · exact List.inj_on_of_nodup_map h.ids hw hv hid
  · exact absurd (h.id_lt v hv) (Nat.not_lt_of_le (hid ▸ hle))

/-! ## 6. Coming back -/

/-- The turn takes the number's block from its holder, or drops its last view. -/
def Returns (s : Circulation) (number : Nat) (t : Turn) : Prop :=
  t = .giveBack number ∧ number ∈ s.heldNumbers ∨
    ∃ v ∈ s.views, t = .drop v.id ∧ v.segment.block = some number ∧
      ∀ w ∈ s.views, w.segment.block = some number → w = v

theorem Orderly.returns_drop_iff (h : s.Orderly) (hv : v ∈ s.views) :
    s.Returns number (.drop v.id) ↔ v.segment.block = some number ∧
      ∀ w ∈ s.views, w.segment.block = some number → w = v := by
  constructor
  · rintro (⟨hturn, -⟩ | ⟨w, hw, hturn, hblock, halone⟩)
    · cases hturn
    · injection hturn with hid
      rw [List.inj_on_of_nodup_map h.ids hv hw hid]
      exact ⟨hblock, halone⟩
  · rintro ⟨hblock, halone⟩
    exact .inr ⟨v, hv, rfl, hblock, halone⟩

/-- **A block comes back when it is given back or its last view is dropped**, and not otherwise. -/
theorem Orderly.mem_idle_iff (h : s.Orderly) (hbusy : number ∉ s.idleNumbers) (t : Turn) :
    number ∈ (s.turn t).idleNumbers ↔ s.Returns number t := by
  have hdoes := s.does_turn t
  generalize s.turn t = s' at hdoes ⊢
  cases hdoes with
  | nothing hnothing =>
      refine iff_of_false hbusy ?_
      rintro (⟨rfl, hheld⟩ | ⟨v, hv, rfl, -⟩)
      · rcases hnothing with hmisses | hdemands
        · exact hmisses hheld
        · exact hdemands
      · rcases hnothing with hmisses | hdemands
        · exact hmisses v hv rfl
        · exact hdemands
  | lends =>
      refine iff_of_false (fun hmem => hbusy ?_) (by simp [Returns])
      obtain ⟨b, rest, hidle, hrent⟩ | ⟨-, hrent⟩ := s.pool.rent_cases
      · simp only [idleNumbers, hrent] at hmem
        simp only [idleNumbers, hidle, List.map_cons]
        exact List.mem_cons_of_mem _ hmem
      · simpa [idleNumbers, hrent] using hmem
  | writes | freezes => exact iff_of_false hbusy (by simp [Returns])
  | slices view slice =>
      refine iff_of_false (fun hmem => hbusy ?_) (by simp [Returns])
      simp only [idleNumbers, BlockPool.retainSegment] at hmem
      split at hmem <;> exact hmem
  | @takesBack b held =>
      simp only [idleNumbers, BlockPool.idle_giveBack, List.mem_append, List.mem_singleton]
      constructor
      · rintro (hidle | rfl)
        · exact absurd hidle hbusy
        · exact .inl ⟨rfl, List.mem_map_of_mem held⟩
      · rintro (⟨hturn, -⟩ | ⟨v, -, hturn, -⟩) <;> cases hturn
        exact .inr rfl
  | @drops v view =>
      rw [h.returns_drop_iff view]
      simp only [idleNumbers, BlockPool.releaseSegment]
      cases hblock : v.segment.block with
      | none => exact iff_of_false hbusy fun hreturns => by cases hreturns.1
      | some other =>
          obtain ⟨f, hf, rfl, -⟩ := h.backed v view other hblock
          have hone := h.views_le_one_iff view hf hblock
          dsimp only
          rw [BlockPool.release_eq h.nodup_frozen hf]
          split
          · next hviews =>
            simp only [BlockPool.idle_giveBack, List.mem_append, List.mem_singleton]
            constructor
            · rintro (hidle | rfl)
              · exact absurd hidle hbusy
              · exact ⟨rfl, hone.mp hviews⟩
            · rintro ⟨hnumber, -⟩
              exact .inr (Option.some.inj hnumber).symm
          · next hviews =>
            refine iff_of_false hbusy ?_
            rintro ⟨hnumber, halone⟩
            cases hnumber
            exact hviews (hone.mpr halone)

/-- A new block is made only when none is idle. -/
theorem made_turn (t : Turn) (s : Circulation) : (s.turn t).pool.made = s.pool.made ∨
    t = .rent ∧ s.pool.idle = [] ∧ (s.turn t).pool.made = s.pool.made + 1 := by
  have hdoes := s.does_turn t
  generalize s.turn t = s' at hdoes ⊢
  cases hdoes with
  | nothing | writes | takesBack | freezes => exact .inl rfl
  | lends =>
      obtain ⟨b, rest, -, hrent⟩ | ⟨hidle, hrent⟩ := s.pool.rent_cases <;> rw [hrent]
      · exact .inl rfl
      · exact .inr ⟨rfl, hidle, rfl⟩
  | slices =>
      refine .inl ?_
      simp only [BlockPool.retainSegment]
      split <;> rfl
  | drops =>
      refine .inl ?_
      simp only [BlockPool.releaseSegment, BlockPool.release]
      split
      · rfl
      · split
        · rfl
        · split <;> rfl

/-- **Every block is in one place**, whatever was rented, written, frozen, sliced and dropped
before: it is idle once, or held once, or frozen behind a view, so that those that are idle are as
many as the others leave. It becomes idle when its holder gives it back or its last view is
dropped, and not otherwise. A new one is made only when none is idle, and one that is lent has
nothing filled in. What is seen through a view is what its block was frozen with, and whatever
happens later, as long as the view is there, it is what it was. -/
theorem blocks_of_run (before : List Turn) :
    let s := run before {}
    s.places.Perm (List.range s.pool.made) ∧
    (∀ f ∈ s.pool.frozen, ∃ v ∈ s.views, v.segment.block = some f.block.number) ∧
    s.pool.idleCount + s.held.length + s.pool.frozen.length = s.pool.made ∧
    (∀ number t, number ∉ s.idleNumbers →
      (number ∈ (s.turn t).idleNumbers ↔ s.Returns number t)) ∧
    (∀ t, (s.turn t).pool.made = s.pool.made ∨
      t = .rent ∧ s.pool.idle = [] ∧ (s.turn t).pool.made = s.pool.made + 1) ∧
    (∃ b, (s.turn .rent).held = b :: s.held ∧ b.size = 0) ∧
    (∀ v ∈ s.views, s.seen v = v.segment.bytes ∧
      ∀ after, ∀ w ∈ (s.run after).views, w.id = v.id → (s.run after).seen w = s.seen v) := by
  intro s
  have h : s.Orderly := orderly_new.run before
  refine ⟨h.once, fun f hf => ?_, ?_, fun number t hbusy => h.mem_idle_iff hbusy t,
    fun t => s.made_turn t, ⟨s.pool.rent.1, rfl, ?_⟩, fun v hv => ⟨h.seen_eq hv, ?_⟩⟩
  · obtain ⟨hcount, hpos⟩ := h.counted f hf
    obtain ⟨v, hv⟩ := List.exists_mem_of_length_pos (hcount ▸ hpos)
    obtain ⟨hv, hblock⟩ := List.mem_filter.mp hv
    exact ⟨v, hv, by simpa using hblock⟩
  · have hlength := h.once.length_eq
    simp only [places, idleNumbers, heldNumbers, BlockPool.frozenNumbers, List.length_append,
      List.length_map, List.length_range] at hlength
    rw [BlockPool.idleCount]
    omega
  · rw [Block.size, h.blank.filled_rent]
    rfl
  · intro after w hw hid
    rw [(h.run after).seen_eq hw, h.seen_eq hv, h.eq_of_id_eq hv hw hid]

/-- A block is frozen, a part of its view outlives the view, and the next block is another one until
the part is dropped too. -/
example :
    let s := run [.rent, .write 0 (.put [1, 2, 3]), .freeze 0, .slice 0 1 3, .drop 0, .rent,
      .write 1 (.put [9])] {}
    s.places = [1, 0] ∧ s.views.map s.seen = [[2, 3]] ∧ (s.turn (.drop 1)).places = [0, 1] := by
  decide +kernel

end Circulation

end Courier
