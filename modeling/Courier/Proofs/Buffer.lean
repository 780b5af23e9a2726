import Courier.Buffer

/-!
Courier.Proofs.Buffer — a buffer is the byte string that it holds.

A buffer counts its bytes beside keeping them. `Buffer.Sound` says that the count is right and
that no segment is empty; every operation keeps it. Of a sound buffer the count can be read off the
view, so what an operation does is said by `Buffer.toList` alone.
-/

namespace Courier.Buffer

/-- The count is right, and no segment is empty. -/
structure Sound (b : Buffer) : Prop where
  size_eq : b.size = b.toList.length
  ne_nil : ∀ s ∈ b.segments, s.bytes ≠ []

theorem sound_empty : ({} : Buffer).Sound := ⟨rfl, by simp⟩

theorem Sound.push {b : Buffer} (h : b.Sound) (s : Segment) : (b.push s).Sound := by
  unfold Buffer.push
  split
  · exact h
  · next hs =>
    refine ⟨?_, ?_⟩
    · simp [toList, h.size_eq]
    · intro t ht
      rcases List.mem_append.mp ht with ht | ht
      · exact h.ne_nil t ht
      · rw [List.mem_singleton.mp ht]
        simpa using hs

/-- Segments that are added one after another. -/
theorem toList_foldl_push (segments : List Segment) (b : Buffer) :
    (segments.foldl (fun b s => b.push s) b).toList = b.toList ++ segments.flatMap (·.bytes) := by
  induction segments generalizing b with
  | nil => simp
  | cons s rest ih => simp [ih]

theorem Sound.foldl_push {b : Buffer} (h : b.Sound) (segments : List Segment) :
    (segments.foldl (fun b s => b.push s) b).Sound := by
  induction segments generalizing b with
  | nil => exact h
  | cons s rest ih => exact ih (h.push s)

theorem Sound.pushBytes {b : Buffer} (h : b.Sound) (bs : Bytes) : (b.pushBytes bs).Sound :=
  h.push _

@[simp] theorem toList_pushBytes (bs : Bytes) (b : Buffer) :
    (b.pushBytes bs).toList = b.toList ++ bs :=
  toList_push _ b

theorem toList_foldl_pushBytes (pieces : List Bytes) (b : Buffer) :
    (pieces.foldl (fun b piece => b.pushBytes piece) b).toList = b.toList ++ pieces.flatten := by
  induction pieces generalizing b with
  | nil => rw [List.flatten_nil, List.append_nil]; rfl
  | cons piece pieces ih =>
      rw [List.foldl_cons, ih, toList_pushBytes, List.flatten_cons, List.append_assoc]

theorem splitSegments_ne_nil {n : Nat} {ss : List Segment} (h : ∀ s ∈ ss, s.bytes ≠ []) :
    ∀ s ∈ (splitSegments n ss).2, s.bytes ≠ [] := by
  induction ss generalizing n with
  | nil => simp [splitSegments]
  | cons s rest ih =>
      have hrest : ∀ t ∈ rest, t.bytes ≠ [] := fun t ht => h t (by simp [ht])
      unfold splitSegments
      split
      · exact h
      · split
        · exact ih hrest
        · next hd =>
          intro t ht
          rcases List.mem_cons.mp ht with rfl | ht
          · simpa using hd
          · exact hrest t ht

theorem Sound.split {b : Buffer} (h : b.Sound) (n : Nat) : (b.split n).2.Sound :=
  ⟨by simp [h.size_eq], splitSegments_ne_nil h.ne_nil⟩

theorem Sound.drop {b : Buffer} (h : b.Sound) (n : Nat) : (b.drop n).Sound := by
  refine ⟨?_, ?_⟩
  · rw [size_drop, toList_drop, h.size_eq, List.length_take, List.length_drop]
    omega
  · rw [segments_drop]
    exact splitSegments_ne_nil h.ne_nil

theorem chunk_prefix (b : Buffer) : b.chunk <+: b.toList := by
  obtain ⟨segments, size⟩ := b
  cases segments with
  | nil => exact List.prefix_rfl
  | cons s rest => exact List.prefix_append _ _

/-- The first segment has nothing only if the buffer has nothing. -/
theorem Sound.chunk_eq_nil_iff {b : Buffer} (h : b.Sound) : b.chunk = [] ↔ b.toList = [] := by
  obtain ⟨segments, size⟩ := b
  cases segments with
  | nil => exact Iff.rfl
  | cons s rest =>
      have hs : s.bytes ≠ [] := h.ne_nil s (by simp)
      simp [chunk, toList, hs]

theorem find_eq {needle : Bytes} (hne : needle ≠ []) (limit : Nat) (b : Buffer) :
    b.find needle limit = .ok (Bytes.find? needle (b.toList.take limit)) := by
  simp only [find, List.isEmpty_iff, if_neg hne, peek_eq_take]

/-- `r` is the first `n` bytes of `b`, and a sound buffer of those behind them. -/
structure Takes (b : Buffer) (n : Nat) (r : Bytes × Buffer) : Prop where
  taken : r.1 = b.toList.take n
  left : r.2.toList = b.toList.drop n
  sound : r.2.Sound

/-- Bytes that are copied out chunk by chunk are the front of the buffer. -/
theorem Sound.pour {b : Buffer} (h : b.Sound) (n : Nat) : b.Takes n (b.pour n) := by
  fun_induction Buffer.pour n b with
  | case1 n b front hnil =>
      have hempty : n = 0 ∨ b.toList = [] := by
        rw [← h.chunk_eq_nil_iff]
        exact List.take_eq_nil_iff.mp hnil
      rcases hempty with rfl | hempty
      · exact ⟨rfl, rfl, h⟩
      · exact ⟨by rw [hempty, List.take_nil], by rw [hempty, List.drop_nil], h⟩
  | case2 n b front hne more ih =>
      obtain ⟨htaken, hleft, hsound⟩ := ih (h.drop front.length)
      rw [toList_drop] at htaken hleft
      have hle : front.length ≤ n := List.length_take_le n b.chunk
      have hfront : front = b.toList.take front.length :=
        List.prefix_iff_eq_take.mp ((List.take_prefix n b.chunk).trans b.chunk_prefix)
      refine ⟨?_, ?_, hsound⟩
      · calc front ++ more.1
            = b.toList.take front.length ++
                (b.toList.drop front.length).take (n - front.length) := by rw [← hfront, htaken]
          _ = b.toList.take n := by rw [← List.take_add, Nat.add_sub_cancel' hle]
      · rw [hleft, List.drop_drop, Nat.add_sub_cancel' hle]

theorem Sound.isEmpty_iff {b : Buffer} (h : b.Sound) : b.isEmpty = true ↔ b.toList = [] := by
  simp [isEmpty, h.size_eq]

/-- There is one sound buffer that holds nothing. -/
theorem Sound.eq_empty {b : Buffer} (h : b.Sound) (hnil : b.toList = []) : b = {} := by
  obtain ⟨segments, size⟩ := b
  have hsize : size = 0 := by simpa [hnil] using h.size_eq
  cases segments with
  | nil => rw [hsize]
  | cons s rest =>
      have hs : s.bytes ≠ [] := h.ne_nil s (by simp)
      simp only [toList, List.flatMap_cons, List.append_eq_nil_iff] at hnil
      exact absurd hnil.1 hs

/-- `b'` is what is left of `b` when some bytes were taken from its front. -/
structure Rest (b b' : Buffer) : Prop where
  size_le : b'.size ≤ b.size
  suffix : b'.toList <:+ b.toList

theorem Rest.refl (b : Buffer) : b.Rest b :=
  ⟨Nat.le_refl _, List.suffix_refl _⟩

theorem Rest.trans {b b₁ b₂ : Buffer} (h : b.Rest b₁) (h' : b₁.Rest b₂) : b.Rest b₂ :=
  ⟨Nat.le_trans h'.size_le h.size_le, h'.suffix.trans h.suffix⟩

/-- What was taken and what is left make up the whole. -/
theorem Rest.take_append {b b' : Buffer} (h : b.Rest b') (hb : b.Sound) (hb' : b'.Sound) :
    b.toList.take (b.size - b'.size) ++ b'.toList = b.toList := by
  obtain ⟨taken, htaken⟩ := h.suffix
  have hlength : b.size - b'.size = taken.length := by
    rw [hb.size_eq, hb'.size_eq, ← htaken, List.length_append, Nat.add_sub_cancel]
  rw [hlength, ← htaken, List.take_left' rfl]

theorem rest_drop (n : Nat) (b : Buffer) : b.Rest (b.drop n) :=
  ⟨by rw [size_drop]; exact Nat.sub_le _ _, by rw [toList_drop]; exact List.drop_suffix _ _⟩

theorem rest_split (n : Nat) (b : Buffer) : b.Rest (b.split n).2 :=
  ⟨Nat.sub_le _ _, by rw [toList_split_snd]; exact List.drop_suffix _ _⟩

end Courier.Buffer
