import Mathlib.Tactic.Ring
import Courier.Bytes

/-!
Courier.Proofs.Bytes — numbers, texts and needles in byte strings.

A number is written in a fixed width and read back as it was, up to what does not fit. A text is
read back from its UTF-8 form. The other way round, a number or a text has one written form only.
A search comes to the first place where the needle stands, and bytes that come behind do not
change it.
-/

namespace Courier.Bytes

/-! ## 1. Numbers -/

theorem foldl_eq (n : Nat) (bs : Bytes) :
    bs.foldl (fun n b => n * 256 + b.toNat) n = n * 256 ^ bs.length + toNat bs := by
  unfold toNat
  induction bs generalizing n with
  | nil => simp
  | cons b bs ih =>
      rw [List.foldl_cons, List.foldl_cons, ih, ih (0 * 256 + b.toNat), List.length_cons,
        Nat.pow_succ']
      ring

theorem toNat_cons (b : UInt8) (bs : Bytes) :
    toNat (b :: bs) = b.toNat * 256 ^ bs.length + toNat bs := by
  have h : toNat (b :: bs) = (0 * 256 + b.toNat) * 256 ^ bs.length + toNat bs := foldl_eq _ bs
  rwa [Nat.zero_mul, Nat.zero_add] at h

theorem ofNat_succ (width n : Nat) :
    ofNat (width + 1) n = UInt8.ofNat (n / 256 ^ width) :: ofNat width n := rfl

/-- A number is read back as it was written, but for what the width has no room for. -/
theorem toNat_ofNat (width n : Nat) : toNat (ofNat width n) = n % 256 ^ width := by
  induction width with
  | zero => simp [ofNat, toNat, Nat.mod_one]
  | succ width ih =>
      have hdigit : (UInt8.ofNat (n / 256 ^ width)).toNat = n / 256 ^ width % 256 :=
        UInt8.toNat_ofNat'
      rw [ofNat_succ, toNat_cons, ih, length_ofNat, hdigit, Nat.pow_succ,
        Nat.mod_mul (a := 256 ^ width) (b := 256)]
      ring

theorem toNat_ofNat_of_lt {width n : Nat} (h : n < 256 ^ width) : toNat (ofNat width n) = n := by
  rw [toNat_ofNat, Nat.mod_eq_of_lt h]

theorem toNat_lt (bs : Bytes) : toNat bs < 256 ^ bs.length := by
  induction bs with
  | nil => exact Nat.one_pos
  | cons b bs ih =>
      have hb : b.toNat ≤ 255 := Nat.le_of_lt_succ b.toNat_lt
      have hle : b.toNat * 256 ^ bs.length ≤ 255 * 256 ^ bs.length := Nat.mul_le_mul_right _ hb
      rw [toNat_cons, List.length_cons, Nat.pow_succ']
      omega

/-- Byte strings of one length are the same if they spell the same number. -/
theorem eq_of_toNat_eq {bs cs : Bytes} (hlength : bs.length = cs.length)
    (h : toNat bs = toNat cs) : bs = cs := by
  induction bs generalizing cs with
  | nil => exact (List.eq_nil_of_length_eq_zero hlength.symm).symm
  | cons b bs ih =>
      cases cs with
      | nil => cases hlength
      | cons c cs =>
          have hlength' : bs.length = cs.length := Nat.succ.inj hlength
          have hbs := toNat_lt bs
          have hcs := toNat_lt cs
          rw [toNat_cons, toNat_cons, hlength'] at h
          rw [hlength'] at hbs
          have hhead : b.toNat = c.toNat := by
            have hdiv := congrArg (· / 256 ^ cs.length) h
            simpa [Nat.mul_comm _ (256 ^ cs.length), Nat.mul_add_div, Nat.div_eq_of_lt hbs,
              Nat.div_eq_of_lt hcs] using hdiv
          have htail : toNat bs = toNat cs := by
            rw [hhead] at h
            exact Nat.add_left_cancel h
          rw [UInt8.toNat_inj.mp hhead, ih hlength' htail]

/-- A byte string is what is written for the number that it spells. -/
theorem ofNat_toNat {width : Nat} {bs : Bytes} (h : bs.length = width) :
    ofNat width (toNat bs) = bs := by
  subst h
  refine eq_of_toNat_eq (length_ofNat _ _) ?_
  exact toNat_ofNat_of_lt (toNat_lt bs)

/-- Where two byte strings begin with numbers of one width and are the same, the numbers are. -/
theorem ofNat_append_inj {width m n : Nat} {bs cs : Bytes} (hm : m < 256 ^ width)
    (hn : n < 256 ^ width) (h : ofNat width m ++ bs = ofNat width n ++ cs) : m = n ∧ bs = cs := by
  obtain ⟨hnumber, hrest⟩ := List.append_inj h (by simp)
  refine ⟨?_, hrest⟩
  rw [← toNat_ofNat_of_lt hm, hnumber, toNat_ofNat_of_lt hn]

/-! ## 2. Text -/

/-- A text is read back from its UTF-8 form. -/
theorem toString?_ofString (s : String) : toString? (ofString s) = some s := by
  have hdata : (⟨(ofString s).toArray⟩ : ByteArray) = s.toUTF8 := by
    simp [ofString]
  have hvalid : s.toUTF8.IsValidUTF8 := s.isValidUTF8
  rw [toString?, hdata, String.fromUTF8?, dif_pos hvalid]
  rfl

/-- A byte string that is read as a text is the UTF-8 form of that text. -/
theorem ofString_of_toString? {bs : Bytes} {s : String} (h : toString? bs = some s) :
    ofString s = bs := by
  unfold toString? String.fromUTF8? at h
  split at h
  · cases h
    rfl
  · cases h

/-! ## 3. Searching -/

section Searching

variable {needle bs : Bytes} {offset n : Nat}

/-- An occurrence is not before the place where the search begins, and fits. -/
theorem findFrom_bounds (h : findFrom needle offset bs = some n) :
    offset ≤ n ∧ n + needle.length ≤ offset + bs.length := by
  induction bs generalizing offset with
  | nil =>
      simp only [findFrom] at h
      split at h
      · next hempty =>
        cases h
        rw [List.isEmpty_iff.mp hempty]
        exact ⟨Nat.le_refl _, Nat.le_refl _⟩
      · cases h
  | cons b rest ih =>
      simp only [findFrom] at h
      split at h
      · next hfront =>
        cases h
        have hle := (List.isPrefixOf_iff_prefix.mp hfront).length_le
        exact ⟨Nat.le_refl _, Nat.add_le_add_left hle _⟩
      · obtain ⟨hle, hfits⟩ := ih h
        simp only [List.length_cons]
        omega

/-- The needle stands where it was found. -/
theorem exists_of_findFrom (h : findFrom needle offset bs = some n) :
    ∃ front rest, bs = front ++ needle ++ rest ∧ n = offset + front.length := by
  induction bs generalizing offset with
  | nil =>
      simp only [findFrom] at h
      split at h
      · next hempty =>
        cases h
        exact ⟨[], [], by rw [List.isEmpty_iff.mp hempty]; rfl, rfl⟩
      · cases h
  | cons b bs ih =>
      simp only [findFrom] at h
      split at h
      · next hfront =>
        cases h
        obtain ⟨rest, hrest⟩ := List.isPrefixOf_iff_prefix.mp hfront
        exact ⟨[], rest, hrest.symm, rfl⟩
      · obtain ⟨front, rest, rfl, rfl⟩ := ih h
        exact ⟨b :: front, rest, rfl, Nat.succ_add_eq_add_succ offset front.length⟩

/-- A needle at the end is found, there or before. -/
theorem exists_findFrom_append (needle front : Bytes) (offset : Nat) :
    ∃ n, findFrom needle offset (front ++ needle) = some n := by
  induction front generalizing offset with
  | nil =>
      cases needle with
      | nil => exact ⟨offset, rfl⟩
      | cons b needle => exact ⟨offset, if_pos (List.isPrefixOf_iff_prefix.mpr List.prefix_rfl)⟩
  | cons b front ih =>
      rw [List.cons_append, findFrom]
      split
      · exact ⟨offset, rfl⟩
      · exact ih (offset + 1)

/-- Whether the needle stands in front does not hang on what comes behind it. -/
theorem isPrefixOf_append (hle : needle.length ≤ bs.length) (more : Bytes) :
    needle.isPrefixOf (bs ++ more) = needle.isPrefixOf bs := by
  rw [Bool.eq_iff_iff, List.isPrefixOf_iff_prefix, List.isPrefixOf_iff_prefix]
  exact ⟨fun h => List.prefix_of_prefix_length_le h (List.prefix_append bs more) hle,
    fun h => h.trans (List.prefix_append bs more)⟩

/-- What comes behind does not change where the first occurrence is. -/
theorem findFrom_append (hneedle : needle ≠ []) (more : Bytes)
    (h : findFrom needle offset bs = some n) : findFrom needle offset (bs ++ more) = some n := by
  have hfits := (findFrom_bounds h).2
  induction bs generalizing offset with
  | nil =>
      simp only [findFrom, List.isEmpty_iff, if_neg hneedle] at h
      cases h
  | cons b rest ih =>
      have hle : needle.length ≤ (b :: rest).length := by
        have hbounds := findFrom_bounds h
        omega
      rw [List.cons_append]
      simp only [findFrom] at h ⊢
      rw [← List.cons_append, isPrefixOf_append hle]
      split at h
      · next hfront =>
        rw [if_pos hfront]
        exact h
      · next hfront =>
        rw [if_neg hfront]
        exact ih h (findFrom_bounds h).2

/-- The first occurrence is the first one of every front in which it fits. -/
theorem findFrom_front (hneedle : needle ≠ []) {more : Bytes}
    (h : findFrom needle offset (bs ++ more) = some n)
    (hfits : n + needle.length ≤ offset + bs.length) : findFrom needle offset bs = some n := by
  have hpos : 0 < needle.length := List.length_pos_iff.mpr hneedle
  have hle := (findFrom_bounds h).1
  induction bs generalizing offset with
  | nil =>
      simp only [List.length_nil] at hfits
      omega
  | cons b rest ih =>
      have hshort : needle.length ≤ (b :: rest).length := by omega
      rw [List.cons_append] at h
      simp only [findFrom] at h ⊢
      rw [← List.cons_append, isPrefixOf_append hshort] at h
      split at h
      · next hfront =>
        rw [if_pos hfront]
        exact h
      · next hfront =>
        rw [if_neg hfront]
        simp only [List.length_cons] at hfits
        exact ih h (by omega) (findFrom_bounds h).1

/-- The needle stands at `k`, and nowhere before. -/
structure FirstAt (needle bs : Bytes) (k : Nat) : Prop where
  stands : needle <+: bs.drop k
  first : ∀ j < k, ¬ needle <+: bs.drop j

theorem firstAt_cons_zero {b : UInt8} (hfront : needle <+: b :: bs) (k : Nat) :
    FirstAt needle (b :: bs) k ↔ k = 0 := by
  constructor
  · intro h
    exact Nat.eq_zero_of_not_pos fun hpos => h.first 0 hpos hfront
  · rintro rfl
    exact ⟨hfront, fun j hj => absurd hj (Nat.not_lt_zero j)⟩

theorem firstAt_cons_succ {b : UInt8} (hfront : ¬ needle <+: b :: bs) (k : Nat) :
    FirstAt needle (b :: bs) k ↔ ∃ j, k = j + 1 ∧ FirstAt needle bs j := by
  constructor
  · intro h
    cases k with
    | zero => exact absurd h.stands hfront
    | succ j => exact ⟨j, rfl, h.stands, fun i hi => h.first (i + 1) (Nat.succ_lt_succ hi)⟩
  · rintro ⟨j, rfl, h⟩
    refine ⟨h.stands, fun i hi => ?_⟩
    cases i with
    | zero => exact hfront
    | succ i => exact h.first i (Nat.lt_of_succ_lt_succ hi)

theorem findFrom_eq_some_iff :
    findFrom needle offset bs = some n ↔ ∃ k, n = offset + k ∧ FirstAt needle bs k := by
  induction bs generalizing offset with
  | nil =>
      simp only [findFrom, List.isEmpty_iff]
      split
      · next hempty =>
        subst hempty
        constructor
        · rintro ⟨⟩
          exact ⟨0, rfl, List.nil_prefix, fun j hj => absurd hj (Nat.not_lt_zero j)⟩
        · rintro ⟨k, rfl, h⟩
          rw [Nat.eq_zero_of_not_pos fun hpos => h.first 0 hpos List.nil_prefix]
          rfl
      · next hne =>
        constructor
        · rintro ⟨⟩
        · rintro ⟨k, -, h⟩
          exact absurd (List.prefix_nil.mp (by simpa using h.stands)) hne
  | cons b rest ih =>
      simp only [findFrom]
      split
      · next hfront =>
        simp only [firstAt_cons_zero (List.isPrefixOf_iff_prefix.mp hfront), exists_eq_right,
          Option.some.injEq, Nat.add_zero, eq_comm]
      · next hfront =>
        have hfront' : ¬ needle <+: b :: rest := fun h => hfront (List.isPrefixOf_iff_prefix.mpr h)
        rw [ih]
        constructor
        · rintro ⟨j, rfl, h⟩
          exact ⟨j + 1, Nat.succ_add_eq_add_succ offset j,
            (firstAt_cons_succ hfront' _).mpr ⟨j, rfl, h⟩⟩
        · rintro ⟨k, rfl, h⟩
          obtain ⟨j, rfl, hrest⟩ := (firstAt_cons_succ hfront' _).mp h
          exact ⟨j, (Nat.succ_add_eq_add_succ offset j).symm, hrest⟩

/-- A search comes to the first place where the needle stands. -/
theorem find?_eq_some_iff {k : Nat} : find? needle bs = some k ↔ FirstAt needle bs k := by
  rw [find?, findFrom_eq_some_iff]
  simp only [Nat.zero_add, exists_eq_left']

/-- A search fails where the needle stands nowhere. -/
theorem find?_eq_none_iff : find? needle bs = none ↔ ∀ k, ¬ needle <+: bs.drop k := by
  classical
  constructor
  · intro h k hk
    have hex : ∃ k, needle <+: bs.drop k := ⟨k, hk⟩
    have hfirst : FirstAt needle bs (Nat.find hex) :=
      ⟨Nat.find_spec hex, fun _ hj => Nat.find_min hex hj⟩
    rw [find?_eq_some_iff.mpr hfirst] at h
    cases h
  · intro h
    cases hfind : find? needle bs with
    | none => rfl
    | some k => exact absurd (find?_eq_some_iff.mp hfind).stands (h k)

/-- Of a stream that begins with a block, what is there begins with it, once it is long enough. -/
theorem take_of_front {block rest : Bytes} (hfront : bs <+: block ++ rest)
    (hle : block.length ≤ bs.length) : bs.take block.length = block := by
  obtain ⟨more, rfl⟩ := List.prefix_of_prefix_length_le (List.prefix_append block rest) hfront hle
  exact List.take_left

end Searching

end Courier.Bytes
