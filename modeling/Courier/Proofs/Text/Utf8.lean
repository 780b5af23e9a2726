import Mathlib.Data.List.DropRight
import Courier.Proofs.Bytes
import Courier.Text.Blank

/-!
Courier.Proofs.Text.Utf8 — ASCII in UTF-8.

A character below 128 is written as one byte, and no other one has such a byte in its form. So ASCII
can be taken from either end of a text, byte by byte, without harm to what is left
(`Bytes.toString?_padded`), and what the bytes of a text are like can be read off its characters
(`Bytes.all_ofString`).
-/

namespace Courier

namespace Bytes

/-! ## 1. Characters -/

theorem ofString_eq_flatMap (s : String) : ofString s = s.toList.flatMap String.utf8EncodeChar := by
  have hbytes : s.toByteArray = s.toList.utf8Encode := String.utf8Encode_toList.symm
  rw [ofString, String.toUTF8, hbytes, List.utf8Encode]
  simp

theorem ofString_ofList (cs : List Char) :
    ofString (String.ofList cs) = cs.flatMap String.utf8EncodeChar := by
  rw [ofString_eq_flatMap, String.toList_ofList]

theorem ofString_append (s t : String) : ofString (s ++ t) = ofString s ++ ofString t := by
  simp only [ofString_eq_flatMap, String.toList_append, List.flatMap_append]

theorem ofString_ne_nil {s : String} (h : s ≠ "") : ofString s ≠ [] := by
  intro hnil
  have hempty : ofString "" = [] := rfl
  have hs := toString?_ofString s
  rw [hnil, ← hempty, toString?_ofString] at hs
  exact h (Option.some.inj hs).symm

theorem utf8EncodeChar_of_lt {c : Char} (h : c.toNat < 128) :
    String.utf8EncodeChar c = [UInt8.ofNat c.toNat] := by
  have hle : c.val.toNat ≤ 127 := Nat.le_of_lt_succ h
  simp only [String.utf8EncodeChar, if_pos hle]
  rfl

theorem le_toNat_of_mem_utf8EncodeChar {c : Char} (h : 128 ≤ c.toNat) {b : UInt8}
    (hb : b ∈ String.utf8EncodeChar c) : 128 ≤ b.toNat := by
  have hlt : ¬ c.val.toNat ≤ 127 := Nat.not_le_of_lt h
  simp only [String.utf8EncodeChar, if_neg hlt] at hb
  split at hb
  · simp only [List.mem_cons, List.not_mem_nil, or_false] at hb
    rcases hb with rfl | rfl <;> simp only [UInt8.toNat_ofNat'] <;> omega
  · split at hb <;> simp only [List.mem_cons, List.not_mem_nil, or_false] at hb
    · rcases hb with rfl | rfl | rfl <;> simp only [UInt8.toNat_ofNat'] <;> omega
    · rcases hb with rfl | rfl | rfl | rfl <;> simp only [UInt8.toNat_ofNat'] <;> omega

theorem utf8EncodeChar_ne_nil (c : Char) : String.utf8EncodeChar c ≠ [] := by
  intro h
  have hlength := congrArg List.length h
  rw [String.length_utf8EncodeChar] at hlength
  exact absurd hlength (Nat.ne_of_gt c.utf8Size_pos)

/-- An ASCII byte is written for its own character alone. -/
theorem utf8EncodeChar_of_mem {c : Char} {b : UInt8} (hb : b ∈ String.utf8EncodeChar c)
    (hlt : b.toNat < 128) : String.utf8EncodeChar c = [b] := by
  by_cases h : c.toNat < 128
  · rw [utf8EncodeChar_of_lt h] at hb ⊢
    rw [List.mem_singleton.mp hb]
  · exact absurd (le_toNat_of_mem_utf8EncodeChar (Nat.le_of_not_lt h) hb) (Nat.not_le_of_lt hlt)

/-- The bytes of a text are of a kind if its ASCII characters are, and bytes beyond ASCII are. -/
theorem all_ofString {kind : UInt8 → Prop} (hbeyond : ∀ b : UInt8, 128 ≤ b.toNat → kind b)
    {s : String} (h : ∀ c ∈ s.toList, c.toNat < 128 → kind (UInt8.ofNat c.toNat)) :
    ∀ b ∈ ofString s, kind b := by
  intro b hb
  rw [ofString_eq_flatMap] at hb
  obtain ⟨c, hc, hb⟩ := List.mem_flatMap.mp hb
  by_cases hlt : c.toNat < 128
  · rw [utf8EncodeChar_of_lt hlt] at hb
    rw [List.mem_singleton.mp hb]
    exact h c hc hlt
  · exact hbeyond b (le_toNat_of_mem_utf8EncodeChar (Nat.le_of_not_lt hlt) hb)

/-! ## 2. ASCII -/

/-- The text that ASCII bytes are written for. -/
def asciiText (bs : Bytes) : String :=
  String.ofList (bs.map Char.ofUInt8)

/-- All bytes are ASCII. -/
def Ascii (bs : Bytes) : Prop :=
  ∀ b ∈ bs, b.toNat < 128

theorem ofString_asciiText {bs : Bytes} (h : Ascii bs) : ofString (asciiText bs) = bs := by
  rw [asciiText, ofString_ofList]
  induction bs with
  | nil => rfl
  | cons b bs ih =>
      have hb : b.toNat < 128 := h b List.mem_cons_self
      have hchar : (Char.ofUInt8 b).toNat = b.toNat := rfl
      rw [List.map_cons, List.flatMap_cons, utf8EncodeChar_of_lt (hchar ▸ hb), hchar,
        UInt8.ofNat_toNat, ih fun b' hb' => h b' (List.mem_cons_of_mem _ hb')]
      rfl

/-- A text whose form begins with an ASCII byte is its character and a text. -/
theorem exists_of_ofString_eq_cons {s : String} {b : UInt8} {bs : Bytes} (hb : b.toNat < 128)
    (h : ofString s = b :: bs) : ∃ t, ofString t = bs := by
  rw [ofString_eq_flatMap] at h
  cases hs : s.toList with
  | nil =>
      rw [hs] at h
      cases h
  | cons c cs =>
      rw [hs, List.flatMap_cons] at h
      obtain ⟨b', rest, hc⟩ := List.exists_cons_of_ne_nil (utf8EncodeChar_ne_nil c)
      have hmem : b ∈ String.utf8EncodeChar c := by
        rw [hc, List.cons_append] at h
        rw [hc, (List.cons.inj h).1]
        exact List.mem_cons_self
      rw [utf8EncodeChar_of_mem hmem hb] at h
      exact ⟨String.ofList cs, (ofString_ofList cs).trans (List.cons.inj h).2⟩

/-- A text whose form ends with an ASCII byte is a text and its character. -/
theorem exists_of_ofString_eq_concat {s : String} {b : UInt8} {bs : Bytes} (hb : b.toNat < 128)
    (h : ofString s = bs ++ [b]) : ∃ t, ofString t = bs := by
  rw [ofString_eq_flatMap] at h
  obtain hs | ⟨cs, c, hs⟩ := List.eq_nil_or_concat s.toList
  · rw [hs] at h
    simp at h
  · rw [hs, List.concat_eq_append, List.flatMap_append, List.flatMap_singleton] at h
    obtain hnil | ⟨init, b', hc⟩ := List.eq_nil_or_concat (String.utf8EncodeChar c)
    · exact absurd hnil (utf8EncodeChar_ne_nil c)
    have hmem : b ∈ String.utf8EncodeChar c := by
      rw [hc, List.concat_eq_append, ← List.append_assoc] at h
      have hlast : b' = b := List.singleton_inj.mp (List.append_inj' h rfl).2
      rw [hc, hlast]
      simp
    rw [utf8EncodeChar_of_mem hmem hb] at h
    exact ⟨String.ofList cs, (ofString_ofList cs).trans (List.append_cancel_right h)⟩

theorem exists_of_ofString_eq_append {front bs : Bytes} (hfront : Ascii front) {s : String}
    (h : ofString s = front ++ bs) : ∃ t, ofString t = bs := by
  induction front generalizing s with
  | nil => exact ⟨s, h⟩
  | cons b front ih =>
      obtain ⟨t, ht⟩ := exists_of_ofString_eq_cons (hfront b List.mem_cons_self) h
      exact ih (fun b' hb' => hfront b' (List.mem_cons_of_mem _ hb')) ht

theorem exists_of_append_eq_ofString {rest bs : Bytes} (hrest : Ascii rest) {s : String}
    (h : ofString s = bs ++ rest) : ∃ t, ofString t = bs := by
  induction rest using List.reverseRecOn generalizing s with
  | nil => exact ⟨s, by rw [h, List.append_nil]⟩
  | append_singleton rest b ih =>
      rw [← List.append_assoc] at h
      obtain ⟨t, ht⟩ := exists_of_ofString_eq_concat (hrest b (by simp)) h
      exact ih (fun b' hb' => hrest b' (by simp [hb'])) ht

/-- **ASCII around a byte string does not change whether it is text.** -/
theorem toString?_padded {front rest : Bytes} (hfront : Ascii front) (bs : Bytes)
    (hrest : Ascii rest) :
    toString? (front ++ bs ++ rest) =
      (toString? bs).map fun t => asciiText front ++ t ++ asciiText rest := by
  cases hbs : toString? bs with
  | some t =>
      have hwhole : ofString (asciiText front ++ t ++ asciiText rest) = front ++ bs ++ rest := by
        rw [ofString_append, ofString_append, ofString_asciiText hfront, ofString_asciiText hrest,
          ofString_of_toString? hbs]
      rw [← hwhole, toString?_ofString]
      rfl
  | none =>
      cases hwhole : toString? (front ++ bs ++ rest) with
      | none => rfl
      | some s =>
          obtain ⟨t, ht⟩ := exists_of_append_eq_ofString hrest (ofString_of_toString? hwhole)
          obtain ⟨u, rfl⟩ := exists_of_ofString_eq_append hfront ht
          rw [toString?_ofString] at hbs
          cases hbs

end Bytes

/-! ## 3. What stands between blanks -/

namespace Text

variable {α : Type} {blank : α → Bool} {front xs rest : List α}

/-- A row without what is blank at its ends. -/
def stripped (blank : α → Bool) (xs : List α) : List α :=
  (xs.dropWhile blank).rdropWhile blank

theorem dropWhile_padded (xs : List α) (hrest : ∀ x ∈ rest, blank x = true) :
    ∃ rest', (∀ x ∈ rest', blank x = true) ∧
      (xs ++ rest).dropWhile blank = xs.dropWhile blank ++ rest' := by
  rw [List.dropWhile_append]
  split
  · next hall =>
    rw [List.isEmpty_iff.mp hall]
    exact ⟨_, fun x hx => hrest x ((List.dropWhile_suffix blank).mem hx), rfl⟩
  · exact ⟨rest, hrest, rfl⟩

theorem rdropWhile_padded (xs : List α) (hrest : ∀ x ∈ rest, blank x = true) :
    (xs ++ rest).rdropWhile blank = xs.rdropWhile blank := by
  have hreverse : ∀ x ∈ rest.reverse, blank x = true := fun x hx => hrest x (List.mem_reverse.mp hx)
  rw [List.rdropWhile, List.reverse_append, List.dropWhile_append_of_pos hreverse]
  rfl

/-- What is blank around a row is stripped with what is blank at its ends. -/
theorem stripped_padded (hfront : ∀ x ∈ front, blank x = true) (xs : List α)
    (hrest : ∀ x ∈ rest, blank x = true) :
    stripped blank (front ++ xs ++ rest) = stripped blank xs := by
  obtain ⟨rest', hrest', hdrop⟩ := dropWhile_padded xs hrest
  rw [stripped, List.append_assoc, List.dropWhile_append_of_pos hfront, hdrop,
    rdropWhile_padded _ hrest', stripped]

/-- A row is what is left of it between blanks. -/
theorem exists_stripped (blank : α → Bool) (xs : List α) : ∃ front rest,
    xs = front ++ stripped blank xs ++ rest ∧ (∀ x ∈ front, blank x = true) ∧
      ∀ x ∈ rest, blank x = true := by
  refine ⟨xs.takeWhile blank, (xs.dropWhile blank).rtakeWhile blank, ?_,
    fun x hx => List.mem_takeWhile_imp hx, fun x hx => List.mem_rtakeWhile_imp hx⟩
  rw [stripped, List.append_assoc, List.rdropWhile_append_rtakeWhile,
    List.takeWhile_append_dropWhile]

/-- A row of which nothing is blank is left as it is. -/
theorem stripped_eq_self (h : ∀ x ∈ xs, blank x = false) : stripped blank xs = xs := by
  have hdrop : xs.dropWhile blank = xs := by
    refine List.dropWhile_eq_self_iff.mpr fun hl => ?_
    rw [h _ (List.getElem_mem hl)]
    exact Bool.false_ne_true
  rw [stripped, hdrop]
  refine List.rdropWhile_eq_self_iff.mpr fun hl => ?_
  rw [h _ (List.getLast_mem hl)]
  exact Bool.false_ne_true

theorem trim_eq (s : String) : trim s = String.ofList (stripped isBlank s.toList) := rfl

theorem trim_eq_self {s : String} (h : ∀ c ∈ s.toList, isBlank c = false) : trim s = s := by
  rw [trim_eq, stripped_eq_self h, String.ofList_toList]

end Text

end Courier
