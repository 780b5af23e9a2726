import Courier.Encoding.Base64
import Courier.Text.Blank
import Mathlib.Data.Fintype.Basic

/-!
Courier.Proofs.Encoding.Base64 — the text of bytes.

Bytes in the usual alphabet are visible characters of ASCII, so their text has no white space and no
control character, and it is not empty unless there are no bytes.
-/

namespace Courier.Base64

/-- A visible character of ASCII. -/
def Visible (c : Char) : Prop :=
  33 ≤ c.toNat ∧ c.toNat ≤ 126

theorem visible_digit (n : Nat) : Visible (digit standard n) := by
  have hsmall : ∀ n : Fin 63, 33 ≤ (digit standard n).toNat ∧ (digit standard n).toNat ≤ 126 := by
    decide +kernel
  by_cases hn : n < 63
  · exact hsmall ⟨n, hn⟩
  · have hlast : digit standard n = '/' := by
      rw [digit, if_neg (by omega), if_neg (by omega), if_neg (by omega), if_neg (by omega)]
      rfl
    rw [hlast]
    exact ⟨by decide, by decide⟩

/-- The text of bytes consists of visible characters. -/
theorem visible_of_mem_chars {bs : Bytes} {c : Char} (h : c ∈ chars standard bs) : Visible c := by
  have hfiller : Visible '=' := ⟨by decide, by decide⟩
  fun_induction chars standard bs with
  | case1 a b c' rest n ih =>
      simp only [List.mem_cons] at h
      rcases h with rfl | rfl | rfl | rfl | h
      · exact visible_digit _
      · exact visible_digit _
      · exact visible_digit _
      · exact visible_digit _
      · exact ih h
  | case2 a b n =>
      simp only [List.mem_append, List.mem_cons, List.not_mem_nil, or_false] at h
      rcases h with (rfl | rfl | rfl) | h
      · exact visible_digit _
      · exact visible_digit _
      · exact visible_digit _
      · rw [List.mem_singleton.mp h]
        exact hfiller
  | case3 a n =>
      simp only [List.mem_append, List.mem_cons, List.not_mem_nil, or_false] at h
      rcases h with (rfl | rfl) | h
      · exact visible_digit _
      · exact visible_digit _
      · rw [List.eq_of_mem_replicate (n := 2) h]
        exact hfiller
  | case4 => cases h

theorem visible_of_mem_encode {bs : Bytes} {c : Char} (h : c ∈ (encode standard bs).toList) :
    Visible c := by
  rw [encode, String.toList_ofList] at h
  exact visible_of_mem_chars h

theorem encode_ne_empty {bs : Bytes} (h : bs ≠ []) : encode standard bs ≠ "" := by
  intro heq
  have hchars := congrArg String.toList heq
  rw [encode, String.toList_ofList, String.toList_empty] at hchars
  rcases bs with _ | ⟨a, _ | ⟨b, _ | ⟨c, rest⟩⟩⟩
  · exact h rfl
  · exact List.cons_ne_nil _ _ hchars
  · exact List.cons_ne_nil _ _ hchars
  · exact List.cons_ne_nil _ _ hchars

theorem Visible.isBlank_eq {c : Char} (h : Visible c) : Text.isBlank c = false := by
  obtain ⟨hle, hge⟩ := h
  simp only [Text.isBlank, Bool.or_eq_false_iff, Bool.and_eq_false_iff, decide_eq_false_iff_not,
    beq_eq_false_iff_ne]
  omega

end Courier.Base64
