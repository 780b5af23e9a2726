import Courier.Link.Wire

/-!
Courier.Proofs.Link.Stream — what is on its way through a wire.

`Wire.Carries` says that the peer takes what was sent, from the front; `Wire.Keeps` is what
everybody but the sender and the peer does to it. The other direction is simpler: what is received
is the front of what arrived.
-/

namespace Courier

namespace Wire

/-! ## 1. What departs -/

/-- What anybody but the sender and the peer does to what departs: it stays, or it is lost with
the stream. -/
structure Keeps (w w' : Wire) : Prop where
  departing : w'.departing <+: w.departing
  going : w'.peerGone = false → w'.departingEnded = false →
    w.peerGone = false ∧ w.departingEnded = false ∧ w'.departing = w.departing

/-- What departs is left alone. -/
theorem Keeps.of_same {w w' : Wire} (hdeparting : w'.departing = w.departing)
    (hgone : w'.peerGone = w.peerGone) (hended : w'.departingEnded = w.departingEnded) :
    w.Keeps w' where
  departing := by simp only [hdeparting, List.prefix_rfl]
  going h h' := ⟨hgone.symm.trans h, hended.symm.trans h', hdeparting⟩

theorem Keeps.refl (w : Wire) : w.Keeps w :=
  .of_same rfl rfl rfl

theorem Keeps.trans {w w₁ w₂ : Wire} (h : w.Keeps w₁) (h' : w₁.Keeps w₂) : w.Keeps w₂ where
  departing := h'.departing.trans h.departing
  going hgone hended := by
    obtain ⟨hgone₁, hended₁, heq₁⟩ := h'.going hgone hended
    obtain ⟨hgone₀, hended₀, heq₀⟩ := h.going hgone₁ hended₁
    exact ⟨hgone₀, hended₀, heq₁.trans heq₀⟩

/-- Nothing more is sent. -/
theorem Keeps.of_ended {w w' : Wire} (hdeparting : w'.departing <+: w.departing)
    (hended : w'.departingEnded = true) : w.Keeps w' where
  departing := hdeparting
  going _ h := by cases h.symm.trans hended

theorem keeps_endSending (w : Wire) : w.Keeps w.endSending :=
  .of_ended (List.prefix_refl _) rfl

theorem keeps_shut (w : Wire) : w.Keeps w.shut :=
  .of_ended (List.prefix_refl _) rfl

theorem keeps_shutBreaking (w : Wire) : w.Keeps w.shutBreaking :=
  .of_same rfl rfl rfl

theorem keeps_release (w : Wire) : w.Keeps w.release := by
  refine .of_ended ?_ rfl
  show (if w.breaking then [] else w.departing) <+: w.departing
  split
  · exact List.nil_prefix
  · exact List.prefix_refl _

theorem keeps_abandon (w : Wire) : w.Keeps w.abandon where
  departing := List.nil_prefix
  going h := by cases h

theorem keeps_receive {w w' : Wire} {most : Nat} {result : Except IoError Bytes}
    (h : w.receive? most = some (result, w')) : w.Keeps w' := by
  unfold receive? at h
  split at h
  · cases h
    exact .of_same rfl rfl rfl
  · split at h
    · split at h <;> cases h
      exact .refl _
    · split at h <;> cases h
      exact .of_same rfl rfl rfl

/-- Of the bytes `sent` the peer has `taken` a front. As long as the stream goes on, the rest of
them is on its way. -/
structure Carries (w : Wire) (sent taken : Bytes) : Prop where
  taken_prefix : taken ++ w.departing <+: sent
  going : w.peerGone = false → w.departingEnded = false → taken ++ w.departing = sent

namespace Carries

variable {w w' : Wire} {sent taken : Bytes}

theorem keeps (h : w.Carries sent taken) (hkeeps : w.Keeps w') : w'.Carries sent taken where
  taken_prefix := ((List.prefix_append_right_inj taken).mpr hkeeps.departing).trans h.taken_prefix
  going hgone hended := by
    obtain ⟨hgone₀, hended₀, heq⟩ := hkeeps.going hgone hended
    rw [heq]
    exact h.going hgone₀ hended₀

theorem depart (h : w.Carries sent taken) (most : Nat) :
    (w.depart most).2.Carries sent (taken ++ (w.depart most).1) := by
  have heq : taken ++ (w.depart most).1 ++ (w.depart most).2.departing = taken ++ w.departing := by
    rw [List.append_assoc]
    exact congrArg (taken ++ ·) (List.take_append_drop most w.departing)
  refine ⟨?_, fun hgone hended => ?_⟩
  · rw [heq]
    exact h.taken_prefix
  · rw [heq]
    exact h.going hgone hended

/-- What is sent is the front of what was to be sent, and comes behind all that departs. -/
theorem send {most n : Nat} {bs : Bytes} (h : w.Carries sent taken)
    (hsend : w.send? most bs = some (.ok n, w')) :
    n ≤ bs.length ∧ w'.Carries (sent ++ bs.take n) taken := by
  unfold send? at hsend
  split at hsend
  · cases hsend
  · split at hsend
    · cases hsend
    · split at hsend
      · cases hsend
      · next hgoing =>
        split at hsend
        · cases hsend
          refine ⟨Nat.zero_le _, ?_⟩
          rw [List.take_zero, List.append_nil]
          exact h.keeps (.of_same rfl rfl rfl)
        · split at hsend
          · cases hsend
          · cases hsend
            simp only [Bool.or_eq_true, not_or, Bool.not_eq_true] at hgoing
            have heq := h.going hgoing.1 hgoing.2
            have htake : bs.take (bs.take (min most w.room)).length =
                bs.take (min most w.room) := by
              rw [List.length_take]
              exact (List.take_eq_take_min (l := bs)).symm
            refine ⟨List.length_take_le' _ _, ?_⟩
            have hsent : taken ++ (w.departing ++ bs.take (min most w.room)) =
                sent ++ bs.take (min most w.room) := by
              rw [← List.append_assoc, heq]
            rw [htake]
            exact ⟨by simp only [hsent, List.prefix_rfl], fun _ _ => hsent⟩

theorem send_error {most : Nat} {bs : Bytes} {fault : IoError} (h : w.Carries sent taken)
    (hsend : w.send? most bs = some (.error fault, w')) : w'.Carries sent taken := by
  unfold send? at hsend
  split at hsend
  · cases hsend
  · split at hsend
    · cases hsend
      exact h.keeps (.of_same rfl rfl rfl)
    · split at hsend
      · cases hsend
        exact h
      · split at hsend
        · cases hsend
        · split at hsend <;> cases hsend

end Carries

/-! ## 2. What arrives -/

section Arriving

variable {w w' : Wire} {bs : Bytes} {most : Nat}

theorem arriving_send {result : Except IoError Nat}
    (h : w.send? most bs = some (result, w')) : w'.arriving = w.arriving := by
  unfold Wire.send? at h
  split at h
  · cases h
  · split at h
    · cases h
      rfl
    · split at h
      · cases h
        rfl
      · split at h
        · cases h
          rfl
        · split at h <;> cases h
          rfl

/-- What the wire delivers is the front of what arrived, and fits where there is room. -/
theorem arriving_receive (h : w.receive? most = some (.ok bs, w')) :
    w.arriving = bs ++ w'.arriving ∧ bs.length ≤ most := by
  unfold Wire.receive? at h
  split at h
  · cases h
  · split at h
    · split at h <;> cases h
      exact ⟨rfl, Nat.zero_le _⟩
    · split at h <;> cases h
      exact ⟨(List.take_append_drop _ _).symm, List.length_take_le _ _⟩

theorem arriving_receive_error {fault : IoError}
    (h : w.receive? most = some (.error fault, w')) : w'.arriving = w.arriving := by
  unfold Wire.receive? at h
  split at h
  · cases h
    rfl
  · split at h
    · split at h <;> cases h
    · split at h <;> cases h

end Arriving

end Wire

end Courier
