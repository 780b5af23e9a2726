import Courier.Handshake.Upgrade
import Courier.Proofs.Bytes

/-!
Courier.Proofs.Handshake.Upgrade — where a head ends, and what both sides make of it.

A head ends with its first empty line. So it ends at the same place whatever comes behind it
(`Upgrade.headSize?_append`), and a front of it that is shorter has no end
(`Upgrade.headSize?_front`). Both sides of the upgrade wait for the end of the head and look no
further (`Handshake.Upgrades.judge_eq_pending_iff`).
-/

namespace Courier

/-! ## 1. Heads -/

namespace Upgrade

variable {bs whole : Bytes} {n : Nat}

theorem headEnd_ne_nil : headEnd ≠ [] := by decide +kernel

theorem headSize?_eq_some (h : headSize? bs = some n) :
    ∃ offset, Bytes.findFrom headEnd 0 bs = some offset ∧ n = offset + headEnd.length := by
  obtain ⟨offset, hoffset, hn⟩ := Option.map_eq_some_iff.mp h
  exact ⟨offset, hoffset, hn.symm⟩

theorem headSize?_le (h : headSize? bs = some n) : n ≤ bs.length := by
  obtain ⟨offset, hoffset, rfl⟩ := headSize?_eq_some h
  have hbounds := Bytes.findFrom_bounds hoffset
  omega

/-- **A head ends where it ends**, whatever comes behind it. -/
theorem headSize?_append (h : headSize? bs = some n) (more : Bytes) :
    headSize? (bs ++ more) = some n := by
  obtain ⟨offset, hoffset, rfl⟩ := headSize?_eq_some h
  have hmore := Bytes.findFrom_append headEnd_ne_nil more hoffset
  exact congrArg (Option.map (· + headEnd.length)) hmore

/-- A head ends with its end. -/
theorem headEnd_suffix (h : headSize? bs = some n) : headEnd <:+ bs.take n := by
  obtain ⟨offset, hoffset, rfl⟩ := headSize?_eq_some h
  obtain ⟨front, rest, rfl, rfl⟩ := Bytes.exists_of_findFrom hoffset
  refine ⟨front, ?_⟩
  rw [Nat.zero_add, ← List.length_append, List.take_left]

/-- The first head ends no later than where an end of one stands. -/
theorem headSize?_le_of_suffix {front rest : Bytes} (h : headSize? (front ++ rest) = some n)
    (hend : headEnd <:+ front) : n ≤ front.length := by
  obtain ⟨start, rfl⟩ := hend
  obtain ⟨offset, hoffset⟩ := Bytes.exists_findFrom_append headEnd start 0
  have hsize : headSize? (start ++ headEnd) = some (offset + headEnd.length) :=
    congrArg (Option.map (· + headEnd.length)) hoffset
  cases (headSize?_append hsize rest).symm.trans h
  exact headSize?_le hsize

/-- What is there of a stream has the end of the head once it has all of the head. -/
theorem headSize?_front (h : headSize? whole = some n) (hfront : bs <+: whole) :
    headSize? bs = if n ≤ bs.length then some n else none := by
  obtain ⟨more, rfl⟩ := hfront
  split
  · next hle =>
    obtain ⟨offset, hoffset, rfl⟩ := headSize?_eq_some h
    have hall := Bytes.findFrom_front headEnd_ne_nil hoffset (by omega)
    exact congrArg (Option.map (· + headEnd.length)) hall
  · next hlt =>
    cases hhead : headSize? bs with
    | none => rfl
    | some k =>
        cases (headSize?_append hhead more).symm.trans h
        exact absurd (headSize?_le hhead) hlt

/-- How long the head is, as far as it is there. -/
def headLength (bs : Bytes) : Nat :=
  (headSize? bs).getD bs.length

/-- What has no end of a head is no longer than the head. -/
theorem length_le_headLength (h : headSize? bs = none) (hfront : bs <+: whole) :
    bs.length ≤ headLength whole := by
  unfold headLength
  cases hhead : headSize? whole with
  | none => exact hfront.length_le
  | some n =>
      rw [headSize?_front hhead hfront] at h
      split at h
      · cases h
      · next hlt => exact Nat.le_of_not_le hlt

/-- What is wrong with a request is not its length. -/
theorem readRequest_ne_longHandshake {v : Violation} (h : readRequest bs = .error v)
    (limit : Nat) : v ≠ .longHandshake limit := by
  unfold readRequest at h
  split at h
  · cases h
    exact Violation.noConfusion
  · cases h
    exact Violation.noConfusion
  · split at h
    · cases h
      exact Violation.noConfusion
    · split at h
      · cases h
        exact Violation.noConfusion
      · cases h

/-- What the server has accepted: its request and its size. -/
theorem judgeRequest_eq_accepted {reply : Option Bytes} {size : Nat}
    (h : judgeRequest bs = .accepted reply size) : ∃ key, headSize? bs = some size ∧
      readRequest (bs.take size) = .ok key ∧ reply = some (Bytes.ofString (response key)) := by
  unfold judgeRequest at h
  split at h
  · cases h
  · next hsize =>
    split at h
    · cases h
    · next hread =>
      cases h
      exact ⟨_, hsize, hread, rfl⟩

/-- What the client has accepted: a head. -/
theorem judgeResponse_eq_accepted {reply : Option Bytes} {size : Nat}
    (h : judgeResponse bs = .accepted reply size) : headSize? bs = some size ∧ reply = none := by
  unfold judgeResponse at h
  split at h
  · cases h
  · next hsize =>
    cases h
    exact ⟨hsize, rfl⟩

end Upgrade

/-! ## 2. Both sides -/

/-- Either side of the upgrade. -/
inductive Handshake.Upgrades : Handshake → Prop where
  | server : Upgrades .upgradeServer
  | client (host path key : String) : Upgrades (.upgradeClient host path key)

namespace Handshake.Upgrades

open Upgrade

variable {h : Handshake} {bs : Bytes}

/-- Either side waits for the end of the head. -/
theorem judge_eq_pending_iff (hside : h.Upgrades) (bs : Bytes) :
    h.judge bs = .pending ↔ headSize? bs = none := by
  cases hside with
  | server =>
      show judgeRequest bs = .pending ↔ _
      unfold judgeRequest
      cases headSize? bs with
      | none => exact ⟨fun _ => rfl, fun _ => rfl⟩
      | some size =>
          dsimp only
          cases readRequest (bs.take size) <;> simp
  | client host path key =>
      show judgeResponse bs = .pending ↔ _
      unfold judgeResponse
      cases headSize? bs <;> simp

/-- Neither side finds a head too long by itself. -/
theorem ne_longHandshake (hside : h.Upgrades) {cause : Fault}
    (hjudge : h.judge bs = .rejected cause) (limit : Nat) :
    cause ≠ .violation (.longHandshake limit) := by
  cases hside with
  | server =>
      have hrequest : judgeRequest bs = .rejected cause := hjudge
      unfold judgeRequest at hrequest
      split at hrequest
      · cases hrequest
      · split at hrequest
        · next hread =>
          cases hrequest
          intro heq
          injection heq with heq
          exact readRequest_ne_longHandshake hread limit heq
        · cases hrequest
  | client host path key =>
      have hresponse : judgeResponse bs = .rejected cause := hjudge
      unfold judgeResponse at hresponse
      split at hresponse <;> cases hresponse

/-- Neither side is complete before anything came in, and each may begin with a greeting. -/
theorem opening_eq (hside : h.Upgrades) : ∃ greeting, h.opening = .proceed greeting false := by
  cases hside with
  | server => exact ⟨none, rfl⟩
  | client host path key => exact ⟨_, rfl⟩

end Handshake.Upgrades

/-! ## 3. Blocks -/

/-- A block with which an upgrade is complete, what is sent before it comes, and what is sent in
reaction to it: the server awaits a request with a key, and the client any block after its own
request. The block ends with its first empty line. -/
inductive Handshake.Completes : Handshake → (greeting reply : Option Bytes) → Bytes → Prop where
  | server {block : Bytes} {key : String} (ends : Upgrade.headSize? block = some block.length)
      (read : Upgrade.readRequest block = .ok key) :
      Completes .upgradeServer none (some (Bytes.ofString (Upgrade.response key))) block
  | client (host path key : String) {block : Bytes}
      (ends : Upgrade.headSize? block = some block.length) :
      Completes (.upgradeClient host path key)
        (some (Bytes.ofString (Upgrade.request host path key))) none block

namespace Handshake.Completes

open Upgrade

variable {h : Handshake} {greeting reply : Option Bytes} {block rest bs : Bytes}

theorem ends (hblock : h.Completes greeting reply block) :
    headSize? block = some block.length := by
  cases hblock with
  | server ends read => exact ends
  | client host path key ends => exact ends

theorem block_ne_nil (hblock : h.Completes greeting reply block) : block ≠ [] := by
  rintro rfl
  obtain ⟨offset, -, hlength⟩ := headSize?_eq_some hblock.ends
  have hpos : 0 < headEnd.length := List.length_pos_iff.mpr headEnd_ne_nil
  rw [List.length_nil] at hlength
  omega

theorem opening_eq (hblock : h.Completes greeting reply block) :
    h.opening = .proceed greeting false := by
  cases hblock <;> rfl

/-- **The upgrade is complete as soon as all of the block is there**, whatever comes behind it. -/
theorem judge_eq (hblock : h.Completes greeting reply block) (hfront : bs <+: block ++ rest) :
    h.judge bs = if block.length ≤ bs.length then .accepted reply block.length else .pending := by
  have hsize := headSize?_front (headSize?_append hblock.ends rest) hfront
  split
  · next hle =>
    rw [if_pos hle] at hsize
    have htake := Bytes.take_of_front hfront hle
    cases hblock with
    | server ends read =>
        show judgeRequest bs = _
        simp only [judgeRequest, hsize, htake, read]
    | client host path key ends =>
        show judgeResponse bs = _
        simp only [judgeResponse, hsize]
  · next hlt =>
    rw [if_neg hlt] at hsize
    cases hblock with
    | server ends read =>
        show judgeRequest bs = _
        simp only [judgeRequest, hsize]
    | client host path key ends =>
        show judgeResponse bs = _
        simp only [judgeResponse, hsize]

end Handshake.Completes

end Courier
