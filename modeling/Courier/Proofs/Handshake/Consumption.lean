import Courier.Proofs.Buffer
import Courier.Proofs.Handshake.Basic
import Courier.Proofs.Handshake.Ending
import Courier.Proofs.Handshake.Request

/-!
Courier.Proofs.Handshake.Consumption — how much of its input the server's handshake consumes.

The server looks for the end of a head in one way and reads the head in another. It consumes
everything up to the first empty line that has a carriage return in front of each of its two line
feeds, but the request that it reads may end with an empty line that has not. So the request is
always consumed, and what comes behind it is left alone just if its last two lines end with
carriage returns (`Upgrade.consumed_of_examine`). Otherwise bytes that were sent after the request
are lost (`Upgrade.swallowed_of_bareLines`).
-/

namespace Courier

open Http

namespace Upgrade

variable {σ : Type} {send : RawSender σ} {b b' : Buffer} {s s' : σ}

/-- **When its handshake is complete, the server has consumed the request that it has read**, sent
the reply to its key, and consumed what is behind the request up to the first strict end of a head.
That is nothing just if the request ends strictly itself. -/
theorem consumed_of_examine
    (h : Handshake.upgradeServer.examine send b s = (.ok true, b', s')) :
    ∃ (head : Head) (swallowed : Bytes) (key : String),
      b.toList = head.bytes ++ swallowed ++ b'.toList ∧
      Request.read maxFields b.toList = .ok head.request ∧
      head.Carries key ∧ send (Bytes.ofString (response key)) s = .ok s' ∧
      headSize? b.toList = some (head.bytes ++ swallowed).length ∧
      (swallowed = [] ↔ head.EndsStrictly) := by
  cases Handshake.examines_of_eq h with
  | @completed reply size s' hjudge hsends =>
  obtain ⟨key, hsize, hread, rfl⟩ := judgeRequest_eq_accepted hjudge
  obtain ⟨head, swallowed, htake, hasks, hcarries⟩ := exists_of_readRequest hread
  have hlength : (b.toList.take size).length = size :=
    List.length_take_of_le (headSize?_le hsize)
  have hbytes : b.toList = head.bytes ++ swallowed ++ (b.drop size).toList := by
    rw [← htake, Buffer.toList_drop, List.take_append_drop]
  have hstrict : swallowed = [] ↔ headEnd <:+ head.bytes := by
    constructor
    · rintro rfl
      have hsuffix := headEnd_suffix hsize
      rwa [htake, List.append_nil] at hsuffix
    · intro hsuffix
      rw [hbytes, List.append_assoc] at hsize
      have hle := headSize?_le_of_suffix hsize hsuffix
      rw [← hlength, htake, List.length_append] at hle
      exact List.eq_nil_of_length_eq_zero (by omega)
  refine ⟨head, swallowed, key, hbytes, ?_, hcarries, hsends, ?_, ?_⟩
  · rw [hbytes, List.append_assoc]
    exact head.read_bytes hasks.room _
  · rw [hsize, ← hlength, htake]
  · obtain ⟨before, line, behind, -, hlines, -⟩ := hcarries
    have hne : head.lines ≠ [] := by simp [hlines]
    rw [hstrict, Head.headEnd_suffix_iff hne]

/-- A request with bare line feeds, a frame behind it, and the end of another head behind that. -/
def bareLines : Bytes :=
  Bytes.ofString "GET / HTTP/1.1\nSec-WebSocket-Key: abc\n\n" ++ [0x82, 0x04] ++ headEnd

/-- The server is done with them, after one reply. -/
theorem examine_bareLines : ∃ b' : Buffer, b'.toList = [] ∧
    Handshake.upgradeServer.examine Handshake.record (Buffer.ofBytes bareLines) [] =
      (.ok true, b', [Bytes.ofString (response "abc")]) := by
  have hsize : headSize? bareLines = some 45 := by decide +kernel
  have hread : readRequest (bareLines.take 45) = .ok "abc" := by decide +kernel
  have hbytes : (Buffer.ofBytes bareLines).toList = bareLines := Buffer.toList_pushBytes _ _
  have hjudge : judgeRequest bareLines =
      .accepted (some (Bytes.ofString (response "abc"))) 45 := by
    simp only [judgeRequest, hsize, hread]
  have hserver : Handshake.upgradeServer.judge = judgeRequest := rfl
  refine ⟨(Buffer.ofBytes bareLines).drop 45, ?_, ?_⟩
  · rw [Buffer.toList_drop, hbytes]
    decide +kernel
  · rw [Handshake.examine, hserver, hbytes, hjudge]
    rfl

/-- What is consumed of them. -/
theorem consumed_of_bareLines : ∃ b' : Buffer,
    Handshake.upgradeServer.examine Handshake.record (Buffer.ofBytes bareLines) [] =
      (.ok true, b', [Bytes.ofString (response "abc")]) ∧
    ∃ (head : Head) (swallowed : Bytes) (key : String),
      (Buffer.ofBytes bareLines).toList = head.bytes ++ swallowed ++ b'.toList ∧
      Request.read maxFields (Buffer.ofBytes bareLines).toList = .ok head.request ∧
      head.Carries key ∧
      Handshake.record (Bytes.ofString (response key)) [] =
        .ok [Bytes.ofString (response "abc")] ∧
      headSize? (Buffer.ofBytes bareLines).toList = some (head.bytes ++ swallowed).length ∧
      (swallowed = [] ↔ head.EndsStrictly) := by
  obtain ⟨b', -, hexamine⟩ := examine_bareLines
  exact ⟨b', hexamine, consumed_of_examine hexamine⟩

/-- **The handshake swallows what was sent behind the request**: all six bytes of it here. -/
theorem swallowed_of_bareLines : ∃ (b' : Buffer) (r : Request),
    Handshake.upgradeServer.examine Handshake.record (Buffer.ofBytes bareLines) [] =
      (.ok true, b', [Bytes.ofString (response "abc")]) ∧
    Request.read maxFields bareLines = .ok r ∧
    bareLines.drop r.size = [0x82, 0x04, 13, 10, 13, 10] ∧ b'.toList = [] := by
  obtain ⟨b', hempty, hexamine⟩ := examine_bareLines
  have hread : (Request.read maxFields bareLines).map (·.size) = .ok 39 := by decide +kernel
  obtain ⟨r, hr, hsize⟩ := exists_of_map_eq_ok hread
  refine ⟨b', r, hexamine, hr, ?_, hempty⟩
  rw [hsize]
  decide +kernel

end Upgrade

end Courier
