import Courier.Proofs.Buffer
import Courier.Proofs.Handshake.Basic
import Courier.Proofs.Handshake.Upgrade

/-!
Courier.Proofs.Handshake.Attempts — the server's handshake happens as a whole, or not at all.

The server looks for the end of a head, reads the request, sends its reply and consumes the head, in
this order, and each step but the last may end the attempt. `Upgrade.attempt` does so with the calls
of a segmented buffer, and with a sender that may fail in whatever way it likes;
`Upgrade.attemptOn` says what an attempt comes to on the bytes alone. Bytes that come in later
change nothing of an attempt that was not in vain (`Upgrade.attemptOn_append`), so a server that
tries again after every piece gets where a single attempt on all the bytes gets.
-/

namespace Courier.Upgrade

variable {σ : Type}

/-! ## 1. One attempt -/

/-- A sender that may fail, and may have changed when it does. -/
abbrev UnreliableSender (σ : Type) := Bytes → σ → Except Fault Unit × σ

/-- A bare sender, which is as it was when it fails. -/
def ofRaw (send : RawSender σ) : UnreliableSender σ := fun message s =>
  match send message s with
  | .error cause => (.error cause, s)
  | .ok s' => (.ok (), s')

theorem ofRaw_eq_error {raw : RawSender σ} {message : Bytes} {s s' : σ} {cause : Fault}
    (h : ofRaw raw message s = (.error cause, s')) : raw message s = .error cause ∧ s' = s := by
  unfold ofRaw at h
  split at h
  · next hraw =>
    cases h
    exact ⟨hraw, rfl⟩
  · cases h

theorem ofRaw_eq_ok {raw : RawSender σ} {message : Bytes} {s s' : σ}
    (h : ofRaw raw message s = (.ok (), s')) : raw message s = .ok s' := by
  unfold ofRaw at h
  split at h
  · cases h
  · next hraw =>
    cases h
    exact hraw

/-- Something that cannot be undone. -/
inductive Deed where
  | sent (message : Bytes)
  | consumed (size : Nat)
  deriving DecidableEq

/-- What an attempt came to, what it did and in which order, what it left of the input, and the
sender after it. -/
structure Attempt (ι σ : Type) where
  result : Except Fault Bool
  deeds : List Deed
  left : ι
  sender : σ

/-- An attempt, and the bytes that it left. -/
def Attempt.bytes (a : Attempt Buffer σ) : Attempt Bytes σ :=
  { a with left := a.left.toList }

/-- The server looks at what came in, and goes as far as it can. -/
def attempt (send : UnreliableSender σ) (b : Buffer) (s : σ) :
    Except Misuse (Attempt Buffer σ) :=
  (b.find headEnd b.size).bind fun
    | none => .ok ⟨.ok false, [], b, s⟩
    | some offset =>
        let size := offset + headEnd.length
        match readRequest (b.peek size) with
        | .error v => .ok ⟨.error (.violation v), [], b, s⟩
        | .ok key =>
            let reply := Bytes.ofString (response key)
            match send reply s with
            | (.error cause, s) => .ok ⟨.error cause, [], b, s⟩
            | (.ok (), s) =>
                (b.advance size).map fun b => ⟨.ok true, [.sent reply, .consumed size], b, s⟩

/-- What an attempt comes to on a byte string. -/
def attemptOn (send : UnreliableSender σ) (bs : Bytes) (s : σ) : Attempt Bytes σ :=
  match headSize? bs with
  | none => ⟨.ok false, [], bs, s⟩
  | some size =>
      match readRequest (bs.take size) with
      | .error v => ⟨.error (.violation v), [], bs, s⟩
      | .ok key =>
          let reply := Bytes.ofString (response key)
          match send reply s with
          | (.error cause, s) => ⟨.error cause, [], bs, s⟩
          | (.ok (), s) => ⟨.ok true, [.sent reply, .consumed size], bs.drop size, s⟩

variable {send : UnreliableSender σ} {b : Buffer} {bs : Bytes} {s : σ}

/-- The end of the head is found wherever the cuts between the segments are. -/
theorem find_headEnd (h : b.Sound) :
    b.find headEnd b.size = .ok (Bytes.find? headEnd b.toList) := by
  rw [Buffer.find_eq headEnd_ne_nil, h.size_eq, List.take_length]

/-- All that an attempt can come to. -/
inductive Attempted (send : UnreliableSender σ) (b : Buffer) (s : σ) : Attempt Buffer σ → Prop where
  | pending (head : headSize? b.toList = none) : Attempted send b s ⟨.ok false, [], b, s⟩
  | rejected {size : Nat} {v : Violation} (head : headSize? b.toList = some size)
      (read : readRequest (b.toList.take size) = .error v) :
      Attempted send b s ⟨.error (.violation v), [], b, s⟩
  | refused {size : Nat} {key : String} {cause : Fault} {s' : σ}
      (head : headSize? b.toList = some size)
      (read : readRequest (b.toList.take size) = .ok key)
      (sends : send (Bytes.ofString (response key)) s = (.error cause, s')) :
      Attempted send b s ⟨.error cause, [], b, s'⟩
  | completed {size : Nat} {key : String} {s' : σ} (head : headSize? b.toList = some size)
      (read : readRequest (b.toList.take size) = .ok key)
      (sends : send (Bytes.ofString (response key)) s = (.ok (), s')) :
      Attempted send b s
        ⟨.ok true, [.sent (Bytes.ofString (response key)), .consumed size], b.drop size, s'⟩

/-- An attempt never misuses the buffer. -/
theorem exists_attempt (send : UnreliableSender σ) (h : b.Sound) (s : σ) :
    ∃ a, attempt send b s = .ok a ∧ Attempted send b s a := by
  unfold attempt
  rw [find_headEnd h]
  cases hfind : Bytes.find? headEnd b.toList with
  | none => exact ⟨_, rfl, .pending (by rw [headSize?, hfind, Option.map_none])⟩
  | some offset =>
      have hhead : headSize? b.toList = some (offset + headEnd.length) := by
        rw [headSize?, hfind, Option.map_some]
      simp only [Except.bind, Buffer.peek_eq_take]
      cases hread : readRequest (b.toList.take (offset + headEnd.length)) with
      | error v => exact ⟨_, rfl, .rejected hhead hread⟩
      | ok key =>
          rcases hsends : send (Bytes.ofString (response key)) s with ⟨cause | _, s'⟩
          · refine ⟨_, ?_, .refused hhead hread hsends⟩
            simp only [hsends]
          · have hle : offset + headEnd.length ≤ b.size := by
              rw [h.size_eq]
              exact headSize?_le hhead
            refine ⟨_, ?_, .completed hhead hread hsends⟩
            simp only [hsends, Buffer.advance, if_neg (Nat.not_lt.mpr hle), Except.map]

/-- An attempt in vain leaves everything as it was. -/
theorem Attempted.of_pending {a : Attempt Buffer σ} (h : Attempted send b s a)
    (hpending : a.result = .ok false) : a.left = b ∧ a.sender = s := by
  cases h with
  | pending => exact ⟨rfl, rfl⟩
  | rejected | refused | completed => cases hpending

/-- An attempt comes to what it comes to on the bytes alone. -/
theorem Attempted.bytes_eq {a : Attempt Buffer σ} (h : Attempted send b s a) :
    a.bytes = attemptOn send b.toList s := by
  unfold attemptOn
  cases h with
  | pending head => rw [head]; rfl
  | rejected head read => simp only [head, read]; rfl
  | refused head read sends => simp only [head, read, sends]; rfl
  | completed head read sends =>
      simp only [head, read, sends, Attempt.bytes, Buffer.toList_drop]

/-- With a bare sender, an attempt is a look of the server's handshake. -/
theorem Attempted.eq_examine {raw : RawSender σ} {a : Attempt Buffer σ}
    (h : Attempted (ofRaw raw) b s a) :
    Handshake.upgradeServer.examine raw b s = (a.result, a.left, a.sender) := by
  have hserver : Handshake.upgradeServer.judge b.toList = judgeRequest b.toList := rfl
  unfold Handshake.examine
  rw [hserver]
  cases h with
  | pending head => simp only [judgeRequest, head]
  | rejected head read => simp only [judgeRequest, head, read]
  | refused head read sends =>
      obtain ⟨hraw, rfl⟩ := ofRaw_eq_error sends
      simp only [judgeRequest, head, read, Handshake.sendIfAny, hraw]
  | completed head read sends =>
      have hraw := ofRaw_eq_ok sends
      simp only [judgeRequest, head, read, Handshake.sendIfAny, hraw]

/-! ## 2. Trying again -/

/-- Bytes that come behind change nothing of an attempt that was not in vain. -/
theorem attemptOn_append (h : (attemptOn send bs s).result ≠ .ok false) (more : Bytes) :
    attemptOn send (bs ++ more) s =
      { attemptOn send bs s with left := (attemptOn send bs s).left ++ more } := by
  unfold attemptOn at h ⊢
  cases hhead : headSize? bs with
  | none =>
      rw [hhead] at h
      exact absurd rfl h
  | some size =>
      have hle := headSize?_le hhead
      simp only [headSize?_append hhead more, List.take_append_of_le_length hle,
        List.drop_append_of_le_length hle]
      cases readRequest (bs.take size) with
      | error v => rfl
      | ok key =>
          simp only
          rcases send (Bytes.ofString (response key)) s with ⟨cause | _, s'⟩ <;> rfl

/-- The server tries again after each piece, as long as it was in vain; what comes then is only
kept. -/
def retry (send : UnreliableSender σ) :
    List Bytes → Buffer → σ → Except Misuse (Attempt Buffer σ)
  | [], b, s => attempt send b s
  | piece :: pieces, b, s =>
      (attempt send b s).bind fun a =>
        match a.result with
        | .ok false => retry send pieces (a.left.pushBytes piece) a.sender
        | _ =>
            .ok { a with left := (piece :: pieces).foldl (fun b piece => b.pushBytes piece) a.left }

/-- An attempt that was not in vain is the last one. -/
theorem retry_of_ne {a : Attempt Buffer σ} (ha : attempt send b s = .ok a)
    (hne : a.result ≠ .ok false) (piece : Bytes) (pieces : List Bytes) :
    retry send (piece :: pieces) b s =
      .ok { a with
        left := (piece :: pieces).foldl (fun b piece => b.pushBytes piece) a.left } := by
  rw [retry, ha]
  simp only [Except.bind]

/-- Trying again and again comes to what one attempt on all the bytes comes to. -/
theorem exists_retry (send : UnreliableSender σ) (pieces : List Bytes) (h : b.Sound) (s : σ) :
    ∃ a, retry send pieces b s = .ok a ∧
      a.bytes = attemptOn send (b.toList ++ pieces.flatten) s := by
  induction pieces generalizing b with
  | nil =>
      obtain ⟨a, ha, hattempted⟩ := exists_attempt send h s
      exact ⟨a, ha, by rw [List.flatten_nil, List.append_nil, hattempted.bytes_eq]⟩
  | cons piece pieces ih =>
      obtain ⟨a, ha, hattempted⟩ := exists_attempt send h s
      by_cases hpending : a.result = .ok false
      · obtain ⟨hleft, hsender⟩ := hattempted.of_pending hpending
        obtain ⟨last, hlast, hbytes⟩ := ih (h.pushBytes piece)
        refine ⟨last, ?_, ?_⟩
        · rw [retry, ha]
          simp only [Except.bind, hpending, hleft, hsender]
          exact hlast
        · rw [hbytes, Buffer.toList_pushBytes, List.flatten_cons, List.append_assoc]
      · have hbytes := hattempted.bytes_eq
        have hne : (attemptOn send b.toList s).result ≠ .ok false := hbytes ▸ hpending
        refine ⟨_, retry_of_ne ha hpending piece pieces, ?_⟩
        rw [attemptOn_append hne, ← hbytes]
        simp only [Attempt.bytes, Buffer.toList_foldl_pushBytes]

/-- **The server's handshake happens as a whole, or not at all.** An attempt never misuses the
buffer, and with a bare sender it is a look of the handshake. One that does not succeed has done
nothing and leaves the buffer as it was; its sender was not asked, or has failed. One that succeeds
has sent a reply and then consumed the head. All this hangs on the bytes and the sender and not on
the segments, and trying again with each further piece comes to what one attempt on all the bytes
comes to. -/
theorem attempt_whole_or_nothing (send : UnreliableSender σ) (h : b.Sound) (s : σ) :
    ∃ a, attempt send b s = .ok a ∧
      (∀ raw, send = ofRaw raw →
        Handshake.upgradeServer.examine raw b s = (a.result, a.left, a.sender)) ∧
      (a.result ≠ .ok true → a.left = b ∧ a.deeds = [] ∧
        (a.sender = s ∨ ∃ reply cause, send reply s = (.error cause, a.sender) ∧
          a.result = .error cause)) ∧
      (a.result = .ok true → ∃ reply size, a.deeds = [.sent reply, .consumed size] ∧
        send reply s = (.ok (), a.sender) ∧ headSize? b.toList = some size ∧
        a.left.toList = b.toList.drop size) ∧
      (∀ b', b'.Sound → b'.toList = b.toList →
        ∃ a', attempt send b' s = .ok a' ∧ a'.bytes = a.bytes) ∧
      ∀ pieces whole, whole.Sound → whole.toList = b.toList ++ pieces.flatten →
        ∃ last single, retry send pieces b s = .ok last ∧ attempt send whole s = .ok single ∧
          last.bytes = single.bytes := by
  obtain ⟨a, ha, hattempted⟩ := exists_attempt send h s
  refine ⟨a, ha, ?_, ?_, ?_, fun b' hb' hsame => ?_, fun pieces whole hwhole hall => ?_⟩
  · rintro raw rfl
    exact hattempted.eq_examine
  · intro hne
    cases hattempted with
    | pending | rejected => exact ⟨rfl, rfl, .inl rfl⟩
    | refused head read sends => exact ⟨rfl, rfl, .inr ⟨_, _, sends, rfl⟩⟩
    | completed => exact absurd rfl hne
  · intro hdone
    cases hattempted with
    | completed head read sends => exact ⟨_, _, rfl, sends, head, Buffer.toList_drop _ b⟩
    | pending | rejected | refused => cases hdone
  · obtain ⟨a', ha', hattempted'⟩ := exists_attempt send hb' s
    exact ⟨a', ha', by rw [hattempted'.bytes_eq, hattempted.bytes_eq, hsame]⟩
  · obtain ⟨last, hlast, hbytes⟩ := exists_retry send pieces h s
    obtain ⟨single, hsingle, hattempted'⟩ := exists_attempt send hwhole s
    exact ⟨last, single, hlast, hsingle, by rw [hbytes, hattempted'.bytes_eq, hall]⟩

/-- A request without the last byte of its end. -/
def shortRequest : Bytes :=
  Bytes.ofString "GET / HTTP/1.1\r\nSec-WebSocket-Key: abc\r\n\r"

/-- That byte, and one that belongs to what follows. -/
def lastByte : Bytes := [10, 0x82]

/-- In one piece the request is answered at once. -/
theorem attempt_shortRequest : ∃ a, attempt (ofRaw Handshake.record)
      (Buffer.ofBytes (shortRequest ++ lastByte)) [] = .ok a ∧ a.result = .ok true ∧
    a.left.toList = [0x82] ∧ a.sender = [Bytes.ofString (response "abc")] := by
  obtain ⟨a, ha, hattempted⟩ := exists_attempt (ofRaw Handshake.record)
    (Buffer.sound_empty.pushBytes (shortRequest ++ lastByte)) []
  have hbytes := hattempted.bytes_eq
  have hsize : headSize? (shortRequest ++ lastByte) = some 42 := by decide +kernel
  have hread : readRequest ((shortRequest ++ lastByte).take 42) = .ok "abc" := by decide +kernel
  have hdrop : (shortRequest ++ lastByte).drop 42 = [0x82] := by decide +kernel
  simp only [Buffer.toList_pushBytes, Buffer.toList_empty, List.nil_append, attemptOn, hsize, hread,
    hdrop] at hbytes
  exact ⟨a, ha, congrArg Attempt.result hbytes, congrArg Attempt.left hbytes,
    congrArg Attempt.sender hbytes⟩

/-- In two pieces it is answered alike, once the second one is there. -/
theorem retry_shortRequest : (Buffer.ofBytes shortRequest).Sound ∧
    ∃ last, retry (ofRaw Handshake.record) [lastByte] (Buffer.ofBytes shortRequest) [] = .ok last ∧
      last.result = .ok true ∧ last.left.toList = [0x82] ∧
      last.sender = [Bytes.ofString (response "abc")] := by
  have hsound : (Buffer.ofBytes shortRequest).Sound := Buffer.sound_empty.pushBytes shortRequest
  refine ⟨hsound, ?_⟩
  obtain ⟨-, -, -, -, -, -, hretry⟩ :=
    attempt_whole_or_nothing (ofRaw Handshake.record) hsound []
  obtain ⟨last, single, hlast, hsingle, hsame⟩ := hretry [lastByte]
    (Buffer.ofBytes (shortRequest ++ lastByte)) (Buffer.sound_empty.pushBytes _) (by
      simp [Buffer.ofBytes])
  obtain ⟨a, ha, hresult, hleft, hsender⟩ := attempt_shortRequest
  cases hsingle.symm.trans ha
  exact ⟨last, hlast, (congrArg Attempt.result hsame).trans hresult,
    (congrArg Attempt.left hsame).trans hleft, (congrArg Attempt.sender hsame).trans hsender⟩

end Courier.Upgrade
