import Courier.Proofs.Buffer
import Courier.Proofs.Encoding.Base64
import Courier.Proofs.Handshake.Basic
import Courier.Proofs.Handshake.Ending
import Courier.Proofs.Handshake.Request
import Courier.Token

/-!
Courier.Proofs.Handshake.Exchange — client and server of the upgrade complete with each other.

What a client sends is a head of the grammar that carries its key, and what a server replies is a
head too; both have their first empty line at their end. So each side waits, however the bytes are
cut, until it has all of the other's head, and leaves what comes behind it
(`Upgrade.exchange_completes`).
-/

namespace Courier

open Http

/-! ## 1. What both sides write -/

namespace Http

/-- A text that may be the value of a field. -/
structure Value where
  text : String
  valid : ∀ b ∈ Bytes.ofString text, isValue b = true

/-- The line with a field of a value. -/
def Value.line (value : Value) (name : Word isToken) : FieldLine where
  name
  padding := [32]
  pads b hb := by
    rw [List.mem_singleton.mp hb]
    rfl
  value := Bytes.ofString value.text
  valid := value.valid
  ending := .crlf

end Http

namespace Upgrade

/-- The fields that a client sends before the one with its key. -/
def leadingLines (host : Value) : List FieldLine :=
  [host.line ⟨"Host", by decide +kernel, by decide +kernel⟩,
    Value.line ⟨"Upgrade", by decide +kernel⟩ ⟨"Connection", by decide +kernel, by decide +kernel⟩,
    Value.line ⟨"websocket", by decide +kernel⟩ ⟨"Upgrade", by decide +kernel, by decide +kernel⟩,
    Value.line ⟨"13", by decide +kernel⟩
      ⟨"Sec-WebSocket-Version", by decide +kernel, by decide +kernel⟩]

def keyLine (key : Value) : FieldLine :=
  key.line ⟨keyField, by decide +kernel, by decide +kernel⟩

/-- The head that a client sends. -/
def requestHead (target : Word isTarget) (host key : Value) : Head where
  blank := []
  method := ⟨"GET", by decide +kernel, by decide +kernel⟩
  target
  minor := 1
  ending := .crlf
  lines := leadingLines host ++ [keyLine key]
  last := .crlf

variable (target : Word isTarget) (host key : Value)

theorem strict_requestHead : (requestHead target host key).Strict where
  blank := rfl
  ending := rfl
  lines line hline := by
    simp only [requestHead, leadingLines, List.mem_append, List.mem_cons, List.not_mem_nil,
      or_false] at hline
    rcases hline with (rfl | rfl | rfl | rfl) | rfl <;> rfl
  last := rfl

theorem bytes_requestHead : (requestHead target host key).bytes =
    Bytes.ofString (request host.text target.text key.text) := by
  have hget : Bytes.ofString "GET " = Bytes.ofString "GET" ++ [32] := by decide +kernel
  have hhost : Bytes.ofString " HTTP/1.1\r\nHost: " =
      32 :: (versionBytes 1 ++ [13, 10] ++ Bytes.ofString "Host" ++ [58, 32]) := by
    decide +kernel
  have hfields : Bytes.ofString
      "\r\nConnection: Upgrade\r\nUpgrade: websocket\r\nSec-WebSocket-Version: 13\r\n" =
      [13, 10] ++ Bytes.ofString "Connection" ++ [58, 32] ++ Bytes.ofString "Upgrade" ++ [13, 10] ++
        Bytes.ofString "Upgrade" ++ [58, 32] ++ Bytes.ofString "websocket" ++ [13, 10] ++
        Bytes.ofString "Sec-WebSocket-Version" ++ [58, 32] ++ Bytes.ofString "13" ++ [13, 10] := by
    decide +kernel
  have hkey : Bytes.ofString "Sec-WebSocket-Key: " = Bytes.ofString keyField ++ [58, 32] := by
    decide +kernel
  have hend : Bytes.ofString "\r\n\r\n" = [13, 10, 13, 10] := by decide +kernel
  simp only [Head.bytes, Head.front, Head.fieldBytes, requestHead, leadingLines, keyLine,
    Value.line, FieldLine.bytes, FieldLine.body, LineEnd.bytes, request, Bytes.ofString_append,
    hget, hhost, hfields, hkey, hend, List.flatMap_nil, List.flatMap_cons, List.append_assoc,
    List.cons_append, List.nil_append]

theorem asks_requestHead : (requestHead target host key).AsksForUpgrade where
  method := rfl
  minor := rfl
  room := by simp [requestHead, leadingLines, maxFields]

/-- The request carries the key that it was made with. -/
theorem carries_requestHead (hne : key.text ≠ "") (htrim : Text.trim key.text = key.text) :
    (requestHead target host key).Carries key.text := by
  refine ⟨leadingLines host, keyLine key, [], key.text, rfl, fun other hother => ?_, rfl, rfl,
    htrim.symm, hne⟩
  have hnames : ∀ name ∈ ["Host", "Connection", "Upgrade", "Sec-WebSocket-Version"],
      name.toList.map Char.toLower ≠ keyField.toList.map Char.toLower := by
    decide +kernel
  refine hnames _ ?_
  simp only [leadingLines, List.mem_cons, List.not_mem_nil, or_false] at hother
  rcases hother with rfl | rfl | rfl | rfl <;> simp [Value.line]

theorem response_eq_strictLines (key : String) : Bytes.ofString (response key) =
    strictLines
      [Bytes.ofString "HTTP/1.1 101 Switching Protocols", Bytes.ofString "Connection: Upgrade",
        Bytes.ofString "Upgrade: websocket",
        Bytes.ofString "Sec-WebSocket-Accept: " ++ Bytes.ofString (acceptKey key)] := by
  have hstart : Bytes.ofString
      "HTTP/1.1 101 Switching Protocols\r\nConnection: Upgrade\r\nUpgrade: websocket\r\n" =
      Bytes.ofString "HTTP/1.1 101 Switching Protocols" ++ [13, 10] ++
        Bytes.ofString "Connection: Upgrade" ++ [13, 10] ++ Bytes.ofString "Upgrade: websocket" ++
        [13, 10] := by
    decide +kernel
  have hend : Bytes.ofString "\r\n\r\n" = [13, 10, 13, 10] := by decide +kernel
  unfold response
  simp only [strictLines, Bytes.ofString_append, hstart, hend, List.flatMap_nil,
    List.flatMap_cons, List.append_assoc, List.cons_append, List.nil_append]

end Upgrade

/-! ## 2. Characters -/

/-- A character of which a value may consist: a tab, or one that is no control character of
ASCII. -/
def IsValueChar (c : Char) : Prop :=
  c = '\t' ∨ (32 ≤ c.toNat ∧ c.toNat ≠ 127)

instance (c : Char) : Decidable (IsValueChar c) :=
  inferInstanceAs (Decidable (_ ∨ _))

/-- A character of which a target may consist: a value's character that is no tab and no space. -/
def IsTargetChar (c : Char) : Prop :=
  32 < c.toNat ∧ c.toNat ≠ 127

instance (c : Char) : Decidable (IsTargetChar c) :=
  inferInstanceAs (Decidable (_ ∧ _))

theorem toNat_ofNat_of_ascii {n : Nat} (h : n < 128) : (UInt8.ofNat n).toNat = n :=
  UInt8.toNat_ofNat_of_lt' (Nat.lt_trans h (by decide))

theorem isValue_of_chars {s : String} (h : ∀ c ∈ s.toList, IsValueChar c) :
    ∀ b ∈ Bytes.ofString s, isValue b = true := by
  refine Bytes.all_ofString (fun b hb => ?_) fun c hc hlt => ?_
  · simp only [isValue, Bool.or_eq_true, decide_eq_true_eq, UInt8.le_iff_toNat_le]
    exact .inr hb
  · rcases h c hc with rfl | ⟨hle, hne⟩
    · decide
    · have hn := toNat_ofNat_of_ascii hlt
      simp only [isValue, Bool.or_eq_true, Bool.and_eq_true, decide_eq_true_eq,
        UInt8.le_iff_toNat_le, hn]
      have hle' : c.toNat ≤ 126 := by omega
      exact .inl (.inr ⟨hle, hle'⟩)

theorem isTarget_of_chars {s : String} (h : ∀ c ∈ s.toList, IsTargetChar c) :
    ∀ b ∈ Bytes.ofString s, isTarget b = true := by
  refine Bytes.all_ofString (fun b hb => ?_) fun c hc hlt => ?_
  · simp only [isTarget, Bool.or_eq_true, decide_eq_true_eq, UInt8.le_iff_toNat_le]
    exact .inr hb
  · obtain ⟨hle, hne⟩ := h c hc
    have hn := toNat_ofNat_of_ascii hlt
    simp only [isTarget, Bool.or_eq_true, Bool.and_eq_true, decide_eq_true_eq,
      UInt8.le_iff_toNat_le, hn]
    have hle' : c.toNat ≤ 126 := by omega
    exact .inl ⟨hle, hle'⟩

theorem isValueChar_of_visible {c : Char} (h : Base64.Visible c) : IsValueChar c :=
  .inr ⟨Nat.le_of_succ_le h.1, Nat.ne_of_lt (Nat.lt_succ_of_le h.2)⟩

/-! ## 3. Looking at what comes in -/

namespace Handshake

variable {σ : Type}

/-- A handshake looks at what has come in after each piece, until it is complete; what comes then is
only kept. -/
def follow (h : Handshake) (send : RawSender σ) :
    List Bytes → Buffer → σ → Except Fault Bool × Buffer × σ
  | [], b, s => (.ok false, b, s)
  | piece :: pieces, b, s =>
      match h.examine send (b.pushBytes piece) s with
      | (.ok false, b, s) => h.follow send pieces b s
      | (.ok true, b, s) => (.ok true, pieces.foldl (fun b piece => b.pushBytes piece) b, s)
      | (.error cause, b, s) => (.error cause, b, s)

/-- However it is cut, a block is taken at once when all of it is there and not before, the reply is
all that is sent, and what comes behind the block is left. -/
structure Takes (h : Handshake) (reply : Option Bytes) (block : Bytes) : Prop where
  pending : ∀ {σ : Type} (send : RawSender σ) (s : σ) (pieces : List Bytes) (more : Bytes),
    pieces.flatten ++ more = block → more ≠ [] →
      ∃ b, h.follow send pieces {} s = (.ok false, b, s) ∧ b.toList = pieces.flatten
  complete : ∀ {σ : Type} (send : RawSender σ) (s s' : σ), sendIfAny send reply s = .ok s' →
    ∀ (pieces : List Bytes) (rest : Bytes), pieces.flatten = block ++ rest →
      ∃ b, h.follow send pieces {} s = (.ok true, b, s') ∧ b.toList = rest

namespace Completes

variable {h : Handshake} {greeting reply : Option Bytes} {block rest more : Bytes}
  {send : RawSender σ} {b : Buffer} {s s' : σ}

theorem examine_of_lt (hblock : h.Completes greeting reply block) (hfront : b.toList <+: block)
    (hlt : b.toList.length < block.length) : h.examine send b s = (.ok false, b, s) := by
  have hjudge := hblock.judge_eq (hfront.trans (List.prefix_append block []))
  rw [if_neg (Nat.not_le_of_lt hlt)] at hjudge
  rw [Handshake.examine, hjudge]

theorem examine_of_le (hblock : h.Completes greeting reply block)
    (hfront : b.toList <+: block ++ rest) (hle : block.length ≤ b.toList.length)
    (hsends : sendIfAny send reply s = .ok s') :
    h.examine send b s = (.ok true, b.drop block.length, s') := by
  have hjudge := hblock.judge_eq hfront
  rw [if_pos hle] at hjudge
  rw [Handshake.examine, hjudge]
  dsimp only
  rw [hsends]

/-- As long as some of the block is missing, everything is kept and nothing is sent. -/
theorem follow_part (hblock : h.Completes greeting reply block) {pieces : List Bytes}
    (hpieces : b.toList ++ pieces.flatten ++ more = block) (hmore : more ≠ []) :
    ∃ b', h.follow send pieces b s = (.ok false, b', s) ∧
      b'.toList = b.toList ++ pieces.flatten := by
  induction pieces generalizing b with
  | nil => exact ⟨b, rfl, by rw [List.flatten_nil, List.append_nil]⟩
  | cons piece pieces ih =>
      have hpush := Buffer.toList_pushBytes piece b
      have hall : (b.pushBytes piece).toList ++ pieces.flatten ++ more = block := by
        rw [hpush, List.append_assoc b.toList, ← List.flatten_cons]
        exact hpieces
      have hfront : (b.pushBytes piece).toList <+: block :=
        ⟨pieces.flatten ++ more, by rw [← List.append_assoc]; exact hall⟩
      have hlt : (b.pushBytes piece).toList.length < block.length := by
        have hpos := List.length_pos_iff.mpr hmore
        rw [← hall, List.length_append, List.length_append]
        omega
      obtain ⟨b', hfollow, hb'⟩ := ih hall
      refine ⟨b', ?_, ?_⟩
      · rw [follow, hblock.examine_of_lt hfront hlt]
        exact hfollow
      · rw [hb', hpush, List.append_assoc, List.flatten_cons]

/-- The piece with which all of the block is there completes the handshake. -/
theorem follow_whole (hblock : h.Completes greeting reply block)
    (hsends : sendIfAny send reply s = .ok s') {pieces : List Bytes}
    (hpieces : b.toList ++ pieces.flatten = block ++ rest) (hlt : b.toList.length < block.length) :
    ∃ b', h.follow send pieces b s = (.ok true, b', s') ∧ b'.toList = rest := by
  induction pieces generalizing b with
  | nil =>
      have hlength := congrArg List.length hpieces
      rw [List.flatten_nil, List.append_nil, List.length_append] at hlength
      omega
  | cons piece pieces ih =>
      have hpush := Buffer.toList_pushBytes piece b
      have hall : (b.pushBytes piece).toList ++ pieces.flatten = block ++ rest := by
        rw [hpush, List.append_assoc, ← List.flatten_cons]
        exact hpieces
      have hfront : (b.pushBytes piece).toList <+: block ++ rest := ⟨pieces.flatten, hall⟩
      by_cases hle : block.length ≤ (b.pushBytes piece).toList.length
      · refine ⟨_, by rw [follow, hblock.examine_of_le hfront hle hsends], ?_⟩
        rw [Buffer.toList_foldl_pushBytes, Buffer.toList_drop,
          ← List.drop_append_of_le_length hle, hall, List.drop_left]
      · have hshort := Nat.lt_of_not_le hle
        have hpart : (b.pushBytes piece).toList <+: block :=
          List.prefix_of_prefix_length_le hfront (List.prefix_append _ _) (Nat.le_of_lt hshort)
        obtain ⟨b', hfollow, hb'⟩ := ih hall hshort
        refine ⟨b', ?_, hb'⟩
        rw [follow, hblock.examine_of_lt hpart hshort]
        exact hfollow

/-- **A block that completes an upgrade is taken however it is cut.** -/
theorem takes (hblock : h.Completes greeting reply block) : h.Takes reply block where
  pending _ _ _ _ hpieces hmore := hblock.follow_part (b := {}) hpieces hmore
  complete _ _ _ hsends _ _ hpieces :=
    hblock.follow_whole (b := {}) hsends hpieces (List.length_pos_iff.mpr hblock.block_ne_nil)

end Completes

end Handshake

/-! ## 4. The exchange -/

namespace Upgrade

theorem headSize?_response (key : String) : headSize? (Bytes.ofString (response key)) =
    some (Bytes.ofString (response key)).length := by
  have haccept : ∀ b ∈ Bytes.ofString (acceptKey key), b ≠ 13 := by
    rintro b hb rfl
    have hvalue := isValue_of_chars
      (fun c hc => isValueChar_of_visible (Base64.visible_of_mem_encode hc)) 13 hb
    exact absurd hvalue (by decide)
  have hstatus : IsLine (Bytes.ofString "HTTP/1.1 101 Switching Protocols") :=
    ⟨by decide +kernel, by decide +kernel⟩
  have hconnection : IsLine (Bytes.ofString "Connection: Upgrade") :=
    ⟨by decide +kernel, by decide +kernel⟩
  have hupgrade : IsLine (Bytes.ofString "Upgrade: websocket") :=
    ⟨by decide +kernel, by decide +kernel⟩
  have hname : IsLine (Bytes.ofString "Sec-WebSocket-Accept: ") :=
    ⟨by decide +kernel, by decide +kernel⟩
  rw [response_eq_strictLines]
  refine headSize?_strictLines (List.cons_ne_nil _ _) fun line hline => ?_
  simp only [List.mem_cons, List.not_mem_nil, or_false] at hline
  rcases hline with rfl | rfl | rfl | rfl
  · exact hstatus
  · exact hconnection
  · exact hupgrade
  · exact ⟨List.append_ne_nil_of_left_ne_nil hname.1 _, fun b hb =>
      (List.mem_append.mp hb).elim (hname.2 b) (haccept b)⟩

theorem headSize?_request (target : Word isTarget) (host key : Value) :
    headSize? (Bytes.ofString (request host.text target.text key.text)) =
      some (Bytes.ofString (request host.text target.text key.text)).length := by
  rw [← bytes_requestHead target host key]
  exact Head.headSize?_of_strict (strict_requestHead target host key)

/-- The server reads the key with which the request was made. -/
theorem readRequest_request (target : Word isTarget) (host key : Value) (hne : key.text ≠ "")
    (htrim : Text.trim key.text = key.text) :
    readRequest (Bytes.ofString (request host.text target.text key.text)) = .ok key.text := by
  have hkey := (keyOf?_request _ _).mpr (carries_requestHead target host key hne htrim)
  have hread := readRequest_of_asks (asks_requestHead target host key) []
  rw [List.append_nil, bytes_requestHead, hkey] at hread
  exact hread

/-- The key that random bytes stand for, as the value of a field. -/
def keyValue (nonce : Bytes) : Value where
  text := Token.keyOf nonce
  valid := isValue_of_chars fun _ hc => isValueChar_of_visible (Base64.visible_of_mem_encode hc)

/-- **The two sides of the upgrade complete with each other.** Whatever host, path and key a client
asks with, the server reads the key from its request, and each side takes just what the other one
sends. -/
theorem exchange_completes {host path : String} {nonce : Bytes}
    (hhost : ∀ c ∈ host.toList, IsValueChar c) (hpath : path ≠ "")
    (htarget : ∀ c ∈ path.toList, IsTargetChar c) (hnonce : nonce.length = Token.keySize) :
    readRequest (Bytes.ofString (request host path (Token.keyOf nonce))) =
      .ok (Token.keyOf nonce) ∧
    Handshake.upgradeServer.Takes (some (Bytes.ofString (response (Token.keyOf nonce))))
      (Bytes.ofString (request host path (Token.keyOf nonce))) ∧
    (Handshake.upgradeClient host path (Token.keyOf nonce)).Takes none
      (Bytes.ofString (response (Token.keyOf nonce))) := by
  have hne : Token.keyOf nonce ≠ "" := by
    refine Base64.encode_ne_empty ?_
    rintro rfl
    cases hnonce
  have htrim : Text.trim (Token.keyOf nonce) = Token.keyOf nonce :=
    Text.trim_eq_self fun c hc => (Base64.visible_of_mem_encode hc).isBlank_eq
  let target : Word isTarget := ⟨path, Bytes.ofString_ne_nil hpath, isTarget_of_chars htarget⟩
  let hostValue : Value := ⟨host, isValue_of_chars hhost⟩
  have hread := readRequest_request target hostValue (keyValue nonce) hne htrim
  have hends := headSize?_request target hostValue (keyValue nonce)
  exact ⟨hread, (Handshake.Completes.server hends hread).takes,
    (Handshake.Completes.client host path (Token.keyOf nonce) (headSize?_response _)).takes⟩

/-- A host, a path and a key that are not plain. -/
theorem exchange_completes_of_accents :
    ((∀ c ∈ "a\tb café:80".toList, IsValueChar c) ∧ "/é?x=\"1\"" ≠ "" ∧
      (∀ c ∈ "/é?x=\"1\"".toList, IsTargetChar c) ∧
      (List.replicate 16 (255 : UInt8)).length = Token.keySize) ∧
    readRequest (Bytes.ofString
        (request "a\tb café:80" "/é?x=\"1\"" (Token.keyOf (List.replicate 16 255)))) =
      .ok (Token.keyOf (List.replicate 16 255)) ∧
    Handshake.upgradeServer.Takes
      (some (Bytes.ofString (response (Token.keyOf (List.replicate 16 255)))))
      (Bytes.ofString
        (request "a\tb café:80" "/é?x=\"1\"" (Token.keyOf (List.replicate 16 255)))) ∧
    (Handshake.upgradeClient "a\tb café:80" "/é?x=\"1\""
        (Token.keyOf (List.replicate 16 255))).Takes none
      (Bytes.ofString (response (Token.keyOf (List.replicate 16 255)))) := by
  have hhostChars : "a\tb café:80".toList.all (fun c => decide (IsValueChar c)) = true := by
    decide +kernel
  have hhost : ∀ c ∈ "a\tb café:80".toList, IsValueChar c := fun c hc =>
    of_decide_eq_true (List.all_eq_true.mp hhostChars c hc)
  have htargetChars : "/é?x=\"1\"".toList.all (fun c => decide (IsTargetChar c)) = true := by
    decide +kernel
  have htarget : ∀ c ∈ "/é?x=\"1\"".toList, IsTargetChar c := fun c hc =>
    of_decide_eq_true (List.all_eq_true.mp htargetChars c hc)
  have hpath : "/é?x=\"1\"" ≠ "" := by decide
  have hnonce : (List.replicate 16 (255 : UInt8)).length = Token.keySize := rfl
  exact ⟨⟨hhost, hpath, htarget, hnonce⟩, exchange_completes hhost hpath htarget hnonce⟩

end Upgrade

end Courier
