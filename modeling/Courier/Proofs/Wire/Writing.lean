import Courier.Connection.Basic
import Courier.Proofs.Pipe.Puts
import Courier.Proofs.Wire.RoundTrip

/-!
Courier.Proofs.Wire.Writing — what a connection takes can be written, and has the size it says.

The size of a frame is counted apart from its writing: a small frame is put together in memory of
just that size, and the WebSocket header declares it before any of the bytes are written. The
lengths are written in fields that are too narrow for just any number. For frames that a connection
takes under valid options none of this goes wrong (`WireFormat.write_of_enqueue`), and the bytes are
the same whether the frame is put together first or not, and wherever they are written to.
-/

namespace Courier

/-! ## 1. Outputs -/

/-- Puts pieces into an output, one after another. -/
def putAll {σ : Type} (put : Bytes → σ → Except Misuse σ) : List Bytes → σ → Except Misuse σ
  | [], s => .ok s
  | piece :: pieces, s =>
      match put piece s with
      | .error misuse => .error misuse
      | .ok s => putAll put pieces s

/-- Puts bytes into a buffer that grows as it has to. -/
def putGrowing (bs out : Bytes) : Except Misuse Bytes :=
  .ok (out ++ bs)

/-- Puts bytes into a pipe, with memory from a pool. -/
def putPiped (bs : Bytes) (s : BlockPool × Pipe) : Except Misuse (BlockPool × Pipe) :=
  s.2.put bs s.1

theorem putAll_growing (pieces : List Bytes) (out : Bytes) :
    putAll putGrowing pieces out = .ok (out ++ pieces.flatten) := by
  induction pieces generalizing out with
  | nil => exact congrArg Except.ok (List.append_nil out).symm
  | cons piece pieces ih =>
      simp only [putAll, putGrowing]
      rw [ih, List.flatten_cons, List.append_assoc]

/-- A pipe takes all pieces, and has them behind what it has. -/
theorem putAll_piped (pieces : List Bytes) {pool : BlockPool} (hblank : pool.Blank) (p : Pipe) :
    ∃ s', putAll putPiped pieces (pool, p) = .ok s' ∧
      s' = pieces.foldl (fun s piece => s.2.write piece s.1) (pool, p) ∧
      s'.2.behind = p.behind ++ pieces.flatten ∧
      s'.2.unflushed = p.unflushed + pieces.flatten.length := by
  induction pieces generalizing pool p with
  | nil => exact ⟨_, rfl, rfl, (List.append_nil _).symm, rfl⟩
  | cons piece pieces ih =>
      obtain ⟨hbehind, hunflushed⟩ := Pipe.write_unflushed hblank piece p
      obtain ⟨s', hput, hwrite, hbehind', hunflushed'⟩ :=
        ih ((Pipe.write_grows piece pool p).blank hblank) (p.write piece pool).2
      refine ⟨s', ?_, hwrite, ?_, ?_⟩
      · simp only [putAll, putPiped, Pipe.put_eq_write hblank]
        exact hput
      · rw [hbehind', hbehind, List.flatten_cons, List.append_assoc]
      · rw [hunflushed', hunflushed, List.flatten_cons, List.length_append, Nat.add_assoc]

/-! ## 2. Headers -/

namespace WebSocket

/-- A header with this first byte declares `n` bytes behind it: in its second byte, or in two or
eight bytes after that. -/
inductive Declares (first : UInt8) (n : Nat) : Bytes → Prop where
  | inline {mark : UInt8} (spells : mark.toNat = n) (small : n ≤ maxInlineLength) :
      Declares first n [first, mark]
  | short {field : Bytes} (spells : Bytes.toNat field = n) (width : field.length = 2) :
      Declares first n (first :: 126 :: field)
  | long {field : Bytes} (spells : Bytes.toNat field = n) (width : field.length = 8) :
      Declares first n (first :: 127 :: field)

/-- A header can be written for every length that eight bytes have room for, and declares it. -/
theorem declares_header (opcode : Opcode) {n : Nat} (h : n < 256 ^ 8) :
    ∃ pieces, header opcode n = .ok pieces ∧
      Declares (UInt8.ofNat (128 + opcode.toNat)) n pieces.flatten := by
  have hfirst : Bytes.ofNat 1 (128 + opcode.toNat) = [UInt8.ofNat (128 + opcode.toNat)] := by
    cases opcode <;> rfl
  unfold header
  rw [hfirst]
  by_cases hinline : n ≤ maxInlineLength
  · have hbyte : n < 256 ^ 1 := Nat.lt_of_le_of_lt hinline (by decide)
    have hmark : (UInt8.ofNat n).toNat = n := UInt8.toNat_ofNat_of_lt' hbyte
    rw [if_pos hinline, Bytes.narrow_of_lt hbyte]
    refine ⟨_, rfl, ?_⟩
    simpa [Bytes.ofNat] using Declares.inline hmark hinline
  · rw [if_neg hinline]
    by_cases hshort : n < 65536
    · have hfield : Bytes.toNat (Bytes.ofNat 2 n) = n := Bytes.toNat_ofNat_of_lt hshort
      rw [if_pos hshort, Bytes.narrow_of_lt hshort]
      refine ⟨_, rfl, ?_⟩
      simpa using Declares.short hfield (Bytes.length_ofNat 2 n)
    · have hfield : Bytes.toNat (Bytes.ofNat 8 n) = n := Bytes.toNat_ofNat_of_lt h
      rw [if_neg hshort, Bytes.narrow_of_lt h]
      refine ⟨_, rfl, ?_⟩
      simpa using Declares.long hfield (Bytes.length_ofNat 8 n)

end WebSocket

/-! ## 3. Frames -/

theorem ConnectionOptions.maxPayload_le_of_validate {o : ConnectionOptions}
    (h : o.validate = .ok ()) : o.maxPayload ≤ lengthLimit := by
  unfold validate at h
  split at h
  · cases h
  · split at h
    · cases h
    · next hle => exact Nat.le_of_not_lt hle

/-- **What a connection takes can be written, and is as long as it says.** Under options that are
valid a frame that was taken is written without misuse: a header, which is there in the WebSocket
form alone and declares how many bytes follow, and as many bytes as the frame takes. They are the
parts of the frame, and the same if these are first put together in memory of the frame's size. A
buffer that grows takes them all, and so does a pipe however full its block is: without misuse, just
as the link writes them, behind all that is unflushed, and counted. -/
theorem WireFormat.write_of_enqueue (format : WireFormat) {o : ConnectionOptions}
    {c d : Connection} {f : Frame} (hoptions : o.validate = .ok ())
    (hmax : c.maxPayload = o.maxPayload) (htaken : c.enqueue f = .ok d) :
    ∃ head body pieces, format.write f = .ok pieces ∧ pieces.flatten = head ++ body ∧
      body.length = Plain.size f ∧
      (format = .plain → head = []) ∧
      (format = .webSocket → WebSocket.Declares 130 body.length head) ∧
      (∃ parts, Plain.parts f = .ok parts ∧ parts.flatten = body ∧
        Plain.assemble (Plain.size f) parts = .ok body) ∧
      (∀ out, putAll putGrowing pieces out = .ok (out ++ (head ++ body))) ∧
      ∀ (pool : BlockPool) (p : Pipe), pool.Blank → ∃ s',
        putAll putPiped pieces (pool, p) = .ok s' ∧
        s' = pieces.foldl (fun s piece => s.2.write piece s.1) (pool, p) ∧
        s'.2.behind = p.behind ++ (head ++ body) ∧
        s'.2.unflushed = p.unflushed + (head ++ body).length := by
  have hvalid := Connection.validate_of_enqueue htaken
  have hlimit : c.maxPayload ≤ ConnectionOptions.lengthLimit :=
    hmax ▸ ConnectionOptions.maxPayload_le_of_validate hoptions
  have hnarrow := Frame.narrow_of_validate hlimit hvalid
  have hparts := Plain.parts_of_narrow hnarrow
  -- what is written, in either form
  obtain ⟨head, pieces, hwrite, hflatten, hplain, hwebSocket⟩ : ∃ head pieces,
      format.write f = .ok pieces ∧ pieces.flatten = head ++ Plain.bytes f ∧
      (format = .plain → head = []) ∧
      (format = .webSocket → WebSocket.Declares 130 (Plain.bytes f).length head) := by
    obtain ⟨body, hbody, hbytes⟩ := Plain.write_of_narrow hnarrow
    cases format with
    | plain => exact ⟨[], body, hbody, hbytes, fun _ => rfl, nofun⟩
    | webSocket =>
        obtain ⟨head, hhead, hdeclares⟩ :=
          WebSocket.declares_header .binary (WebSocket.length_bytes_lt hlimit hvalid)
        rw [Plain.length_bytes] at hhead
        refine ⟨head.flatten, head ++ body, ?_, ?_, nofun, fun _ => hdeclares⟩
        · rw [write, WebSocket.write, hhead, hbody]
          rfl
        · rw [List.flatten_append, hbytes]
  refine ⟨head, Plain.bytes f, pieces, hwrite, hflatten, Plain.length_bytes f, hplain, hwebSocket,
    ⟨_, hparts, Plain.flatten_parts hparts, Plain.assemble_parts hparts⟩, fun out => ?_,
    fun pool p hblank => ?_⟩
  · rw [putAll_growing, hflatten]
  · rw [← hflatten]
    exact putAll_piped pieces hblank p

/-- A pipe whose block has room for three more bytes. -/
def nearlyFull : Pipe where
  current := some { number := 0, filled := List.replicate 4093 7 }
  unflushed := 4093

/-- A frame that is just too large to be put together is written over the end of the block, and of
the length in the header. -/
theorem write_nearlyFull :
    let c : Connection := { id := "a", peer := "b", maxPayload := Frame.maxPayloadSize }
    let f : Frame := .new "x" (List.replicate 1016 1)
    (({} : ConnectionOptions).validate = .ok () ∧
      c.maxPayload = ({} : ConnectionOptions).maxPayload ∧
      c.enqueue f = .ok { c with queue := [f] } ∧ ({} : BlockPool).Blank) ∧
    ∃ head body pieces s', WireFormat.webSocket.write f = .ok pieces ∧ body.length = 1025 ∧
      WebSocket.Declares 130 body.length head ∧
      putAll putPiped pieces ({}, nearlyFull) = .ok s' ∧
      s'.2.behind = List.replicate 4093 7 ++ (head ++ body) := by
  intro c f
  have hoptions : ({} : ConnectionOptions).validate = .ok () := by decide +kernel
  have htaken : c.enqueue f = .ok { c with queue := [f] } := by decide +kernel
  refine ⟨⟨hoptions, rfl, htaken, BlockPool.blank_empty⟩, ?_⟩
  obtain ⟨head, body, pieces, hwrite, -, hlength, -, hhead, -, -, hpiped⟩ :=
    WireFormat.webSocket.write_of_enqueue hoptions rfl htaken
  obtain ⟨s', hput, -, hbehind, -⟩ := hpiped {} nearlyFull BlockPool.blank_empty
  have hsize : Plain.size f = 1025 := by decide +kernel
  exact ⟨head, body, pieces, s', hwrite, hlength.trans hsize, hhead rfl, hput, hbehind⟩

end Courier
