import Mathlib.Data.List.Basic
import Courier.Proofs.Wire.Envelope

/-!
Courier.Proofs.Wire.Messages — what is read of whole WebSocket messages.

A message is text or binary. It comes in a first frame and any number of continuations, with control
frames before each of these, and only its last frame has the final bit. A continuation does not say
what it continues, and the reader does not remember it: a first frame of text is skipped, but a
continuation is taken in whatever it continues (`webSocket_readAll_messages`). So a text message in
several frames may bring a frame that nobody has sent (`webSocket_readAll_of_strayText`).
-/

namespace Courier.WebSocket

/-! ## 1. Messages -/

/-- The final bit above the three reserved ones. -/
def flagsOf (final : Bool) (reserved : Fin 8) : Fin 16 :=
  ⟨(if final then 8 else 0) + reserved, by split <;> omega⟩

/-- A part of a message: all of a frame but the kind and the final bit, which its place in the
message decides. -/
structure Fragment where
  reserved : Fin 8
  form : LengthForm
  key : Option { k : Bytes // k.length = 4 }
  payload : Bytes
  fits : payload.length < form.bound

/-- The frame of a part. -/
def Fragment.envelope (f : Fragment) (opcode : Opcode) (final : Bool) : Envelope where
  opcode
  flags := flagsOf final f.reserved
  form := f.form
  key := f.key
  payload := f.payload
  fits := f.fits

/-- A ping or a pong. -/
structure Beat where
  opcode : Opcode
  reserved : Fin 8
  key : Option { k : Bytes // k.length = 4 }
  payload : Bytes
  beats : opcode = .ping ∨ opcode = .pong
  short : payload.length < LengthForm.inline.bound

/-- The frame of a ping or a pong. -/
def Beat.envelope (c : Beat) : Envelope where
  opcode := c.opcode
  flags := flagsOf true c.reserved
  form := .inline
  key := c.key
  payload := c.payload
  fits := c.short

/-- What a message consists of. -/
inductive Kind where
  | text
  | binary
  deriving DecidableEq

/-- The kind of a message's first frame. -/
def Kind.opcode : Kind → Opcode
  | .text => .text
  | .binary => .binary

/-- A part of a message that is not its first, and the control frames before it. -/
structure Continuation where
  before : List Beat
  fragment : Fragment

/-- A message in one frame or several. -/
structure Message where
  kind : Kind
  first : Fragment
  rest : List Continuation

/-- The frames of what follows a first frame; the last one of them is the final one. -/
def continuations : List Continuation → List Envelope
  | [] => []
  | c :: rest =>
      c.before.map Beat.envelope ++
        c.fragment.envelope .continuation rest.isEmpty :: continuations rest

/-- What a peer sends: messages, and control frames between them. -/
inductive Item where
  | message (m : Message)
  | beat (c : Beat)

namespace Message

/-- The frames of a message. -/
def envelopes (m : Message) : List Envelope :=
  m.first.envelope m.kind.opcode m.rest.isEmpty :: continuations m.rest

/-- The payloads of the continuations. -/
def continued (m : Message) : Bytes :=
  m.rest.flatMap (·.fragment.payload)

/-- The payload of the message. -/
def payload (m : Message) : Bytes :=
  m.first.payload ++ m.continued

/-- What the reader takes in of the message. -/
def taken (m : Message) : Bytes :=
  match m.kind with
  | .text => m.continued
  | .binary => m.payload

end Message

namespace Item

/-- The frames of an item. -/
def envelopes : Item → List Envelope
  | message m => m.envelopes
  | beat c => [c.envelope]

/-- What the reader takes in of an item. -/
def taken : Item → Bytes
  | message m => m.taken
  | beat _ => []

/-- The payload of a binary message. -/
def binary : Item → Bytes
  | message m => if m.kind = .binary then m.payload else []
  | beat _ => []

end Item

/-- The bytes of what a peer sends. -/
def stream (items : List Item) : Bytes :=
  (items.flatMap Item.envelopes).flatMap Envelope.encode

/-! ## 2. What is taken in -/

/-- A frame that is taken in, or skipped, up to its end. -/
def Envelope.Passes (e : Envelope) : Prop :=
  e.Allowed ∧ e.opcode ≠ .close

namespace Beat

variable (c : Beat)

theorem passes : c.envelope.Passes := by
  refine ⟨fun _ => rfl, ?_⟩
  rcases c.beats with h | h <;> simp [envelope, h]

theorem data_eq_nil : c.envelope.data = [] := by
  rcases c.beats with h | h <;> simp [envelope, Envelope.data, Opcode.carriesData, h]

end Beat

theorem Fragment.passes (f : Fragment) {opcode : Opcode} (h : opcode.isControl = false)
    (final : Bool) : (f.envelope opcode final).Passes := by
  refine ⟨fun hcontrol => ?_, ?_⟩
  · cases h.symm.trans hcontrol
  · rintro (rfl : opcode = .close)
    cases h

theorem passes_of_mem_continuations {rest : List Continuation} {e : Envelope}
    (he : e ∈ continuations rest) : e.Passes := by
  induction rest with
  | nil => cases he
  | cons c rest ih =>
      rcases List.mem_append.mp he with he | he
      · obtain ⟨beat, -, rfl⟩ := List.mem_map.mp he
        exact beat.passes
      · rcases List.mem_cons.mp he with rfl | he
        · exact c.fragment.passes rfl _
        · exact ih he

theorem Item.passes {item : Item} {e : Envelope} (he : e ∈ item.envelopes) : e.Passes := by
  cases item with
  | message m =>
      rcases List.mem_cons.mp he with rfl | he
      · refine m.first.passes ?_ _
        cases m.kind <;> rfl
      · exact passes_of_mem_continuations he
  | beat c =>
      rw [List.mem_singleton.mp he]
      exact c.passes

/-- Every continuation carries data. -/
theorem data_continuations (rest : List Continuation) :
    (continuations rest).flatMap Envelope.data = rest.flatMap (·.fragment.payload) := by
  induction rest with
  | nil => rfl
  | cons c rest ih =>
      have hbeats : (c.before.map Beat.envelope).flatMap Envelope.data = [] := by
        simp [List.flatMap_eq_nil_iff, Beat.data_eq_nil]
      have hdata : (c.fragment.envelope .continuation rest.isEmpty).data = c.fragment.payload := rfl
      rw [continuations, List.flatMap_append, hbeats, List.nil_append, List.flatMap_cons, hdata, ih,
        List.flatMap_cons]

/-- Of a message the first frame is taken in if it is binary, and each continuation. -/
theorem Message.data_envelopes (m : Message) : m.envelopes.flatMap Envelope.data = m.taken := by
  obtain ⟨kind, first, rest⟩ := m
  rw [envelopes, List.flatMap_cons, data_continuations]
  cases kind <;> rfl

theorem Item.data_envelopes (item : Item) : item.envelopes.flatMap Envelope.data = item.taken := by
  cases item with
  | message m => exact m.data_envelopes
  | beat c => rw [envelopes, List.flatMap_singleton, c.data_eq_nil, taken]

/-- What is taken in of a row of items. -/
theorem leads_stream (items : List Item) (more : Bytes) :
    unwrapping.Leads .header (stream items ++ more) (items.flatMap Item.taken) .header more := by
  have hpasses : ∀ e ∈ items.flatMap Item.envelopes, e.Passes := fun e he => by
    obtain ⟨item, -, he⟩ := List.mem_flatMap.mp he
    exact item.passes he
  have hdata : (items.flatMap Item.envelopes).flatMap Envelope.data = items.flatMap Item.taken := by
    rw [List.flatMap_assoc]
    exact congrArg (List.flatMap · items) (funext Item.data_envelopes)
  have hleads := Envelope.leads_flatMap hpasses more
  rwa [hdata] at hleads

/-! ## 3. Text -/

/-- The payloads of the continuations of a text message. -/
def Item.strayed : Item → Bytes
  | message m => if m.kind = .text then m.continued else []
  | beat _ => []

theorem Item.length_taken (item : Item) :
    item.taken.length = item.binary.length + item.strayed.length := by
  cases item with
  | message m =>
      obtain ⟨kind, first, rest⟩ := m
      cases kind with
      | text => exact (Nat.zero_add _).symm
      | binary => rfl
  | beat c => rfl

theorem Item.taken_eq_binary {item : Item} (h : item.strayed = []) :
    item.taken = item.binary := by
  cases item with
  | message m =>
      obtain ⟨kind, first, rest⟩ := m
      cases kind with
      | text => exact h
      | binary => rfl
  | beat c => rfl

theorem length_flatMap_taken (items : List Item) : (items.flatMap Item.taken).length =
    (items.flatMap Item.binary).length + (items.flatMap Item.strayed).length := by
  induction items with
  | nil => rfl
  | cons item items ih =>
      simp only [List.flatMap_cons, List.length_append, ih, item.length_taken]
      omega

/-- What is taken in is the payloads of the binary messages just if no continuation of a text
message has a payload. -/
theorem taken_eq_binary_iff (items : List Item) :
    items.flatMap Item.taken = items.flatMap Item.binary ↔
      ∀ m, Item.message m ∈ items → m.kind = .text → m.continued = [] := by
  constructor
  · intro h m hm hkind
    have hlength := length_flatMap_taken items
    rw [h, Nat.left_eq_add, List.length_eq_zero_iff, List.flatMap_eq_nil_iff] at hlength
    have hstrayed := hlength _ hm
    rwa [Item.strayed, if_pos hkind] at hstrayed
  · intro h
    refine List.flatMap_congr fun item hitem => Item.taken_eq_binary ?_
    cases item with
    | message m =>
        rw [Item.strayed]
        split
        · next hkind => exact h m hitem hkind
        · rfl
    | beat c => rfl

end Courier.WebSocket

namespace Courier

open WebSocket

/-- **The reader takes in the binary messages, and the continuations of the others.** However the
stream of a row of messages is cut, with control frames wherever they may be, what comes to the
plain reader is the payloads of the binary messages and those of the continuations of text messages
in order, so its frames and its fault are those of the plain reader on these. A first frame of text
never comes to it, and nothing behind a close frame. That the binary messages alone come to it is so
just if no continuation of a text message has a payload. -/
theorem webSocket_readAll_messages (limit : Nat) (items : List Item) :
    let plain := (WireFormat.plain.reader limit).readAll [items.flatMap Item.taken] {}
    (∀ more, unwrapping.Leads .header (stream items ++ more) (items.flatMap Item.taken) .header
      more) ∧
    (∀ pieces : List Bytes, pieces.flatten = stream items →
      let x := (WireFormat.webSocket.reader limit).readAll pieces {}
      x.frames = plain.frames ∧ x.stopped = plain.stopped) ∧
    (∀ (e : Envelope) (tail : Bytes) (pieces : List Bytes), e.opcode = .close → e.Allowed →
      pieces.flatten = stream items ++ (e.encode ++ tail) →
      let x := (WireFormat.webSocket.reader limit).readAll pieces {}
      x.frames = plain.frames ∧ x.stopped = plain.stopped.or (some .peerClosed)) ∧
    (items.flatMap Item.taken = items.flatMap Item.binary ↔
      ∀ m, Item.message m ∈ items → m.kind = .text → m.continued = []) := by
  refine ⟨leads_stream items, fun pieces hpieces => ?_,
    fun e tail pieces hclose hallowed hpieces => ?_, taken_eq_binary_iff items⟩
  · have hall : pieces.flatten = stream items ++ [] := by rw [hpieces, List.append_nil]
    exact webSocket_readAll_of_end limit (leads_stream items []) hall
  · exact webSocket_readAll_of_close limit hclose hallowed (leads_stream items _) hpieces

/-- A text message in two frames, of which the second has what looks like one of our frames. -/
def strayText : Message where
  kind := .text
  first := ⟨0, .inline, none, Bytes.ofString "ignored", by decide⟩
  rest :=
    [⟨[], ⟨0, .inline, none, [0, 0, 0, 5, 97, 102, 116, 101, 114, 0, 0, 0, 1, 120], by decide⟩⟩]

/-- **A continuation of a text message is taken for ours**: a frame is read where there is no binary
message at all. -/
theorem webSocket_readAll_of_strayText :
    ¬ ∀ (limit : Nat) (items : List Item) (pieces : List Bytes), pieces.flatten = stream items →
      let plain := (WireFormat.plain.reader limit).readAll [items.flatMap Item.binary] {}
      let x := (WireFormat.webSocket.reader limit).readAll pieces {}
      x.frames = plain.frames ∧ x.stopped = plain.stopped := by
  intro h
  have hfalse := h 1 [.message strayText] [stream [.message strayText]] (List.flatten_singleton)
  revert hfalse
  decide +kernel

end Courier
