import Courier.Proofs.Buffer
import Courier.Proofs.Bytes

/-!
Courier.Proofs.Buffer.Calls — a buffer answers as the byte string that it holds.

Bytes leave a buffer in several ways: off the first segment, which is cut or used up, or copied
together across segments, and each way counts them off by itself. `Call.perform` makes a call on a
buffer, and `Call.expected` says what the call comes to on a byte string. A sound buffer agrees
with what it holds on every call, hence on every row of calls.
-/

namespace Courier.Buffer

/-! ## 1. Calls -/

/-- A call on a buffer. -/
inductive Call where
  /-- adds a segment at the end -/
  | push (segment : Segment)
  /-- throws everything away -/
  | clear
  /-- begins anew with one piece -/
  | refill (bs : Bytes)
  /-- asks how many bytes there are -/
  | remaining
  /-- asks for the first `n` bytes, or all if they are fewer -/
  | peek (n : Nat)
  /-- asks where `needle` first occurs within the first `limit` bytes -/
  | find (needle : Bytes) (limit : Nat)
  /-- gives back the first `n` bytes -/
  | advance (n : Nat)
  /-- takes the first `n` bytes in one piece -/
  | copyToBytes (n : Nat)
  /-- reads the first `n` bytes into memory of the caller -/
  | copyToSlice (n : Nat)
  /-- reads a number of `width` bytes -/
  | getNat (width : Nat)

/-- What a call answers. -/
inductive Answer where
  | done
  | number (n : Nat)
  | bytes (bs : Bytes)
  | place (offset : Option Nat)

/-- Makes the call on a buffer: the answer, and the buffer after it. -/
def Call.perform (b : Buffer) : Call → Except Misuse (Answer × Buffer)
  | push segment => .ok (.done, b.push segment)
  | clear => .ok (.done, b.clear)
  | refill bs => .ok (.done, ofBytes bs)
  | remaining => .ok (.number b.size, b)
  | peek n => .ok (.bytes (b.peek n), b)
  | find needle limit => (b.find needle limit).map fun offset => (.place offset, b)
  | advance n => (b.advance n).map fun left => (.done, left)
  | copyToBytes n => (b.copyToBytes n).map fun r => (.bytes r.1, r.2)
  | copyToSlice n => (b.copyToSlice n).map fun r => (.bytes r.1, r.2)
  | getNat width => (b.getNat width).map fun r => (.number r.1, r.2)

/-- Takes the first `n` bytes of a byte string, which must be there. -/
def takeFront (misuse : Misuse) (answer : Bytes → Answer) (n : Nat) (bs : Bytes) :
    Except Misuse (Answer × Bytes) :=
  if n ≤ bs.length then .ok (answer (bs.take n), bs.drop n) else .error misuse

/-- What the call comes to on a byte string: the answer, and the byte string after it. -/
def Call.expected (bs : Bytes) : Call → Except Misuse (Answer × Bytes)
  | push segment => .ok (.done, bs ++ segment.bytes)
  | clear => .ok (.done, [])
  | refill piece => .ok (.done, piece)
  | remaining => .ok (.number bs.length, bs)
  | peek n => .ok (.bytes (bs.take n), bs)
  | find needle limit =>
      if needle = [] then .error .emptyNeedle
      else .ok (.place (Bytes.find? needle (bs.take limit)), bs)
  | advance n => takeFront .advancedPastBuffer (fun _ => .done) n bs
  | copyToBytes n => takeFront .copiedPastBuffer .bytes n bs
  | copyToSlice n => takeFront .readPastBuffer .bytes n bs
  | getNat width => takeFront .readPastBuffer (fun front => .number (Bytes.toNat front)) width bs

/-- Makes calls one after another: the answers, and what there is in the end. A call that is
refused changes nothing. -/
def session {σ : Type} (make : σ → Call → Except Misuse (Answer × σ)) :
    σ → List Call → List (Except Misuse Answer) × σ
  | s, [] => ([], s)
  | s, call :: calls =>
      let made := make s call
      let later := session make ((made.toOption.map (·.2)).getD s) calls
      (made.map (·.1) :: later.1, later.2)

/-- The buffer that calls make of an empty one. -/
def after (calls : List Call) : Buffer :=
  (session Call.perform {} calls).2

/-! ## 2. One call -/

/-- A call on a buffer and one on a byte string are refused alike, or have the same answer and
leave the same bytes. -/
inductive Agree : Except Misuse (Answer × Buffer) → Except Misuse (Answer × Bytes) → Prop where
  | refused (misuse : Misuse) : Agree (.error misuse) (.error misuse)
  | answered {answer : Answer} {b : Buffer} {bs : Bytes} (sound : b.Sound) (holds : b.toList = bs) :
      Agree (.ok (answer, b)) (.ok (answer, bs))

variable {b : Buffer} {n : Nat}

/-- Bytes are taken from the front where they are there, and refused where they are not. -/
theorem Sound.agree_takeFront (h : b.Sound) {misuse : Misuse} (answer : Bytes → Answer)
    {r : Bytes × Buffer} {made : Except Misuse (Answer × Buffer)} (htakes : b.Takes n r)
    (hmade : made = if b.size < n then .error misuse else .ok (answer r.1, r.2)) :
    Agree made (takeFront misuse answer n b.toList) := by
  unfold takeFront
  rw [hmade, h.size_eq]
  by_cases hn : n ≤ b.toList.length
  · rw [if_neg (Nat.not_lt.mpr hn), if_pos hn, htakes.taken]
    exact .answered htakes.sound htakes.left
  · rw [if_pos (Nat.lt_of_not_le hn), if_neg hn]
    exact .refused misuse

theorem Sound.takes_drop (h : b.Sound) (n : Nat) : b.Takes n (b.toList.take n, b.drop n) :=
  ⟨rfl, toList_drop n b, h.drop n⟩

/-- The first segment, where it is long enough, has the front of the buffer. -/
theorem take_chunk (hn : n ≤ b.chunk.length) : b.chunk.take n = b.toList.take n := by
  obtain ⟨behind, hbehind⟩ := b.chunk_prefix
  rw [← hbehind, List.take_append_of_le_length hn]

theorem flatMap_putBack (left : Segment) (rest : List Segment) :
    (putBack left rest).flatMap (·.bytes) = left.bytes ++ rest.flatMap (·.bytes) := by
  unfold putBack
  split
  · next hempty => rw [List.isEmpty_iff.mp hempty, List.nil_append]
  · rfl

theorem ne_nil_of_mem_putBack {left : Segment} {rest : List Segment}
    (hrest : ∀ s ∈ rest, s.bytes ≠ []) : ∀ s ∈ putBack left rest, s.bytes ≠ [] := by
  unfold putBack
  split
  · exact hrest
  · next hne =>
    intro s hs
    rcases List.mem_cons.mp hs with rfl | hs
    · simpa using hne
    · exact hrest s hs

/-- A piece that is cut off the first segment is the front of the buffer. -/
theorem Sound.takes_cut {s : Segment} {rest : List Segment} {size : Nat}
    (h : Sound ⟨s :: rest, size⟩) (hn : n ≤ s.bytes.length) :
    Takes ⟨s :: rest, size⟩ n
      (s.bytes.take n, ⟨putBack { s with bytes := s.bytes.drop n } rest, size - n⟩) := by
  have hwhole : toList ⟨s :: rest, size⟩ = s.bytes ++ rest.flatMap (·.bytes) := rfl
  have hleft : toList ⟨putBack { s with bytes := s.bytes.drop n } rest, size - n⟩ =
      (toList ⟨s :: rest, size⟩).drop n := by
    rw [hwhole, List.drop_append_of_le_length hn]
    exact flatMap_putBack _ _
  refine ⟨?_, hleft, ?_, ne_nil_of_mem_putBack fun t ht => h.ne_nil t (List.mem_cons_of_mem s ht)⟩
  · rw [hwhole, List.take_append_of_le_length hn]
  · have hsize : size = (toList ⟨s :: rest, size⟩).length := h.size_eq
    rw [hleft, List.length_drop, ← hsize]

/-- Whether the first segment is cut or bytes are copied together, one piece is the front. -/
theorem Sound.copyToBytes_eq (h : b.Sound) (n : Nat) : ∃ r, b.Takes n r ∧
    b.copyToBytes n = if b.size < n then .error .copiedPastBuffer else .ok r := by
  obtain ⟨segments, size⟩ := b
  unfold copyToBytes
  cases segments with
  | nil => exact ⟨_, h.pour n, rfl⟩
  | cons s rest =>
      by_cases hn : n ≤ s.bytes.length
      · exact ⟨_, h.takes_cut hn, by simp only [if_pos hn]⟩
      · exact ⟨_, h.pour n, by simp only [if_neg hn]⟩

/-- Whether a number is read off the first segment or from a copy, its bytes are the front. -/
theorem Sound.getNat_eq (h : b.Sound) (width : Nat) : ∃ r, b.Takes width r ∧
    b.getNat width =
      if b.size < width then .error .readPastBuffer else .ok (Bytes.toNat r.1, r.2) := by
  unfold getNat
  by_cases hwidth : width ≤ b.chunk.length
  · exact ⟨_, h.takes_drop width, by simp only [if_pos hwidth, take_chunk hwidth]⟩
  · exact ⟨_, h.pour width, by simp only [if_neg hwidth]⟩

/-- A buffer agrees with what it holds on every call. -/
theorem Sound.agree (h : b.Sound) (call : Call) :
    Agree (call.perform b) (call.expected b.toList) := by
  cases call with
  | push segment => exact .answered (h.push segment) (toList_push segment b)
  | clear => exact .answered sound_empty rfl
  | refill bs => exact .answered (sound_empty.pushBytes bs) (toList_pushBytes bs {})
  | remaining =>
      simp only [Call.perform, Call.expected, ← h.size_eq]
      exact .answered h rfl
  | peek n =>
      simp only [Call.perform, Call.expected, peek_eq_take]
      exact .answered h rfl
  | find needle limit =>
      simp only [Call.perform, Call.expected, find, List.isEmpty_iff, peek_eq_take]
      split
      · exact .refused _
      · exact .answered h rfl
  | advance n =>
      refine h.agree_takeFront (fun _ => .done) (h.takes_drop n) ?_
      exact apply_ite (Except.map _) _ _ _
  | copyToBytes n =>
      obtain ⟨r, htakes, hcopy⟩ := h.copyToBytes_eq n
      refine h.agree_takeFront .bytes htakes ?_
      rw [Call.perform, hcopy]
      exact apply_ite (Except.map _) _ _ _
  | copyToSlice n =>
      refine h.agree_takeFront .bytes (h.pour n) ?_
      exact apply_ite (Except.map _) _ _ _
  | getNat width =>
      obtain ⟨r, htakes, hget⟩ := h.getNat_eq width
      refine h.agree_takeFront (fun front => .number (Bytes.toNat front)) htakes ?_
      rw [Call.perform, hget]
      exact apply_ite (Except.map _) _ _ _

/-! ## 3. Rows of calls -/

/-- A buffer agrees with what it holds on every row of calls. -/
theorem Sound.session (h : b.Sound) (calls : List Call) :
    (session Call.perform b calls).1 = (session Call.expected b.toList calls).1 ∧
      (session Call.perform b calls).2.toList = (session Call.expected b.toList calls).2 ∧
      (session Call.perform b calls).2.Sound := by
  induction calls generalizing b with
  | nil => exact ⟨rfl, rfl, h⟩
  | cons call calls ih =>
      have hagree := h.agree call
      unfold Buffer.session
      generalize call.perform b = made at hagree ⊢
      generalize call.expected b.toList = spelled at hagree ⊢
      cases hagree with
      | refused misuse =>
          obtain ⟨hanswers, hleft⟩ := ih h
          exact ⟨congrArg (List.cons (.error misuse)) hanswers, hleft⟩
      | answered sound holds =>
          subst holds
          obtain ⟨hanswers, hleft⟩ := ih sound
          exact ⟨congrArg (List.cons (.ok _)) hanswers, hleft⟩

theorem sound_after (calls : List Call) : (after calls).Sound :=
  (sound_empty.session calls).2.2

theorem sum_segmentLengths (b : Buffer) : b.segmentLengths.sum = b.toList.length := by
  rw [segmentLengths, toList, List.length_flatMap]

/-- **A buffer in segments is the byte string that it holds.** Calls on an empty buffer are answered
and refused as those on an empty byte string, and leave the same bytes; so is every further call.
The bytes that are left are counted by the lengths of the segments, none of which is empty, so the
first segment has nothing only if the buffer has nothing. A search comes to the first place where
the needle stands within the limit, and to none only if it stands nowhere. Two buffers that hold
the same bytes answer the same from then on, however the bytes are cut. -/
theorem after_eq_byteString (calls : List Call) :
    (session Call.perform {} calls).1 = (session Call.expected [] calls).1 ∧
    (after calls).toList = (session Call.expected [] calls).2 ∧
    (∀ call : Call, Agree (call.perform (after calls)) (call.expected (after calls).toList)) ∧
    (after calls).size = (after calls).segmentLengths.sum ∧
    (∀ segment ∈ (after calls).segments, segment.bytes ≠ []) ∧
    ((after calls).chunk = [] ↔ (after calls).size = 0) ∧
    (∀ needle limit k, needle ≠ [] → ((after calls).find needle limit = .ok (some k) ↔
      Bytes.FirstAt needle ((after calls).toList.take limit) k)) ∧
    (∀ needle limit, needle ≠ [] → ((after calls).find needle limit = .ok none ↔
      ∀ k, ¬ needle <+: ((after calls).toList.take limit).drop k)) ∧
    (∀ calls', (after calls').toList = (after calls).toList → ∀ more,
      (session Call.perform (after calls') more).1 = (session Call.perform (after calls) more).1 ∧
      (session Call.perform (after calls') more).2.toList =
        (session Call.perform (after calls) more).2.toList) := by
  have hsound : (after calls).Sound := sound_after calls
  obtain ⟨hanswers, hholds, -⟩ := sound_empty.session calls
  refine ⟨hanswers, hholds, hsound.agree, ?_, hsound.ne_nil, ?_, fun needle limit k hne => ?_,
    fun needle limit hne => ?_, fun calls' hsame more => ?_⟩
  · rw [sum_segmentLengths, hsound.size_eq]
  · rw [hsound.chunk_eq_nil_iff, hsound.size_eq, List.length_eq_zero_iff]
  · rw [find_eq hne, Except.ok.injEq, Bytes.find?_eq_some_iff]
  · rw [find_eq hne, Except.ok.injEq, Bytes.find?_eq_none_iff]
  · obtain ⟨hanswers', hholds', -⟩ := (sound_after calls').session more
    obtain ⟨hanswers, hholds, -⟩ := hsound.session more
    rw [hsame] at hanswers' hholds'
    exact ⟨hanswers'.trans hanswers.symm, hholds'.trans hholds.symm⟩

end Courier.Buffer
