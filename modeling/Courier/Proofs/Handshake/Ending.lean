import Courier.Proofs.Handshake.Upgrade
import Courier.Proofs.Http.Head

/-!
Courier.Proofs.Handshake.Ending — where a head ends, by its grammar.

Both sides of the upgrade look for the first empty line that has a carriage return in front of each
of its two line feeds. The grammar of a head lets every line end without one. A head ends that way
just if its last two lines do (`Http.Head.headEnd_suffix_iff`), and if all of its lines do and
nothing stands before them, it does not end so before its end (`Http.Head.headSize?_of_strict`).
-/

namespace Courier

open Http

theorem Upgrade.headEnd_eq : Upgrade.headEnd = [13, 10, 13, 10] := by decide +kernel

/-! ## 1. The last two lines -/

/-- A line has no carriage return in it. -/
theorem Http.FieldLine.ne_of_mem (line : FieldLine) : ∀ b ∈ 58 :: line.body, b ≠ 13 := by
  intro b hb
  rcases List.mem_cons.mp hb with rfl | hb
  · decide
  · rintro rfl
    exact absurd (line.isValue_body 13 hb) (by decide)

namespace Http.Head

/-- The last header field and the empty line behind it end with carriage returns. -/
structure EndsStrictly (head : Head) : Prop where
  last : head.last = .crlf
  line : ∀ line ∈ head.lines.getLast?, line.ending = .crlf

theorem exists_bytes_eq {head : Head} (hlines : head.lines ≠ []) : ∃ front line,
    head.lines.getLast? = some line ∧
      head.bytes = front ++ 58 :: line.body ++ line.ending.bytes ++ head.last.bytes := by
  obtain hnil | ⟨before, line, hconcat⟩ := List.eq_nil_or_concat head.lines
  · exact absurd hnil hlines
  rw [List.concat_eq_append] at hconcat
  refine ⟨head.front ++ before.flatMap FieldLine.bytes ++ Bytes.ofString line.name.text, line,
    by rw [hconcat, List.getLast?_concat], ?_⟩
  simp only [bytes, fieldBytes, hconcat, List.flatMap_append, List.flatMap_singleton,
    FieldLine.bytes, List.append_assoc, List.cons_append]

/-- No carriage return stands before the end of a line. -/
theorem line_ne_concat (line : FieldLine) (front start : Bytes) :
    front ++ 58 :: line.body ≠ start ++ [13] := by
  intro heq
  obtain hnil | ⟨init, b, hconcat⟩ := List.eq_nil_or_concat (58 :: line.body)
  · cases hnil
  · rw [List.concat_eq_append] at hconcat
    rw [hconcat, ← List.append_assoc] at heq
    have hb : b = 13 := List.singleton_inj.mp (List.append_inj' heq rfl).2
    exact line.ne_of_mem b (hconcat ▸ List.mem_append_right _ List.mem_cons_self) hb

/-- Of what ends as a head does, the last two lines end with carriage returns. -/
theorem endings_of_headEnd_suffix (line : FieldLine) {front : Bytes} {ending last : LineEnd}
    (h : Upgrade.headEnd <:+ front ++ 58 :: line.body ++ ending.bytes ++ last.bytes) :
    ending = .crlf ∧ last = .crlf := by
  have hend : Upgrade.headEnd = [13, 10] ++ [13, 10] := Upgrade.headEnd_eq
  obtain ⟨start, hstart⟩ := h
  rw [hend, ← List.append_assoc] at hstart
  cases last with
  | lf =>
      -- The byte before the last line feed is the line feed of the line before.
      have hline : ∃ more, ending.bytes = more ++ [10] := by
        cases ending
        · exact ⟨[13], rfl⟩
        · exact ⟨[], rfl⟩
      obtain ⟨more, hmore⟩ := hline
      have hfront : start ++ [13, 10] ++ [13] ++ [10] =
          front ++ 58 :: line.body ++ ending.bytes ++ [10] := by
        rw [List.append_assoc _ [13] [10]]
        exact hstart
      rw [List.append_cancel_right_eq, hmore, ← List.append_assoc] at hfront
      exact absurd (List.append_inj' hfront rfl).2 (by decide)
  | crlf =>
      rw [LineEnd.bytes, List.append_cancel_right_eq] at hstart
      cases ending with
      | crlf => exact ⟨rfl, rfl⟩
      | lf =>
          have hfront : start ++ [13] ++ [10] = front ++ 58 :: line.body ++ [10] := by
            rw [List.append_assoc _ [13] [10]]
            exact hstart
          rw [List.append_cancel_right_eq] at hfront
          exact absurd hfront.symm (line_ne_concat line front start)

theorem headEnd_suffix_iff {head : Head} (hlines : head.lines ≠ []) :
    Upgrade.headEnd <:+ head.bytes ↔ head.EndsStrictly := by
  obtain ⟨front, line, hlast, hbytes⟩ := exists_bytes_eq hlines
  constructor
  · intro hsuffix
    rw [hbytes] at hsuffix
    obtain ⟨hending, hcrlf⟩ := endings_of_headEnd_suffix line hsuffix
    refine ⟨hcrlf, fun other hother => ?_⟩
    rw [hlast] at hother
    rw [← Option.some.inj hother, hending]
  · rintro ⟨hcrlf, hline⟩
    rw [hbytes, hcrlf, hline line hlast, List.append_assoc]
    exact List.suffix_append _ _

end Http.Head

/-! ## 2. Lines that end strictly -/

namespace Upgrade

theorem findFrom_of_ne {line : Bytes} (hline : ∀ b ∈ line, b ≠ 13) (offset : Nat) (rest : Bytes) :
    Bytes.findFrom headEnd offset (line ++ rest) =
      Bytes.findFrom headEnd (offset + line.length) rest := by
  induction line generalizing offset with
  | nil => rfl
  | cons b line ih =>
      have hb : b ≠ 13 := hline b List.mem_cons_self
      have hfront : headEnd.isPrefixOf (b :: (line ++ rest)) = false := by
        simp [headEnd_eq, List.isPrefixOf, hb.symm]
      rw [List.cons_append, Bytes.findFrom, hfront, if_neg Bool.false_ne_true,
        ih (fun b' hb' => hline b' (List.mem_cons_of_mem _ hb')), List.length_cons]
      congr 1
      omega

/-- Between two lines no head ends. -/
theorem findFrom_lineEnd {b : UInt8} (hb : b ≠ 13) (offset : Nat) (rest : Bytes) :
    Bytes.findFrom headEnd offset (13 :: 10 :: b :: rest) =
      Bytes.findFrom headEnd (offset + 2) (b :: rest) := by
  have hcr : headEnd.isPrefixOf (13 :: 10 :: b :: rest) = false := by
    simp [headEnd_eq, List.isPrefixOf, hb.symm]
  have hlf : headEnd.isPrefixOf (10 :: b :: rest) = false := by
    simp [headEnd_eq, List.isPrefixOf]
  rw [Bytes.findFrom, hcr, if_neg Bool.false_ne_true, Bytes.findFrom, hlf,
    if_neg Bool.false_ne_true]

/-- Lines with their ends, and an empty one. -/
def strictLines (lines : List Bytes) : Bytes :=
  lines.flatMap (· ++ [13, 10]) ++ [13, 10]

theorem strictLines_cons (line : Bytes) (lines : List Bytes) :
    strictLines (line :: lines) = line ++ 13 :: 10 :: strictLines lines := by
  simp only [strictLines, List.flatMap_cons, List.append_assoc, List.cons_append, List.nil_append]

/-- The line has something in it and no carriage return. -/
def IsLine (line : Bytes) : Prop :=
  line ≠ [] ∧ ∀ b ∈ line, b ≠ 13

theorem findFrom_strictLines {lines : List Bytes} (hne : lines ≠ [])
    (hlines : ∀ line ∈ lines, IsLine line) (offset : Nat) :
    ∃ n, Bytes.findFrom headEnd offset (strictLines lines) = some n ∧
      n + headEnd.length = offset + (strictLines lines).length := by
  have hlength : headEnd.length = 4 := by decide +kernel
  induction lines generalizing offset with
  | nil => exact absurd rfl hne
  | cons line lines ih =>
      have hline := hlines line List.mem_cons_self
      rw [strictLines_cons, findFrom_of_ne hline.2]
      cases lines with
      | nil =>
          refine ⟨offset + line.length, ?_, ?_⟩
          · rw [Bytes.findFrom, headEnd_eq]
            rfl
          · simp [hlength, strictLines, Nat.add_assoc]
      | cons next lines =>
          have hnext := hlines next (List.mem_cons_of_mem _ List.mem_cons_self)
          obtain ⟨b, behind, rfl⟩ := List.exists_cons_of_ne_nil hnext.1
          obtain ⟨n, hfind, hn⟩ := ih (List.cons_ne_nil _ _)
            (fun other hother => hlines other (List.mem_cons_of_mem _ hother))
            (offset + line.length + 2)
          have hfront : strictLines ((b :: behind) :: lines) =
              b :: (behind ++ 13 :: 10 :: strictLines lines) :=
            strictLines_cons (b :: behind) lines
          have hb : b ≠ 13 := hnext.2 b List.mem_cons_self
          refine ⟨n, ?_, ?_⟩
          · rw [hfront, findFrom_lineEnd hb, ← hfront]
            exact hfind
          · rw [hn, List.length_append, List.length_cons, List.length_cons]
            omega

/-- **Strict lines end with their first empty line.** -/
theorem headSize?_strictLines {lines : List Bytes} (hne : lines ≠ [])
    (hlines : ∀ line ∈ lines, IsLine line) :
    headSize? (strictLines lines) = some (strictLines lines).length := by
  obtain ⟨n, hfind, hn⟩ := findFrom_strictLines hne hlines 0
  rw [Nat.zero_add] at hn
  rw [headSize?, Bytes.find?, hfind, Option.map_some, hn]

end Upgrade

/-! ## 3. Strict heads -/

namespace Http

def FieldLine.content (line : FieldLine) : Bytes :=
  Bytes.ofString line.name.text ++ 58 :: line.body

theorem FieldLine.isLine_content (line : FieldLine) : Upgrade.IsLine line.content := by
  refine ⟨by simp [content], fun b hb => ?_⟩
  rcases List.mem_append.mp hb with hb | hb
  · exact (ne_of_isToken (line.name.valid b hb)).1
  · exact line.ne_of_mem b hb

namespace Head

/-- No empty lines stand before the request line, and all lines end with carriage returns. -/
structure Strict (head : Head) : Prop where
  blank : head.blank = []
  ending : head.ending = .crlf
  lines : ∀ line ∈ head.lines, line.ending = .crlf
  last : head.last = .crlf

def requestLine (head : Head) : Bytes :=
  Bytes.ofString head.method.text ++ [32] ++ Bytes.ofString head.target.text ++ [32] ++
    versionBytes head.minor

theorem isLine_requestLine (head : Head) : Upgrade.IsLine head.requestLine := by
  have hversion : ∀ minor, ∀ b ∈ versionBytes minor, b ≠ 13 := by decide +kernel
  refine ⟨by simp [requestLine], fun b hb => ?_⟩
  simp only [requestLine, List.mem_append, List.mem_singleton] at hb
  rcases hb with (((hb | rfl) | hb) | rfl) | hb
  · exact (ne_of_isToken (head.method.valid b hb)).1
  · decide
  · rintro rfl
    exact absurd (head.target.valid 13 hb) (by decide)
  · decide
  · exact hversion _ b hb

theorem flatMap_lines {lines : List FieldLine} (h : ∀ line ∈ lines, line.ending = .crlf) :
    lines.flatMap FieldLine.bytes = (lines.map FieldLine.content).flatMap (· ++ [13, 10]) := by
  rw [List.flatMap_map]
  refine List.flatMap_congr fun line hline => ?_
  rw [FieldLine.bytes, FieldLine.content, h line hline, LineEnd.bytes, List.append_assoc,
    List.cons_append]

theorem bytes_of_strict {head : Head} (h : head.Strict) :
    head.bytes = Upgrade.strictLines (head.requestLine :: head.lines.map FieldLine.content) := by
  simp only [bytes, front, fieldBytes, h.blank, h.ending, h.last, flatMap_lines h.lines,
    LineEnd.bytes, Upgrade.strictLines, requestLine, List.flatMap_nil, List.flatMap_cons,
    List.nil_append, List.append_assoc]

/-- **A strict head ends with its first empty line.** -/
theorem headSize?_of_strict {head : Head} (h : head.Strict) :
    Upgrade.headSize? head.bytes = some head.bytes.length := by
  rw [bytes_of_strict h]
  refine Upgrade.headSize?_strictLines (List.cons_ne_nil _ _) fun line hline => ?_
  rcases List.mem_cons.mp hline with rfl | hline
  · exact head.isLine_requestLine
  · obtain ⟨field, -, rfl⟩ := List.mem_map.mp hline
    exact field.isLine_content

end Head

end Http

end Courier
