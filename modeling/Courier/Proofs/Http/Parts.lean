import Courier.Http.Request
import Courier.Proofs.Text.Utf8

/-!
Courier.Proofs.Http.Parts — the parts of a head, as they are written.

A part is spelled by bytes if a reader takes just these bytes whatever comes behind them, and waits
as long as they are not all there (`Spells`). Parts that are spelled one after another are spelled
together (`Spells.andThen`). For each reader there are two facts: what is written as the grammar
has it is spelled, and what was read is written as the grammar has it.
-/

namespace Courier.Http

/-! ## 1. Readers -/

/-- Reads a part from the front of a byte string, and returns it with the bytes behind it. -/
abbrev Reader (α : Type) := Bytes → Except Stop (α × Bytes)

variable {α β : Type}

/-- A reader and another one behind it. -/
def Reader.andThen (p : Reader α) (q : α → Reader β) : Reader β := fun bs =>
  match p bs with
  | .error stop => .error stop
  | .ok (a, rest) => q a rest

theorem Reader.andThen_eq_ok {p : Reader α} {q : α → Reader β} {bs rest : Bytes} {b : β}
    (h : p.andThen q bs = .ok (b, rest)) :
    ∃ a middle, p bs = .ok (a, middle) ∧ q a middle = .ok (b, rest) := by
  unfold andThen at h
  split at h
  · cases h
  · next hp => exact ⟨_, _, hp, h⟩

theorem exists_of_map_eq_ok {f : α → β} {x : Except Stop α} {b : β} (h : x.map f = .ok b) :
    ∃ a, x = .ok a ∧ f a = b := by
  cases x with
  | error stop => cases h
  | ok a => exact ⟨a, rfl, Except.ok.inj h⟩

/-- Bytes that a reader takes for a part. -/
structure Spells (p : Reader α) (front : Bytes) (a : α) : Prop where
  /-- all of them, and nothing of what is behind them -/
  whole : ∀ rest, p (front ++ rest) = .ok (a, rest)
  /-- as long as some are missing, it waits -/
  part : ∀ {bs more : Bytes}, bs ++ more = front → more ≠ [] → p bs = .error .unfinished

namespace Spells

variable {p : Reader α} {q : α → Reader β} {front behind : Bytes} {a : α} {b : β}

theorem andThen (hp : Spells p front a) (hq : Spells (q a) behind b) :
    Spells (p.andThen q) (front ++ behind) b where
  whole rest := by
    rw [List.append_assoc, Reader.andThen, hp.whole]
    exact hq.whole rest
  part {bs more} happend hmore := by
    unfold Reader.andThen
    obtain ⟨missing, hfront, htail⟩ | ⟨bs', rfl, hbehind⟩ := List.append_eq_append_iff.mp happend
    · cases missing with
      | nil =>
          -- The first part is there, and nothing of the second one.
          rw [List.append_nil] at hfront
          have hall := hp.whole []
          rw [List.append_nil, hfront] at hall
          have hnone : [] ++ more = behind := htail
          rw [hall]
          exact hq.part hnone hmore
      | cons b missing => rw [hp.part hfront.symm (List.cons_ne_nil _ _)]
    · rw [hp.whole]
      exact hq.part hbehind.symm hmore

/-- Behind a part comes a reader that takes nothing. -/
theorem map (hp : Spells p front a) (f : α → β) :
    Spells (p.andThen fun a rest => .ok (f a, rest)) front (f a) where
  whole rest := by rw [Reader.andThen, hp.whole]
  part happend hmore := by rw [Reader.andThen, hp.part happend hmore]

end Spells

/-! ## 2. Line ends -/

/-- How a line may end. -/
inductive LineEnd where
  | crlf
  | lf
  deriving DecidableEq, Repr

def LineEnd.bytes : LineEnd → Bytes
  | crlf => [13, 10]
  | lf => [10]

variable {wrong : HeadError} {bs more rest : Bytes}

theorem readLineEnd_bytes (wrong : HeadError) (e : LineEnd) (rest : Bytes) :
    readLineEnd wrong (e.bytes ++ rest) = .ok rest := by
  cases e <;> rfl

/-- What is a part of a line end, but not all of it. -/
theorem LineEnd.part {e : LineEnd} (happend : bs ++ more = e.bytes) (hmore : more ≠ []) :
    bs = [] ∨ bs = [13] := by
  cases e with
  | crlf =>
      rcases bs with _ | ⟨b, _ | ⟨c, bs⟩⟩
      · exact .inl rfl
      · exact .inr (congrArg (fun b => [b]) (List.cons.inj happend).1)
      · have hnil := (List.cons.inj (List.cons.inj happend).2).2
        exact absurd (List.append_eq_nil_iff.mp hnil).2 hmore
  | lf =>
      rcases bs with _ | ⟨b, bs⟩
      · exact .inl rfl
      · exact absurd (List.append_eq_nil_iff.mp (List.cons.inj happend).2).2 hmore

theorem readLineEnd_part {e : LineEnd} (happend : bs ++ more = e.bytes) (hmore : more ≠ []) :
    readLineEnd wrong bs = .error .unfinished := by
  obtain rfl | rfl := e.part happend hmore <;> rfl

theorem exists_of_readLineEnd (h : readLineEnd wrong bs = .ok rest) :
    ∃ e : LineEnd, bs = e.bytes ++ rest := by
  unfold readLineEnd at h
  split at h <;> cases h
  · exact ⟨.crlf, rfl⟩
  · exact ⟨.lf, rfl⟩

/-! ## 3. Words -/

/-- A text of one or more bytes of a kind. -/
structure Word (kind : UInt8 → Bool) where
  text : String
  nonempty : Bytes.ofString text ≠ []
  valid : ∀ b ∈ Bytes.ofString text, kind b = true

variable {kind : UInt8 → Bool}

theorem takeWhile_front {front : Bytes} {b : UInt8} (hfront : ∀ b ∈ front, kind b = true)
    (hb : kind b = false) (rest : Bytes) : (front ++ b :: rest).takeWhile kind = front := by
  rw [List.takeWhile_append_of_pos hfront, List.takeWhile_cons_of_neg (by simp [hb]),
    List.append_nil]

theorem dropWhile_front {front : Bytes} {b : UInt8} (hfront : ∀ b ∈ front, kind b = true)
    (hb : kind b = false) (rest : Bytes) : (front ++ b :: rest).dropWhile kind = b :: rest := by
  rw [List.dropWhile_append_of_pos hfront, List.dropWhile_cons_of_neg (by simp [hb])]

/-- A word is spelled by its bytes and a space. -/
theorem Word.spells (hspace : kind 32 = false) (w : Word kind) :
    Spells (readText kind) (Bytes.ofString w.text ++ [32]) w.text where
  whole rest := by
    have hword : readWord kind (Bytes.ofString w.text ++ 32 :: rest) =
        .ok (Bytes.ofString w.text, rest) := by
      simp only [readWord, dropWhile_front w.valid hspace, takeWhile_front w.valid hspace]
      simp [w.nonempty]
    rw [List.append_assoc, List.singleton_append, readText, hword]
    simp only [bind, Except.bind, Bytes.toString?_ofString]
  part {bs more} happend hmore := by
    have hfront : bs <+: Bytes.ofString w.text := by
      obtain heq | hfront := List.prefix_concat_iff.mp ⟨more, happend⟩
      · rw [heq] at happend
        exact absurd (List.append_right_eq_self.mp happend) hmore
      · exact hfront
    have hdrop : bs.dropWhile kind = [] :=
      List.dropWhile_eq_nil_iff.mpr fun b hb => w.valid b (hfront.mem hb)
    simp only [readText, readWord, hdrop, bind, Except.bind]

theorem exists_of_readWord {front : Bytes} (h : readWord kind bs = .ok (front, rest)) :
    front ≠ [] ∧ (∀ b ∈ front, kind b = true) ∧ bs = front ++ [32] ++ rest := by
  have hsplit := List.takeWhile_append_dropWhile (p := kind) (l := bs)
  unfold readWord at h
  split at h
  · cases h
  · next b behind hdrop =>
    dsimp only at h
    split at h
    · next hend =>
      cases h
      obtain ⟨hb, hne⟩ := Bool.and_eq_true_iff.mp hend
      rw [hdrop, eq_of_beq hb] at hsplit
      refine ⟨fun hnil => by simp [hnil] at hne, fun b hb => List.mem_takeWhile_imp hb, ?_⟩
      rw [List.append_assoc, List.singleton_append]
      exact hsplit.symm
    · cases h

theorem exists_of_readText {text : String} (h : readText kind bs = .ok (text, rest)) :
    ∃ w : Word kind, w.text = text ∧ bs = Bytes.ofString w.text ++ [32] ++ rest := by
  simp only [readText, bind, Except.bind] at h
  cases hword : readWord kind bs with
  | error stop =>
      rw [hword] at h
      cases h
  | ok read =>
      obtain ⟨hne, hvalid, hbs⟩ := exists_of_readWord hword
      rw [hword] at h
      dsimp only at h
      split at h
      · cases h
      · next htext =>
        cases h
        have hbytes := Bytes.ofString_of_toString? htext
        exact ⟨⟨text, by rwa [hbytes], by rwa [hbytes]⟩, rfl, by rw [hbytes]; exact hbs⟩

/-! ## 4. Versions -/

/-- How a version is written, by its last digit. -/
def versionBytes (minor : Fin 2) : Bytes :=
  versionStart ++ [UInt8.ofNat (48 + minor)]

theorem length_versionBytes (minor : Fin 2) : (versionBytes minor).length = 8 := by
  have hstart : versionStart.length = 7 := by decide +kernel
  rw [versionBytes, List.length_append, hstart]
  rfl

theorem all_zip_of_prefix {bs cs : Bytes} (h : bs <+: cs) :
    ((bs.zip cs).all fun p => p.1 == p.2) = true := by
  obtain ⟨more, rfl⟩ := h
  induction bs with
  | nil => rfl
  | cons b bs ih => simpa using ih

theorem spells_version (minor : Fin 2) : Spells readVersion (versionBytes minor) minor.val where
  whole rest := by
    have htake : (versionBytes minor ++ rest).take 8 = versionBytes minor := by
      rw [← length_versionBytes minor, List.take_left]
    have hdrop : (versionBytes minor ++ rest).drop 8 = rest := by
      rw [← length_versionBytes minor, List.drop_left]
    have hlength : ¬ (versionBytes minor).length < 8 := by rw [length_versionBytes]; omega
    simp only [readVersion, htake, hdrop, if_neg hlength]
    match minor with
    | 0 => exact if_pos rfl
    | 1 =>
        have hzero : versionBytes 1 ≠ versionStart ++ [48] := by decide +kernel
        rw [if_neg hzero]
        exact if_pos rfl
  part {bs more} happend hmore := by
    have hlt : bs.length < 8 := by
      have hlength := congrArg List.length happend
      have hpos := List.length_pos_iff.mpr hmore
      rw [List.length_append, length_versionBytes] at hlength
      omega
    have hfront : bs <+: versionStart := by
      obtain heq | hfront := List.prefix_concat_iff.mp ⟨more, happend⟩
      · rw [heq] at happend
        exact absurd (List.append_right_eq_self.mp happend) hmore
      · exact hfront
    simp only [readVersion, List.take_of_length_le (Nat.le_of_lt hlt), if_pos hlt,
      all_zip_of_prefix hfront, if_true]

theorem exists_of_readVersion {n : Nat} (h : readVersion bs = .ok (n, rest)) :
    ∃ minor : Fin 2, minor.val = n ∧ bs = versionBytes minor ++ rest := by
  have hsplit := List.take_append_drop 8 bs
  simp only [readVersion] at h
  split at h
  · split at h <;> cases h
  · split at h
    · next hzero =>
      cases h
      exact ⟨0, rfl, hsplit.symm.trans (congrArg (· ++ bs.drop 8) hzero)⟩
    · split at h
      · next hone =>
        cases h
        exact ⟨1, rfl, hsplit.symm.trans (congrArg (· ++ bs.drop 8) hone)⟩
      · cases h

/-! ## 5. Empty lines -/

theorem skipEmptyLines_bytes (e : LineEnd) (bs : Bytes) :
    skipEmptyLines (e.bytes ++ bs) = skipEmptyLines bs := by
  cases e <;> simp [LineEnd.bytes, skipEmptyLines]

theorem skipEmptyLines_of_ne {b : UInt8} (hcr : b ≠ 13) (hlf : b ≠ 10) (bs : Bytes) :
    skipEmptyLines (b :: bs) = .ok (b :: bs) := by
  simp [skipEmptyLines, hcr, hlf]

theorem exists_of_skipEmptyLines (h : skipEmptyLines bs = .ok rest) :
    ∃ blank : List LineEnd, bs = blank.flatMap LineEnd.bytes ++ rest := by
  fun_induction skipEmptyLines bs with
  | case1 => cases h
  | case2 => cases h
  | case3 bs ih =>
      obtain ⟨blank, rfl⟩ := ih h
      exact ⟨.crlf :: blank, rfl⟩
  | case4 => cases h
  | case5 bs ih =>
      obtain ⟨blank, rfl⟩ := ih h
      exact ⟨.lf :: blank, rfl⟩
  | case6 =>
      cases h
      exact ⟨[], rfl⟩

end Courier.Http
