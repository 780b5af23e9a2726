import Courier.Proofs.Http.Parts

/-!
Courier.Proofs.Http.Head — the grammar of a request's head.

A head is empty lines, a request line, header fields and an empty line; each line ends with or
without a carriage return. The grammar is a type, `Head`: what it admits is carried by its parts,
and `Head.bytes` is its written form. Reading is exact for it: a head is read as what it says and no
byte behind it is looked at (`Head.read_bytes`), a head that is cut off is waited for
(`Head.read_part`), and whatever is read is a head (`Head.exists_of_read`).
-/

namespace Courier.Http

variable {room : Nat} {bs more rest : Bytes}

/-! ## 1. Kinds of bytes -/

theorem toNat_lt_of_isToken {b : UInt8} (h : isToken b = true) : b.toNat < 128 := by
  have hmarks : ∀ b ∈ Bytes.ofString "!#$%&'*+-.^_`|~", b.toNat < 128 := by decide +kernel
  simp only [isToken, Bool.or_eq_true, Bool.and_eq_true, decide_eq_true_eq,
    UInt8.le_iff_toNat_le] at h
  rcases h with ((⟨-, h⟩ | ⟨-, h⟩) | ⟨-, h⟩) | h
  · exact Nat.lt_of_le_of_lt h (by decide)
  · exact Nat.lt_of_le_of_lt h (by decide)
  · exact Nat.lt_of_le_of_lt h (by decide)
  · exact hmarks b (List.contains_iff_mem.mp h)

theorem ne_of_isToken {b : UInt8} (h : isToken b = true) : b ≠ 13 ∧ b ≠ 10 := by
  have hcr : isToken 13 = false := by decide +kernel
  have hlf : isToken 10 = false := by decide +kernel
  constructor
  · rintro rfl
    exact absurd h (Bool.eq_false_iff.mp hcr)
  · rintro rfl
    exact absurd h (Bool.eq_false_iff.mp hlf)

theorem toNat_lt_of_isPadding {b : UInt8} (h : isPadding b = true) : b.toNat < 128 := by
  simp only [isPadding, Bool.or_eq_true, beq_iff_eq] at h
  rcases h with rfl | rfl <;> decide

theorem isValue_of_isPadding {b : UInt8} (h : isPadding b = true) : isValue b = true := by
  simp only [isPadding, Bool.or_eq_true, beq_iff_eq] at h
  rcases h with rfl | rfl <;> decide

/-- A line end begins with a byte that no value has. -/
theorem LineEnd.bytes_eq_cons (e : LineEnd) :
    ∃ b bs, e.bytes = b :: bs ∧ isPadding b = false ∧ isValue b = false := by
  cases e with
  | crlf => exact ⟨13, [10], rfl, by decide, by decide⟩
  | lf => exact ⟨10, [], rfl, by decide, by decide⟩

/-! ## 2. Header fields -/

/-- A line with a header field: white space may stand before the value, and is part of it at its
end. -/
structure FieldLine where
  name : Word isToken
  padding : Bytes
  pads : ∀ b ∈ padding, isPadding b = true
  value : Bytes
  valid : ∀ b ∈ value, isValue b = true
  ending : LineEnd

namespace FieldLine

variable (line : FieldLine)

/-- What stands between the colon and the line end. -/
def body : Bytes :=
  line.padding ++ line.value

def bytes : Bytes :=
  Bytes.ofString line.name.text ++ 58 :: (line.body ++ line.ending.bytes)

def field : Field where
  name := line.name.text
  value := Text.stripped isPadding line.value

theorem isValue_body : ∀ b ∈ line.body, isValue b = true := by
  intro b hb
  rcases List.mem_append.mp hb with hb | hb
  · exact isValue_of_isPadding (line.pads b hb)
  · exact line.valid b hb

theorem stripped_body : Text.stripped isPadding line.body = line.field.value := by
  have hempty : ∀ b ∈ ([] : Bytes), isPadding b = true := fun b hb => nomatch hb
  have hpadded := Text.stripped_padded line.pads line.value hempty
  rwa [List.append_nil] at hpadded

theorem bytes_eq_cons : ∃ b bs, line.bytes = b :: bs ∧ isToken b = true := by
  obtain ⟨b, name, hname⟩ := List.exists_cons_of_ne_nil line.name.nonempty
  refine ⟨b, _, by rw [bytes, hname]; rfl, line.name.valid b ?_⟩
  rw [hname]
  exact List.mem_cons_self

end FieldLine

theorem dropWhile_append_cons {kind : UInt8 → Bool} {b : UInt8} (hb : kind b = false)
    (bs rest : Bytes) : (bs ++ b :: rest).dropWhile kind = bs.dropWhile kind ++ b :: rest := by
  rw [List.dropWhile_append, List.dropWhile_cons_of_neg (by simp [hb])]
  split
  · next hempty => rw [List.isEmpty_iff.mp hempty, List.nil_append]
  · rfl

/-- What comes behind the name and the colon. -/
theorem readField_name (name : Word isToken) (rest : Bytes) :
    readField (Bytes.ofString name.text ++ 58 :: rest) =
      (readLineEnd .fieldValue ((rest.dropWhile isPadding).dropWhile isValue)).map fun rest' =>
        ({ name := name.text,
           value := ((rest.dropWhile isPadding).takeWhile isValue).rdropWhile isPadding },
          rest') := by
  have hcolon : isToken 58 = false := by decide +kernel
  have hnonempty : (Bytes.ofString name.text).isEmpty = false := by
    rw [List.isEmpty_eq_false_iff]
    exact name.nonempty
  simp only [readField, takeWhile_front name.valid hcolon, dropWhile_front name.valid hcolon,
    hnonempty, Bytes.toString?_ofString]
  rfl

theorem readField_bytes (line : FieldLine) (rest : Bytes) :
    readField (line.bytes ++ rest) = .ok (line.field, rest) := by
  obtain ⟨b, behind, hending, hpadding, hvalue⟩ := line.ending.bytes_eq_cons
  have hbody : ∀ b ∈ line.body.dropWhile isPadding, isValue b = true := fun b hb =>
    line.isValue_body b ((List.dropWhile_suffix _).mem hb)
  have hdrop : (line.body ++ line.ending.bytes ++ rest).dropWhile isPadding =
      line.body.dropWhile isPadding ++ b :: (behind ++ rest) := by
    rw [hending, List.append_assoc, List.cons_append, dropWhile_append_cons hpadding]
  have hread : readLineEnd .fieldValue (b :: (behind ++ rest)) = .ok rest := by
    rw [← List.cons_append, ← hending]
    exact readLineEnd_bytes _ _ _
  rw [FieldLine.bytes, List.append_assoc, List.cons_append, readField_name, hdrop,
    takeWhile_front hbody hvalue, dropWhile_front hbody hvalue, hread, ← Text.stripped,
    line.stripped_body]
  rfl

/-- As long as only a part of the name is there, no colon is. -/
theorem readField_namePart {name : Word isToken} (hbs : bs <+: Bytes.ofString name.text)
    (hne : bs ≠ []) : readField bs = .error .unfinished := by
  have hvalid : ∀ b ∈ bs, isToken b = true := fun b hb => name.valid b (hbs.mem hb)
  simp only [readField, List.dropWhile_eq_nil_iff.mpr hvalid, List.takeWhile_eq_self_iff.mpr hvalid]
  rw [if_neg (by simpa using hne)]

/-- As long as only a part of what is behind the colon is there, no line end is. -/
theorem readField_bodyPart {line : FieldLine} (hbs : bs <+: line.body) :
    readField (Bytes.ofString line.name.text ++ 58 :: bs) = .error .unfinished := by
  have hvalid : ∀ b ∈ bs.dropWhile isPadding, isValue b = true := fun b hb =>
    line.isValue_body b (hbs.mem ((List.dropWhile_suffix _).mem hb))
  rw [readField_name, List.dropWhile_eq_nil_iff.mpr hvalid]
  rfl

/-- And the first byte of a line end is no line end yet. -/
theorem readField_return (line : FieldLine) :
    readField (Bytes.ofString line.name.text ++ 58 :: (line.body ++ [13])) =
      .error .unfinished := by
  have hvalid : ∀ b ∈ line.body.dropWhile isPadding, isValue b = true := fun b hb =>
    line.isValue_body b ((List.dropWhile_suffix _).mem hb)
  rw [readField_name, dropWhile_append_cons (by decide), dropWhile_front hvalid (by decide)]
  rfl

/-- A field is waited for from its first byte on. -/
theorem readField_part {line : FieldLine} (happend : bs ++ more = line.bytes) (hmore : more ≠ [])
    (hbs : bs ≠ []) : readField bs = .error .unfinished := by
  rw [FieldLine.bytes] at happend
  obtain ⟨missing, hall, -⟩ | ⟨behind, rfl, htail⟩ := List.append_eq_append_iff.mp happend
  · exact readField_namePart ⟨missing, hall.symm⟩ hbs
  cases behind with
  | nil =>
      rw [List.append_nil]
      exact readField_namePart List.prefix_rfl line.name.nonempty
  | cons b behind =>
      obtain ⟨rfl, hbody⟩ := List.cons.inj htail
      obtain ⟨missing, hall, -⟩ | ⟨ending, rfl, hending⟩ :=
        List.append_eq_append_iff.mp hbody.symm
      · exact readField_bodyPart ⟨missing, hall.symm⟩
      obtain rfl | rfl := line.ending.part hending.symm hmore
      · rw [List.append_nil]
        exact readField_bodyPart List.prefix_rfl
      · exact readField_return line

/-- A value does not begin with white space. -/
theorem dropWhile_isPadding_value (bs : Bytes) :
    ((bs.dropWhile isPadding).takeWhile isValue).dropWhile isPadding =
      (bs.dropWhile isPadding).takeWhile isValue := by
  cases hdrop : bs.dropWhile isPadding with
  | nil => rfl
  | cons b behind =>
      have hb : ¬ isPadding b = true := by
        have hhead := List.head_dropWhile_not isPadding (l := bs) (by simp [hdrop])
        simpa [hdrop] using hhead
      by_cases hvalue : isValue b = true
      · rw [List.takeWhile_cons_of_pos hvalue, List.dropWhile_cons_of_neg hb]
      · rw [List.takeWhile_cons_of_neg hvalue, List.dropWhile_nil]

/-- What is read as a field begins with a name and a colon. -/
theorem exists_name_of_readField {r : Field × Bytes} (h : readField bs = .ok r) :
    ∃ (name : Word isToken) (behind : Bytes), bs = Bytes.ofString name.text ++ 58 :: behind := by
  have hsplit := List.takeWhile_append_dropWhile (p := isToken) (l := bs)
  have hvalid : ∀ b ∈ bs.takeWhile isToken, isToken b = true :=
    fun b hb => List.mem_takeWhile_imp hb
  have hname : Bytes.ofString (Bytes.asciiText (bs.takeWhile isToken)) = bs.takeWhile isToken :=
    Bytes.ofString_asciiText fun b hb => toNat_lt_of_isToken (hvalid b hb)
  cases hdrop : bs.dropWhile isToken with
  | nil =>
      simp only [readField, hdrop] at h
      split at h <;> cases h
  | cons b behind =>
      by_cases hcolon : ((bs.takeWhile isToken).isEmpty || b != 58) = true
      · simp only [readField, hdrop, if_pos hcolon] at h
        cases h
      rw [Bool.not_eq_true, Bool.or_eq_false_iff] at hcolon
      obtain ⟨hnonempty, hb⟩ := hcolon
      obtain rfl : b = 58 := by simpa using hb
      have hne := List.isEmpty_eq_false_iff.mp hnonempty
      refine ⟨⟨Bytes.asciiText (bs.takeWhile isToken), by rwa [hname], by rwa [hname]⟩, behind, ?_⟩
      rw [hdrop] at hsplit
      rw [hname]
      exact hsplit.symm

theorem exists_of_readField {f : Field} (h : readField bs = .ok (f, rest)) :
    ∃ line : FieldLine, line.field = f ∧ bs = line.bytes ++ rest := by
  obtain ⟨name, behind, rfl⟩ := exists_name_of_readField h
  rw [readField_name] at h
  obtain ⟨rest', hend, heq⟩ := exists_of_map_eq_ok h
  cases heq
  obtain ⟨ending, hending⟩ := exists_of_readLineEnd hend
  let line : FieldLine :=
    { name, ending
      padding := behind.takeWhile isPadding
      pads := fun b hb => List.mem_takeWhile_imp hb
      value := (behind.dropWhile isPadding).takeWhile isValue
      valid := fun b hb => List.mem_takeWhile_imp hb }
  have hbehind : behind = line.body ++ ending.bytes ++ rest := by
    rw [List.append_assoc, ← hending, FieldLine.body, List.append_assoc,
      List.takeWhile_append_dropWhile, List.takeWhile_append_dropWhile]
  refine ⟨line, ?_, ?_⟩
  · show Field.mk name.text (Text.stripped isPadding line.value) = _
    rw [Text.stripped, dropWhile_isPadding_value]
  · rw [FieldLine.bytes, List.append_assoc, List.cons_append, ← hbehind]

/-! ## 3. Rows of header fields -/

theorem readFields_nil (room : Nat) : readFields room [] = .error .unfinished := by
  rw [readFields.eq_def]

theorem readFields_ending {b : UInt8} (hb : b = 13 ∨ b = 10) (room : Nat) (bs : Bytes) :
    readFields room (b :: bs) = (readLineEnd .lineEnd (b :: bs)).map fun rest => ([], rest) := by
  rw [readFields.eq_def]
  exact if_pos (by simpa using hb)

/-- What does not begin with a line end is read as a field. -/
theorem readFields_field {b : UInt8} (hb : ¬ (b = 13 ∨ b = 10)) (room : Nat) (bs : Bytes) :
    readFields room (b :: bs) =
      match readField (b :: bs), room with
      | .error stop, _ => .error stop
      | .ok _, 0 => .error (.malformed .tooManyFields)
      | .ok (f, rest), room + 1 => (readFields room rest).map fun r => (f :: r.1, r.2) := by
  rw [readFields.eq_def]
  exact if_neg (by simpa using hb)

theorem readFields_line (line : FieldLine) (room : Nat) (rest : Bytes) :
    readFields (room + 1) (line.bytes ++ rest) =
      (readFields room rest).map fun r => (line.field :: r.1, r.2) := by
  have hread := readField_bytes line rest
  obtain ⟨b, bs, hbytes, hb⟩ := line.bytes_eq_cons
  rw [hbytes, List.cons_append] at hread ⊢
  rw [readFields_field (not_or.mpr (ne_of_isToken hb)), hread]

/-- **More fields than there is room for are too many**, whatever comes behind them. -/
theorem readFields_of_lt {lines : List FieldLine} (hroom : room < lines.length) (rest : Bytes) :
    readFields room (lines.flatMap FieldLine.bytes ++ rest) =
      .error (.malformed .tooManyFields) := by
  induction lines generalizing room with
  | nil => exact absurd hroom (Nat.not_lt_zero _)
  | cons line lines ih =>
      rw [List.flatMap_cons, List.append_assoc]
      cases room with
      | zero =>
          have hread := readField_bytes line (lines.flatMap FieldLine.bytes ++ rest)
          obtain ⟨b, bs, hbytes, hb⟩ := line.bytes_eq_cons
          rw [hbytes, List.cons_append] at hread ⊢
          rw [readFields_field (not_or.mpr (ne_of_isToken hb)), hread]
      | succ room =>
          rw [readFields_line, ih (Nat.lt_of_succ_lt_succ hroom)]
          rfl

theorem readFields_part {line : FieldLine} (happend : bs ++ more = line.bytes) (hmore : more ≠ [])
    (room : Nat) : readFields room bs = .error .unfinished := by
  cases bs with
  | nil => exact readFields_nil room
  | cons b bs =>
      have hread := readField_part happend hmore (List.cons_ne_nil _ _)
      obtain ⟨b', bytes, hbytes, hb⟩ := line.bytes_eq_cons
      rw [hbytes] at happend
      rw [← (List.cons.inj happend).1] at hb
      rw [readFields_field (not_or.mpr (ne_of_isToken hb)), hread]

/-- A row of fields is spelled by its lines and an empty line. -/
theorem spells_fields {lines : List FieldLine} (hroom : lines.length ≤ room) (last : LineEnd) :
    Spells (readFields room) (lines.flatMap FieldLine.bytes ++ last.bytes)
      (lines.map FieldLine.field) := by
  induction lines generalizing room with
  | nil =>
      refine ⟨fun rest => ?_, fun happend hmore => ?_⟩
      · cases last
        · exact readFields_ending (.inl rfl) room _
        · exact readFields_ending (.inr rfl) room _
      · obtain rfl | rfl := last.part happend hmore
        · exact readFields_nil room
        · exact readFields_ending (.inl rfl) room []
  | cons line lines ih =>
      obtain ⟨room, rfl⟩ := Nat.exists_eq_add_of_le' (Nat.le_trans (Nat.succ_pos _) hroom)
      have hrest := ih (Nat.le_of_succ_le_succ hroom)
      rw [List.flatMap_cons, List.append_assoc]
      refine ⟨fun rest => ?_, fun {bs more} happend hmore => ?_⟩
      · rw [List.append_assoc, readFields_line, hrest.whole]
        rfl
      · obtain ⟨missing, hline, htail⟩ | ⟨bs, rfl, htail⟩ := List.append_eq_append_iff.mp happend
        · cases missing with
          | nil =>
              rw [List.append_nil] at hline
              rw [← hline, ← List.append_nil line.bytes, readFields_line, readFields_nil]
              rfl
          | cons b missing => exact readFields_part hline.symm (List.cons_ne_nil _ _) _
        · rw [readFields_line, hrest.part htail.symm hmore]
          rfl

/-- All that reading a row of fields can come to, if it comes to anything. -/
theorem readFields_cases {fields : List Field} (h : readFields room bs = .ok (fields, rest)) :
    (fields = [] ∧ readLineEnd .lineEnd bs = .ok rest) ∨
    ∃ room' f fields' middle, room = room' + 1 ∧ fields = f :: fields' ∧
      readField bs = .ok (f, middle) ∧ readFields room' middle = .ok (fields', rest) := by
  cases bs with
  | nil =>
      rw [readFields_nil] at h
      cases h
  | cons b bs =>
      by_cases hb : b = 13 ∨ b = 10
      · left
        rw [readFields_ending hb] at h
        obtain ⟨rest', hend, heq⟩ := exists_of_map_eq_ok h
        cases heq
        exact ⟨rfl, hend⟩
      · right
        rw [readFields_field hb] at h
        split at h
        · cases h
        · cases h
        · next hfield =>
          obtain ⟨⟨fields', rest'⟩, hrest, heq⟩ := exists_of_map_eq_ok h
          cases heq
          exact ⟨_, _, fields', _, rfl, rfl, hfield, hrest⟩

theorem exists_of_readFields {fields : List Field} (h : readFields room bs = .ok (fields, rest)) :
    ∃ (lines : List FieldLine) (last : LineEnd), lines.length ≤ room ∧
      lines.map FieldLine.field = fields ∧
      bs = lines.flatMap FieldLine.bytes ++ last.bytes ++ rest := by
  induction room generalizing bs fields with
  | zero =>
      obtain ⟨rfl, hend⟩ | ⟨_, _, _, _, hroom, -⟩ := readFields_cases h
      · obtain ⟨last, rfl⟩ := exists_of_readLineEnd hend
        exact ⟨[], last, Nat.le_refl _, rfl, rfl⟩
      · cases hroom
  | succ room ih =>
      obtain ⟨rfl, hend⟩ | ⟨_, f, fields', middle, hroom, rfl, hfield, hrest⟩ := readFields_cases h
      · obtain ⟨last, rfl⟩ := exists_of_readLineEnd hend
        exact ⟨[], last, Nat.zero_le _, rfl, rfl⟩
      · cases hroom
        obtain ⟨line, rfl, rfl⟩ := exists_of_readField hfield
        obtain ⟨lines, last, hlength, rfl, rfl⟩ := ih hrest
        refine ⟨line :: lines, last, Nat.succ_le_succ hlength, rfl, ?_⟩
        simp only [List.flatMap_cons, List.append_assoc]

/-! ## 4. Heads -/

/-- The head of a request. -/
structure Head where
  blank : List LineEnd
  method : Word isToken
  target : Word isTarget
  minor : Fin 2
  ending : LineEnd
  lines : List FieldLine
  last : LineEnd

namespace Head

variable (head : Head)

/-- Everything up to the end of the request line. -/
def front : Bytes :=
  head.blank.flatMap LineEnd.bytes ++ (Bytes.ofString head.method.text ++ [32]) ++
    ((Bytes.ofString head.target.text ++ [32]) ++
      (versionBytes head.minor ++ head.ending.bytes))

/-- The header fields and the empty line behind them. -/
def fieldBytes : Bytes :=
  head.lines.flatMap FieldLine.bytes ++ head.last.bytes

def bytes : Bytes :=
  head.front ++ head.fieldBytes

/-- The request that it is the head of. -/
def request : Request where
  method := head.method.text
  target := head.target.text
  minor := head.minor
  fields := head.lines.map FieldLine.field
  size := head.bytes.length

end Head

/-! ## 5. Reading a head -/

/-- Reads empty lines and the method. -/
def readMethod : Reader String := fun bs =>
  match skipEmptyLines bs with
  | .error stop => .error stop
  | .ok rest => readText isToken rest

/-- Reads up to the end of the request line. -/
def readFront : Reader (String × String × Nat) :=
  readMethod.andThen fun method =>
    Reader.andThen (readText isTarget) fun target =>
      Reader.andThen readVersion fun minor bs =>
        (readLineEnd .lineEnd bs).map ((method, target, minor), ·)

/-- Reads a head; how long it was is left open. -/
def readHead (room : Nat) : Reader Request :=
  readFront.andThen fun (method, target, minor) =>
    Reader.andThen (readFields room) fun fields rest =>
      .ok ({ method, target, minor, fields, size := 0 }, rest)

theorem Request.read_eq (room : Nat) (bs : Bytes) :
    Request.read room bs =
      (readHead room bs).map fun r => { r.1 with size := bs.length - r.2.length } := by
  simp only [Request.read, readHead, readFront, readMethod, Reader.andThen, bind, Except.bind, pure,
    Except.pure]
  cases skipEmptyLines bs with
  | error stop => rfl
  | ok rest =>
  dsimp only
  cases readText isToken rest with
  | error stop => rfl
  | ok read =>
  dsimp only
  cases readText isTarget read.2 with
  | error stop => rfl
  | ok read =>
  dsimp only
  cases readVersion read.2 with
  | error stop => rfl
  | ok read =>
  dsimp only
  cases readLineEnd .lineEnd read.2 with
  | error stop => rfl
  | ok rest =>
  dsimp only [Except.map]
  cases readFields room rest with
  | error stop => rfl
  | ok read => rfl

theorem skipEmptyLines_word {word : Word isToken} {front : Bytes}
    (hfront : front <+: Bytes.ofString word.text ++ rest) (hne : front ≠ []) :
    skipEmptyLines front = .ok front := by
  obtain ⟨b, front, rfl⟩ := List.exists_cons_of_ne_nil hne
  obtain ⟨b', name, hname⟩ := List.exists_cons_of_ne_nil word.nonempty
  rw [hname, List.cons_append, List.cons_prefix_cons] at hfront
  obtain ⟨rfl, -⟩ := hfront
  obtain ⟨hcr, hlf⟩ := ne_of_isToken (word.valid b (hname ▸ List.mem_cons_self))
  exact skipEmptyLines_of_ne hcr hlf front

theorem spells_method (method : Word isToken) :
    Spells readMethod (Bytes.ofString method.text ++ [32]) method.text := by
  have hword := method.spells (by decide +kernel)
  refine ⟨fun rest => ?_, fun {bs more} happend hmore => ?_⟩
  · have hfront : Bytes.ofString method.text ++ [32] ++ rest <+:
        Bytes.ofString method.text ++ ([32] ++ rest) :=
      ⟨[], by rw [List.append_nil, List.append_assoc]⟩
    rw [readMethod, skipEmptyLines_word hfront (by simp)]
    exact hword.whole rest
  · cases bs with
    | nil => rfl
    | cons b bs =>
        have hfront : b :: bs <+: Bytes.ofString method.text ++ [32] := ⟨more, happend⟩
        rw [readMethod, skipEmptyLines_word hfront (List.cons_ne_nil b bs)]
        exact hword.part happend hmore

/-- An empty line may stand before what is spelled. -/
theorem spells_emptyLine (e : LineEnd) {front : Bytes} {method : String}
    (h : Spells readMethod front method) : Spells readMethod (e.bytes ++ front) method := by
  refine ⟨fun rest => ?_, fun {bs more} happend hmore => ?_⟩
  · rw [List.append_assoc, readMethod, skipEmptyLines_bytes]
    exact h.whole rest
  · obtain ⟨missing, hending, htail⟩ | ⟨bs, rfl, htail⟩ := List.append_eq_append_iff.mp happend
    · cases missing with
      | nil =>
          rw [List.append_nil] at hending
          have hskip := skipEmptyLines_bytes e []
          rw [List.append_nil, hending] at hskip
          rw [readMethod, hskip]
          rfl
      | cons b missing =>
          obtain rfl | rfl := e.part hending.symm (List.cons_ne_nil _ _) <;> rfl
    · rw [readMethod, skipEmptyLines_bytes]
      exact h.part htail.symm hmore

theorem spells_emptyLines (blank : List LineEnd) {front : Bytes} {method : String}
    (h : Spells readMethod front method) :
    Spells readMethod (blank.flatMap LineEnd.bytes ++ front) method := by
  induction blank with
  | nil => exact h
  | cons e blank ih =>
      rw [List.flatMap_cons, List.append_assoc]
      exact spells_emptyLine e ih

theorem exists_of_readMethod {method : String} (h : readMethod bs = .ok (method, rest)) :
    ∃ (blank : List LineEnd) (word : Word isToken), word.text = method ∧
      bs = blank.flatMap LineEnd.bytes ++ (Bytes.ofString word.text ++ [32]) ++ rest := by
  unfold readMethod at h
  split at h
  · cases h
  · next hskip =>
    obtain ⟨blank, rfl⟩ := exists_of_skipEmptyLines hskip
    obtain ⟨word, rfl, rfl⟩ := exists_of_readText h
    exact ⟨blank, word, rfl, (List.append_assoc _ _ _).symm⟩

theorem spells_ending {α : Type} (a : α) (e : LineEnd) :
    Spells (fun bs => (readLineEnd .lineEnd bs).map (a, ·)) e.bytes a where
  whole rest := by rw [readLineEnd_bytes, Except.map]
  part happend hmore := by rw [readLineEnd_part happend hmore, Except.map]

namespace Head

theorem spells_front (head : Head) :
    Spells readFront head.front (head.method.text, head.target.text, head.minor.val) := by
  refine (spells_emptyLines head.blank (spells_method head.method)).andThen ?_
  refine (head.target.spells (by decide)).andThen ?_
  exact (spells_version head.minor).andThen (spells_ending _ head.ending)

theorem spells_head (head : Head) (hroom : head.lines.length ≤ room) :
    Spells (readHead room) head.bytes { head.request with size := 0 } := by
  refine head.spells_front.andThen ?_
  exact (spells_fields hroom head.last).map _

/-- **A head is read as what it says**, whatever comes behind it. -/
theorem read_bytes (head : Head) (hroom : head.lines.length ≤ room) (rest : Bytes) :
    Request.read room (head.bytes ++ rest) = .ok head.request := by
  have hsize : (head.bytes ++ rest).length - rest.length = head.bytes.length := by
    rw [List.length_append, Nat.add_sub_cancel]
  rw [Request.read_eq, (head.spells_head hroom).whole, Except.map, hsize]
  rfl

/-- **A head that is cut off is waited for**, wherever it is cut. -/
theorem read_part (head : Head) (hroom : head.lines.length ≤ room)
    (happend : bs ++ more = head.bytes) (hmore : more ≠ []) :
    Request.read room bs = .error .unfinished := by
  rw [Request.read_eq, (head.spells_head hroom).part happend hmore, Except.map]

/-- A head with too many fields is not read. -/
theorem read_of_lt (head : Head) (hroom : room < head.lines.length) (rest : Bytes) :
    Request.read room (head.bytes ++ rest) = .error (.malformed .tooManyFields) := by
  rw [Request.read_eq, readHead, Reader.andThen, bytes, List.append_assoc, head.spells_front.whole]
  dsimp only
  rw [Reader.andThen, fieldBytes, List.append_assoc, readFields_of_lt hroom]
  rfl

theorem exists_of_readFront {method target : String} {minor : Nat}
    (h : readFront bs = .ok ((method, target, minor), rest)) :
    ∃ head : Head, head.method.text = method ∧ head.target.text = target ∧
      head.minor.val = minor ∧ bs = head.front ++ rest := by
  obtain ⟨_, _, hmethod, h⟩ := Reader.andThen_eq_ok h
  obtain ⟨_, _, htarget, h⟩ := Reader.andThen_eq_ok h
  obtain ⟨_, _, hversion, h⟩ := Reader.andThen_eq_ok h
  obtain ⟨_, hending, heq⟩ := exists_of_map_eq_ok h
  cases heq
  obtain ⟨blank, method, rfl, rfl⟩ := exists_of_readMethod hmethod
  obtain ⟨target, rfl, rfl⟩ := exists_of_readText htarget
  obtain ⟨minor, rfl, rfl⟩ := exists_of_readVersion hversion
  obtain ⟨ending, rfl⟩ := exists_of_readLineEnd hending
  refine ⟨⟨blank, method, target, minor, ending, [], .lf⟩, rfl, rfl, rfl, ?_⟩
  simp only [front, List.append_assoc]

/-- **Whatever is read is a head** with something behind it. -/
theorem exists_of_read {r : Request} (h : Request.read room bs = .ok r) :
    ∃ (head : Head) (rest : Bytes), head.lines.length ≤ room ∧ head.request = r ∧
      bs = head.bytes ++ rest := by
  have hread := h
  rw [Request.read_eq] at h
  obtain ⟨⟨r', rest⟩, h, -⟩ := exists_of_map_eq_ok h
  obtain ⟨⟨method, target, minor⟩, middle, hfront, h⟩ := Reader.andThen_eq_ok h
  obtain ⟨fields, _, hfields, heq⟩ := Reader.andThen_eq_ok h
  cases heq
  obtain ⟨head, rfl, rfl, rfl, rfl⟩ := exists_of_readFront hfront
  obtain ⟨lines, last, hroom, rfl, rfl⟩ := exists_of_readFields hfields
  let whole : Head := { head with lines, last }
  have hbytes : head.front ++ (lines.flatMap FieldLine.bytes ++ last.bytes ++ rest) =
      whole.bytes ++ rest := (List.append_assoc _ _ _).symm
  refine ⟨whole, rest, hroom, ?_, hbytes⟩
  rw [hbytes, whole.read_bytes hroom] at hread
  exact Except.ok.inj hread

end Head

end Courier.Http
