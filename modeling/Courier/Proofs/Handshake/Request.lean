import Courier.Handshake.Upgrade
import Courier.Proofs.Http.Head

/-!
Courier.Proofs.Handshake.Request — which requests ask for the upgrade.

A request asks for the upgrade if its head has the right method, version and number of fields and
carries a key. That can be said of the grammar alone (`Http.Head.AsksForUpgrade`,
`Http.Head.Carries`), and it is what the server goes by: whatever stands behind the head, behind
the field with the key or around the key (`Upgrade.readRequest_exact`).
-/

namespace Courier

open Http

/-! ## 1. White space around a value -/

theorem isBlank_of_isPadding {b : UInt8} (h : isPadding b = true) :
    Text.isBlank (Char.ofUInt8 b) = true := by
  simp only [isPadding, Bool.or_eq_true, beq_iff_eq] at h
  rcases h with rfl | rfl <;> decide

theorem isBlank_of_mem_asciiText {bs : Bytes} (h : ∀ b ∈ bs, isPadding b = true) :
    ∀ c ∈ (Bytes.asciiText bs).toList, Text.isBlank c = true := by
  intro c hc
  rw [Bytes.asciiText, String.toList_ofList] at hc
  obtain ⟨b, hb, rfl⟩ := List.mem_map.mp hc
  exact isBlank_of_isPadding (h b hb)

theorem Text.trim_padded {front rest : String} (s : String)
    (hfront : ∀ c ∈ front.toList, isBlank c = true) (hrest : ∀ c ∈ rest.toList, isBlank c = true) :
    trim (front ++ s ++ rest) = trim s := by
  rw [trim_eq, trim_eq, String.toList_append, String.toList_append, stripped_padded hfront _ hrest]

/-- It is no matter for the text of a value, without blanks at its ends, whether white space was
dropped before. -/
theorem map_trim_stripped (value : Bytes) :
    (Bytes.toString? (Text.stripped isPadding value)).map Text.trim =
      (Bytes.toString? value).map Text.trim := by
  obtain ⟨front, rest, hvalue, hfront, hrest⟩ := Text.exists_stripped isPadding value
  have hpadded := Bytes.toString?_padded
    (fun b hb => toNat_lt_of_isPadding (hfront b hb)) (Text.stripped isPadding value)
    (fun b hb => toNat_lt_of_isPadding (hrest b hb))
  rw [← hvalue] at hpadded
  rw [hpadded, Option.map_map]
  refine congrArg (Option.map · _) (funext fun s => ?_)
  exact (Text.trim_padded s (isBlank_of_mem_asciiText hfront) (isBlank_of_mem_asciiText hrest)).symm

/-! ## 2. The key -/

namespace Http

/-- The field has the name, upper and lower case not being told apart. -/
def FieldLine.IsNamed (name : String) (line : FieldLine) : Prop :=
  line.name.text.toList.map Char.toLower = name.toList.map Char.toLower

instance (name : String) (line : FieldLine) : Decidable (line.IsNamed name) :=
  inferInstanceAs (Decidable (_ = _))

/-- The first field that is named as one with a key has a text as its value, and the key is what
is left of it without blanks at its ends, if that is anything. -/
def Head.Carries (head : Head) (key : String) : Prop :=
  ∃ before line behind text, head.lines = before ++ line :: behind ∧
    (∀ other ∈ before, ¬ other.IsNamed Upgrade.keyField) ∧ line.IsNamed Upgrade.keyField ∧
    line.value = Bytes.ofString text ∧ key = Text.trim text ∧ key ≠ ""

/-- The request has the method, the version and the number of fields of one for the upgrade. -/
structure Head.AsksForUpgrade (head : Head) : Prop where
  method : head.method.text = "GET"
  minor : head.minor = 1
  room : head.lines.length ≤ Upgrade.maxFields

end Http

namespace Upgrade

/-- The first line with a field of the key's name. -/
theorem field?_request (head : Head) :
    head.request.field? keyField =
      (head.lines.find? fun line => line.IsNamed keyField).map FieldLine.field := by
  rw [Request.field?, Head.request, List.find?_map]
  refine congrArg (Option.map FieldLine.field ·) (congrArg (List.find? · head.lines) ?_)
  exact funext fun line => beq_eq_decide _ _

theorem keyOf?_eq_some_iff {r : Request} {key : String} :
    keyOf? r = some key ↔ ∃ field, r.field? keyField = some field ∧
      (Bytes.toString? field.value).map Text.trim = some key ∧ key ≠ "" := by
  unfold keyOf?
  cases r.field? keyField with
  | none => simp
  | some field =>
      simp only [Option.some.injEq, exists_eq_left']
      cases Bytes.toString? field.value with
      | none => simp
      | some text =>
          simp only [String.isEmpty_iff, Option.map_some]
          by_cases hempty : Text.trim text = ""
          · simp [hempty, eq_comm (a := "")]
          · rw [if_neg hempty, Option.some.injEq]
            exact ⟨fun hkey => ⟨hkey, hkey ▸ hempty⟩, And.left⟩

/-- The key of a head is the one that it carries. -/
theorem keyOf?_request (head : Head) (key : String) :
    keyOf? head.request = some key ↔ head.Carries key := by
  rw [keyOf?_eq_some_iff, field?_request]
  constructor
  · rintro ⟨field, hfield, hvalue, hne⟩
    obtain ⟨line, hline, rfl⟩ := Option.map_eq_some_iff.mp hfield
    obtain ⟨hnamed, before, behind, hlines, hbefore⟩ := List.find?_eq_some_iff_append.mp hline
    rw [FieldLine.field, map_trim_stripped] at hvalue
    obtain ⟨text, htext, rfl⟩ := Option.map_eq_some_iff.mp hvalue
    exact ⟨before, line, behind, text, hlines, fun other hmem => by simpa using hbefore other hmem,
      by simpa using hnamed, (Bytes.ofString_of_toString? htext).symm, rfl, hne⟩
  · rintro ⟨before, line, behind, text, hlines, hbefore, hnamed, hvalue, rfl, hne⟩
    refine ⟨line.field, Option.map_eq_some_iff.mpr ⟨line, ?_, rfl⟩, ?_, hne⟩
    · exact List.find?_eq_some_iff_append.mpr ⟨by simpa using hnamed, before, behind, hlines,
        fun other hmem => by simpa using hbefore other hmem⟩
    · rw [FieldLine.field, map_trim_stripped, hvalue, Bytes.toString?_ofString]
      rfl

/-! ## 3. Requests -/

/-- What becomes of a head of the right size hangs on its request line first. -/
theorem readRequest_bytes (head : Head) (hroom : head.lines.length ≤ maxFields) (rest : Bytes) :
    readRequest (head.bytes ++ rest) =
      if head.method.text ≠ "GET" ∨ head.minor.val ≠ 1 then
        .error (.requestLine head.method.text head.target.text head.minor)
      else
        match keyOf? head.request with
        | none => .error .keyMissing
        | some key => .ok key := by
  rw [readRequest, head.read_bytes hroom]
  rfl

theorem readRequest_of_asks {head : Head} (hasks : head.AsksForUpgrade) (rest : Bytes) :
    readRequest (head.bytes ++ rest) =
      match keyOf? head.request with
      | none => .error .keyMissing
      | some key => .ok key := by
  have hline : ¬ (head.method.text ≠ "GET" ∨ head.minor.val ≠ 1) := by
    simp [hasks.method, hasks.minor]
  rw [readRequest_bytes head hasks.room, if_neg hline]

theorem exists_of_readRequest {bs : Bytes} {key : String} (h : readRequest bs = .ok key) :
    ∃ (head : Head) (rest : Bytes), bs = head.bytes ++ rest ∧ head.AsksForUpgrade ∧
      head.Carries key := by
  unfold readRequest at h
  split at h
  · cases h
  · cases h
  · next hread =>
    obtain ⟨head, rest, hroom, rfl, hbytes⟩ := Head.exists_of_read hread
    split at h
    · cases h
    · next hline =>
      rw [not_or, not_not, not_not] at hline
      obtain ⟨hmethod, hminor⟩ := hline
      refine ⟨head, rest, hbytes, ⟨hmethod, Fin.ext hminor, hroom⟩, ?_⟩
      split at h
      · cases h
      · next hkey =>
        cases h
        exact (keyOf?_request head key).mp hkey

/-- **The server accepts just the requests that ask for the upgrade and carry a key**, and gets
that key, whatever comes behind the head. Without a key the key is found to be missing. A head that
is cut off anywhere is incomplete; one with another method or version, or with too many fields, is
refused. -/
theorem readRequest_exact (head : Head) (rest : Bytes) :
    (head.AsksForUpgrade →
      (∀ key, readRequest (head.bytes ++ rest) = .ok key ↔ head.Carries key) ∧
      ((¬ ∃ key, head.Carries key) → readRequest (head.bytes ++ rest) = .error .keyMissing) ∧
      ∀ bs more, bs ++ more = head.bytes → more ≠ [] →
        readRequest bs = .error .requestUnfinished) ∧
    (head.lines.length ≤ maxFields → head.method.text ≠ "GET" ∨ head.minor ≠ 1 →
      readRequest (head.bytes ++ rest) =
        .error (.requestLine head.method.text head.target.text head.minor)) ∧
    (maxFields < head.lines.length →
      readRequest (head.bytes ++ rest) = .error (.requestMalformed .tooManyFields)) ∧
    ∀ bs key, readRequest bs = .ok key →
      ∃ (head : Head) (rest : Bytes), bs = head.bytes ++ rest ∧ head.AsksForUpgrade ∧
        head.Carries key := by
  refine ⟨fun hasks => ⟨fun key => ?_, fun hnone => ?_, fun bs more happend hmore => ?_⟩,
    fun hroom hline => ?_, fun hmany => ?_, fun bs key => exists_of_readRequest⟩
  · rw [readRequest_of_asks hasks, ← keyOf?_request]
    cases keyOf? head.request <;> simp
  · have hkey : keyOf? head.request = none := by
      rw [Option.eq_none_iff_forall_ne_some]
      exact fun key hkey => hnone ⟨key, (keyOf?_request head key).mp hkey⟩
    rw [readRequest_of_asks hasks, hkey]
  · rw [readRequest, head.read_part hasks.room happend hmore]
  · rw [readRequest_bytes head hroom, if_pos]
    exact hline.imp_right fun hminor hval => hminor (Fin.ext hval)
  · rw [readRequest, head.read_of_lt hmany]

end Upgrade

end Courier
