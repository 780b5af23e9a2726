import Courier.Proofs.Wire.RoundTrip
import Courier.Router

/-!
Courier.Proofs.Routing — which handler gets what was sent.

Handlers of bare payloads and handlers of values are in one table, under keys that differ in the
mark of typed values. No identifier that begins with the mark can be sent or registered under, so
two keys are equal only if identifier and kind are (`Router.key_eq_key_iff`), however much of the
mark an identifier repeats. A registration is refused exactly if there is one of its kind for its
identifier, so the table is what the accepted ones made of it, and a frame that a connection took
and its peer read finds the first of them (`Router.routed_to_first_accepted`).
-/

namespace Courier

/-! ## 1. Identifiers of typed values -/

namespace Frame

theorem isTyped_typedIdentifier (identifier : String) :
    isTyped (typedIdentifier identifier) = true := by
  unfold isTyped typedIdentifier
  rw [String.toList_append]
  exact List.isPrefixOf_iff_prefix.mpr (List.prefix_append _ _)

theorem typedIdentifier_inj {identifier other : String}
    (h : typedIdentifier identifier = typedIdentifier other) : identifier = other := by
  have hlist := congrArg String.toList h
  unfold typedIdentifier at hlist
  rw [String.toList_append, String.toList_append] at hlist
  exact String.toList_inj.mp (List.append_cancel_left hlist)

end Frame

/-! ## 2. Tables -/

namespace Registry

variable {r : Registry α} {name : String}

theorem get?_insert (name other : String) (value : α) (r : Registry α) :
    (r.insert name value).get? other = if other = name then some value else r.get? other := by
  split
  · next h => rw [h, get?_insert_self]
  · next h => exact get?_insert_of_ne h value r

/-- Nothing is taken out under a name that stands for nothing. -/
theorem erase_eq_of_fresh (h : r.contains name = false) : r.erase name = r := by
  have hnone : r.get? name = none := by
    rw [← Option.not_isSome_iff_eq_none]
    exact Bool.eq_false_iff.mp h
  unfold get? at hnone
  rw [Option.map_eq_none_iff, List.find?_eq_none] at hnone
  unfold erase
  congr 1
  exact List.filter_eq_self.mpr fun e he => by simpa using hnone e he

theorem size_insert_of_fresh {value : α} (h : r.contains name = false) :
    (r.insert name value).size = r.size + 1 := by
  unfold size insert
  rw [erase_eq_of_fresh h, List.length_append]
  rfl

end Registry

namespace Router

variable {identifier : String} {h : Handler} {r r' : Router} {regs : List (String × Handler)}

/-- **A key tells its identifier and its kind**, if the identifier does not begin with the mark. -/
theorem key_eq_key_iff {other : String} {h' : Handler} (hfree : Frame.isTyped identifier = false)
    (hfree' : Frame.isTyped other = false) :
    key identifier h = key other h' ↔
      identifier = other ∧ h.shape.isSome = h'.shape.isSome := by
  have hmarked {i j : String} (hj : Frame.isTyped j = false) : Frame.typedIdentifier i ≠ j := by
    rintro rfl
    cases (Frame.isTyped_typedIdentifier i).symm.trans hj
  unfold key
  cases h.shape with
  | none =>
      cases h'.shape with
      | none => simp
      | some shape' => simpa using (hmarked hfree).symm
  | some shape =>
      cases h'.shape with
      | none => simpa using hmarked hfree'
      | some shape' => simpa using ⟨Frame.typedIdentifier_inj, congrArg Frame.typedIdentifier⟩

/-- What becomes of a registration. -/
theorem register_eq (identifier : String) (h : Handler) (r : Router) :
    r.register identifier h =
      if Frame.isTyped identifier then .error (.reservedIdentifier identifier Frame.typedMark)
      else if r.contains (key identifier h) then .error (.handlerExists (key identifier h))
      else .ok (r.insert (key identifier h) h) := by
  unfold register Connection.checkIdentifier Registry.insertNew
  cases Frame.isTyped identifier <;> cases r.contains (key identifier h) <;> rfl

/-- A registration that is accepted adds its handler under a key that was free. -/
theorem register_eq_ok_iff : r.register identifier h = .ok r' ↔
    Frame.isTyped identifier = false ∧ r.contains (key identifier h) = false ∧
      r' = r.insert (key identifier h) h := by
  rw [register_eq]
  cases Frame.isTyped identifier <;> cases r.contains (key identifier h) <;> simp [eq_comm]

/-! ## 3. Registrations -/

/-- The registrations that are accepted, in order. -/
def accepted (regs : List (String × Handler)) (r : Router) : List (String × Handler) :=
  ((regs.zip (registerAll regs r).1).filter (·.2.isOk)).map (·.1)

/-- The first handler that is accepted for an identifier, among those of values or among those of
bare payloads. -/
def firstAccepted (ofValues : Bool) (identifier : String) (regs : List (String × Handler)) :
    Option Handler :=
  ((accepted regs {}).find? fun e => e.1 == identifier && e.2.shape.isSome == ofValues).map (·.2)

theorem accepted_cons_of_ok (hok : r.register identifier h = .ok r') :
    accepted ((identifier, h) :: regs) r = (identifier, h) :: accepted regs r' := by
  unfold accepted
  rw [registerAll, hok]
  rfl

theorem accepted_cons_of_error {refusal : Refusal}
    (herror : r.register identifier h = .error refusal) :
    accepted ((identifier, h) :: regs) r = accepted regs r := by
  unfold accepted
  rw [registerAll, herror]
  rfl

theorem table_cons_of_ok (hok : r.register identifier h = .ok r') :
    (registerAll ((identifier, h) :: regs) r).2 = (registerAll regs r').2 := by
  rw [registerAll, hok]

theorem table_cons_of_error {refusal : Refusal}
    (herror : r.register identifier h = .error refusal) :
    (registerAll ((identifier, h) :: regs) r).2 = (registerAll regs r).2 := by
  rw [registerAll, herror]

theorem isTyped_of_mem_accepted {e : String × Handler} (he : e ∈ accepted regs r) :
    Frame.isTyped e.1 = false := by
  induction regs generalizing r with
  | nil => cases he
  | cons reg regs ih =>
      obtain ⟨identifier, h⟩ := reg
      cases hregister : r.register identifier h with
      | error refusal =>
          rw [accepted_cons_of_error hregister] at he
          exact ih he
      | ok r' =>
          rw [accepted_cons_of_ok hregister] at he
          obtain rfl | hrest := List.mem_cons.mp he
          · exact (register_eq_ok_iff.mp hregister).1
          · exact ih hrest

/-- Under a key is what was there before, or else the first handler that was accepted for it. -/
theorem get?_registerAll (regs : List (String × Handler)) (r : Router) (name : String) :
    (registerAll regs r).2.get? name =
      (r.get? name).or (((accepted regs r).find? fun e => key e.1 e.2 == name).map (·.2)) := by
  induction regs generalizing r with
  | nil => simp [registerAll, accepted]
  | cons reg regs ih =>
      obtain ⟨identifier, h⟩ := reg
      cases hregister : r.register identifier h with
      | error refusal =>
          rw [table_cons_of_error hregister, accepted_cons_of_error hregister]
          exact ih r
      | ok r' =>
          obtain ⟨-, hfresh, rfl⟩ := register_eq_ok_iff.mp hregister
          rw [table_cons_of_ok hregister, accepted_cons_of_ok hregister, ih, Registry.get?_insert,
            List.find?_cons]
          split
          · next heq =>
            subst heq
            have hnone : r.get? (key identifier h) = none := by
              rw [← Option.not_isSome_iff_eq_none]
              exact Bool.eq_false_iff.mp hfresh
            simp [hnone]
          · next hne => simp [beq_eq_false_iff_ne.mpr (Ne.symm hne)]

/-- The table grows with each registration that is accepted. -/
theorem size_registerAll (regs : List (String × Handler)) (r : Router) :
    (registerAll regs r).2.size = r.size + (accepted regs r).length := by
  induction regs generalizing r with
  | nil => rfl
  | cons reg regs ih =>
      obtain ⟨identifier, h⟩ := reg
      cases hregister : r.register identifier h with
      | error refusal =>
          rw [table_cons_of_error hregister, accepted_cons_of_error hregister]
          exact ih r
      | ok r' =>
          obtain ⟨-, hfresh, rfl⟩ := register_eq_ok_iff.mp hregister
          rw [table_cons_of_ok hregister, accepted_cons_of_ok hregister, ih,
            Registry.size_insert_of_fresh hfresh, List.length_cons]
          omega

/-- Registrations that are refused make no difference. -/
theorem registerAll_accepted (regs : List (String × Handler)) (r : Router) :
    registerAll (accepted regs r) r =
      (List.replicate (accepted regs r).length (.ok ()), (registerAll regs r).2) := by
  induction regs generalizing r with
  | nil => rfl
  | cons reg regs ih =>
      obtain ⟨identifier, h⟩ := reg
      cases hregister : r.register identifier h with
      | error refusal =>
          rw [table_cons_of_error hregister, accepted_cons_of_error hregister]
          exact ih r
      | ok r' =>
          rw [table_cons_of_ok hregister, accepted_cons_of_ok hregister, registerAll, hregister]
          simp only [ih r']
          rfl

/-- **Under the key of an identifier and a kind is the first handler of that kind that was accepted
for the identifier.** -/
theorem get?_key (hfree : Frame.isTyped identifier = false) (h : Handler)
    (regs : List (String × Handler)) :
    (registerAll regs {}).2.get? (key identifier h) =
      firstAccepted h.shape.isSome identifier regs := by
  rw [get?_registerAll, Registry.get?_empty, Option.none_or]
  unfold firstAccepted
  congr 1
  have hsame : ∀ e ∈ accepted regs {}, (key e.1 e.2 == key identifier h) =
      (e.1 == identifier && e.2.shape.isSome == h.shape.isSome) := by
    intro e he
    rw [Bool.eq_iff_iff, Bool.and_eq_true, beq_iff_eq, beq_iff_eq, beq_iff_eq]
    exact key_eq_key_iff (isTyped_of_mem_accepted he) hfree
  generalize accepted regs {} = entries at hsame
  induction entries with
  | nil => rfl
  | cons e entries ih =>
      rw [List.find?_cons, List.find?_cons, hsame e (List.mem_cons_self ..),
        ih fun e' he' => hsame e' (List.mem_cons_of_mem e he')]

theorem shape_of_firstAccepted {ofValues : Bool}
    (hfirst : firstAccepted ofValues identifier regs = some h) : h.shape.isSome = ofValues := by
  obtain ⟨e, he, rfl⟩ := Option.map_eq_some_iff.mp hfirst
  have hboth := List.find?_some he
  exact beq_iff_eq.mp (Bool.and_eq_true_iff.mp hboth).2

end Router

/-! ## 4. What the peer reads -/

/-- A reader reads one frame where another was written, however the bytes are cut. -/
def WireFormat.Conveys (format : WireFormat) (limit : Nat) (f f' : Frame) : Prop :=
  ∃ bs, format.encode f = .ok bs ∧ ∀ pieces : List Bytes, pieces.flatten = bs →
    ((format.reader limit).readAll pieces {}).frames = [f']

theorem WireFormat.conveys_heard (format : WireFormat) {limit : Nat} {f : Frame}
    (hlimit : limit ≤ ConnectionOptions.lengthLimit) (h : f.validate limit = .ok ()) :
    format.Conveys limit f f.heard := by
  obtain ⟨bs, hencode, hrun⟩ := format.run_encode hlimit h
  refine ⟨bs, hencode, fun pieces hpieces => ?_⟩
  have hmatches := Decoder.readAll_matches pieces (format.reader_at limit) Buffer.sound_empty
    (format.look_fresh_nil limit)
  have hone := hrun []
  rw [List.append_nil, Intake.run_of_pending (format.look_fresh_nil limit)] at hone
  rw [hpieces, Buffer.toList_empty, List.nil_append, hone] at hmatches
  exact hmatches.frames

namespace Connection

variable {identifier : String} {payload : Bytes} {value : Json} {f : Frame} {c d : Connection}

/-- What a connection takes is under no identifier of typed values. -/
theorem checkIdentifier_eq_ok (hok : checkIdentifier identifier = .ok ()) :
    Frame.isTyped identifier = false := by
  unfold checkIdentifier at hok
  split at hok
  · cases hok
  · next hfree => exact Bool.eq_false_iff.mpr hfree

theorem send_eq_ok (hok : c.send identifier payload = .ok d) :
    Frame.isTyped identifier = false ∧ c.enqueue (.new identifier payload) = .ok d := by
  unfold send at hok
  cases hcheck : checkIdentifier identifier with
  | error refusal =>
      rw [hcheck] at hok
      cases hok
  | ok =>
      rw [hcheck] at hok
      exact ⟨checkIdentifier_eq_ok hcheck, hok⟩

theorem sendValue_eq_ok (hok : c.sendValue identifier value = .ok d) :
    Frame.isTyped identifier = false ∧
      c.enqueue (.new (Frame.typedIdentifier identifier) (Bytes.ofString value.render)) =
        .ok d := by
  unfold sendValue at hok
  cases hcheck : checkIdentifier identifier with
  | error refusal =>
      rw [hcheck] at hok
      cases hok
  | ok =>
      rw [hcheck] at hok
      exact ⟨checkIdentifier_eq_ok hcheck, hok⟩

/-- A frame that was taken is read by a peer whose limit is not below that of the connection. -/
theorem conveys_of_enqueue {limit : Nat} (format : WireFormat)
    (hlimit : limit ≤ ConnectionOptions.lengthLimit) (hmax : c.maxPayload ≤ limit)
    (hok : c.enqueue f = .ok d) : d.queue = c.queue ++ [f] ∧ format.Conveys limit f f.heard := by
  obtain ⟨hid, hpayload⟩ := Frame.lengths_of_validate (validate_of_enqueue hok)
  exact ⟨queue_of_enqueue hok, format.conveys_heard hlimit
    (Frame.validate_of_lengths hid (Nat.le_trans hpayload hmax))⟩

end Connection

/-! ## 5. Routing -/

namespace Router

variable {limit : Nat} {c : Connection}

/-- **What a connection takes gets to the handler that was first accepted for it**: a payload to the
first handler of bare payloads for its identifier, and a value to the first handler of values, if it
is of the shape that this one takes; to no other, and to none if there is no such handler. A
registration is accepted if the identifier does not begin with the mark and no handler of its kind
was accepted for it before, and one that is refused makes no difference to the table. -/
theorem routed_to_first_accepted (regs : List (String × Handler)) (format : WireFormat)
    (hlimit : limit ≤ ConnectionOptions.lengthLimit) (hmax : c.maxPayload ≤ limit) :
    (∀ identifier payload d, c.send identifier payload = .ok d →
      ∃ f f', d.queue = c.queue ++ [f] ∧ format.Conveys limit f f' ∧
        (registerAll regs {}).2.route f' =
          (firstAccepted false identifier regs).map fun h => (h, .payload payload)) ∧
    (∀ identifier value d, c.sendValue identifier value = .ok d →
      ∃ f f', d.queue = c.queue ++ [f] ∧ format.Conveys limit f f' ∧
        (registerAll regs {}).2.route f' =
          (firstAccepted true identifier regs).bind fun h =>
            (h.shape.bind fun shape => Json.decode? shape (Bytes.ofString value.render)).map
              fun v => (h, .value v)) ∧
    (∀ identifier h, ((registerAll regs {}).2.register identifier h).isOk =
      (!Frame.isTyped identifier && (firstAccepted h.shape.isSome identifier regs).isNone)) ∧
    registerAll (accepted regs {}) {} =
      (List.replicate (accepted regs {}).length (.ok ()), (registerAll regs {}).2) ∧
    (registerAll regs {}).2.size = (accepted regs {}).length := by
  refine ⟨fun identifier payload d hok => ?_, fun identifier value d hok => ?_,
    fun identifier h => ?_, registerAll_accepted regs {}, ?_⟩
  · obtain ⟨hfree, henqueue⟩ := Connection.send_eq_ok hok
    obtain ⟨hqueue, hconveys⟩ := Connection.conveys_of_enqueue format hlimit hmax henqueue
    refine ⟨_, _, hqueue, hconveys, ?_⟩
    have hfind := get?_key hfree { name := "" } regs
    change (registerAll regs {}).2.get? identifier = firstAccepted false identifier regs at hfind
    simp only [route, Frame.heard, Frame.new, Frame.received, Option.getD_some, hfind]
    cases hfirst : firstAccepted false identifier regs with
    | none => rfl
    | some h =>
        have hshape : h.shape = none :=
          Option.not_isSome_iff_eq_none.mp (Bool.eq_false_iff.mp (shape_of_firstAccepted hfirst))
        simp [delivery?, hshape]
  · obtain ⟨hfree, henqueue⟩ := Connection.sendValue_eq_ok hok
    obtain ⟨hqueue, hconveys⟩ := Connection.conveys_of_enqueue format hlimit hmax henqueue
    refine ⟨_, _, hqueue, hconveys, ?_⟩
    have hfind := get?_key hfree { name := "", shape := some .any } regs
    change (registerAll regs {}).2.get? (Frame.typedIdentifier identifier) =
      firstAccepted true identifier regs at hfind
    simp only [route, Frame.heard, Frame.new, Frame.received, Option.getD_some, hfind]
    cases hfirst : firstAccepted true identifier regs with
    | none => rfl
    | some h =>
        obtain ⟨shape, hshape⟩ := Option.isSome_iff_exists.mp (shape_of_firstAccepted hfirst)
        simp [delivery?, hshape, Function.comp_def]
  · rw [register_eq]
    cases hfree : Frame.isTyped identifier with
    | true => rfl
    | false =>
        have hfind := get?_key hfree h regs
        rw [Registry.contains, hfind]
        cases firstAccepted h.shape.isSome identifier regs <;> rfl
  · rw [size_registerAll]
    exact Nat.zero_add _

/-- Handlers under identifiers that are made of pieces of the mark. -/
def markHandlers : List (String × Handler) :=
  [("#_#", { name := "count", shape := some (.natural 255) }),
    (Frame.typedMark, { name := "refused" }), ("#_#", { name := "first" }),
    ("#_#", { name := "second" }), ("#_#serialize#_", { name := "almost" })]

/-- A connection that takes up to a hundred bytes at once. -/
def narrowConnection : Connection :=
  { id := "near", peer := "far", maxPayload := 100 }

/-- A payload and a value under one identifier get to the first handler of their kind, and the
whole mark but for its end is an identifier like any other. -/
theorem routed_of_marks :
    (100 ≤ ConnectionOptions.lengthLimit ∧ narrowConnection.maxPayload ≤ 100) ∧
    (∃ f', WireFormat.webSocket.Conveys 100 (.new "#_#" [21]) f' ∧
      ((registerAll markHandlers {}).2.route f').map (·.1.name) = some "first") ∧
    (∃ f', WireFormat.webSocket.Conveys 100
        (.new (Frame.typedIdentifier "#_#") (Bytes.ofString (Json.natural 7).render)) f' ∧
      ((registerAll markHandlers {}).2.route f').map (·.1.name) = some "count") ∧
    (registerAll markHandlers {}).2.size = 3 := by
  have hlimit : 100 ≤ ConnectionOptions.lengthLimit := by decide
  have hmax : narrowConnection.maxPayload ≤ 100 := Nat.le_refl 100
  obtain ⟨hpayload, hvalue, -, -, hsize⟩ :=
    routed_to_first_accepted markHandlers .webSocket hlimit hmax
  refine ⟨⟨hlimit, hmax⟩, ?_, ?_, hsize⟩
  · have hfirst : (firstAccepted false "#_#" markHandlers).map (·.name) = some "first" := by
      decide +kernel
    obtain ⟨f, f', hqueue, hconveys, hroute⟩ := hpayload "#_#" [21] _ rfl
    cases hqueue
    refine ⟨f', hconveys, ?_⟩
    rw [hroute, Option.map_map]
    exact hfirst
  · have hfirst : ((firstAccepted true "#_#" markHandlers).bind fun h =>
        (h.shape.bind fun shape =>
          Json.decode? shape (Bytes.ofString (Json.natural 7).render)).map
            fun v => (h, Delivery.value v)).map (·.1.name) = some "count" := by
      decide +kernel
    obtain ⟨f, f', hqueue, hconveys, hroute⟩ := hvalue "#_#" (.natural 7) _ rfl
    cases hqueue
    refine ⟨f', hconveys, ?_⟩
    rw [hroute]
    exact hfirst

/-- **A value that is not of the shape that its handler takes gets to no handler**, though one of
values was accepted for its identifier. -/
theorem routed_nowhere_of_misfit :
    ∃ d f f', narrowConnection.sendValue "#_#" (.text "seven") = .ok d ∧
      d.queue = narrowConnection.queue ++ [f] ∧ WireFormat.plain.Conveys 100 f f' ∧
      (firstAccepted true "#_#" markHandlers).map (·.name) = some "count" ∧
      ((registerAll markHandlers {}).2.route f').isNone = true := by
  have hlimit : 100 ≤ ConnectionOptions.lengthLimit := by decide
  have hconveyed := Connection.conveys_of_enqueue (c := narrowConnection)
    (f := .new (Frame.typedIdentifier "#_#") (Bytes.ofString (Json.text "seven").render)) .plain
    hlimit (Nat.le_refl 100) rfl
  exact ⟨_, _, _, rfl, hconveyed.1, hconveyed.2, by decide +kernel, by decide +kernel⟩

end Router

end Courier
