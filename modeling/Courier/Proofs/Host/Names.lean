import Courier.Proofs.Host.Broadcast
import Courier.Proofs.Host.Guests

/-!
Courier.Proofs.Host.Names — which connection has which id.

A connection has its id from when it is taken in until it begins to close. Meanwhile a new
connection cannot get the same id as long as it is seen to be taken: reserved before the handshake
is complete, and in the registry after that. But between the two it is neither, for the one is
undone before the other is done, and neither is the id of a connection that was in the registry when
a call that stops the server emptied it (`Server.hides`). If no id is drawn that is hidden in this
way, connections have ids of their own, and the registry has all that exchange frames
(`Server.names_of_run`).
-/

namespace Courier

theorem Registry.mem_of_get? {r : Registry α} {name : String} {value : α}
    (h : r.get? name = some value) : (name, value) ∈ r.entries := by
  obtain ⟨e, he, rfl⟩ := Option.map_eq_some_iff.mp h
  have hname : e.1 = name := by simpa using List.find?_some he
  rw [← hname]
  exact List.mem_of_find?_eq_some he

namespace Server

variable {s s' : Server} {m : ServerMove} {config : ServerConfig} {n k : Nat} {id : String}
variable {done done' : List ServerDuty} {gone : List Nat}

/-! ## 1. What the registry says -/

/-- Whatever the registry has is a connection of this id that entered it and has not left it. -/
def Exact (s : Server) : Prop :=
  ∀ e ∈ s.registry.entries,
    ∃ done, s.record? e.2 = some (e.1, done) ∧ .enroll ∈ done ∧ .strike ∉ done

theorem record_lt (h : s.record? n = some (id, done)) : n < s.guests.length := by
  obtain ⟨g, hg, -⟩ := Option.map_eq_some_iff.mp h
  exact (List.getElem?_eq_some_iff.mp hg).1

/-- A duty is not done after the id has left the registry, but for the last one. -/
theorem not_struck {duty : ServerDuty} (hbegun : ServerDuty.Begun (done ++ [duty]))
    (hduty : duty ≠ .announceEnd) : .strike ∉ done :=
  fun hstruck => hduty (hbegun.eq_announceEnd hstruck)

theorem Exact.attend {guest : Nat} {duty : ServerDuty} (h : s.Exact)
    (hbegun : ServerDuty.Begun (done ++ [duty])) (before : s.record? guest = some (id, done))
    (records : ∀ n, s'.record? n = if n = guest then some (id, done ++ [duty]) else s.record? n)
    (registry_eq : s'.registry = if duty = .enroll then s.registry.insert id guest
      else if duty = .strike then s.registry.erase id else s.registry) : s'.Exact := by
  have hkept : ∀ e ∈ s.registry.entries, (duty = .strike → e.1 ≠ id) →
      ∃ done, s'.record? e.2 = some (e.1, done) ∧ .enroll ∈ done ∧ .strike ∉ done := by
    intro e he hstrike
    obtain ⟨done', hrecord, henrolled, hheld⟩ := h e he
    rw [records e.2]
    split
    · next hn =>
      rw [hn, before] at hrecord
      obtain ⟨rfl, rfl⟩ := Prod.mk.inj (Option.some.inj hrecord)
      refine ⟨done ++ [duty], rfl, List.mem_append_left _ henrolled, ?_⟩
      intro hstruck
      rcases List.mem_append.mp hstruck with hold | hnew
      · exact hheld hold
      · exact hstrike (List.mem_singleton.mp hnew).symm rfl
    · exact ⟨done', hrecord, henrolled, hheld⟩
  intro e he
  rw [registry_eq] at he
  by_cases henroll : duty = .enroll
  · subst henroll
    rw [if_pos rfl] at he
    rcases Registry.mem_entries_insert he with hold | rfl
    · exact hkept e hold (by simp)
    · refine ⟨done ++ [.enroll], by rw [records guest, if_pos rfl], by simp, ?_⟩
      have hheld := not_struck hbegun (by simp)
      simp [hheld]
  · rw [if_neg henroll] at he
    by_cases hstrike : duty = .strike
    · rw [if_pos hstrike] at he
      obtain ⟨hold, hname⟩ := Registry.mem_entries_erase he
      exact hkept e hold fun _ => hname
    · rw [if_neg hstrike] at he
      exact hkept e he fun heq => absurd heq hstrike

/-- **Nobody is in the registry that has begun to close.** -/
theorem Exact.move (h : s.Exact) (hrecorded : s.Recorded config) (hmove : s.move? m = some s') :
    s'.Exact := by
  cases books_of_move hrecorded hmove with
  | rests records reserved_eq registry_eq =>
      intro e he
      rw [registry_eq] at he
      rw [records e.2]
      exact h e he
  | clears move stage records reserved_eq registry_eq =>
      intro e he
      rw [registry_eq] at he
      cases he
  | accepts move found records reserved_eq registry_eq =>
      intro e he
      rw [registry_eq] at he
      obtain ⟨done, hrecord, hheld⟩ := h e he
      rw [records e.2, if_neg (Nat.ne_of_lt (record_lt hrecord))]
      exact ⟨done, hrecord, hheld⟩
  | @fails guest id before records reserved_eq registry_eq =>
      intro e he
      rw [registry_eq] at he
      obtain ⟨done, hrecord, henrolled, hheld⟩ := h e he
      have hn : e.2 ≠ guest := by
        intro hn
        rw [hn, before] at hrecord
        cases hrecord
        cases henrolled
      rw [records e.2, if_neg hn]
      exact ⟨done, hrecord, henrolled, hheld⟩
  | attends move before records reserved_eq registry_eq =>
      have hafter : s'.record? _ = some (_, _) := (records _).trans (if_pos rfl)
      exact h.attend ((hrecorded.move hmove).begun hafter) before records registry_eq

/-! ## 2. Ids that are hidden -/

/-- The connections that a move takes out of the registry because the server is to stop. -/
def clears (m : ServerMove) (s : Server) : List Nat :=
  match m with
  | .goOnStopping call => if s.stops[call]? = some .clearing then s.live else []
  | _ => []

/-- All connections that were taken out of the registry in this way. -/
def cleared : List ServerMove → Server → List Nat
  | [], _ => []
  | m :: moves, s =>
      match s.move? m with
      | none => []
      | some s' => s.clears m ++ cleared moves s'

/-- A connection has the id and has not begun to close, but the id is no longer reserved, and the
connection has not entered the registry yet or was taken out of it. -/
def hides (gone : List Nat) (id : String) (s : Server) : Bool :=
  (List.range s.guests.length).any fun n =>
    match s.record? n with
    | none => false
    | some (name, done) =>
        name == id && done.contains .unreserve && !done.contains .strike &&
          (!done.contains .enroll || gone.contains n)

/-- The id that a move gives to a connection, if it does, is not hidden. -/
def drawsFree (gone : List Nat) (m : ServerMove) (s : Server) : Bool :=
  match m with
  | .accept _ _ attempts =>
      ((Token.freshId s.isTaken attempts s.source).found).all fun id => !s.hides gone id
  | _ => true

/-- No connection is given an id that is hidden. -/
def avoidsHidden (gone : List Nat) : List ServerMove → Server → Bool
  | [], _ => true
  | m :: moves, s =>
      s.drawsFree gone m &&
        match s.move? m with
        | none => true
        | some s' => avoidsHidden (gone ++ s.clears m) moves s'

theorem hides_of_record (hrecord : s.record? n = some (id, done)) (hfree : .unreserve ∈ done)
    (hheld : .strike ∉ done) (hmissing : .enroll ∉ done ∨ n ∈ gone) : s.hides gone id = true := by
  unfold hides
  refine List.any_eq_true.mpr ⟨n, List.mem_range.mpr (record_lt hrecord), ?_⟩
  rw [hrecord]
  simpa [hfree, hheld] using hmissing

/-! ## 3. Ids of their own -/

/-- Connections that have not begun to close have ids of their own, and each id is either reserved
or stands for its connection in the registry, unless it is hidden. -/
structure Apart (gone : List Nat) (s : Server) : Prop where
  distinct : ∀ n k id done done', s.record? n = some (id, done) → s.record? k = some (id, done') →
    .strike ∉ done → .strike ∉ done' → n = k
  reserved : ∀ n id done, s.record? n = some (id, done) → .unreserve ∉ done → id ∈ s.reserved
  enrolled : ∀ n id done, s.record? n = some (id, done) → .enroll ∈ done → .strike ∉ done →
    n ∉ gone → s.registry.get? id = some n

/-- An id that is given to a connection belongs to no other. -/
theorem Apart.struck_of_found {attempts : Nat} (h : s.Apart gone)
    (hfound : (Token.freshId s.isTaken attempts s.source).found = some id)
    (hfree : s.hides gone id = false) (hrecord : s.record? n = some (id, done)) :
    .strike ∈ done := by
  have htaken := Token.not_isTaken_of_freshId hfound
  unfold isTaken at htaken
  rw [Bool.or_eq_false_iff] at htaken
  obtain ⟨hreserved, hregistry⟩ := htaken
  by_cases hheld : .strike ∈ done
  · exact hheld
  exfalso
  by_cases hunreserved : .unreserve ∈ done
  · by_cases hmissing : .enroll ∉ done ∨ n ∈ gone
    · cases hfree.symm.trans (hides_of_record hrecord hunreserved hheld hmissing)
    · have henrolled : .enroll ∈ done := Decidable.not_not.mp fun hnot => hmissing (.inl hnot)
      have hget := h.enrolled n id done hrecord henrolled hheld fun hgone => hmissing (.inr hgone)
      unfold Registry.contains at hregistry
      rw [hget] at hregistry
      cases hregistry
  · have hmem := h.reserved n id done hrecord hunreserved
    rw [List.contains_iff_mem.mpr hmem] at hreserved
    cases hreserved

theorem Apart.accept {attempts : Nat} (h : s.Apart gone)
    (hfound : (Token.freshId s.isTaken attempts s.source).found = some id)
    (hfree : s.hides gone id = false)
    (records : ∀ n, s'.record? n = if n = s.guests.length then some (id, []) else s.record? n)
    (reserved_eq : s'.reserved = s.reserved ++ [id]) (registry_eq : s'.registry = s.registry) :
    s'.Apart gone := by
  refine ⟨?_, ?_, ?_⟩
  · intro n k id' done done' hn hk hheld hheld'
    rw [records n] at hn
    rw [records k] at hk
    split at hn <;> split at hk
    · next heq heq' => exact heq.trans heq'.symm
    · cases hn
      exact absurd (h.struck_of_found hfound hfree hk) hheld'
    · cases hk
      exact absurd (h.struck_of_found hfound hfree hn) hheld
    · exact h.distinct n k id' done done' hn hk hheld hheld'
  · intro n id' done hn hreserved
    rw [reserved_eq]
    rw [records n] at hn
    split at hn
    · cases hn
      simp
    · exact List.mem_append_left _ (h.reserved n id' done hn hreserved)
  · intro n id' done hn henrolled hheld hgone
    rw [registry_eq]
    rw [records n] at hn
    split at hn
    · cases hn
      cases henrolled
    · exact h.enrolled n id' done hn henrolled hheld hgone

/-- Duties are done for one connection. What they undo is its own, for nobody else that has not
begun to close has its id. -/
theorem Apart.update {guest : Nat} {more : List ServerDuty} (h : s.Apart gone)
    (hrecorded : s.Recorded config) (before : s.record? guest = some (id, done))
    (records : ∀ n, s'.record? n = if n = guest then some (id, done ++ more) else s.record? n)
    (hreserved : s'.reserved = s.reserved ∨ .strike ∉ done ∧ .unreserve ∈ more ∧
      s'.reserved = s.reserved.filter (· != id))
    (hregistry : s'.registry = s.registry ∨ .strike ∉ done ∧
      ∀ name, name ≠ id → s'.registry.get? name = s.registry.get? name)
    (hself : .enroll ∈ done ++ more → .strike ∉ done ++ more → guest ∉ gone →
      s'.registry.get? id = some guest) : s'.Apart gone := by
  have hback : ∀ n name done', s'.record? n = some (name, done') → .strike ∉ done' →
      ∃ done₀, s.record? n = some (name, done₀) ∧ .strike ∉ done₀ := by
    intro n name done' hn hheld
    rw [records n] at hn
    split at hn
    · next heq =>
      obtain ⟨rfl, rfl⟩ := Prod.mk.inj (Option.some.inj hn)
      exact ⟨done, heq ▸ before, fun hstruck => hheld (List.mem_append_left _ hstruck)⟩
    · exact ⟨done', hn, hheld⟩
  refine ⟨?_, ?_, ?_⟩
  · intro n k name done₁ done₂ hn hk hheld₁ hheld₂
    obtain ⟨done₁', hn', hheld₁'⟩ := hback n name done₁ hn hheld₁
    obtain ⟨done₂', hk', hheld₂'⟩ := hback k name done₂ hk hheld₂
    exact h.distinct n k name done₁' done₂' hn' hk' hheld₁' hheld₂'
  · intro n name done' hn hwaits
    rw [records n] at hn
    split at hn
    · obtain ⟨rfl, rfl⟩ := Prod.mk.inj (Option.some.inj hn)
      have hmem := h.reserved guest id done before fun hfree =>
        hwaits (List.mem_append_left _ hfree)
      rcases hreserved with hsame | ⟨-, hfree, -⟩
      · rw [hsame]
        exact hmem
      · exact absurd (List.mem_append_right _ hfree) hwaits
    · next hne =>
      have hmem := h.reserved n name done' hn hwaits
      rcases hreserved with hsame | ⟨hheld, -, hfilter⟩
      · rw [hsame]
        exact hmem
      · rw [hfilter]
        refine List.mem_filter.mpr ⟨hmem, bne_iff_ne.mpr fun heq => hne ?_⟩
        subst heq
        have hnil := (hrecorded.begun hn).eq_nil hwaits
        exact h.distinct n guest name done' done hn before (hnil ▸ List.not_mem_nil) hheld
  · intro n name done' hn henrolled hheld hgone
    rw [records n] at hn
    split at hn
    · next heq =>
      obtain ⟨rfl, rfl⟩ := Prod.mk.inj (Option.some.inj hn)
      rw [heq] at hgone ⊢
      exact hself henrolled hheld hgone
    · next hne =>
      have hget := h.enrolled n name done' hn henrolled hheld hgone
      rcases hregistry with hsame | ⟨hheld', hothers⟩
      · rw [hsame]
        exact hget
      · rw [hothers name fun heq => hne ?_]
        · exact hget
        · subst heq
          exact h.distinct n guest name done' done hn before hheld hheld'

theorem Apart.attend {guest : Nat} {duty : ServerDuty} (h : s.Apart gone)
    (hrecorded : s.Recorded config) (hbegun : ServerDuty.Begun (done ++ [duty]))
    (before : s.record? guest = some (id, done))
    (records : ∀ n, s'.record? n = if n = guest then some (id, done ++ [duty]) else s.record? n)
    (reserved_eq : s'.reserved =
      if duty = .unreserve then s.reserved.filter (· != id) else s.reserved)
    (registry_eq : s'.registry = if duty = .enroll then s.registry.insert id guest
      else if duty = .strike then s.registry.erase id else s.registry) : s'.Apart gone := by
  refine h.update hrecorded before records ?_ ?_ ?_
  · rw [reserved_eq]
    split
    · next hduty =>
      subst hduty
      exact .inr ⟨not_struck hbegun (by simp), by simp, rfl⟩
    · exact .inl rfl
  · rw [registry_eq]
    split
    · next hduty =>
      subst hduty
      exact .inr ⟨not_struck hbegun (by simp),
        fun name hname => Registry.get?_insert_of_ne hname ..⟩
    · split
      · next hduty =>
        subst hduty
        exact .inr ⟨not_struck hbegun (by simp),
          fun name hname => Registry.get?_erase_of_ne hname ..⟩
      · exact .inl rfl
  · intro henrolled hheld hgone
    rw [registry_eq]
    by_cases hduty : duty = .enroll
    · rw [if_pos hduty]
      exact Registry.get?_insert_self ..
    · have hstrike : duty ≠ .strike := by
        intro hstrike
        simp [hstrike] at hheld
      rw [if_neg hduty, if_neg hstrike]
      have henrolled' : .enroll ∈ done := by simpa [Ne.symm hduty] using henrolled
      exact h.enrolled guest id done before henrolled'
        (fun hstruck => hheld (List.mem_append_left _ hstruck)) hgone

/-- No duty is done, and what leaves the registry was taken out of it. -/
theorem Apart.same {gone' : List Nat} (h : s.Apart gone)
    (records : ∀ n, s'.record? n = s.record? n) (reserved_eq : s'.reserved = s.reserved)
    (hregistry : ∀ n id, s.registry.get? id = some n → n ∉ gone' →
      s'.registry.get? id = some n) (hgone : ∀ n ∈ gone, n ∈ gone') : s'.Apart gone' := by
  refine ⟨?_, ?_, ?_⟩
  · intro n k id done done' hn hk
    rw [records n] at hn
    rw [records k] at hk
    exact h.distinct n k id done done' hn hk
  · intro n id done hn
    rw [records n] at hn
    rw [reserved_eq]
    exact h.reserved n id done hn
  · intro n id done hn henrolled hheld hpresent
    rw [records n] at hn
    have hget := h.enrolled n id done hn henrolled hheld fun hmem => hpresent (hgone n hmem)
    exact hregistry n id hget hpresent

theorem Apart.more {gone' : List Nat} (h : s.Apart gone) : s.Apart (gone ++ gone') :=
  h.same (fun _ => rfl) rfl (fun _ _ hget _ => hget) fun _ hn => List.mem_append_left _ hn

/-- **As long as no hidden id is drawn, ids stay apart.** -/
theorem Apart.move (h : s.Apart gone) (hrecorded : s.Recorded config)
    (hdraws : s.drawsFree gone m = true) (hmove : s.move? m = some s') :
    s'.Apart (gone ++ s.clears m) := by
  cases books_of_move hrecorded hmove with
  | rests records reserved_eq registry_eq =>
      refine h.more.same records reserved_eq (fun n id hget _ => ?_) fun _ hn => hn
      rw [registry_eq]
      exact hget
  | clears move stage records reserved_eq registry_eq =>
      refine h.same records reserved_eq (fun n id hget hpresent => ?_)
        fun _ hn => List.mem_append_left _ hn
      have hlive : s.clears m = s.live := by
        rw [move]
        exact if_pos stage
      rw [hlive] at hpresent
      have hmem : n ∈ s.live := List.mem_map.mpr ⟨(id, n), Registry.mem_of_get? hget, rfl⟩
      exact absurd (List.mem_append_right _ hmem) hpresent
  | @accepts run attempts peer id move found records reserved_eq registry_eq =>
      subst move
      have hfree : s.hides gone id = false := by
        unfold drawsFree at hdraws
        dsimp only at hdraws
        rw [found, Option.all_some, Bool.not_eq_true'] at hdraws
        exact hdraws
      exact (h.accept found hfree records reserved_eq registry_eq).more
  | fails before records reserved_eq registry_eq =>
      refine (h.update hrecorded before records ?_ (.inl registry_eq) ?_).more
      · exact .inr ⟨List.not_mem_nil, by simp, reserved_eq⟩
      · simp
  | attends move before records reserved_eq registry_eq =>
      have hafter : s'.record? _ = some (_, _) := (records _).trans (if_pos rfl)
      exact (h.attend hrecorded ((hrecorded.move hmove).begun hafter) before records
        reserved_eq registry_eq).more

theorem Apart.run {moves : List ServerMove} (h : s.Apart gone) (hrecorded : s.Recorded config)
    (hrun : s.run? moves = some s') (havoids : s.avoidsHidden gone moves = true) :
    s'.Apart (gone ++ s.cleared moves) := by
  induction moves generalizing s gone with
  | nil =>
      cases hrun
      exact h.more
  | cons m moves ih =>
      unfold run? at hrun
      split at hrun
      · cases hrun
      · next s₁ hmove =>
        unfold avoidsHidden at havoids
        unfold cleared
        rw [Bool.and_eq_true, hmove] at havoids
        rw [hmove]
        obtain ⟨hdraws, havoids⟩ := havoids
        have hafter := ih (h.move hrecorded hdraws hmove) (hrecorded.move hmove) hrun havoids
        rw [List.append_assoc] at hafter
        exact hafter

theorem Exact.run {moves : List ServerMove} (h : s.Exact) (hrecorded : s.Recorded config)
    (hrun : s.run? moves = some s') : s'.Exact := by
  refine (invariant_run (P := fun s => s.Recorded config ∧ s.Exact) ?_ ⟨hrecorded, h⟩ hrun).2
  rintro m s s' ⟨hrecorded, h⟩ hmove
  exact ⟨hrecorded.move hmove, h.move hrecorded hmove⟩

theorem exact_new {source : RandomSource} (hnew : Server.new config source = .ok s) :
    s.Exact := by
  intro e he
  rw [(guests_new hnew).2] at he
  cases he

theorem apart_new {source : RandomSource} (hnew : Server.new config source = .ok s) :
    s.Apart gone := by
  have hnone : ∀ n, s.record? n = none := by
    intro n
    unfold record?
    rw [(guests_new hnew).1]
    rfl
  refine ⟨?_, ?_, ?_⟩
  · intro n k id done done' hn
    cases (hnone n).symm.trans hn
  · intro n id done hn
    cases (hnone n).symm.trans hn
  · intro n id done hn
    cases (hnone n).symm.trans hn

/-- An open connection has entered the registry, unless that is about to be done. -/
theorem enrolled_of_opened {a : AttendedLink} (h : a.link.Ages)
    (hopened : a.link.connection.state = .opened)
    (hduty : a.duty? ServerDuty.at ≠ some .unreserve ∧ a.duty? ServerDuty.at ≠ some .enroll) :
    .enroll ∈ a.fulfilled ServerDuty.at ∧ .strike ∉ a.fulfilled ServerDuty.at := by
  have hmark := h.handshaked_of_opened hopened
  have hstate := h.state_eq
  rw [hopened, hmark] at hstate
  unfold AttendedLink.duty? at hduty
  rw [Link.milestone?_eq] at hduty
  unfold AttendedLink.fulfilled
  rw [h.milestones_eq, Link.milestone?_eq, hmark]
  cases hchapter : a.link.main.chapter with
  | welcoming =>
      rw [hchapter] at hduty
      -- two duties at least are done
      rcases hdone : a.done with _ | _ | k
      · rw [hdone] at hduty
        exact absurd rfl hduty.1
      · rw [hdone] at hduty
        exact absurd rfl hduty.2
      · have hrest : .strike ∉ [ServerDuty.announce].take k :=
          fun hmem => by simpa using List.mem_of_mem_take hmem
        simp [Chapter.passed, Chapter.milestone?, ServerDuty.at, hrest]
  | serving => simp [Chapter.passed, Chapter.milestone?, ServerDuty.at]
  | _ =>
      rw [hchapter] at hstate
      cases hstate

/-! ## 4. Runs -/

/-- **Connections have ids of their own.** Whatever the registry has, it has once, and it is a
connection of this id that has not begun to close. And if no connection was given an id that was
hidden, no two connections that have not begun to close have the same id, the id of each is reserved
until its first duty is done, and each that is open is in the registry from when it was entered
until a call that stops the server takes it out. -/
theorem names_of_run {config : ServerConfig} {source : RandomSource} {s₀ : Server}
    {moves : List ServerMove} (hnew : Server.new config source = .ok s₀)
    (hrun : s₀.run? moves = some s) :
    (s.registry.names.Nodup ∧ ∀ e ∈ s.registry.entries,
      ∃ done, s.record? e.2 = some (e.1, done) ∧ .strike ∉ done) ∧
    (s₀.avoidsHidden [] moves = true →
      (∀ n k id done done', s.record? n = some (id, done) → s.record? k = some (id, done') →
        .strike ∉ done → .strike ∉ done' → n = k) ∧
      (∀ n id done, s.record? n = some (id, done) → .unreserve ∉ done → id ∈ s.reserved) ∧
      ∀ n a, s.forum.links n = some a → a.link.connection.state = .opened →
        a.duty? ServerDuty.at ≠ some .unreserve → a.duty? ServerDuty.at ≠ some .enroll →
        n ∉ s₀.cleared moves → s.registry.get? a.link.connection.id = some n) := by
  have hrecorded := (recorded_new hnew).run hrun
  have hexact := (exact_new hnew).run (recorded_new hnew) hrun
  refine ⟨⟨hrecorded.orderly.names, fun e he => ?_⟩, fun havoids => ?_⟩
  · obtain ⟨done, hrecord, -, hheld⟩ := hexact e he
    exact ⟨done, hrecord, hheld⟩
  · have hapart := (apart_new hnew).run (recorded_new hnew) hrun havoids
    rw [List.nil_append] at hapart
    refine ⟨hapart.distinct, hapart.reserved, fun n a hlink hopened hfirst hsecond hpresent => ?_⟩
    obtain ⟨henrolled, hheld⟩ :=
      enrolled_of_opened (hrecorded.orderly.ages n a hlink) hopened ⟨hfirst, hsecond⟩
    exact hapart.enrolled n _ _ (hrecorded.record_eq hlink) henrolled hheld hpresent

end Server

theorem names_of_twoGuests :
    ∃ s₀ s a, Server.new lifeServer countingSource = .ok s₀ ∧ s₀.run? twoGuests = some s ∧
      s₀.avoidsHidden [] twoGuests = true ∧ s.registry.names.Nodup ∧
      (∀ n k id done done', s.record? n = some (id, done) → s.record? k = some (id, done') →
        .strike ∉ done → .strike ∉ done' → n = k) ∧
      s.forum.links 1 = some a ∧ s.registry.get? a.link.connection.id = some 1 := by
  have hseen : ((Server.new lifeServer countingSource).toOption.bind fun s₀ =>
      (s₀.run? twoGuests).map fun s =>
        (s₀.avoidsHidden [] twoGuests, s₀.cleared twoGuests,
          (s.forum.links 1).map fun a => (a.link.connection.state, a.duty? ServerDuty.at))) =
      some (true, [], some (.opened, none)) := by
    decide +kernel
  obtain ⟨s₀, hs₀, hlife⟩ := Option.bind_eq_some_iff.mp hseen
  obtain ⟨s, hrun, hobserved⟩ := Option.map_eq_some_iff.mp hlife
  simp only [Prod.mk.injEq] at hobserved
  obtain ⟨havoids, hcleared, hlink⟩ := hobserved
  obtain ⟨a, ha, hobserved⟩ := Option.map_eq_some_iff.mp hlink
  obtain ⟨hopened, hduty⟩ := Prod.mk.inj hobserved
  have hnew := eq_ok_of_toOption hs₀
  obtain ⟨⟨hnames, -⟩, hfree⟩ := Server.names_of_run hnew hrun
  obtain ⟨hdistinct, -, henrolled⟩ := hfree havoids
  refine ⟨s₀, s, a, hnew, hrun, havoids, hnames, hdistinct, ha, ?_⟩
  refine henrolled 1 a ha hopened ?_ ?_ ?_
  · simp [hduty]
  · simp [hduty]
  · simp [hcleared]

/-- A connection is about to enter the registry when another one is taken in, and then both of them
enter it. -/
def namesakes : List ServerMove × List ServerMove :=
  let opening (guest : Nat) : List ServerMove :=
    .setUp guest { capacity := 64 } :: lifeMoves.1.map (.onLink guest)
  ([.start (.ok { ip := .short [127, 0, 0, 1], port := 7 }), .accept 0 "far" 1] ++ opening 0 ++
      [.attend 0, .accept 0 "away" 1],
    List.replicate 2 (.attend 0) ++ opening 1 ++ List.replicate 3 (.attend 1))

/-- **Two connections have the same id**, because the first was neither reserved nor in the registry
when the second was taken in. When both are open the registry has the second only. -/
theorem names_clash_of_namesakes :
    ∃ s₀ s s' id a, Server.new lifeServer lifeSource = .ok s₀ ∧
      s₀.run? namesakes.1 = some s ∧ s.record? 0 = some (id, [.unreserve]) ∧
      s.record? 1 = some (id, []) ∧ s.run? namesakes.2 = some s' ∧
      s₀.cleared (namesakes.1 ++ namesakes.2) = [] ∧
      s'.forum.links 0 = some a ∧ a.link.connection.state = .opened ∧
      a.duty? ServerDuty.at = none ∧ s'.registry.entries = [(a.link.connection.id, 1)] := by
  have hseen : ((Server.new lifeServer lifeSource).toOption.bind fun s₀ =>
      (s₀.run? namesakes.1).bind fun s =>
        (s.run? namesakes.2).map fun s' =>
          (s.record? 0 == some ("AAAAAAAAAAAA", [.unreserve]) &&
              s.record? 1 == some ("AAAAAAAAAAAA", []),
            s₀.cleared (namesakes.1 ++ namesakes.2),
            (s'.forum.links 0).any fun a => a.link.connection.state == .opened &&
              a.duty? ServerDuty.at == none &&
              s'.registry.entries == [(a.link.connection.id, 1)])) = some (true, [], true) := by
    decide +kernel
  obtain ⟨s₀, hs₀, hlife⟩ := Option.bind_eq_some_iff.mp hseen
  obtain ⟨s, hrun, hlife⟩ := Option.bind_eq_some_iff.mp hlife
  obtain ⟨s', hrun', hobserved⟩ := Option.map_eq_some_iff.mp hlife
  simp only [Prod.mk.injEq, Bool.and_eq_true, beq_iff_eq] at hobserved
  obtain ⟨⟨hfirst, hsecond⟩, hcleared, hlink⟩ := hobserved
  obtain ⟨a, ha, hobserved⟩ := (Option.any_eq_true _ _).mp hlink
  simp only [Bool.and_eq_true, beq_iff_eq] at hobserved
  obtain ⟨⟨hopened, hduty⟩, hentries⟩ := hobserved
  exact ⟨s₀, s, s', _, a, eq_ok_of_toOption hs₀, hrun, hfirst, hsecond, hrun', hcleared, ha,
    hopened, hduty, hentries⟩

end Courier
