import Courier.Proofs.Host.Registry

/-!
Courier.Proofs.Host.Broadcast — who is given the frame of a broadcast.

A broadcast asks the connections in the registry one after another. One that takes frames is given
the frame; one that does not is passed over if it shows that it is closing, by being closed or by
the reason for its end. Between the request to end and the recording of a reason it shows nothing
of the kind, and the broadcast stops there (`Link.stalls`): what was queued before stays queued, and
the connections behind it are not asked (`Server.broadcast_of_run`).
-/

namespace Courier

/-! ## 1. One connection -/

/-- A command that queues a frame on a connection with such a limit, as long as that takes
frames. -/
inductive Command.Sends (limit : Nat) : Command → Frame → Prop where
  | bytes {identifier : String} {payload : Bytes}
      (free : Connection.checkIdentifier identifier = .ok ())
      (fits : (Frame.new identifier payload).validate limit = .ok ()) :
      Sends limit (.send identifier payload) (.new identifier payload)
  | value {identifier : String} {value : Json} {f : Frame}
      (free : Connection.checkIdentifier identifier = .ok ())
      (frame : f = .new (Frame.typedIdentifier identifier) (Bytes.ofString value.render))
      (fits : f.validate limit = .ok ()) : Sends limit (.sendValue identifier value) f
  | raw {payload : Bytes} (fits : (Frame.raw payload).validate limit = .ok ()) :
      Sends limit (.sendRaw payload) (.raw payload)

namespace Connection

/-- Frames are taken. -/
def takes (c : Connection) : Bool :=
  !c.cancelled && c.accepting

variable {command : Command} {f : Frame} {c : Connection}

theorem enqueue_of_fits (hfits : f.validate c.maxPayload = .ok ()) :
    c.enqueue f =
      if c.takes then .ok { c with queue := c.queue ++ [f] }
      else .error (.connectionClosed c.id) := by
  unfold enqueue takes
  rw [hfits]
  cases c.cancelled <;> cases c.accepting <;> rfl

/-- A frame that can be sent is queued, or refused as the connection is closed. -/
theorem perform_of_sends (hsends : command.Sends c.maxPayload f) : c.perform command =
    if c.takes then (.ok (), { c with queue := c.queue ++ [f] })
    else (.error (.connectionClosed c.id), c) := by
  unfold perform
  cases hsends with
  | bytes free fits =>
      simp only [send, free, enqueue_of_fits fits, bind, Except.bind]
      cases c.takes <;> rfl
  | value free frame fits =>
      subst frame
      simp only [sendValue, free, enqueue_of_fits fits, bind, Except.bind]
      cases c.takes <;> rfl
  | raw fits =>
      simp only [sendRaw, enqueue_of_fits fits]
      cases c.takes <;> rfl

/-- A command that sends no frame is refused. -/
theorem perform_of_not_sends (hframe : command ≠ .disconnect)
    (hsends : ∀ f, ¬ command.Sends c.maxPayload f) : ∃ r, c.perform command = (.error r, c) := by
  have hrefused {f : Frame} {r : Refusal} (hfits : f.validate c.maxPayload = .error r) :
      c.enqueue f = .error r := by
    unfold enqueue
    rw [hfits]
  unfold perform
  cases command with
  | disconnect => exact absurd rfl hframe
  | send identifier payload =>
      dsimp only [send]
      cases hfree : checkIdentifier identifier with
      | error r => exact ⟨r, rfl⟩
      | ok =>
          cases hfits : (Frame.new identifier payload).validate c.maxPayload with
          | ok => exact absurd (.bytes hfree hfits) (hsends _)
          | error r => exact ⟨r, by simp only [bind, Except.bind, hrefused hfits]⟩
  | sendValue identifier value =>
      dsimp only [sendValue]
      cases hfree : checkIdentifier identifier with
      | error r => exact ⟨r, rfl⟩
      | ok =>
          cases hfits : (Frame.new (Frame.typedIdentifier identifier)
              (Bytes.ofString value.render)).validate c.maxPayload with
          | ok => exact absurd (.value hfree rfl hfits) (hsends _)
          | error r => exact ⟨r, by simp only [bind, Except.bind, hrefused hfits]⟩
  | sendRaw payload =>
      dsimp only [sendRaw]
      cases hfits : (Frame.raw payload).validate c.maxPayload with
      | ok => exact absurd (.raw hfits) (hsends _)
      | error r => exact ⟨r, by rw [hrefused hfits]⟩

end Connection

namespace Link

/-- Everyone can see that the connection is at its end. -/
def shows (l : Link) : Bool :=
  l.connection.closed || l.transport.reason.isSome

/-- No frames are taken, and nobody can see why. -/
def stalls (l : Link) : Bool :=
  !l.connection.takes && !l.shows

/-- A connection that stalls is not closed, and there is no reason for its end. -/
theorem hidden_of_stalls {l : Link} (h : l.stalls = true) :
    l.connection.closed = false ∧ l.transport.reason = none := by
  unfold stalls shows at h
  simpa using (Bool.and_eq_true_iff.mp h).2

/-- A frame is queued. -/
def queue (f : Frame) (l : Link) : Link :=
  { l with connection := { l.connection with queue := l.connection.queue ++ [f] } }

variable {command : Command} {f : Frame} {l : Link}

theorem perform_of_sends (hsends : command.Sends l.connection.maxPayload f) :
    l.perform command =
      if l.connection.takes then (.ok (), l.queue f)
      else (.error (.connectionClosed l.connection.id), l) := by
  unfold perform
  rw [Connection.perform_of_sends hsends]
  cases l.connection.takes <;> rfl

theorem perform_of_not_sends (hframe : command ≠ .disconnect)
    (hsends : ∀ f, ¬ command.Sends l.connection.maxPayload f) :
    ∃ r, l.perform command = (.error r, l) := by
  obtain ⟨r, h⟩ := Connection.perform_of_not_sends hframe hsends
  refine ⟨r, ?_⟩
  unfold perform
  rw [h]

end Link

/-! ## 2. One after another -/

namespace Server

/-- The connection takes frames. -/
def serves (guest : Nat) (s : Server) : Bool :=
  (s.link? guest).any fun l => l.connection.takes

/-- The connection takes no frames, and does not show why. -/
def stalls (guest : Nat) (s : Server) : Bool :=
  (s.link? guest).any Link.stalls

/-- A copy of the frame is queued on each of these connections that takes frames. -/
def handTo (f : Frame) (guests : List Nat) (s : Server) : Server :=
  { s with
    guests := s.guests.mapIdx fun n g =>
      if n ∈ guests ∧ s.serves n then g.mapLink (Link.queue f) else g }

variable {s : Server} {command : Command} {f : Frame} {guest : Nat} {guests : List Nat} {l : Link}

/-- Nothing changes for all others. -/
theorem handTo_congr {guests' : List Nat}
    (h : ∀ n, s.serves n = true → (n ∈ guests ↔ n ∈ guests')) :
    s.handTo f guests = s.handTo f guests' := by
  unfold handTo
  congr 1
  refine List.ext_getElem? fun n => ?_
  rw [List.getElem?_mapIdx, List.getElem?_mapIdx]
  cases s.guests[n]? with
  | none => rfl
  | some g =>
      have hboth : (n ∈ guests ∧ s.serves n = true) ↔ (n ∈ guests' ∧ s.serves n = true) :=
        and_congr_left (h n)
      simp only [Option.map_some, hboth]

theorem handTo_nil (f : Frame) (s : Server) : s.handTo f [] = s := by
  have hsame : s.guests.mapIdx (fun n g =>
      if n ∈ [] ∧ s.serves n then g.mapLink (Link.queue f) else g) = s.guests := by
    refine List.ext_getElem? fun n => ?_
    rw [List.getElem?_mapIdx]
    cases s.guests[n]? <;> simp
  unfold handTo
  rw [hsame]

/-- The link of a connection after some were handed a frame. -/
theorem link?_handTo (f : Frame) (guests : List Nat) (n : Nat) (s : Server) :
    (s.handTo f guests).link? n =
      if n ∈ guests ∧ s.serves n then (s.link? n).map (Link.queue f) else s.link? n := by
  conv => lhs; unfold link? handTo
  dsimp only
  rw [List.getElem?_mapIdx]
  unfold link?
  cases s.guests[n]? with
  | none => simp
  | some g =>
      rw [Option.map_some, Option.bind_some, Option.bind_some]
      split
      · exact g.link?_mapLink (Link.queue f)
      · rfl

/-- A connection that is handed a frame takes frames as before. -/
theorem serves_mapLink (f : Frame) (guest n : Nat) (s : Server) :
    (s.mapLink guest (Link.queue f)).serves n = s.serves n := by
  unfold serves
  rw [link?_mapLink]
  split
  · rw [Option.any_map]
    rfl
  · rfl

theorem stalls_mapLink (f : Frame) (guest n : Nat) (s : Server) :
    (s.mapLink guest (Link.queue f)).stalls n = s.stalls n := by
  unfold stalls
  rw [link?_mapLink]
  split
  · rw [Option.any_map]
    rfl
  · rfl

/-- Only what a change makes of the link that is there matters. -/
theorem mapLink_congr {change change' : Link → Link} (hl : s.link? guest = some l)
    (hchange : change l = change' l) : s.mapLink guest change = s.mapLink guest change' := by
  unfold mapLink
  congr 1
  refine List.ext_getElem? fun n => ?_
  rw [List.getElem?_modify, List.getElem?_modify]
  split
  · next h =>
    subst h
    unfold link? at hl
    cases hg : s.guests[guest]? with
    | none => rfl
    | some g =>
        rw [hg] at hl
        have hl' : g.link? = some l := hl
        unfold Guest.link? at hl'
        split at hl'
        · next a hstage =>
          cases hl'
          simp only [Option.map_eq_map, Option.map_some, Guest.mapLink, hstage, hchange]
        · cases hl'
  · rfl

/-- One more connection is handed the frame. -/
theorem handTo_cons (hserves : s.serves guest = true) (hfresh : guest ∉ guests) :
    (s.mapLink guest (Link.queue f)).handTo f guests = s.handTo f (guest :: guests) := by
  unfold handTo
  simp only [serves_mapLink]
  unfold mapLink
  congr 1
  refine List.ext_getElem? fun n => ?_
  rw [List.getElem?_mapIdx, List.getElem?_mapIdx, List.getElem?_modify]
  cases s.guests[n]? with
  | none => split <;> rfl
  | some g =>
      by_cases hn : guest = n
      · subst hn
        simp [hfresh, hserves]
      · simp [hn, Ne.symm hn]

theorem serves_eq (hl : s.link? guest = some l) : s.serves guest = l.connection.takes := by
  unfold serves
  rw [hl]
  rfl

/-- A connection that takes no frames is handed none. -/
theorem handTo_cons_of_not_serves (hserves : s.serves guest = false) :
    s.handTo f (guest :: guests) = s.handTo f guests := by
  refine handTo_congr fun n hn => List.mem_cons.trans (or_iff_right fun heq => ?_)
  rw [heq, hserves] at hn
  cases hn

/-- A connection that takes no frames and does not stall shows that it is at its end. -/
theorem shows_of_passes (hl : s.link? guest = some l) (hpass : s.stalls guest = false)
    (htakes : l.connection.takes = false) : l.shows = true := by
  unfold stalls Link.stalls at hpass
  rw [hl, Option.any_some, htakes] at hpass
  simpa using hpass

theorem askEach_of_takes (hl : s.link? guest = some l)
    (hsends : command.Sends l.connection.maxPayload f) (htakes : l.connection.takes = true) :
    s.askEach command (guest :: guests) =
      (((s.mapLink guest (Link.queue f)).askEach command guests).1.map (· + 1),
        ((s.mapLink guest (Link.queue f)).askEach command guests).2) := by
  have hsame : s.mapLink guest (fun _ => l.queue f) = s.mapLink guest (Link.queue f) :=
    mapLink_congr hl rfl
  rw [askEach, hl]
  simp only [Link.perform_of_sends hsends, htakes, if_true, hsame]

theorem askEach_of_shows (hl : s.link? guest = some l)
    (hsends : command.Sends l.connection.maxPayload f) (htakes : l.connection.takes = false)
    (hshows : l.shows = true) :
    s.askEach command (guest :: guests) = s.askEach command guests := by
  rw [askEach, hl]
  unfold Link.shows at hshows
  simp only [Link.perform_of_sends hsends, htakes, hshows, if_true, Bool.false_eq_true, if_false]

/-- Where a connection stalls, nobody else is asked. -/
theorem askEach_of_stalls (hl : s.link? guest = some l)
    (hsends : command.Sends l.connection.maxPayload f) (hstalls : l.stalls = true) :
    s.askEach command (guest :: guests) = (.error (.connectionClosed l.connection.id), s) := by
  obtain ⟨htakes, hshows⟩ := Bool.and_eq_true_iff.mp hstalls
  rw [Bool.not_eq_true'] at htakes hshows
  rw [askEach, hl]
  unfold Link.shows at hshows
  simp only [Link.perform_of_sends hsends, htakes, hshows, Bool.false_eq_true, if_false]

/-- As long as no connection stalls, those that take frames are handed theirs and counted. -/
theorem askEach_append {before : List Nat} (after : List Nat) (hnodup : before.Nodup)
    (hlinked : ∀ n ∈ before, ∃ l, s.link? n = some l ∧
      command.Sends l.connection.maxPayload f)
    (hpass : ∀ n ∈ before, s.stalls n = false) :
    s.askEach command (before ++ after) =
      (((s.handTo f before).askEach command after).1.map (· + before.countP s.serves),
        ((s.handTo f before).askEach command after).2) := by
  induction before generalizing s with
  | nil =>
      rw [handTo_nil, List.nil_append]
      cases s.askEach command after with
      | mk answer s' => cases answer <;> rfl
  | cons guest before ih =>
      obtain ⟨l, hl, hsends⟩ := hlinked guest (List.mem_cons_self ..)
      obtain ⟨hfresh, hnodup⟩ := List.nodup_cons.mp hnodup
      have hserves := serves_eq hl
      rw [List.cons_append, List.countP_cons]
      cases htakes : l.connection.takes with
      | true =>
          have hothers (n : Nat) (hn : n ∈ before) :
              (s.mapLink guest (Link.queue f)).link? n = s.link? n := by
            refine (link?_mapLink guest _ n s).trans (if_neg fun heq => ?_)
            rw [heq] at hn
            exact hfresh hn
          rw [htakes] at hserves
          rw [askEach_of_takes hl hsends htakes, ih hnodup, handTo_cons hserves hfresh,
            if_pos hserves]
          · simp only [serves_mapLink]
            cases ((s.handTo f (guest :: before)).askEach command after).1 <;> rfl
          · intro n hn
            rw [hothers n hn]
            exact hlinked n (List.mem_cons_of_mem guest hn)
          · intro n hn
            rw [stalls_mapLink]
            exact hpass n (List.mem_cons_of_mem guest hn)
      | false =>
          have hshows := shows_of_passes hl (hpass guest (List.mem_cons_self ..)) htakes
          rw [htakes] at hserves
          rw [askEach_of_shows hl hsends htakes hshows, handTo_cons_of_not_serves hserves, hserves,
            if_neg Bool.false_ne_true, Nat.add_zero]
          exact ih hnodup (fun n hn => hlinked n (List.mem_cons_of_mem guest hn))
            fun n hn => hpass n (List.mem_cons_of_mem guest hn)

/-- A command that sends no frame changes nothing, and nobody is counted. -/
theorem askEach_of_not_sends (hframe : command ≠ .disconnect)
    (hsends : ∀ n ∈ guests, ∀ l, s.link? n = some l →
      ∀ f, ¬ command.Sends l.connection.maxPayload f) :
    s.askEach command guests = (.ok 0, s) ∨ ∃ r, s.askEach command guests = (.error r, s) := by
  induction guests with
  | nil => exact .inl rfl
  | cons guest guests ih =>
      have hrest := ih fun n hn => hsends n (List.mem_cons_of_mem guest hn)
      rw [askEach]
      cases hl : s.link? guest with
      | none => exact hrest
      | some l =>
          obtain ⟨r, hr⟩ := Link.perform_of_not_sends hframe
            (hsends guest (List.mem_cons_self ..) l hl)
          dsimp only
          rw [hr]
          dsimp only
          split
          · exact hrest
          · exact .inr ⟨r, rfl⟩

/-! ## 3. Broadcasts -/

variable {config : ServerConfig} {source : RandomSource} {s₀ : Server} {moves : List ServerMove}
variable {order : List Nat}

/-- **A broadcast gives the frame to the connections in the registry that take frames**, one copy to
each, and tells how many they are, unless it comes to a connection that takes no frames and does not
show why. Then it stops: those before this one have their copies, and nobody behind it is asked. A
broadcast that sends no frame changes nothing. -/
theorem broadcast_of_run (command : Command) (hnew : Server.new config source = .ok s₀)
    (hrun : s₀.run? moves = some s) (horder : order.Perm s.live) :
    (∀ f, command.Sends config.options.maxPayload f →
      ((∀ n ∈ s.live, s.stalls n = false) →
        s.askEach command order = (.ok (s.live.countP s.serves), s.handTo f s.live)) ∧
      ∀ before guest after l, order = before ++ guest :: after →
        (∀ n ∈ before, s.stalls n = false) → s.link? guest = some l → l.stalls = true →
        s.askEach command order = (.error (.connectionClosed l.connection.id), s.handTo f before)) ∧
    (command ≠ .disconnect → (∀ f, ¬ command.Sends config.options.maxPayload f) →
      s.askEach command order = (.ok 0, s) ∨ ∃ r, s.askEach command order = (.error r, s)) := by
  have horderly := (orderly_new hnew).run hrun
  have hnodup : order.Nodup := horder.nodup_iff.mpr horderly.nodup_live
  have hlinks (n : Nat) (hn : n ∈ order) := horderly.exists_link (horder.mem_iff.mp hn)
  refine ⟨fun f hsends => ?_, fun hframe hsends => ?_⟩
  · have hlinked (n : Nat) (hn : n ∈ order) :
        ∃ l, s.link? n = some l ∧ command.Sends l.connection.maxPayload f := by
      obtain ⟨l, hl, hlimit⟩ := hlinks n hn
      exact ⟨l, hl, hlimit ▸ hsends⟩
    refine ⟨fun hpass => ?_, fun before guest after l heq hpass hl hstalls => ?_⟩
    · have hall := askEach_append [] hnodup hlinked
        fun n hn => hpass n (horder.mem_iff.mp hn)
      rw [List.append_nil] at hall
      rw [hall, horder.countP_eq, handTo_congr fun n _ => horder.mem_iff, askEach]
      simp only [Except.map, Nat.zero_add]
    · subst heq
      obtain ⟨hbefore, -, hdisjoint⟩ := List.nodup_append.mp hnodup
      have hsame : (s.handTo f before).link? guest = some l := by
        refine (link?_handTo f before guest s).trans ((if_neg fun hasked => ?_).trans hl)
        exact hdisjoint guest hasked.1 guest (List.mem_cons_self ..) rfl
      have hlimit : command.Sends l.connection.maxPayload f := by
        obtain ⟨l', hl', hsends'⟩ := hlinked guest (List.mem_append_right _ (List.mem_cons_self ..))
        cases hl.symm.trans hl'
        exact hsends'
      rw [askEach_append _ hbefore (fun n hn => hlinked n (List.mem_append_left _ hn)) hpass,
        askEach_of_stalls hsame hlimit hstalls]
      rfl
  · refine askEach_of_not_sends hframe fun n hn l hl f => ?_
    obtain ⟨l', hl', hlimit⟩ := hlinks n hn
    rw [hl] at hl'
    cases hl'
    rw [hlimit]
    exact hsends f

end Server

/-! ## 4. Two connections -/

/-- A server takes in two connections, and both are in the registry. -/
def twoGuests : List ServerMove :=
  let opening (guest : Nat) : List ServerMove :=
    .setUp guest { capacity := 64 } :: lifeMoves.1.map (.onLink guest) ++
      List.replicate 3 (.attend guest)
  [.start (.ok { ip := .short [127, 0, 0, 1], port := 7 }), .accept 0 "far" 1,
    .accept 0 "away" 1] ++ opening 0 ++ opening 1

/-- The end of the second connection is asked for. -/
def parting : List ServerMove :=
  [.onLink 1 (.call .disconnect)]

/-- Before that its peer is gone, and its transport has noted this. -/
def noted : List ServerMove :=
  .onLink 1 .endArriving :: List.replicate 4 (.onLink 1 (.receiver .work 2048))

def countingSource : RandomSource :=
  { byte := UInt8.ofNat }

theorem sends_knock : (Command.send "knock" [21]).Sends lifeServer.options.maxPayload
    (.new "knock" [21]) :=
  .bytes rfl rfl

theorem not_sends_typed (limit : Nat) (f : Frame) :
    ¬ (Command.send (Frame.typedIdentifier "knock") [21]).Sends limit f := by
  intro h
  cases h with
  | bytes free fits => cases free

/-- A connection at its end is passed over, and one that stalls ends the broadcast. A typed
identifier is refused. -/
theorem broadcast_of_parting :
    (∃ s₀ s, Server.new lifeServer countingSource = .ok s₀ ∧
      s₀.run? (twoGuests ++ noted ++ parting) = some s ∧
      s.askEach (.send "knock" [21]) [1, 0] = (.ok 1, s.handTo (.new "knock" [21]) [0, 1]) ∧
      (s.askEach (.send (Frame.typedIdentifier "knock") [21]) [1, 0] = (.ok 0, s) ∨
        ∃ r, s.askEach (.send (Frame.typedIdentifier "knock") [21]) [1, 0] = (.error r, s))) ∧
    ∃ s₀ s id, Server.new lifeServer countingSource = .ok s₀ ∧
      s₀.run? (twoGuests ++ parting) = some s ∧ s.askEach (.send "knock" [21]) [0, 1] =
        (.error (.connectionClosed id), s.handTo (.new "knock" [21]) [0]) := by
  constructor
  · have hseen : ((Server.new lifeServer countingSource).toOption.bind fun s₀ =>
        (s₀.run? (twoGuests ++ noted ++ parting)).map fun s =>
          (s.live, s.live.all (fun n => !s.stalls n), s.live.countP s.serves)) =
        some ([0, 1], true, 1) := by
      decide +kernel
    obtain ⟨s₀, hs₀, hlife⟩ := Option.bind_eq_some_iff.mp hseen
    obtain ⟨s, hrun, hobserved⟩ := Option.map_eq_some_iff.mp hlife
    simp only [Prod.mk.injEq, List.all_eq_true, Bool.not_eq_true'] at hobserved
    obtain ⟨hlive, hpass, hcount⟩ := hobserved
    have hnew := eq_ok_of_toOption hs₀
    have horder : [1, 0].Perm s.live := hlive ▸ .swap 0 1 []
    have hall := ((Server.broadcast_of_run (.send "knock" [21]) hnew hrun horder).1 _
      sends_knock).1 hpass
    rw [hcount, hlive] at hall
    exact ⟨s₀, s, hnew, hrun, hall, (Server.broadcast_of_run _ hnew hrun horder).2
      Command.noConfusion (not_sends_typed lifeServer.options.maxPayload)⟩
  · have hseen : ((Server.new lifeServer countingSource).toOption.bind fun s₀ =>
        (s₀.run? (twoGuests ++ parting)).map fun s =>
          (s.live, s.stalls 0, (s.link? 1).map Link.stalls)) =
        some ([0, 1], false, some true) := by
      decide +kernel
    obtain ⟨s₀, hs₀, hlife⟩ := Option.bind_eq_some_iff.mp hseen
    obtain ⟨s, hrun, hobserved⟩ := Option.map_eq_some_iff.mp hlife
    simp only [Prod.mk.injEq] at hobserved
    obtain ⟨hlive, hpass, hstalls⟩ := hobserved
    obtain ⟨l, hl, hstalls⟩ := Option.map_eq_some_iff.mp hstalls
    have hnew := eq_ok_of_toOption hs₀
    have horder : [0, 1].Perm s.live := hlive ▸ .refl _
    have hbefore : ∀ n ∈ [0], s.stalls n = false := by
      intro n hn
      rw [List.mem_singleton.mp hn]
      exact hpass
    exact ⟨s₀, s, _, hnew, hrun,
      ((Server.broadcast_of_run (.send "knock" [21]) hnew hrun horder).1 _ sends_knock).2
        [0] 1 [] l rfl hbefore hl hstalls⟩

/-- **A connection whose end was asked for makes a broadcast fail**, though the other one is open.
It depends on the order whether that one is given the frame. -/
theorem broadcast_fails_of_parting :
    ∃ s₀ s s' l k, Server.new lifeServer countingSource = .ok s₀ ∧
      s₀.run? (twoGuests ++ parting) = some s ∧ s.live = [0, 1] ∧
      s.link? 0 = some l ∧ l.connection.takes = true ∧
      s.link? 1 = some k ∧ k.connection.cancelled = true ∧ k.connection.closed = false ∧
      k.transport.reason = none ∧
      s.broadcast "knock" [21] = (.error (.connectionClosed k.connection.id), s') ∧
      s'.link? 0 = some (l.queue (.new "knock" [21])) ∧
      s.askEach (.send "knock" [21]) [1, 0] = (.error (.connectionClosed k.connection.id), s) := by
  have hseen : ((Server.new lifeServer countingSource).toOption.bind fun s₀ =>
      (s₀.run? (twoGuests ++ parting)).map fun s =>
        (s.live, (s.link? 0).map (·.connection.takes),
          (s.link? 1).map fun l => (l.connection.cancelled, l.stalls))) =
      some ([0, 1], some true, some (true, true)) := by
    decide +kernel
  obtain ⟨s₀, hs₀, hlife⟩ := Option.bind_eq_some_iff.mp hseen
  obtain ⟨s, hrun, hobserved⟩ := Option.map_eq_some_iff.mp hlife
  simp only [Prod.mk.injEq] at hobserved
  obtain ⟨hlive, hopen, hparting⟩ := hobserved
  obtain ⟨l, hl, htakes⟩ := Option.map_eq_some_iff.mp hopen
  obtain ⟨k, hk, hparting⟩ := Option.map_eq_some_iff.mp hparting
  simp only [Prod.mk.injEq] at hparting
  obtain ⟨hcancelled, hstalls⟩ := hparting
  obtain ⟨hclosed, hreason⟩ := Link.hidden_of_stalls hstalls
  have hlimit := ((Server.orderly_new (eq_ok_of_toOption hs₀)).run hrun).limit
  have hsends : (Command.send "knock" [21]).Sends l.connection.maxPayload (.new "knock" [21]) :=
    hlimit 0 l hl ▸ sends_knock
  have hsends' : (Command.send "knock" [21]).Sends k.connection.maxPayload (.new "knock" [21]) :=
    hlimit 1 k hk ▸ sends_knock
  have hk' : (s.mapLink 0 (Link.queue (.new "knock" [21]))).link? 1 = some k :=
    (Server.link?_mapLink 0 _ 1 s).trans hk
  refine ⟨s₀, s, s.mapLink 0 (Link.queue (.new "knock" [21])), l, k, eq_ok_of_toOption hs₀, hrun,
    hlive, hl, htakes, hk, hcancelled, hclosed, hreason, ?_, ?_,
    Server.askEach_of_stalls hk hsends' hstalls⟩
  · unfold Server.broadcast Server.askAll
    rw [hlive, Server.askEach_of_takes hl hsends htakes,
      Server.askEach_of_stalls hk' hsends' hstalls]
    rfl
  · rw [Server.link?_mapLink, if_pos rfl, hl]
    rfl

end Courier
