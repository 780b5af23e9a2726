import Courier.Proofs.Link.Timely
import Courier.Proofs.Wire.Fragmentation

/-!
Courier.Proofs.Link.Receiving — the way from the peer to the handlers.

`Link.Receives` says where the bytes are that arrived: the receiver has received a front of them,
and the main task has used a front of that. `Link.Hears` says what was made of the bytes that were
used: the handshake has examined the first of them, and the frames that were dispatched are those
that a run of the machine over the others gives. Between two calls of the reader the machine is at
rest, and what it has looked at and left is the first thing that it looks at again.

The tasks other than the main task and the receiver leave all this alone (`Link.Aside`).
-/

namespace Courier

/-! ## 1. Stages of the main task -/

/-- The part of the input that the main task is working off. -/
def MainStage.portion? : MainStage → Option Portion
  | .marking portion | .showing portion | .telling portion => portion
  | .examining portion | .reading portion | .handling _ portion | .settling portion => some portion
  | _ => none

/-- The main task takes input, or will take it. -/
def MainStage.Takes : MainStage → Bool
  | .unstarted | .opening | .marking _ | .showing _ | .telling _ | .waiting _ | .examining _
  | .reading _ | .handling _ _ | .settling _ => true
  | _ => false

/-- What the main task has in its hands: the part of an input that is not worked off, and the size
of the input. -/
def MainStage.lent (stage : MainStage) : Option (Bytes × Nat) :=
  if stage.Takes then
    some (match stage.portion? with
      | none => ([], 0)
      | some portion => (portion.buffer.toList, portion.size))
  else none

/-- What the main task has in its hands is counted right. -/
def MainStage.Sound (stage : MainStage) : Prop :=
  ∀ portion, stage.portion? = some portion → portion.buffer.Sound

theorem MainStage.portion?_of_not_takes {stage : MainStage} (h : stage.Takes = false) :
    stage.portion? = none := by
  cases stage <;> first | rfl | cases h

namespace Link

/-! ## 2. The receiving side -/

/-- Of the bytes that `arrived` the receiver has `received` a front, and the main task has `used` a
front of that. -/
structure Receives (l : Link) (arrived received used : Bytes) : Prop where
  wire : received ++ l.wire.arriving = arrived
  input : l.transport.input.Feeds received used l.main.lent
  main_sound : l.main.Sound
  blank : l.memory.Blank

/-- The frames that were dispatched are those that a run over `eaten` gives, and the reader is where
that run is. This was said when `ahead` was there already, and stays so whatever comes behind it. -/
structure Follows (format : WireFormat) (limit : Nat) (l : Link) (eaten ahead : Bytes)
    (s : (format.decoder limit).State) : Prop where
  at_ : (format.decoder limit).At l.reader s
  run : ∀ more, (format.decoder limit).intake.run (format.fresh limit) (eaten ++ (ahead ++ more)) =
    ((format.decoder limit).intake.run s (ahead ++ more)).after l.heard

/-- The reader is new, and no frame was dispatched. -/
structure Fresh (format : WireFormat) (limit : Nat) (l : Link) : Prop where
  at_ : (format.decoder limit).At l.reader (format.fresh limit)
  heard : l.heard = []

/-- The reader is at rest: of what is `there` it has looked at a front, and found no frame in it. -/
def AtRest (format : WireFormat) (limit : Nat) (l : Link) (eaten there : Bytes) : Prop :=
  ∃ ahead s, ahead <+: there ∧ l.Follows format limit eaten ahead s ∧
    (format.decoder limit).intake.look s ahead = .pending

/-- How far the main task has come with the bytes that it has used. The first of them were
`examined` by the handshake. -/
def Progress (format : WireFormat) (limit : Nat) (l : Link) (examined used : Bytes) : Prop :=
  match l.main, l.connection.handshaked with
  | .unstarted, _ | .opening, _ | .examining _, _ | .waiting _, false | .settling _, false =>
      examined = [] ∧ used = [] ∧ l.Fresh format limit
  | .marking _, _ | .showing _, _ | .telling _, _ => used = examined ∧ l.Fresh format limit
  | .waiting _, true =>
      ∃ eaten, used = examined ++ eaten ∧
        l.AtRest format limit eaten l.transport.input.unread.toList
  | .settling portion, true =>
      ∃ eaten, used = examined ++ eaten ∧ l.AtRest format limit eaten portion.buffer.toList
  | .reading portion, _ | .handling _ portion, _ =>
      ∃ eaten s, used = examined ++ eaten ∧ l.Follows format limit eaten portion.buffer.toList s
  | _, _ => True

/-- What was made of the bytes that were received. -/
structure Hears (format : WireFormat) (limit : Nat) (l : Link)
    (arrived received examined used : Bytes) : Prop where
  receives : l.Receives arrived received used
  timely : l.Timely
  dispatched : ∃ seen, examined ++ seen <+: received ∧
    l.heard <+: ((format.decoder limit).intake.run (format.fresh limit) seen).gives
  unheard : l.connection.handshaked = false → l.heard = []
  progress : l.Progress format limit examined used

/-- The bytes that the handshake consumes in a move. -/
def examines (m : Move) (l l' : Link) : Bytes :=
  match m, l.main, l'.main with
  | .main .work, .examining portion, .marking (some left) =>
      portion.buffer.toList.take (portion.buffer.size - left.buffer.size)
  | _, _, _ => []

section Hears

variable {format : WireFormat} {limit : Nat} {l l' : Link}
variable {arrived received examined used eaten ahead there bs : Bytes}
variable {s : (format.decoder limit).State}

/-- More was there than was thought. -/
theorem Follows.extend (h : l.Follows format limit eaten ahead s) (hfront : ahead <+: there) :
    l.Follows format limit eaten there s := by
  obtain ⟨more, rfl⟩ := hfront
  refine ⟨h.at_, fun rest => ?_⟩
  rw [List.append_assoc]
  exact h.run (more ++ rest)

theorem Follows.gives (h : l.Follows format limit eaten ahead s) :
    l.heard <+:
      ((format.decoder limit).intake.run (format.fresh limit) (eaten ++ ahead)).gives := by
  have hrun := h.run []
  rw [List.append_nil] at hrun
  rw [hrun]
  exact List.prefix_append _ _

theorem Fresh.follows (h : l.Fresh format limit) :
    l.Follows format limit [] [] (format.fresh limit) :=
  ⟨h.at_, fun more => by rw [h.heard]; rfl⟩

theorem Fresh.atRest (h : l.Fresh format limit) (there : Bytes) : l.AtRest format limit [] there :=
  ⟨[], _, List.nil_prefix, h.follows, format.look_fresh_nil limit⟩

/-- What was said of the reader does not hang on anything but the reader and the frames. -/
theorem Follows.same (h : l.Follows format limit eaten ahead s) (hreader : l'.reader = l.reader)
    (hheard : l'.heard = l.heard) : l'.Follows format limit eaten ahead s :=
  ⟨by rw [hreader]; exact h.at_, fun more => by rw [hheard]; exact h.run more⟩

theorem Fresh.same (h : l.Fresh format limit) (hreader : l'.reader = l.reader)
    (hheard : l'.heard = l.heard) : l'.Fresh format limit :=
  ⟨by rw [hreader]; exact h.at_, hheard.trans h.heard⟩

theorem AtRest.same (h : l.AtRest format limit eaten ahead) (hfront : ahead <+: there)
    (hreader : l'.reader = l.reader) (hheard : l'.heard = l.heard) :
    l'.AtRest format limit eaten there := by
  obtain ⟨seen, s, hseen, hfollows, hlook⟩ := h
  exact ⟨seen, s, hseen.trans hfront, hfollows.same hreader hheard, hlook⟩

/-- How far the main task has come does not hang on what it is set up with. -/
theorem Progress.same (hprogress : l.Progress format limit examined used)
    (hmain : l'.main = l.main) (hhandshaked : l'.connection.handshaked = l.connection.handshaked)
    (hreader : l'.reader = l.reader) (hheard : l'.heard = l.heard)
    (hunread : l.transport.input.unread.toList <+: l'.transport.input.unread.toList) :
    l'.Progress format limit examined used := by
  unfold Progress at hprogress ⊢
  rw [hmain, hhandshaked]
  cases hstage : l.main with
  | unstarted | opening | examining _ =>
      simp only [hstage] at hprogress
      obtain ⟨hexamined, hused, hfresh⟩ := hprogress
      exact ⟨hexamined, hused, hfresh.same hreader hheard⟩
  | marking _ | showing _ | telling _ =>
      simp only [hstage] at hprogress
      obtain ⟨hused, hfresh⟩ := hprogress
      exact ⟨hused, hfresh.same hreader hheard⟩
  | waiting read =>
      cases hmark : l.connection.handshaked with
      | false =>
          simp only [hstage, hmark] at hprogress
          obtain ⟨hexamined, hused, hfresh⟩ := hprogress
          exact ⟨hexamined, hused, hfresh.same hreader hheard⟩
      | true =>
          simp only [hstage, hmark] at hprogress
          obtain ⟨eaten, hused, hrest⟩ := hprogress
          exact ⟨eaten, hused, hrest.same hunread hreader hheard⟩
  | settling portion =>
      cases hmark : l.connection.handshaked with
      | false =>
          simp only [hstage, hmark] at hprogress
          obtain ⟨hexamined, hused, hfresh⟩ := hprogress
          exact ⟨hexamined, hused, hfresh.same hreader hheard⟩
      | true =>
          simp only [hstage, hmark] at hprogress
          obtain ⟨eaten, hused, hrest⟩ := hprogress
          exact ⟨eaten, hused, hrest.same (List.prefix_refl _) hreader hheard⟩
  | reading portion | handling _ portion =>
      simp only [hstage] at hprogress
      obtain ⟨eaten, s, hused, hfollows⟩ := hprogress
      exact ⟨eaten, s, hused, hfollows.same hreader hheard⟩
  | _ => trivial

/-- Nor is it changed by what the other tasks do. -/
theorem Progress.aside (hprogress : l.Progress format limit examined used) (ha : l.Aside l')
    (hunread : l.transport.input.unread.toList <+: l'.transport.input.unread.toList) :
    l'.Progress format limit examined used :=
  hprogress.same ha.main_eq ha.handshaked_eq ha.reader_eq ha.heard_eq hunread

/-- What the other tasks do adds to what is received, and to nothing else. -/
theorem Hears.draws (h : l.Hears format limit arrived received examined used) (ha : l.Aside l')
    (hd : l.Draws bs l') : l'.Hears format limit arrived (received ++ bs) examined used where
  receives := by
    refine ⟨?_, ?_, ?_, hd.input.blank h.receives.blank⟩
    · rw [List.append_assoc, ← hd.arriving]
      exact h.receives.wire
    · rw [ha.main_eq]
      exact h.receives.input.grows h.receives.blank hd.input
    · rw [ha.main_eq]
      exact h.receives.main_sound
  timely := h.timely.aside ha
  dispatched := by
    obtain ⟨seen, hseen, hheard⟩ := h.dispatched
    rw [ha.heard_eq]
    exact ⟨seen, hseen.trans (List.prefix_append _ _), hheard⟩
  unheard hmark := by
    rw [ha.heard_eq]
    exact h.unheard (ha.handshaked_eq.symm.trans hmark)
  progress := h.progress.aside ha hd.input.unread

/-- The main task goes to another stage, and dispatches nothing. -/
theorem Hears.turn {used' : Bytes} (h : l.Hears format limit arrived received examined used)
    (harriving : l'.wire.arriving = l.wire.arriving) (hheard : l'.heard = l.heard)
    (hmark : l'.connection.handshaked = false → l.connection.handshaked = false)
    (hinput : l'.transport.input.Feeds received used' l'.main.lent) (hsound : l'.main.Sound)
    (hblank : l'.memory.Blank) (htimely : l'.Timely)
    (hprogress : l'.Progress format limit examined used') :
    l'.Hears format limit arrived received examined used' where
  receives := ⟨by rw [harriving]; exact h.receives.wire, hinput, hsound, hblank⟩
  timely := htimely
  dispatched := by rw [hheard]; exact h.dispatched
  unheard hfalse := by rw [hheard]; exact h.unheard (hmark hfalse)
  progress := hprogress

/-! ## 3. Reading -/

/-- A call that finds no frame leaves the reader at rest. -/
theorem Follows.pending {portion : Portion} {r : FrameReader} {b : Buffer} {piece : Bytes}
    {s' : (format.decoder limit).State}
    (h : l.Follows format limit eaten portion.buffer.toList s)
    (hpiece : piece ++ b.toList = portion.buffer.toList) (hat : (format.decoder limit).At r s')
    (hrun : (format.decoder limit).intake.run s portion.buffer.toList = ⟨[], .ok (s', b.toList)⟩)
    (hreader : l'.reader = r) (hheard : l'.heard = l.heard) :
    l'.AtRest format limit (eaten ++ piece) b.toList := by
  refine ⟨b.toList, s', List.prefix_refl _, ⟨by rw [hreader]; exact hat, fun more => ?_⟩,
    Intake.look_of_run_ok (congrArg Taken.ending hrun)⟩
  rw [List.append_assoc, ← List.append_assoc piece, hpiece, h.run, Intake.run_append_of_ok hrun,
    Taken.after_nil, hheard]

/-- A call that finds a frame: the frame is the next one that the run gives. -/
theorem Follows.frame {portion : Portion} {r : FrameReader} {b : Buffer} {piece : Bytes} {f : Frame}
    {s' : (format.decoder limit).State}
    (h : l.Follows format limit eaten portion.buffer.toList s)
    (hpiece : piece ++ b.toList = portion.buffer.toList) (hat : (format.decoder limit).At r s')
    (hrun : (format.decoder limit).intake.run s portion.buffer.toList =
      ((format.decoder limit).intake.run s' b.toList).after [f])
    (hreader : l'.reader = r) (hheard : l'.heard = l.heard ++ [f]) :
    l'.Follows format limit (eaten ++ piece) b.toList s' := by
  refine ⟨by rw [hreader]; exact hat, fun more => ?_⟩
  rw [List.append_assoc, ← List.append_assoc piece, hpiece, h.run,
    Intake.run_append_of_after hrun, Taken.after_after, hheard]

/-- What a call that finds a frame comes to: the reader has gone on, the frame is noted, and the
main task reads on or is with a handler. -/
structure Dispatches (f : Frame) (portion : Portion) (r : FrameReader) (l l' : Link) : Prop where
  wire_eq : l'.wire = l.wire
  transport_eq : l'.transport = l.transport
  memory_eq : l'.memory = l.memory
  connection_eq : l'.connection = l.connection
  reader_eq : l'.reader = r
  heard_eq : l'.heard = l.heard ++ [f]
  main_eq : l'.main = .reading portion ∨ ∃ job, l'.main = .handling job portion

theorem dispatch_dispatches (f : Frame) (portion : Portion) (r : FrameReader) (l : Link) :
    l.Dispatches f portion r ({ l with reader := r }.dispatch f portion) := by
  have hheard := heard_note_dispatched f { l with reader := r }
  unfold dispatch
  dsimp only
  split
  · exact ⟨rfl, rfl, rfl, rfl, rfl, hheard, .inl rfl⟩
  · split
    · exact ⟨rfl, rfl, rfl, rfl, rfl, hheard, .inl rfl⟩
    · exact ⟨rfl, rfl, rfl, rfl, rfl, hheard, .inr ⟨_, rfl⟩⟩

/-- **A frame is dispatched**: it is the next one among those in the bytes that were received. -/
theorem Hears.dispatch {portion : Portion} {used' : Bytes} {f : Frame} {r : FrameReader}
    (h : l.Hears format limit arrived received examined used) (hd : l.Dispatches f portion r l')
    (hmark : l.connection.handshaked = true) (hused : used' = examined ++ eaten)
    (hinput : l.transport.input.Feeds received used' (some (portion.buffer.toList, portion.size)))
    (hsound : portion.buffer.Sound)
    (hfollows : l'.Follows format limit eaten portion.buffer.toList s) :
    l'.Hears format limit arrived received examined used' := by
  have hmark' : l'.connection.handshaked = true := by rw [hd.connection_eq]; exact hmark
  have hlent : l'.main.lent = some (portion.buffer.toList, portion.size) := by
    obtain hmain | ⟨job, hmain⟩ := hd.main_eq <;> rw [hmain] <;> rfl
  have hportion : l'.main.portion? = some portion := by
    obtain hmain | ⟨job, hmain⟩ := hd.main_eq <;> rw [hmain] <;> rfl
  refine ⟨⟨by rw [hd.wire_eq]; exact h.receives.wire, ?_, fun p hp => ?_,
    by rw [hd.memory_eq]; exact h.receives.blank⟩, ⟨fun hearly => ?_, fun _ => hmark'⟩,
    ⟨eaten ++ portion.buffer.toList, ?_, hfollows.gives⟩, fun hfalse => ?_, ?_⟩
  · rw [hlent, hd.transport_eq]
    exact hinput
  · rw [hportion] at hp
    cases hp
    exact hsound
  · obtain hmain | ⟨job, hmain⟩ := hd.main_eq <;> rw [hmain] at hearly <;> exact hearly.elim
  · rw [← List.append_assoc, ← hused]
    exact hinput.lent_prefix
  · cases hmark'.symm.trans hfalse
  · unfold Progress
    obtain hmain | ⟨job, hmain⟩ := hd.main_eq <;> rw [hmain] <;> exact ⟨eaten, s, hused, hfollows⟩

/-- A call of the reader. -/
theorem Hears.readFrame {portion : Portion}
    (h : l.Hears format limit arrived received examined used) (hstage : l.main = .reading portion) :
    ∃ used', (l.readFrame portion).Hears format limit arrived received examined used' := by
  have hmark : l.connection.handshaked = true := h.timely.late (by rw [hstage]; trivial)
  have htimely := timely_readFrame portion hmark
  have hinput : l.transport.input.Feeds received used
      (some (portion.buffer.toList, portion.size)) := by
    have hinput := h.receives.input
    rwa [hstage] at hinput
  have hsound : portion.buffer.Sound := h.receives.main_sound portion (by rw [hstage]; rfl)
  have hprogress := h.progress
  simp only [Progress, hstage] at hprogress
  obtain ⟨eaten, s, hused, hfollows⟩ := hprogress
  have hcall := (format.decoder limit).call_read hfollows.at_ hsound
  have hrest := l.reader.rest_read portion.buffer
  unfold Link.readFrame at htimely ⊢
  generalize l.reader.read portion.buffer = read at hcall hrest htimely ⊢
  obtain ⟨piece, hpiece⟩ := hrest.suffix
  rw [← hpiece] at hinput
  cases hcall with
  | fault run =>
      exact ⟨used, h.turn rfl rfl id hinput.quit (fun _ hp => by cases hp) h.receives.blank htimely
        trivial⟩
  | @pending r s' b at_ sound run =>
      refine ⟨used ++ piece, h.turn rfl rfl id hinput.use ?_ h.receives.blank htimely ?_⟩
      · intro portion' hportion'
        cases hportion'
        exact sound
      · simp only [Progress, hmark]
        exact ⟨eaten ++ piece, by rw [hused, List.append_assoc],
          hfollows.pending hpiece at_ run rfl rfl⟩
  | @frame f r s' b at_ sound run =>
      have hdispatches := dispatch_dispatches f { portion with buffer := b } r l
      have hfollows' := hfollows.frame hpiece at_ run hdispatches.reader_eq hdispatches.heard_eq
      exact ⟨used ++ piece, h.dispatch hdispatches hmark (by rw [hused, List.append_assoc])
        hinput.use sound hfollows'⟩

/-! ## 4. The other stages -/

/-- What the main task has in its hands when it works on a part of the input. -/
theorem Hears.input_of_portion {portion : Portion}
    (h : l.Hears format limit arrived received examined used)
    (htakes : l.main.Takes = true) (hportion : l.main.portion? = some portion) :
    l.transport.input.Feeds received used (some (portion.buffer.toList, portion.size)) ∧
      portion.buffer.Sound := by
  have hinput := h.receives.input
  rw [MainStage.lent, if_pos htakes, hportion] at hinput
  exact ⟨hinput, h.receives.main_sound portion hportion⟩

/-- What the handshake is shown is in front of what has arrived. -/
theorem Hears.examining_front {portion : Portion}
    (h : l.Hears format limit arrived received examined used)
    (hstage : l.main = .examining portion) : portion.buffer.toList <+: arrived := by
  have hprogress := h.progress
  simp only [Progress, hstage] at hprogress
  obtain ⟨-, rfl, -⟩ := hprogress
  obtain ⟨hinput, -⟩ := h.input_of_portion (by rw [hstage]; rfl)
    (show l.main.portion? = some portion by rw [hstage]; rfl)
  have hfront := hinput.lent_prefix
  rw [List.nil_append] at hfront
  rw [← h.receives.wire]
  exact hfront.trans (List.prefix_append _ _)

/-- What was worked off is given back, and what was not is there again at the next look. -/
theorem Hears.settle {portion : Portion}
    (h : l.Hears format limit arrived received examined used)
    (hstage : l.main = .settling portion) :
    (l.settle portion).Hears format limit arrived received examined used := by
  obtain ⟨hinput, hsound⟩ := h.input_of_portion (by rw [hstage]; rfl)
    (show l.main.portion? = some portion by rw [hstage]; rfl)
  unfold Link.settle
  rw [hsound.size_eq]
  cases hconsume :
      l.transport.input.consume (portion.size - portion.buffer.toList.length) l.memory with
  | error m =>
      exact h.turn rfl rfl id hinput.quit (fun _ hp => by cases hp) h.receives.blank
        (timely_of_neither id id) trivial
  | ok result =>
      obtain ⟨memory, input⟩ := result
      obtain ⟨hsettled, hleft⟩ := hinput.settle hconsume
      have hblank := Pipe.blank_consume hconsume h.receives.blank
      have hprogress := h.progress
      dsimp only
      cases portion.last with
      | true =>
          exact h.turn rfl rfl id hsettled.quit (fun _ hp => by cases hp) hblank
            (timely_of_neither id id) trivial
      | false =>
          refine h.turn rfl rfl id hsettled (fun _ hp => by cases hp) hblank
            (timely_of_neither id id) ?_
          cases hmark : l.connection.handshaked with
          | false =>
              simp only [Progress, hstage, hmark] at hprogress
              obtain ⟨hexamined, hused, hfresh⟩ := hprogress
              simp only [Progress, setInput, hmark]
              exact ⟨hexamined, hused, hfresh.same rfl rfl⟩
          | true =>
              simp only [Progress, hstage, hmark] at hprogress
              obtain ⟨eaten, hused, hrest⟩ := hprogress
              simp only [Progress, setInput, hmark]
              exact ⟨eaten, hused, hrest.same hleft rfl rfl⟩

/-- What was worked off is there to be given back. -/
theorem Hears.consume_ok {portion : Portion}
    (h : l.Hears format limit arrived received examined used)
    (hstage : l.main = .settling portion) : ∃ result,
      l.transport.input.consume (portion.size - portion.buffer.size) l.memory = .ok result := by
  obtain ⟨hinput, hsound⟩ := h.input_of_portion (by rw [hstage]; rfl)
    (show l.main.portion? = some portion by rw [hstage]; rfl)
  have hopen := hinput.open_of_lent (by simp)
  obtain ⟨front, rest, hunread, -, hlent⟩ := hinput.position hopen
  obtain ⟨-, hsize⟩ := hlent _ _ rfl
  have hle : portion.size - portion.buffer.size ≤ l.transport.input.unread.size := by
    rw [hsound.size_eq, hinput.sound.size_eq, hunread, List.length_append]
    omega
  unfold Pipe.consume
  split
  · exact ⟨_, rfl⟩
  · rw [Buffer.advance, if_neg (Nat.not_lt.mpr hle)]
    exact ⟨_, rfl⟩

/-- All that is unread is taken in hand, for the handshake or for the reader. -/
theorem Hears.takeInput {outcome : ReadOutcome} {input : Pipe} {read : ReadStage}
    (h : l.Hears format limit arrived received examined used) (hstage : l.main = .waiting read)
    (hgrows : Pipe.Grows [] (l.memory, l.transport.input) (l.memory, input))
    (hbuffer : outcome.buffer = input.unread) :
    ((l.setInput l.memory input).takeInput outcome).Hears format limit arrived received examined
      used := by
  have htimely := timely_takeInput outcome (l.setInput l.memory input)
  have hinput : input.Feeds received used (some ([], 0)) := by
    have hinput := h.receives.input
    rw [hstage] at hinput
    exact hinput.same h.receives.blank hgrows
  have hlend := hinput.lend
  rw [← hbuffer] at hlend
  have hsound : outcome.buffer.Sound := by rw [hbuffer]; exact hinput.sound
  have hprogress := h.progress
  unfold Link.takeInput at htimely ⊢
  cases hmark : l.connection.handshaked with
  | false =>
      simp only [Progress, hstage, hmark] at hprogress
      obtain ⟨hexamined, hused, hfresh⟩ := hprogress
      simp only [setInput, hmark] at htimely ⊢
      refine h.turn rfl rfl id hlend ?_ h.receives.blank htimely ?_
      · intro portion hportion
        cases hportion
        exact hsound
      · exact ⟨hexamined, hused, hfresh.same rfl rfl⟩
  | true =>
      simp only [Progress, hstage, hmark] at hprogress
      obtain ⟨eaten, hused, ahead, s, hahead, hfollows, -⟩ := hprogress
      simp only [setInput, hmark] at htimely ⊢
      refine h.turn rfl rfl id hlend ?_ h.receives.blank htimely ?_
      · intro portion hportion
        cases hportion
        exact hsound
      · have hthere : ahead <+: outcome.buffer.toList := by
          rw [hbuffer]
          exact hahead.trans hgrows.unread
        exact ⟨eaten, s, hused, (hfollows.extend hthere).same rfl rfl⟩

/-- The main task looks for input, or waits for it. -/
theorem Hears.waiting {read : ReadStage} (h : l.Hears format limit arrived received examined used)
    (hstage : l.main = .waiting read) (hwork : l.workMain = some l') :
    l'.Hears format limit arrived received examined used := by
  have htimely := h.timely.workMain hwork
  unfold workMain at hwork
  rw [hstage] at hwork
  dsimp only at hwork
  split at hwork
  · cases hwork
  · next read' input hread =>
    cases hwork
    obtain ⟨hgrows, -⟩ := Pipe.read_grows hread
    have hinput : input.Feeds received used (some ([], 0)) := by
      have hinput := h.receives.input
      rw [hstage] at hinput
      exact hinput.same h.receives.blank (hgrows l.memory)
    have hprogress := h.progress
    refine h.turn rfl rfl id hinput (fun _ hp => by cases hp) h.receives.blank htimely ?_
    cases hmark : l.connection.handshaked with
    | false =>
        simp only [Progress, hstage, hmark] at hprogress
        obtain ⟨hexamined, hused, hfresh⟩ := hprogress
        simp only [Progress, setInput, hmark]
        exact ⟨hexamined, hused, hfresh.same rfl rfl⟩
    | true =>
        simp only [Progress, hstage, hmark] at hprogress
        obtain ⟨eaten, hused, hrest⟩ := hprogress
        simp only [Progress, setInput, hmark]
        exact ⟨eaten, hused, hrest.same (hgrows l.memory).unread rfl rfl⟩
  · next outcome input hread =>
    cases hwork
    obtain ⟨hgrows, hbuffer⟩ := Pipe.read_grows hread
    exact h.takeInput hstage (hgrows l.memory) (hbuffer outcome rfl)

/-- The handshake takes bytes from the front of the input, and only once it is complete. -/
theorem examine_rest {σ : Type} (handshake : Handshake) (send : RawSender σ) (b : Buffer) (c : σ) :
    b.Rest (handshake.examine send b c).2.1 ∧
      (b.Sound → (handshake.examine send b c).2.1.Sound) ∧
      ((handshake.examine send b c).1 ≠ .ok true → (handshake.examine send b c).2.1 = b) := by
  have hexamines := handshake.examines_examine send b c
  generalize handshake.examine send b c = result at hexamines ⊢
  cases hexamines with
  | pending | rejected | refused => exact ⟨.refl b, id, fun _ => rfl⟩
  | completed judge sends =>
      exact ⟨b.rest_drop _, fun h => h.drop _, fun hne => absurd rfl hne⟩

/-- The handshake looks at the input, and keeps what it has consumed of it if it is complete. -/
theorem Hears.examine {portion : Portion}
    (h : l.Hears format limit arrived received examined used)
    (hstage : l.main = .examining portion) :
    ∃ used', (l.examine portion).Hears format limit arrived received
      (examined ++ l.examines (.main .work) (l.examine portion)) used' := by
  have hmark : l.connection.handshaked = false := h.timely.early (by rw [hstage]; trivial)
  have htimely := timely_examine portion hmark
  have hmark' := Connection.handshaked_examine l.setup.handshake portion.buffer l.connection
  obtain ⟨hinput, hsound⟩ := h.input_of_portion (by rw [hstage]; rfl)
    (show l.main.portion? = some portion by rw [hstage]; rfl)
  have hprogress := h.progress
  simp only [Progress, hstage] at hprogress
  obtain ⟨rfl, rfl, hfresh⟩ := hprogress
  obtain ⟨hrest, hrestSound, hkept⟩ :=
    examine_rest l.setup.handshake Connection.rawSender portion.buffer l.connection
  unfold Link.examine at htimely ⊢
  generalize l.setup.handshake.examine Connection.rawSender portion.buffer l.connection = result
    at hrest hrestSound hkept hmark' htimely ⊢
  obtain ⟨verdict, left, connection⟩ := result
  dsimp only at hrest hrestSound hkept hmark' htimely ⊢
  have hmark'' : connection.handshaked = false := hmark'.trans hmark
  cases verdict with
  | error cause =>
      refine ⟨[], ?_⟩
      simp only [examines, hstage]
      exact h.turn rfl rfl (fun _ => hmark) hinput.quit (fun _ hp => by cases hp) h.receives.blank
        htimely trivial
  | ok complete =>
      cases complete with
      | false =>
          have hleft : left = portion.buffer := hkept (by simp)
          subst hleft
          dsimp only at htimely ⊢
          split at htimely
          · next hlong =>
            rw [if_pos hlong]
            refine ⟨[], ?_⟩
            simp only [examines, hstage]
            exact h.turn rfl rfl (fun _ => hmark) hinput.quit (fun _ hp => by cases hp)
              h.receives.blank htimely trivial
          · next hshort =>
            rw [if_neg hshort]
            refine ⟨[], ?_⟩
            simp only [examines, hstage]
            refine h.turn rfl rfl (fun _ => hmark) hinput ?_ h.receives.blank htimely ?_
            · intro portion' hportion'
              cases hportion'
              exact hsound
            · simp only [Progress, hmark'']
              exact ⟨trivial, trivial, hfresh.same rfl rfl⟩
      | true =>
          have htake := hrest.take_append hsound (hrestSound hsound)
          rw [← htake] at hinput
          have hused := hinput.use
          refine ⟨portion.buffer.toList.take (portion.buffer.size - left.size), ?_⟩
          dsimp only at htimely ⊢
          simp only [examines, hstage]
          refine ⟨⟨h.receives.wire, hused, ?_, h.receives.blank⟩, htimely, ⟨[], ?_, ?_⟩,
            fun _ => hfresh.heard, rfl, hfresh.same rfl rfl⟩
          · intro portion' hportion'
            cases hportion'
            exact hrestSound hsound
          · rw [List.append_nil]
            exact hused.got_prefix
          · show l.heard <+: _
            rw [hfresh.heard]
            exact List.nil_prefix

/-- The handshake is started. -/
theorem Hears.openHandshake (h : l.Hears format limit arrived received examined used)
    (hstage : l.main = .opening) :
    (l.enter .handshaking).openHandshake.Hears format limit arrived received examined used := by
  have hmark : l.connection.handshaked = false := h.timely.early (by rw [hstage]; trivial)
  have htimely := timely_openHandshake (l := l.enter .handshaking) hmark
  have hmark' := Connection.handshaked_start l.setup.handshake (l.enter .handshaking).connection
  have hinput : l.transport.input.Feeds received used (some ([], 0)) := by
    have hinput := h.receives.input
    rwa [hstage] at hinput
  have hprogress := h.progress
  simp only [Progress, hstage] at hprogress
  obtain ⟨hexamined, hused, hfresh⟩ := hprogress
  unfold Link.openHandshake at htimely ⊢
  have hsetup : (l.enter .handshaking).setup = l.setup := rfl
  rw [hsetup] at htimely ⊢
  generalize l.setup.handshake.start Connection.rawSender (l.enter .handshaking).connection =
    started at hmark' htimely ⊢
  obtain ⟨outcome, connection⟩ := started
  dsimp only at hmark' htimely ⊢
  have hmark'' : connection.handshaked = false := hmark'.trans hmark
  cases outcome with
  | error cause =>
      exact h.turn rfl rfl (fun _ => hmark) hinput.quit (fun _ hp => by cases hp) h.receives.blank
        htimely trivial
  | ok complete =>
      cases complete with
      | true =>
          refine h.turn rfl rfl (fun _ => hmark) hinput (fun _ hp => by cases hp) h.receives.blank
            htimely ?_
          exact ⟨by rw [hused, hexamined], hfresh.same rfl rfl⟩
      | false =>
          refine h.turn rfl rfl (fun _ => hmark) hinput (fun _ hp => by cases hp) h.receives.blank
            htimely ?_
          simp only [Progress, enter, hmark'']
          exact ⟨hexamined, hused, hfresh.same rfl rfl⟩

/-- The handshake is marked, shown and told. -/
theorem Hears.marking {portion : Option Portion}
    (h : l.Hears format limit arrived received examined used)
    (hstage : l.main = .marking portion ∨ l.main = .showing portion ∨ l.main = .telling portion)
    (hwork : l.workMain = some l') : l'.Hears format limit arrived received examined used := by
  have htimely := h.timely.workMain hwork
  have hinput := h.receives.input
  have hsound := h.receives.main_sound
  have hprogress := h.progress
  unfold workMain at hwork
  obtain hstage | hstage | hstage := hstage
  · rw [hstage] at hwork hinput hsound
    simp only [Progress, hstage] at hprogress
    cases hwork
    exact h.turn rfl rfl (fun hfalse => by cases hfalse) hinput hsound h.receives.blank htimely
      ⟨hprogress.1, hprogress.2.same rfl rfl⟩
  · rw [hstage] at hwork hinput hsound
    simp only [Progress, hstage] at hprogress
    cases hwork
    exact h.turn rfl rfl id hinput hsound h.receives.blank htimely
      ⟨hprogress.1, hprogress.2.same rfl rfl⟩
  · have hmark : l.connection.handshaked = true := h.timely.late (by rw [hstage]; trivial)
    have hheard := heard_tell .handshaked l
    rw [hstage] at hwork hinput hsound
    simp only [Progress, hstage] at hprogress
    obtain ⟨hused, hfresh⟩ := hprogress
    have heaten : used = examined ++ [] := by rw [hused, List.append_nil]
    cases portion with
    | none =>
        cases hwork
        refine h.turn rfl hheard id hinput hsound h.receives.blank htimely ?_
        simp only [Progress, tell, note, hmark]
        exact ⟨[], heaten, (hfresh.atRest _).same (List.prefix_refl _) rfl hheard⟩
    | some portion =>
        cases hwork
        exact h.turn rfl hheard id hinput hsound h.receives.blank htimely
          ⟨[], _, heaten, (hfresh.follows.extend List.nil_prefix).same rfl hheard⟩

/-- A handler is called, and takes its time. -/
theorem Hears.handling {job : Job} {portion : Portion}
    (h : l.Hears format limit arrived received examined used)
    (hstage : l.main = .handling job portion) (hwork : l.workMain = some l') :
    l'.Hears format limit arrived received examined used := by
  have htimely := h.timely.workMain hwork
  obtain ⟨hinput, hsound⟩ := h.input_of_portion (by rw [hstage]; rfl)
    (show l.main.portion? = some portion by rw [hstage]; rfl)
  have hprogress := h.progress
  simp only [Progress, hstage] at hprogress
  obtain ⟨eaten, s, hused, hfollows⟩ := hprogress
  have haside := (goOn_touches job l).aside
  have hnext : ∀ stage : MainStage,
      (stage = .reading portion ∨ ∃ job, stage = .handling job portion) →
      { (l.goOn job).2 with main := stage }.Timely →
      { (l.goOn job).2 with main := stage }.Hears format limit arrived received examined used := by
    intro stage hstage' htimely
    have hmark : (l.goOn job).2.connection.handshaked = false → l.connection.handshaked = false :=
      fun hfalse => haside.handshaked_eq.symm.trans hfalse
    have hsound' : stage.Sound := by
      intro portion' hportion'
      obtain rfl | ⟨job', rfl⟩ := hstage' <;> cases hportion' <;> exact hsound
    obtain rfl | ⟨job', rfl⟩ := hstage' <;>
      exact h.turn rfl haside.heard_eq hmark hinput hsound' h.receives.blank htimely
        ⟨eaten, s, hused, hfollows.same rfl haside.heard_eq⟩
  unfold workMain at hwork
  rw [hstage] at hwork
  dsimp only at hwork
  split at hwork
  · next hgoOn =>
    cases hwork
    rw [hgoOn] at hnext
    exact hnext _ (.inl rfl) htimely
  · next hgoOn =>
    cases hwork
    rw [hgoOn] at hnext
    exact hnext _ (.inr ⟨_, rfl⟩) htimely

theorem progress_of_not_takes (htakes : l.main.Takes = false) :
    l.Progress format limit examined used := by
  unfold Progress
  cases hstage : l.main <;> rw [hstage] at htakes <;> trivial

/-- What the main task does on the way to the end dispatches nothing and takes nothing. -/
theorem workMain_closing (htakes : l.main.Takes = false) (hwork : l.workMain = some l') :
    l'.main.Takes = false ∧ l'.heard = l.heard ∧
      l'.connection.handshaked = l.connection.handshaked ∧
      l'.wire.arriving = l.wire.arriving ∧ (l.memory.Blank → l'.memory.Blank) ∧
      ∀ put got, l.memory.Blank → l.transport.input.Feeds put got none →
        l'.transport.input.Feeds put got none := by
  have hshut : ∀ reason, (l.shutDown reason).heard = l.heard ∧
      (l.shutDown reason).connection.handshaked = l.connection.handshaked ∧
      (l.shutDown reason).wire.arriving = l.wire.arriving ∧
      (l.memory.Blank → (l.shutDown reason).memory.Blank) ∧
      ∀ put got, l.memory.Blank → l.transport.input.Feeds put got none →
        (l.shutDown reason).transport.input.Feeds put got none := by
    intro reason
    obtain ⟨-, haside, hdraws⟩ := shutDown_touches reason l
    exact ⟨haside.heard_eq, haside.handshaked_eq, hdraws.arriving.symm, hdraws.input.blank,
      fun put got hblank hfeeds => hfeeds.same hblank hdraws.input⟩
  unfold workMain at hwork
  cases hstage : l.main with
  | unstarted | opening | marking _ | showing _ | telling _ | waiting _ | examining _ | reading _
    | handling _ _ | settling _ =>
      rw [hstage] at htakes
      cases htakes
  | finished | crashed _ =>
      rw [hstage] at hwork
      cases hwork
  | leaving _ | releasing =>
      rw [hstage] at hwork
      cases hwork
      exact ⟨rfl, rfl, rfl, rfl, Pipe.blank_completeReader _,
        fun _ _ _ hfeeds => hfeeds.close l.memory⟩
  | concluding _ | recording _ | cancelling _ | draining _ | ending | markingEnd =>
      rw [hstage] at hwork
      cases hwork
      exact ⟨rfl, rfl, rfl, rfl, id, fun _ _ _ hfeeds => hfeeds⟩
  | notifying _ | tellingEnd =>
      rw [hstage] at hwork
      cases hwork
      exact ⟨rfl, heard_tell _ l, rfl, rfl, id, fun _ _ _ hfeeds => hfeeds⟩
  | cutting reason =>
      rw [hstage] at hwork
      cases hwork
      dsimp only
      split
      · exact ⟨rfl, hshut reason⟩
      · exact ⟨rfl, rfl, rfl, rfl, id, fun _ _ _ hfeeds => hfeeds⟩
  | awaitingWriter _ | awaitingReceiver =>
      rw [hstage] at hwork
      dsimp only at hwork
      split at hwork <;> cases hwork
      exact ⟨rfl, rfl, rfl, rfl, id, fun _ _ _ hfeeds => hfeeds⟩
  | awaitingSender reason deadline =>
      rw [hstage] at hwork
      dsimp only [awaitSender] at hwork
      split at hwork
      · cases hwork
        exact ⟨rfl, rfl, rfl, rfl, id, fun _ _ _ hfeeds => hfeeds⟩
      · split at hwork
        · cases hwork
        · split at hwork <;> cases hwork
          exact ⟨rfl, hshut .drainTimeout⟩
  | shutting reason =>
      rw [hstage] at hwork
      cases hwork
      exact ⟨rfl, hshut reason⟩

/-- On the way to the end. -/
theorem Hears.closing (h : l.Hears format limit arrived received examined used)
    (htakes : l.main.Takes = false) (hwork : l.workMain = some l') :
    l'.Hears format limit arrived received examined used := by
  have htimely := h.timely.workMain hwork
  obtain ⟨htakes', hheard, hmark, harriving, hblank, hfeeds⟩ := workMain_closing htakes hwork
  have hinput := h.receives.input
  rw [MainStage.lent, if_neg (by rw [htakes]; exact Bool.false_ne_true)] at hinput
  refine h.turn harriving hheard (fun hfalse => hmark.symm.trans hfalse) ?_ ?_
    (hblank h.receives.blank) htimely (progress_of_not_takes htakes')
  · rw [MainStage.lent, if_neg (by rw [htakes']; exact Bool.false_ne_true)]
    exact hfeeds _ _ h.receives.blank hinput
  · intro portion hportion
    rw [MainStage.portion?_of_not_takes htakes'] at hportion
    cases hportion

theorem examines_of_not_examining (hstage : ¬ ∃ portion, l.main = .examining portion) :
    l.examines (.main .work) l' = [] := by
  unfold examines
  split
  · next hexamining _ => exact absurd ⟨_, hexamining⟩ hstage
  · rfl

theorem Hears.workMain_of_not_examining
    (h : l.Hears format limit arrived received examined used)
    (hother : ¬ ∃ portion, l.main = .examining portion) (hwork : l.workMain = some l') :
    ∃ used', l'.Hears format limit arrived received examined used' := by
  cases hstage : l.main with
  | examining portion => exact absurd ⟨portion, hstage⟩ hother
  | unstarted =>
      unfold workMain at hwork
      rw [hstage] at hwork
      cases hwork
  | opening =>
      unfold workMain at hwork
      rw [hstage] at hwork
      cases hwork
      exact ⟨used, h.openHandshake hstage⟩
  | marking portion => exact ⟨used, h.marking (.inl hstage) hwork⟩
  | showing portion => exact ⟨used, h.marking (.inr (.inl hstage)) hwork⟩
  | telling portion => exact ⟨used, h.marking (.inr (.inr hstage)) hwork⟩
  | waiting read => exact ⟨used, h.waiting hstage hwork⟩
  | reading portion =>
      unfold workMain at hwork
      rw [hstage] at hwork
      cases hwork
      exact h.readFrame hstage
  | handling job portion => exact ⟨used, h.handling hstage hwork⟩
  | settling portion =>
      unfold workMain at hwork
      rw [hstage] at hwork
      cases hwork
      exact ⟨used, h.settle hstage⟩
  | _ => exact ⟨used, h.closing (by rw [hstage]; rfl) hwork⟩

/-- **A step of the main task** uses what was received, in order, and dispatches the frames in
it. -/
theorem Hears.stepMain {choice : Choice}
    (h : l.Hears format limit arrived received examined used)
    (hstep : l.stepMain choice = some l') :
    ∃ used', l'.Hears format limit arrived received
      (examined ++ l.examines (.main choice) l') used' := by
  cases choice with
  | stop =>
      have hstop : l.stopMain = some l' := hstep
      unfold stopMain at hstop
      have hnone : l.examines (.main .stop) l' = [] := rfl
      rw [hnone, List.append_nil]
      split at hstop
      · split at hstop
        · cases hstop
          exact ⟨used, h.turn rfl rfl id
            (h.receives.input.same h.receives.blank (Pipe.abandonRead_grows _ _)).quit
            (fun _ hp => by cases hp) h.receives.blank (timely_of_neither id id) trivial⟩
        · cases hstop
      · cases hstop
  | work =>
      have hwork : l.workMain = some l' := hstep
      by_cases hexamining : ∃ portion, l.main = .examining portion
      · obtain ⟨portion, hstage⟩ := hexamining
        unfold workMain at hwork
        rw [hstage] at hwork
        cases hwork
        exact h.examine hstage
      · rw [examines_of_not_examining hexamining, List.append_nil]
        exact h.workMain_of_not_examining hexamining hwork

theorem Hears.start (h : l.Hears format limit arrived received examined used) :
    l.start.Hears format limit arrived received examined used := by
  have htimely := h.timely.start
  unfold Link.start at htimely ⊢
  split
  · next hstage =>
    have hinput := h.receives.input
    have hprogress := h.progress
    rw [hstage] at hinput
    simp only [Progress, hstage] at hprogress
    simp only [hstage] at htimely
    obtain ⟨hexamined, hused, hfresh⟩ := hprogress
    exact h.turn rfl rfl id hinput (fun _ hp => by cases hp) h.receives.blank htimely
      ⟨hexamined, hused, hfresh.same rfl rfl⟩
  · exact h

/-- A new link has heard nothing of what is on its wire. -/
theorem hears_new_on (setup : LinkSetup) (id peer : String) (limit : Nat)
    (input output : Thresholds) (wire : Wire) :
    (Link.new setup id peer limit input output wire).Hears setup.format limit
      wire.arriving [] [] [] where
  receives := ⟨rfl, .new input, fun _ hp => (by cases hp), BlockPool.blank_empty⟩
  timely := ⟨fun _ => rfl, fun hlate => hlate.elim⟩
  dispatched := ⟨[], List.prefix_refl _, List.nil_prefix⟩
  unheard _ := rfl
  progress := ⟨rfl, rfl, setup.format.reader_at limit, rfl⟩

theorem hears_new (setup : LinkSetup) (id peer : String) (limit : Nat) (input output : Thresholds)
    (capacity : Nat) :
    (Link.new setup id peer limit input output { capacity }).Hears setup.format limit
      [] [] [] [] :=
  hears_new_on setup id peer limit input output { capacity }

/-! ## 5. Every move -/

/-- **No move but an arrival adds to what arrived**, and every frame that is dispatched in it is the
next one in what was received. -/
theorem Hears.move {m : Move} (h : l.Hears format limit arrived received examined used)
    (harrive : ∀ bs, m ≠ .arrive bs) (hmove : l.move? m = some l') :
    ∃ received' used',
      l'.Hears format limit arrived received' (examined ++ l.examines m l') used' := by
  by_cases hmain : ∃ choice, m = .main choice
  · obtain ⟨choice, rfl⟩ := hmain
    obtain ⟨used', h'⟩ := h.stepMain hmove
    exact ⟨received, used', h'⟩
  · have hmain' : ∀ choice, m ≠ .main choice := fun choice heq => hmain ⟨choice, heq⟩
    have hnone : l.examines m l' = [] := by
      unfold examines
      split
      · exact absurd rfl (hmain' .work)
      · rfl
    rw [hnone, List.append_nil]
    by_cases hstart : m = .start
    · subst hstart
      cases hmove
      exact ⟨received, used, h.start⟩
    · obtain ⟨haside, hdraws⟩ := move_aside hmain' hstart hmove
      obtain ⟨bs, hdraws⟩ := hdraws harrive
      exact ⟨received ++ bs, used, h.draws haside hdraws⟩

/-- Bytes arrive, as far as there is room for them. -/
theorem Hears.arrive (h : l.Hears format limit arrived received examined used) (bs : Bytes) :
    { l with wire := (l.wire.arrive bs).2 }.Hears format limit
      (arrived ++ bs.take (l.wire.capacity - l.wire.arriving.length)) received examined used := by
  have haside : l.Aside { l with wire := (l.wire.arrive bs).2 } := ⟨rfl, rfl, rfl, rfl, rfl, rfl⟩
  refine ⟨⟨?_, h.receives.input, h.receives.main_sound, h.receives.blank⟩, h.timely.aside haside,
    h.dispatched, h.unheard, h.progress.aside haside (List.prefix_refl _)⟩
  rw [← h.receives.wire, List.append_assoc]
  rfl

/-! ## 6. What is heard -/

/-- While the main task waits and nothing is in the input pipe, all frames that are in what was
received were dispatched. -/
theorem Hears.heard_eq_of_waiting {read : ReadStage}
    (h : l.Hears format limit arrived received examined used) (hstage : l.main = .waiting read)
    (hmark : l.connection.handshaked = true) (hempty : l.transport.input.pendingBytes = []) :
    ∃ eaten, received = examined ++ eaten ∧
      l.heard = ((format.decoder limit).intake.run (format.fresh limit) eaten).gives := by
  have hinput := h.receives.input
  rw [hstage] at hinput
  have hused := hinput.got_eq_put (hinput.open_of_lent (by simp [MainStage.lent, MainStage.Takes]))
    hempty
  have hprogress := h.progress
  simp only [Progress, hstage, hmark] at hprogress
  obtain ⟨eaten, heaten, ahead, s, hahead, hfollows, hlook⟩ := hprogress
  have hunread : l.transport.input.unread.toList = [] := by
    rw [Pipe.pendingBytes_eq, List.append_eq_nil_iff] at hempty
    exact hempty.1
  have hnil : ahead = [] := by
    rw [hunread] at hahead
    exact List.prefix_nil.mp hahead
  rw [hnil] at hfollows hlook
  have hrun := hfollows.run []
  rw [List.append_nil, List.append_nil, Intake.run_of_pending hlook] at hrun
  refine ⟨eaten, hused.symm.trans heaten, ?_⟩
  rw [hrun, Taken.gives_after, List.append_nil]

end Hears

end Link

end Courier
