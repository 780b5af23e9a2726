import Courier.Proofs.Link.Undisturbed

/-!
Courier.Proofs.Link.Resting — the main task comes to rest by itself.

When all that arrived was handed over, the main task needs nobody. It works off what it has in its
hands, which takes as many calls of the reader as there are frames in what was received; it looks
once more, for what was handed over since its last look; then it waits, or has come to the end of
its input (`Link.Supplied.reaches_rest`).
-/

namespace Courier

/-! ## 1. Working alone -/

/-- How much is left to do of the call of a handler. -/
def Job.left (job : Job) : Nat :=
  job.commands.length + if job.begun then 0 else 1

theorem Job.left_step {job job' : Job} {c : Connection} (h : (job.step c).1 = some job') :
    job'.left < job.left := by
  unfold Job.step at h
  cases hbegun : job.begun with
  | false =>
      rw [hbegun] at h
      cases h
      simp [Job.left, hbegun]
  | true =>
      rw [hbegun, if_pos rfl] at h
      cases hcommands : job.commands with
      | nil =>
          rw [hcommands] at h
          cases h
      | cons command commands =>
          rw [hcommands] at h
          dsimp only at h
          split at h <;> cases h <;> simp [Job.left, hbegun, hcommands]

namespace Link

/-- The main task, working alone, comes to where `P` holds. -/
inductive Reaches (P : Link → Prop) : Link → Prop where
  | here {l : Link} (holds : P l) : Reaches P l
  | next {l l' : Link} (work : l.workMain = some l') (reaches : Reaches P l') : Reaches P l

/-- All that arrived was handed over, and what was made of it is in order. -/
structure Supplied (format : WireFormat) (limit : Nat) (arrived received examined : Bytes)
    (l : Link) : Prop where
  hears : ∃ used, l.Hears format limit arrived received examined used
  arriving : l.wire.arriving = []
  behind : l.transport.input.behind = []

/-- The main task has come to a stage, and found the input pipe as it says. -/
structure Comes (format : WireFormat) (limit : Nat) (arrived received examined : Bytes)
    (stage : MainStage) (input : Pipe) (l : Link) : Prop where
  supplied : l.Supplied format limit arrived received examined
  main_eq : l.main = stage
  input_eq : l.transport.input = input

/-- The main task has nothing more to do, or takes no more input. -/
def Rests (l : Link) : Prop :=
  l.Drained ∨ l.main.Takes = false

section Working

variable {format : WireFormat} {limit : Nat} {arrived received examined : Bytes}
variable {P Q : Link → Prop} {l l' : Link}

theorem Reaches.trans (h : l.Reaches P) (hgo : ∀ l', P l' → l'.Reaches Q) : l.Reaches Q := by
  induction h with
  | here holds => exact hgo _ holds
  | next work _ ih => exact .next work ih

/-- Working on, the main task changes nothing of this, but that the handshake may consume
something. -/
theorem Supplied.works (h : l.Supplied format limit arrived received examined)
    (hwork : l.workMain = some l') (htakes' : l'.main.Takes = true) :
    l'.Supplied format limit arrived received (examined ++ l.examines (.main .work) l') := by
  have hworks := works_of_workMain hwork
  obtain ⟨used, hhears⟩ := h.hears
  obtain ⟨-, hstream⟩ := hworks.spares (MainStage.not_recorded_of_takes htakes')
  exact ⟨hhears.stepMain hwork, hstream.arriving_eq.trans h.arriving,
    (hworks.behind_eq htakes').trans h.behind⟩

theorem Supplied.works_of_not_examining (h : l.Supplied format limit arrived received examined)
    (hother : ¬ ∃ portion, l.main = .examining portion) (hwork : l.workMain = some l')
    (htakes' : l'.main.Takes = true) : l'.Supplied format limit arrived received examined := by
  have h' := h.works hwork htakes'
  rwa [examines_of_not_examining hother, List.append_nil] at h'

/-! ## 2. Waiting -/

theorem workMain_of_next {read read' : ReadStage} {input : Pipe} (hstage : l.main = .waiting read)
    (hstep : read.step? l.transport.input = some (.next read', input)) :
    l.workMain = some { l.setInput l.memory input with main := .waiting read' } := by
  unfold workMain
  rw [hstage]
  dsimp only
  rw [hstep]

theorem workMain_of_done {read : ReadStage} {outcome : ReadOutcome} {input : Pipe}
    (hstage : l.main = .waiting read)
    (hstep : read.step? l.transport.input = some (.done outcome, input)) :
    l.workMain = some ((l.setInput l.memory input).takeInput outcome) := by
  unfold workMain
  rw [hstage]
  dsimp only
  rw [hstep]

/-- A step of a wait. -/
theorem Supplied.wait {read read' : ReadStage} {input : Pipe}
    (h : l.Supplied format limit arrived received examined) (hstage : l.main = .waiting read)
    (hstep : read.step? l.transport.input = some (.next read', input)) :
    ∃ l', l.workMain = some l' ∧
      l'.Comes format limit arrived received examined (.waiting read') input := by
  have hwork := workMain_of_next hstage hstep
  exact ⟨_, hwork, h.works_of_not_examining (by simp [hstage]) hwork rfl, rfl, rfl⟩

/-- Without a permit the main task goes to wait. -/
theorem Supplied.reaches_drained (h : l.Supplied format limit arrived received examined)
    (hstage : l.main = .waiting .parking) (hpermit : l.transport.input.dataSignal.permit = false) :
    l.Reaches Rests := by
  have hstep : ReadStage.parking.step? l.transport.input =
      some (.next .parked, { l.transport.input with dataSignal := { waiter := .waiting } }) := by
    simp [ReadStage.step?, Signal.wait, hpermit]
  obtain ⟨l', hwork, h', hstage', hinput⟩ := h.wait hstage hstep
  refine .next hwork (.here (.inl ⟨h'.arriving, h'.behind, hstage', ?_⟩))
  rw [hinput]
  exact Waiter.noConfusion

/-- With one it looks again. -/
theorem Supplied.permitted (h : l.Supplied format limit arrived received examined)
    (hstage : l.main = .waiting .parking) (hpermit : l.transport.input.dataSignal.permit = true) :
    ∃ l', l.workMain = some l' ∧ l'.Comes format limit arrived received examined
      (.waiting .looking) { l.transport.input with dataSignal := {} } := by
  refine h.wait hstage ?_
  simp [ReadStage.step?, Signal.wait, hpermit]

/-- When there is nothing new, the main task is about to wait. -/
theorem Supplied.idle (h : l.Supplied format limit arrived received examined)
    (hstage : l.main = .waiting .looking) (hquiet : l.transport.input.Quiet) :
    ∃ l', l.workMain = some l' ∧ l'.Comes format limit arrived received examined
      (.waiting .parking) l.transport.input := by
  refine h.wait hstage ?_
  simp [ReadStage.step?, hquiet.tryRead_eq]

/-- So it waits, for it uses up its permit. -/
theorem Supplied.reaches_rest_of_quiet (h : l.Supplied format limit arrived received examined)
    (hstage : l.main = .waiting .looking) (hquiet : l.transport.input.Quiet) :
    l.Reaches Rests := by
  obtain ⟨l₁, hwork, h₁, hstage₁, hinput₁⟩ := h.idle hstage hquiet
  refine .next hwork ?_
  cases hpermit : l₁.transport.input.dataSignal.permit with
  | false => exact h₁.reaches_drained hstage₁ hpermit
  | true =>
      obtain ⟨l₂, hwork₂, h₂, hstage₂, hinput₂⟩ := h₁.permitted hstage₁ hpermit
      have hquiet₂ : l₂.transport.input.Quiet := by
        rw [hinput₂, hinput₁]
        exact hquiet
      obtain ⟨l₃, hwork₃, h₃, hstage₃, hinput₃⟩ := h₂.idle hstage₂ hquiet₂
      refine .next hwork₂ (.next hwork₃ (h₃.reaches_drained hstage₃ ?_))
      rw [hinput₃, hinput₂]

/-! ## 3. An input -/

/-- The main task is through with an input, or takes no more. -/
def Through (format : WireFormat) (limit : Nat) (arrived received : Bytes) (last : Bool)
    (input : Pipe) (l : Link) : Prop :=
  l.main.Takes = false ∨ ∃ examined portion,
    l.Comes format limit arrived received examined (.settling portion) input ∧
      portion.last = last

theorem workMain_of_handling {job : Job} {portion : Portion}
    (hstage : l.main = .handling job portion) :
    l.workMain = some { (l.goOn job).2 with main := afterHandler portion (l.goOn job).1 } := by
  unfold workMain
  rw [hstage]
  dsimp only
  cases hgoOn : l.goOn job with
  | mk left l' => cases left <;> rfl

theorem workMain_of_reading {portion : Portion} (hstage : l.main = .reading portion) :
    l.workMain = some (l.readFrame portion) := by
  unfold workMain
  rw [hstage]

/-- A handler comes to its end, and what each of its steps keeps holds then. -/
theorem reaches_of_handling {Q : Link → Prop} {job : Job} {portion : Portion} (h : Q l)
    (hstage : l.main = .handling job portion)
    (hkeeps : ∀ l job, Q l → l.main = .handling job portion →
      Q { (l.goOn job).2 with main := afterHandler portion (l.goOn job).1 }) :
    l.Reaches fun l' => Q l' ∧ l'.main = .reading portion := by
  induction hn : job.left using Nat.strongRecOn generalizing l job with
  | ind n ih =>
    have hwork := workMain_of_handling hstage
    have hkept := hkeeps l job h hstage
    cases hleft : (l.goOn job).1 with
    | none =>
        rw [hleft] at hwork hkept
        exact .next hwork (.here ⟨hkept, rfl⟩)
    | some job' =>
        rw [hleft] at hwork hkept
        have hless : job'.left < n := by
          rw [← hn]
          exact Job.left_step hleft
        exact .next hwork (ih job'.left hless hkept rfl rfl)

theorem Supplied.reaches_reading {job : Job} {portion : Portion}
    (h : l.Supplied format limit arrived received examined)
    (hstage : l.main = .handling job portion) :
    l.Reaches fun l' => l'.heard = l.heard ∧ l'.Comes format limit arrived received examined
      (.reading portion) l.transport.input := by
  have hreaches := reaches_of_handling (Q := fun l' => l'.heard = l.heard ∧
    l'.Supplied format limit arrived received examined ∧
      l'.transport.input = l.transport.input) ⟨rfl, h, rfl⟩ hstage ?_
  · refine hreaches.trans ?_
    rintro l' ⟨⟨hheard, h', hinput⟩, hmain⟩
    exact .here ⟨hheard, h', hmain, hinput⟩
  · rintro l₁ job₁ ⟨hheard, h₁, hinput⟩ hstage₁
    have htakes : (afterHandler portion (l₁.goOn job₁).1).Takes = true := by
      cases (l₁.goOn job₁).1 <;> rfl
    have h' := h₁.works_of_not_examining (by simp [hstage₁]) (workMain_of_handling hstage₁) htakes
    exact ⟨(heard_append l₁ (job₁.step l₁.connection).2.1).trans hheard, h', hinput⟩

/-- There are only so many frames in what was received. -/
theorem Supplied.length_heard_le (h : l.Supplied format limit arrived received examined) :
    l.heard.length ≤ ((format.decoder limit).intake.run (format.fresh limit)
      (received.drop examined.length)).gives.length := by
  obtain ⟨used, hhears⟩ := h.hears
  obtain ⟨seen, ⟨more, hseen⟩, hheard⟩ := hhears.dispatched
  rw [← hseen, List.append_assoc, List.drop_left]
  exact Nat.le_trans hheard.length_le (Intake.gives_run_prefix _ _ _ _).length_le

/-- So the main task comes to the end of what it reads. -/
theorem Supplied.reaches_settling {portion : Portion}
    (h : l.Supplied format limit arrived received examined) (hstage : l.main = .reading portion) :
    l.Reaches (Through format limit arrived received portion.last l.transport.input) := by
  induction hn : ((format.decoder limit).intake.run (format.fresh limit)
      (received.drop examined.length)).gives.length - l.heard.length using Nat.strongRecOn
    generalizing l portion with
  | ind n ih =>
    have hwork := workMain_of_reading hstage
    unfold Link.readFrame at hwork
    cases hread : l.reader.read portion.buffer with
    | mk outcome kept =>
      obtain ⟨reader, buffer⟩ := kept
      rw [hread] at hwork
      cases outcome with
      | error cause => exact .next hwork (.here (.inl rfl))
      | ok found =>
          cases found with
          | none =>
              have h' := h.works_of_not_examining (by simp [hstage]) hwork rfl
              exact .next hwork (.here (.inr ⟨examined, _, ⟨h', rfl, rfl⟩, rfl⟩))
          | some f =>
              have hd := dispatch_dispatches f { portion with buffer } reader l
              dsimp only at hwork
              generalize { l with reader }.dispatch f { portion with buffer } = l' at hwork hd
              have htakes' : l'.main.Takes = true := by
                obtain hmain | ⟨job, hmain⟩ := hd.main_eq <;> rw [hmain] <;> rfl
              have h' := h.works_of_not_examining (by simp [hstage]) hwork htakes'
              -- one frame less is left
              have hless : ((format.decoder limit).intake.run (format.fresh limit)
                  (received.drop examined.length)).gives.length - l'.heard.length < n := by
                have hle := h'.length_heard_le
                rw [hd.heard_eq, List.length_append, List.length_singleton] at hle ⊢
                omega
              have hinput : l'.transport.input = l.transport.input := by rw [hd.transport_eq]
              refine .next hwork ?_
              obtain hmain | ⟨job, hmain⟩ := hd.main_eq
              · have hrest := ih _ hless h' hmain rfl
                rwa [hinput] at hrest
              · refine (h'.reaches_reading hmain).trans ?_
                rintro l'' ⟨hheard'', h'', hmain'', hinput''⟩
                rw [← hheard''] at hless
                have hrest := ih _ hless h'' hmain'' rfl
                rwa [hinput'', hinput] at hrest

/-- After the handshake is complete, the main task goes on with what it has in its hands. -/
def afterTelling : Option Portion → MainStage
  | none => .waiting .looking
  | some portion => .reading portion

/-- The owner is told of the handshake. -/
theorem Supplied.reaches_of_telling {portion : Option Portion}
    (h : l.Supplied format limit arrived received examined) (hstage : l.main = .telling portion) :
    l.Reaches (Comes format limit arrived received examined (afterTelling portion)
      l.transport.input) := by
  have hwork : l.workMain = some { l.tell .handshaked with main := afterTelling portion } := by
    unfold workMain
    rw [hstage]
    cases portion <;> rfl
  refine .next hwork (.here ⟨h.works_of_not_examining (by simp [hstage]) hwork ?_, rfl, rfl⟩)
  cases portion <;> rfl

theorem Supplied.reaches_of_showing {portion : Option Portion}
    (h : l.Supplied format limit arrived received examined) (hstage : l.main = .showing portion) :
    l.Reaches (Comes format limit arrived received examined (afterTelling portion)
      l.transport.input) := by
  have hwork : l.workMain = some { l.enter .opened with main := .telling portion } := by
    unfold workMain
    rw [hstage]
  exact .next hwork ((h.works_of_not_examining (by simp [hstage]) hwork rfl).reaches_of_telling rfl)

theorem Supplied.reaches_of_marking {portion : Option Portion}
    (h : l.Supplied format limit arrived received examined) (hstage : l.main = .marking portion) :
    l.Reaches (Comes format limit arrived received examined (afterTelling portion)
      l.transport.input) := by
  have hwork : l.workMain = some { l with
      connection := { l.connection with handshaked := true }, main := .showing portion } := by
    unfold workMain
    rw [hstage]
  exact .next hwork ((h.works_of_not_examining (by simp [hstage]) hwork rfl).reaches_of_showing rfl)

/-- It reads what is in its hands. -/
theorem Comes.reaches_through {portion : Portion} {input : Pipe}
    (h : l.Comes format limit arrived received examined (.reading portion) input) :
    l.Reaches (Through format limit arrived received portion.last input) := by
  have hrest := h.supplied.reaches_settling h.main_eq
  rwa [h.input_eq] at hrest

/-- The handshake is shown an input: it fails, or waits for more, or is complete. -/
theorem Supplied.reaches_through_of_examining {portion : Portion}
    (h : l.Supplied format limit arrived received examined)
    (hstage : l.main = .examining portion) :
    l.Reaches (Through format limit arrived received portion.last l.transport.input) := by
  have hwork : l.workMain = some (l.examine portion) := by
    unfold workMain
    rw [hstage]
  unfold Link.examine at hwork
  cases hexamine : l.setup.handshake.examine Connection.rawSender portion.buffer l.connection with
  | mk outcome kept =>
    obtain ⟨buffer, connection⟩ := kept
    rw [hexamine] at hwork
    cases outcome with
    | error cause => exact .next hwork (.here (.inl rfl))
    | ok complete =>
        cases complete with
        | true =>
            have htold := (h.works hwork rfl).reaches_of_marking rfl
            exact .next hwork (htold.trans fun l' h' => h'.reaches_through)
        | false =>
            dsimp only at hwork
            split at hwork
            · exact .next hwork (.here (.inl rfl))
            · exact .next hwork (.here (.inr ⟨_, _, ⟨h.works hwork rfl, rfl, rfl⟩, rfl⟩))

/-- **Whatever the main task has in its hands, it comes to an end with it.** -/
theorem Supplied.reaches_through {portion : Portion}
    (h : l.Supplied format limit arrived received examined)
    (hportion : l.main.portion? = some portion) :
    l.Reaches (Through format limit arrived received portion.last l.transport.input) := by
  cases hstage : l.main with
  | marking _ =>
      rw [hstage] at hportion
      cases hportion
      exact (h.reaches_of_marking hstage).trans fun l' h' => h'.reaches_through
  | showing _ =>
      rw [hstage] at hportion
      cases hportion
      exact (h.reaches_of_showing hstage).trans fun l' h' => h'.reaches_through
  | telling _ =>
      rw [hstage] at hportion
      cases hportion
      exact (h.reaches_of_telling hstage).trans fun l' h' => h'.reaches_through
  | examining _ =>
      rw [hstage] at hportion
      cases hportion
      exact h.reaches_through_of_examining hstage
  | reading _ =>
      rw [hstage] at hportion
      cases hportion
      exact h.reaches_settling hstage
  | handling job _ =>
      rw [hstage] at hportion
      cases hportion
      exact (h.reaches_reading hstage).trans fun l' h' => h'.2.reaches_through
  | settling _ =>
      rw [hstage] at hportion
      cases hportion
      exact .here (.inr ⟨examined, portion, ⟨h, hstage, rfl⟩, rfl⟩)
  | _ =>
      rw [hstage] at hportion
      cases hportion

/-! ## 4. The next input -/

/-- The main task takes no more input, or is about to look for the next. If there was nothing new
when it took the last one, there is nothing new. -/
def Back (format : WireFormat) (limit : Nat) (arrived received : Bytes) (last : Bool)
    (input : Pipe) (l : Link) : Prop :=
  l.main.Takes = false ∨ last = false ∧
    (∃ examined, l.Supplied format limit arrived received examined) ∧
      l.main = .waiting .looking ∧ (input.Quiet → l.transport.input.Quiet)

/-- What was consumed is given back. -/
theorem Comes.reaches_back {portion : Portion} {input : Pipe}
    (h : l.Comes format limit arrived received examined (.settling portion) input) :
    l.Reaches (Back format limit arrived received portion.last input) := by
  obtain ⟨hsupplied, hstage, hinput⟩ := h
  have hwork : l.workMain = some (l.settle portion) := by
    unfold workMain
    rw [hstage]
  unfold Link.settle at hwork
  cases hconsume : l.transport.input.consume (portion.size - portion.buffer.size) l.memory with
  | error misuse =>
      rw [hconsume] at hwork
      exact .next hwork (.here (.inl rfl))
  | ok result =>
      obtain ⟨memory, input'⟩ := result
      rw [hconsume] at hwork
      cases hlast : portion.last with
      | true =>
          rw [hlast] at hwork
          exact .next hwork (.here (.inl rfl))
      | false =>
          rw [hlast] at hwork
          have hquiet : input.Quiet → input'.Quiet := by
            rw [← hinput]
            obtain ⟨-, -, rfl⟩ | ⟨-, -, -, rfl⟩ := Pipe.consume_eq hconsume
            · exact id
            · exact id
          have hsupplied' := hsupplied.works_of_not_examining (by simp [hstage]) hwork rfl
          exact .next hwork (.here (.inr ⟨rfl, ⟨_, hsupplied'⟩, rfl, hquiet⟩))

theorem Supplied.reaches_back {portion : Portion}
    (h : l.Supplied format limit arrived received examined)
    (hportion : l.main.portion? = some portion) :
    l.Reaches (Back format limit arrived received portion.last l.transport.input) := by
  refine (h.reaches_through hportion).trans fun l' hthrough => ?_
  obtain hstopped | ⟨examined', portion', hcomes, hlast⟩ := hthrough
  · exact .here (.inl hstopped)
  · rw [← hlast]
    exact hcomes.reaches_back

theorem takeInput_takes (outcome : ReadOutcome) (l : Link) :
    (l.takeInput outcome).main.Takes = true ∧ (l.takeInput outcome).main.portion? =
      some ⟨outcome.buffer, outcome.buffer.size, outcome.completed || outcome.canceled⟩ := by
  unfold takeInput
  dsimp only
  split <;> exact ⟨rfl, rfl⟩

/-- An input is not the last one if there is nothing new behind it. -/
theorem quiet_of_tryRead {p q : Pipe} {outcome : ReadOutcome}
    (h : p.tryRead = (some outcome, q)) (hlast : (outcome.completed || outcome.canceled) = false) :
    q.Quiet := by
  unfold Pipe.tryRead at h
  split at h
  · cases h
    rw [Bool.or_true] at hlast
    cases hlast
  · next hcanceled =>
    split at h <;> cases h
    rw [Bool.or_false] at hlast
    exact ⟨rfl, hlast, by simpa using hcanceled⟩

/-- **The main task looks once more**, for what was handed over since its last look, and then comes
to rest. -/
theorem Supplied.reaches_rest_of_looking (h : l.Supplied format limit arrived received examined)
    (hstage : l.main = .waiting .looking) : l.Reaches Rests := by
  cases htry : l.transport.input.tryRead with
  | mk outcome input =>
    cases outcome with
    | none =>
        obtain ⟨-, hquiet⟩ | ⟨outcome, _, _, -, hsome⟩ := Pipe.tryRead_cases l.transport.input
        · exact h.reaches_rest_of_quiet hstage hquiet
        · cases htry.symm.trans hsome
    | some outcome =>
        have hstep : ReadStage.looking.step? l.transport.input = some (.done outcome, input) := by
          simp [ReadStage.step?, htry]
        have hwork := workMain_of_done hstage hstep
        obtain ⟨htakes', hportion⟩ := takeInput_takes outcome (l.setInput l.memory input)
        have h' := h.works hwork htakes'
        refine .next hwork ((h'.reaches_back hportion).trans fun l' hback => ?_)
        obtain hstopped | ⟨hlast, ⟨examined', h'⟩, hstage', hquiet⟩ := hback
        · exact .here (.inr hstopped)
        · exact h'.reaches_rest_of_quiet hstage' (hquiet (quiet_of_tryRead htry hlast))

/-- A wait ends, or there is nothing to wait for. -/
theorem Supplied.reaches_rest_of_waiting {read : ReadStage}
    (h : l.Supplied format limit arrived received examined) (hstage : l.main = .waiting read) :
    l.Reaches Rests := by
  cases read with
  | looking => exact h.reaches_rest_of_looking hstage
  | parking =>
      cases hpermit : l.transport.input.dataSignal.permit with
      | false => exact h.reaches_drained hstage hpermit
      | true =>
          obtain ⟨l', hwork, h', hstage', -⟩ := h.permitted hstage hpermit
          exact .next hwork (h'.reaches_rest_of_looking hstage')
  | parked =>
      cases hwaiter : l.transport.input.dataSignal.waiter with
      | woken =>
          have hstep : ReadStage.parked.step? l.transport.input = some (.next .looking,
              { l.transport.input with dataSignal := l.transport.input.dataSignal.resume }) := by
            simp [ReadStage.step?, hwaiter]
          obtain ⟨l', hwork, h', hstage', -⟩ := h.wait hstage hstep
          exact .next hwork (h'.reaches_rest_of_looking hstage')
      | absent | waiting =>
          refine .here (.inl ⟨h.arriving, h.behind, hstage, ?_⟩)
          rw [hwaiter]
          exact Waiter.noConfusion

/-- The handshake is opened. -/
theorem Supplied.reaches_rest_of_opening (h : l.Supplied format limit arrived received examined)
    (hstage : l.main = .opening) : l.Reaches Rests := by
  have hwork : l.workMain = some (l.enter .handshaking).openHandshake := by
    unfold workMain
    rw [hstage]
  unfold openHandshake at hwork
  dsimp only at hwork
  split at hwork
  · exact .next hwork (.here (.inr rfl))
  · exact .next hwork (((h.works hwork rfl).reaches_of_marking rfl).trans fun l' h' =>
      h'.supplied.reaches_rest_of_looking h'.main_eq)
  · exact .next hwork ((h.works hwork rfl).reaches_rest_of_looking rfl)

/-- **The main task comes to rest by itself** once it is started. -/
theorem Supplied.reaches_rest (h : l.Supplied format limit arrived received examined)
    (hstarted : l.main ≠ .unstarted) : l.Reaches Rests := by
  cases hportion : l.main.portion? with
  | some portion =>
      refine (h.reaches_back hportion).trans fun l' hback => ?_
      obtain hstopped | ⟨-, ⟨examined', h'⟩, hstage', -⟩ := hback
      · exact .here (.inr hstopped)
      · exact h'.reaches_rest_of_looking hstage'
  | none =>
      cases hstage : l.main with
      | unstarted => exact absurd hstage hstarted
      | opening => exact h.reaches_rest_of_opening hstage
      | waiting read => exact h.reaches_rest_of_waiting hstage
      | marking portion =>
          rw [hstage] at hportion
          cases hportion
          exact (h.reaches_of_marking hstage).trans fun l' h' =>
            h'.supplied.reaches_rest_of_looking h'.main_eq
      | showing portion =>
          rw [hstage] at hportion
          cases hportion
          exact (h.reaches_of_showing hstage).trans fun l' h' =>
            h'.supplied.reaches_rest_of_looking h'.main_eq
      | telling portion =>
          rw [hstage] at hportion
          cases hportion
          exact (h.reaches_of_telling hstage).trans fun l' h' =>
            h'.supplied.reaches_rest_of_looking h'.main_eq
      | examining _ | reading _ | handling _ _ | settling _ =>
          rw [hstage] at hportion
          cases hportion
      | _ => exact .here (.inr (by rw [hstage]; rfl))

end Working

end Link

/-! ## 5. A course comes to rest -/

namespace Course

variable {format : WireFormat} {limit : Nat} {thresholds : Thresholds} {c : Course}
variable {received used : Bytes} {g : Gauge} {P : Link → Prop}

/-- What the main task comes to alone, a course comes to, and nothing arrives meanwhile. -/
theorem run_of_reaches (h : c.link.Reaches P) :
    ∃ n c', c.run? (List.replicate n (.main .work)) = some c' ∧ c'.arrived = c.arrived ∧
      P c'.link := by
  obtain ⟨l, hl⟩ : ∃ l, c.link = l := ⟨_, rfl⟩
  rw [hl] at h
  induction h generalizing c with
  | here holds => exact ⟨0, c, rfl, rfl, by rw [hl]; exact holds⟩
  | @next l l' work _ ih =>
      obtain ⟨n, c', hrun, harrived, hc'⟩ := ih (c := c.follow (.main .work) l') rfl
      refine ⟨n + 1, c', ?_, harrived.trans (arrived_follow fun _ => Move.noConfusion), hc'⟩
      have hmove : c.move? (.main .work) = some (c.follow (.main .work) l') := by
        have hwork : c.link.move? (.main .work) = some l' := by
          rw [hl]
          exact work
        simp [move?, permits, hwork]
      simp only [List.replicate_succ, run?, hmove]
      exact hrun

/-- **When all that arrived was handed over, the main task works it off by itself**, or comes to the
end of its input. -/
theorem Tracks.rests (h : c.Tracks format limit thresholds received used g)
    (hstarted : c.link.main ≠ .unstarted) (harriving : c.link.wire.arriving = [])
    (hbehind : c.link.transport.input.behind = []) :
    ∃ n c', c.run? (List.replicate n (.main .work)) = some c' ∧ c'.arrived = c.arrived ∧
      c'.link.Rests := by
  have hsupplied : c.link.Supplied format limit c.arrived received c.examined :=
    ⟨⟨used, h.hears⟩, harriving, hbehind⟩
  exact run_of_reaches (hsupplied.reaches_rest hstarted)

end Course

end Courier
