import Courier.Proofs.Buffer
import Courier.Wire.Frame

/-!
Courier.Proofs.Wire.Intake — machines that take in a byte string part by part.

A machine looks at the front of the bytes that are there. The part it awaits is whole, or out of
order, or not whole yet; a whole part is taken in and may give something. `Intake.run` looks as
long as parts are whole.

A machine cannot decide on a part and change its mind when more bytes come (`look_append`), so a
run over a byte string is a run over its front followed by a run over the rest
(`Intake.run_append`). This is all that independence of fragmentation rests on.

`Intake.stack` puts one machine on top of another: what the outer one gives is what the inner one
takes in. The inner one is looked at first. When a byte moves inwards does not matter: a run
that moves it before the inner machine has looked comes to the same (`Intake.stack_run_of_next`).

`Call` says what a call of a reader of frames has to do with a run of a machine: it is the stretch
of the run up to the first frame, or to the end.
-/

namespace Courier

variable {σ τ ω : Type}

/-! ## 1. Machines -/

/-- What a look at the front of a byte string comes to. -/
inductive Part (σ ω : Type) where
  /-- the part is not whole yet -/
  | pending
  /-- the part is out of order -/
  | fault (cause : Fault)
  /-- the part is taken in: the state after it, what it gives, and the bytes behind it -/
  | next (state : σ) (gives : List ω) (rest : Bytes)

/-- The same part with more bytes behind it. -/
def Part.before (more : Bytes) : Part σ ω → Part σ ω
  | .pending => .pending
  | .fault cause => .fault cause
  | .next s gives rest => .next s gives (rest ++ more)

/-- A part of `n` bytes: it is whole once they are there. -/
def Part.field (n : Nat) (bs : Bytes) (k : Bytes → Bytes → Part σ ω) : Part σ ω :=
  if bs.length < n then .pending else k (bs.take n) (bs.drop n)

theorem Part.field_of_lt {n : Nat} {bs : Bytes} {k : Bytes → Bytes → Part σ ω}
    (h : bs.length < n) : Part.field n bs k = .pending :=
  if_pos h

theorem Part.field_of_le {n : Nat} {bs : Bytes} {k : Bytes → Bytes → Part σ ω}
    (h : n ≤ bs.length) : Part.field n bs k = k (bs.take n) (bs.drop n) :=
  if_neg (Nat.not_lt.mpr h)

theorem Part.field_eq_next {n : Nat} {bs rest : Bytes} {k : Bytes → Bytes → Part σ ω} {s : σ}
    {gives : List ω} (h : Part.field n bs k = .next s gives rest) :
    n ≤ bs.length ∧ k (bs.take n) (bs.drop n) = .next s gives rest := by
  rcases Nat.lt_or_ge bs.length n with hn | hn
  · rw [Part.field_of_lt hn] at h
    cases h
  · exact ⟨hn, by rwa [Part.field_of_le hn] at h⟩

theorem Part.field_eq_fault {n : Nat} {bs : Bytes} {k : Bytes → Bytes → Part σ ω} {cause : Fault}
    (h : Part.field n bs k = .fault cause) :
    n ≤ bs.length ∧ k (bs.take n) (bs.drop n) = .fault cause := by
  rcases Nat.lt_or_ge bs.length n with hn | hn
  · rw [Part.field_of_lt hn] at h
    cases h
  · exact ⟨hn, by rwa [Part.field_of_le hn] at h⟩

theorem Part.lt_of_field_eq_pending {n : Nat} {bs : Bytes} {k : Bytes → Bytes → Part σ ω}
    (hk : ∀ field rest, k field rest ≠ .pending) (h : Part.field n bs k = .pending) :
    bs.length < n := by
  rcases Nat.lt_or_ge bs.length n with hn | hn
  · exact hn
  · rw [Part.field_of_le hn] at h
    exact absurd h (hk _ _)

/-- What is made of a part that is whole does not hang on what comes behind it. -/
theorem Part.field_append {n : Nat} {bs : Bytes} {k : Bytes → Bytes → Part σ ω}
    {more : Bytes} (hk : ∀ field rest, k field (rest ++ more) = (k field rest).before more)
    (h : Part.field n bs k ≠ .pending) :
    Part.field n (bs ++ more) k = (Part.field n bs k).before more := by
  rcases Nat.lt_or_ge bs.length n with hn | hn
  · exact absurd (Part.field_of_lt hn) h
  · rw [Part.field_of_le hn, Part.field_of_le (by simp only [List.length_append]; omega),
      List.take_append_of_le_length hn, List.drop_append_of_le_length hn, hk]

/-- The place `q`, a state and the bytes there, is left for the place `p` by taking in a part. -/
def Part.Leaves (look : σ → Bytes → Part σ ω) (p q : σ × Bytes) : Prop :=
  ∃ gives, look q.1 q.2 = .next p.1 gives p.2

/-- A machine. It cannot take in parts forever, and a part that is whole or out of order stays so
whatever comes behind it. -/
structure Intake (σ ω : Type) where
  look : σ → Bytes → Part σ ω
  wellFounded : WellFounded (Part.Leaves look)
  look_append : ∀ {s bs}, look s bs ≠ .pending →
    ∀ more, look s (bs ++ more) = (look s bs).before more

/-- What a run came to: what was given, then a fault, or else the state and the bytes left. -/
structure Taken (σ ω : Type) where
  gives : List ω
  ending : Except Fault (σ × Bytes)

/-- The same with something given before. -/
def Taken.after (gives : List ω) (t : Taken σ ω) : Taken σ ω :=
  { t with gives := gives ++ t.gives }

@[simp] theorem Taken.after_nil (t : Taken σ ω) : t.after [] = t := rfl

@[simp] theorem Taken.after_after (xs ys : List ω) (t : Taken σ ω) :
    (t.after ys).after xs = t.after (xs ++ ys) := by
  simp [Taken.after]

@[simp] theorem Taken.gives_after (xs : List ω) (t : Taken σ ω) :
    (t.after xs).gives = xs ++ t.gives := rfl

@[simp] theorem Taken.ending_after (xs : List ω) (t : Taken σ ω) :
    (t.after xs).ending = t.ending := rfl

/-- What stopped a run, if anything did. -/
def Taken.fault? (t : Taken σ ω) : Option Fault :=
  match t.ending with
  | .error cause => some cause
  | .ok _ => none

namespace Intake

/-! ## 2. Runs -/

/-- Takes in parts as long as they are whole. -/
def run (m : Intake σ ω) (s : σ) (bs : Bytes) : Taken σ ω :=
  match _h : m.look s bs with
  | .pending => ⟨[], .ok (s, bs)⟩
  | .fault cause => ⟨[], .error cause⟩
  | .next s' gives rest => (m.run s' rest).after gives
termination_by m.wellFounded.wrap (s, bs)
decreasing_by exact ⟨gives, _h⟩

variable {m : Intake σ ω} {s s' : σ} {bs rest : Bytes}

theorem run_of_pending (h : m.look s bs = .pending) : m.run s bs = ⟨[], .ok (s, bs)⟩ := by
  rw [run]
  split <;> simp_all

theorem run_of_fault (h : m.look s bs = .fault cause) : m.run s bs = ⟨[], .error cause⟩ := by
  rw [run]
  split <;> simp_all

theorem run_of_next (h : m.look s bs = .next s' gives rest) :
    m.run s bs = (m.run s' rest).after gives := by
  rw [run]
  split <;> simp_all

/-- The machine has come to rest: the part it awaits is not whole. -/
theorem look_of_run_ok (h : (m.run s bs).ending = .ok (s', rest)) : m.look s' rest = .pending := by
  fun_induction m.run s bs with
  | case1 s bs hl =>
      injection h with h
      injection h with hs hr
      rw [← hs, ← hr, hl]
  | case2 s bs cause hl => cases h
  | case3 s bs s₁ gives rest₁ hl ih => exact ih h

/-- What is left to do of a run when more bytes come. -/
def goOn (m : Intake σ ω) (more : Bytes) (t : Taken σ ω) : Taken σ ω :=
  match t.ending with
  | .error _ => t
  | .ok (s, rest) => (m.run s (rest ++ more)).after t.gives

theorem goOn_after (m : Intake σ ω) (more : Bytes) (gives : List ω) (t : Taken σ ω) :
    m.goOn more (t.after gives) = (m.goOn more t).after gives := by
  obtain ⟨given, ending⟩ := t
  cases ending with
  | error cause => rfl
  | ok place => simp [goOn, Taken.after]

/-- **A run over a byte string is a run over its front, and then over the rest.** -/
theorem run_append (m : Intake σ ω) (s : σ) (bs more : Bytes) :
    m.run s (bs ++ more) = m.goOn more (m.run s bs) := by
  fun_induction m.run s bs with
  | case1 s bs hl => simp [goOn]
  | case2 s bs cause hl =>
      have hwhole : m.look s bs ≠ .pending := by simp [hl]
      have hmore := m.look_append hwhole more
      rw [hl] at hmore
      exact run_of_fault hmore
  | case3 s bs s' gives rest hl ih =>
      have hwhole : m.look s bs ≠ .pending := by simp [hl]
      have hmore := m.look_append hwhole more
      rw [hl] at hmore
      rw [run_of_next hmore, ih, goOn_after]

/-- Bytes that come to a machine at rest are all that it has yet to take in. -/
theorem run_append_of_ok (h : m.run s bs = ⟨gives, .ok (s', rest)⟩) (more : Bytes) :
    m.run s (bs ++ more) = (m.run s' (rest ++ more)).after gives := by
  rw [run_append, h]
  rfl

/-- What comes behind does not change what is given first. -/
theorem run_append_of_after (h : m.run s bs = (m.run s' rest).after gives) (more : Bytes) :
    m.run s (bs ++ more) = (m.run s' (rest ++ more)).after gives := by
  rw [run_append, h, goOn_after, ← run_append]

/-- What is given does not change when more bytes come. -/
theorem gives_run_prefix (m : Intake σ ω) (s : σ) (bs more : Bytes) :
    (m.run s bs).gives <+: (m.run s (bs ++ more)).gives := by
  rw [run_append]
  obtain ⟨gives, ending⟩ := m.run s bs
  cases ending with
  | error cause => exact List.prefix_refl _
  | ok place => exact List.prefix_append _ _

/-! ## 3. Some steps of a run -/

/-- Parts are taken in one after another, and give something together. -/
inductive Leads (m : Intake σ ω) : σ → Bytes → List ω → σ → Bytes → Prop where
  | refl (s : σ) (bs : Bytes) : Leads m s bs [] s bs
  | cons {s s₁ s₂ : σ} {bs bs₁ bs₂ : Bytes} {gives more : List ω}
      (look : m.look s bs = .next s₁ gives bs₁) (leads : Leads m s₁ bs₁ more s₂ bs₂) :
      Leads m s bs (gives ++ more) s₂ bs₂

theorem Leads.single (h : m.look s bs = .next s' gives rest) : m.Leads s bs gives s' rest := by
  simpa using Leads.cons h (.refl s' rest)

theorem Leads.trans {s₁ s₂ s₃ : σ} {bs₁ bs₂ bs₃ : Bytes} {xs ys : List ω}
    (h : m.Leads s₁ bs₁ xs s₂ bs₂) (h' : m.Leads s₂ bs₂ ys s₃ bs₃) :
    m.Leads s₁ bs₁ (xs ++ ys) s₃ bs₃ := by
  induction h with
  | refl s bs => exact h'
  | cons look _ ih =>
      rw [List.append_assoc]
      exact .cons look (ih h')

/-! ## 4. One machine on top of another -/

/-- A look at what the inner machine has, and at the outer bytes only if that is not enough. -/
def stackLook (outer : Intake σ UInt8) (inner : Intake τ ω) :
    σ × Bytes × τ → Bytes → Part (σ × Bytes × τ) ω
  | (s, body, t), bs =>
      match inner.look t body with
      | .fault cause => .fault cause
      | .next t gives body => .next (s, body, t) gives bs
      | .pending =>
          match outer.look s bs with
          | .pending => .pending
          | .fault cause => .fault cause
          | .next s data rest => .next (s, body ++ data, t) [] rest

/-- Either the outer machine goes on, or it stays where it is and the inner one goes on. -/
theorem stackLook_wellFounded (outer : Intake σ UInt8) (inner : Intake τ ω) :
    WellFounded (Part.Leaves (stackLook outer inner)) := by
  have hlex := (Prod.lex ⟨_, outer.wellFounded⟩ ⟨_, inner.wellFounded⟩).wf
  refine Subrelation.wf ?_ (InvImage.wf
    (fun p : (σ × Bytes × τ) × Bytes => ((p.1.1, p.2), (p.1.2.2, p.1.2.1))) hlex)
  rintro ⟨⟨s', body', t'⟩, rest⟩ ⟨⟨s, body, t⟩, bs⟩ ⟨gives, h⟩
  simp only [stackLook] at h
  cases hi : inner.look t body with
  | fault cause => simp [hi] at h
  | next t₁ given left =>
      simp only [hi, Part.next.injEq, Prod.mk.injEq] at h
      obtain ⟨⟨rfl, rfl, rfl⟩, rfl, rfl⟩ := h
      exact Prod.Lex.right _ ⟨given, hi⟩
  | pending =>
      cases ho : outer.look s bs with
      | pending => simp [hi, ho] at h
      | fault cause => simp [hi, ho] at h
      | next s₁ data left =>
          simp only [hi, ho, Part.next.injEq, Prod.mk.injEq] at h
          obtain ⟨⟨rfl, rfl, rfl⟩, rfl, rfl⟩ := h
          exact Prod.Lex.left _ _ ⟨data, ho⟩

/-- The outer machine gives the bytes that the inner one takes in. -/
def stack (outer : Intake σ UInt8) (inner : Intake τ ω) : Intake (σ × Bytes × τ) ω where
  look := stackLook outer inner
  wellFounded := stackLook_wellFounded outer inner
  look_append := by
    rintro ⟨s, body, t⟩ bs h more
    simp only [stackLook] at h ⊢
    cases hi : inner.look t body with
    | fault cause => rfl
    | next t' gives body' => rfl
    | pending =>
        simp only [hi] at h ⊢
        cases ho : outer.look s bs with
        | pending => simp [ho] at h
        | fault cause =>
            have hwhole : outer.look s bs ≠ .pending := by simp [ho]
            rw [outer.look_append hwhole more, ho]
            rfl
        | next s' data rest =>
            have hwhole : outer.look s bs ≠ .pending := by simp [ho]
            rw [outer.look_append hwhole more, ho]
            rfl

section Stack

variable {outer : Intake σ UInt8} {inner : Intake τ ω} {body : Bytes} {t : τ}

/-- What is left to do of a stack when the inner machine has taken in what it had. -/
def outwards (m : Intake (σ × Bytes × τ) ω) (s : σ) (bs : Bytes) (taken : Taken τ ω) :
    Taken (σ × Bytes × τ) ω :=
  match taken.ending with
  | .error cause => ⟨taken.gives, .error cause⟩
  | .ok (t, body) => (m.run (s, body, t) bs).after taken.gives

theorem outwards_after (m : Intake (σ × Bytes × τ) ω) (s : σ) (bs : Bytes) (gives : List ω)
    (taken : Taken τ ω) :
    m.outwards s bs (taken.after gives) = (m.outwards s bs taken).after gives := by
  obtain ⟨given, ending⟩ := taken
  cases ending with
  | error cause => rfl
  | ok place => simp [outwards, Taken.after]

/-- The inner machine takes in all that it has before the outer one is looked at. -/
theorem stack_run (s : σ) (body : Bytes) (t : τ) (bs : Bytes) :
    (stack outer inner).run (s, body, t) bs =
      (stack outer inner).outwards s bs (inner.run t body) := by
  fun_induction inner.run t body with
  | case1 t body hl => simp [outwards]
  | case2 t body cause hl =>
      exact run_of_fault (by simp [stack, stackLook, hl])
  | case3 t body t' gives rest hl ih =>
      have hlook : (stack outer inner).look (s, body, t) bs = .next (s, rest, t') gives bs := by
        simp [stack, stackLook, hl]
      rw [run_of_next hlook, ih, outwards_after]

/-- **When a byte moves inwards does not matter.** -/
theorem stack_run_of_next (h : outer.look s bs = .next s' data rest) :
    (stack outer inner).run (s, body, t) bs =
      (stack outer inner).run (s', body ++ data, t) rest := by
  rw [stack_run s body t bs, stack_run s' (body ++ data) t rest, inner.run_append]
  cases hr : inner.run t body with
  | mk gives ending =>
      cases ending with
      | error cause => simp [outwards, goOn]
      | ok place =>
          obtain ⟨t', left⟩ := place
          have hpend : inner.look t' left = .pending := look_of_run_ok (congrArg Taken.ending hr)
          have hlook : (stack outer inner).look (s, left, t') bs =
              .next (s', left ++ data, t') [] rest := by
            simp [stack, stackLook, hpend, h]
          simp only [outwards, goOn, run_of_next hlook, Taken.after_nil]
          rw [stack_run s' (left ++ data) t' rest]
          exact (outwards_after _ _ _ _ _).symm

theorem stack_run_of_leads (h : outer.Leads s bs data s' rest) :
    (stack outer inner).run (s, body, t) bs =
      (stack outer inner).run (s', body ++ data, t) rest := by
  induction h generalizing body with
  | refl s bs => simp
  | cons look _ ih => rw [stack_run_of_next look, ih, List.append_assoc]

end Stack

end Intake

/-! ## 5. Calls of a reader -/

/-- A call of a reader at the state `s`, with the bytes `bs` there, is a stretch of a run. -/
inductive Call {ρ σ : Type} (m : Intake σ Frame) (At : ρ → σ → Prop) (s : σ) (bs : Bytes) :
    Except Fault (Option Frame) × ρ × Buffer → Prop where
  | fault {cause : Fault} {r : ρ} {b : Buffer} (run : m.run s bs = ⟨[], .error cause⟩) :
      Call m At s bs (.error cause, r, b)
  | pending {r : ρ} {s' : σ} {b : Buffer} (at_ : At r s') (sound : b.Sound)
      (run : m.run s bs = ⟨[], .ok (s', b.toList)⟩) : Call m At s bs (.ok none, r, b)
  | frame {f : Frame} {r : ρ} {s' : σ} {b : Buffer} (at_ : At r s') (sound : b.Sound)
      (run : m.run s bs = (m.run s' b.toList).after [f]) : Call m At s bs (.ok (some f), r, b)

/-- What is taken in before a call does not change what the call comes to, if nothing is given. -/
theorem Call.of_run_eq {ρ σ : Type} {m : Intake σ Frame} {At : ρ → σ → Prop} {s s' : σ}
    {bs bs' : Bytes} {result : Except Fault (Option Frame) × ρ × Buffer}
    (h : Call m At s' bs' result) (hrun : m.run s bs = m.run s' bs') : Call m At s bs result := by
  cases h with
  | fault run => exact .fault (hrun.trans run)
  | pending at_ sound run => exact .pending at_ sound (hrun.trans run)
  | frame at_ sound run => exact .frame at_ sound (hrun.trans run)

end Courier
