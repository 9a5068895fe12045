import TouchBar.Rust.Outcome

/-!
# Programs with a state and errors

A program reads and changes a state and ends in an outcome.  What it has done to the state
stays, also where it ends in an error: this is how a program with side effects differs from
a fallible function.

A triple says what holds of the state before a program, after it has returned a value, and
after it has failed; a program with a triple does not panic.  The rules follow the ways
programs are put together: sequences, clean-up on failure, and loops that end because a
measure decreases.
-/

namespace TouchBar.Lib

open TouchBar.Rust Outcome

universe u

/-- A program over states `σ` with errors `ε`. -/
def Prog (σ ε : Type) (α : Type) : Type := σ → Outcome ε α × σ

namespace Prog

variable {σ τ ε ε' α β : Type}

protected def pure (a : α) : Prog σ ε α := fun s => (ok a, s)

protected def bind (x : Prog σ ε α) (f : α → Prog σ ε β) : Prog σ ε β := fun s =>
  match x s with
  | (ok a, s') => f a s'
  | (err e, s') => (err e, s')
  | (.panic, s') => (.panic, s')

instance : Monad (Prog σ ε) where
  pure := Prog.pure
  bind := Prog.bind

/-- A fallible computation without effects. -/
def lift (x : Outcome ε α) : Prog σ ε α := fun s => (x, s)

def fail (e : ε) : Prog σ ε α := fun s => (err e, s)

def get (f : σ → α) : Prog σ ε α := fun s => (ok (f s), s)

def modify (f : σ → σ) : Prog σ ε Unit := fun s => (ok (), f s)

/-- `if let Err(error) = x { cleanup; return Err(error) }`. -/
def onError (x : Prog σ ε α) (cleanup : Prog σ ε' Unit) : Prog σ ε α := fun s =>
  match x s with
  | (err e, s') => (err e, (cleanup s').2)
  | result => result

/-- The outcome of a program as a value. -/
def attempt (x : Prog σ ε α) : Prog σ ε' (Outcome ε α) := fun s =>
  match x s with
  | (.panic, s') => (.panic, s')
  | (outcome, s') => (ok outcome, s')

/-- A program on a part of the state. -/
def zoom (part : σ → τ) (set : τ → σ → σ) (x : Prog τ ε α) : Prog σ ε α := fun s =>
  ((x (part s)).1, set (x (part s)).2 s)

/-- Repeat a body with the values it returns until it returns none.  Where the fuel does not
suffice the program panics. -/
def loop (body : β → Prog σ ε (Option β)) : ℕ → β → Prog σ ε Unit
  | 0, _ => fun s => (.panic, s)
  | fuel + 1, b => do
    match ← body b with
    | some b' => loop body fuel b'
    | none => pure ()

/-! ## Triples -/

/-- The end of a program: a value with `Q` or an error with `E`. -/
def Ends (Q : α → σ → Prop) (E : ε → σ → Prop) : Outcome ε α × σ → Prop
  | (ok a, s) => Q a s
  | (err e, s) => E e s
  | (.panic, _) => False

/-- From a state with `P` a program returns a value with `Q` or fails with `E`. -/
def Triple (P : σ → Prop) (x : Prog σ ε α) (Q : α → σ → Prop) (E : ε → σ → Prop) : Prop :=
  ∀ s, P s → Ends Q E (x s)

section Runs

variable {x : Prog σ ε α} {f : α → Prog σ ε β} {s t : σ}

lemma bind_of_ok {a : α} (h : x s = (ok a, t)) : (x >>= f) s = f a t := by
  change Prog.bind x f s = f a t
  rw [Prog.bind, h]

lemma bind_of_err {e : ε} (h : x s = (err e, t)) : (x >>= f) s = (err e, t) := by
  change Prog.bind x f s = (err e, t)
  rw [Prog.bind, h]

/-- A sequence returns a value where both of its parts do. -/
lemma bind_eq_ok {b : β} :
    (x >>= f) s = (ok b, t) ↔ ∃ a u, x s = (ok a, u) ∧ f a u = (ok b, t) := by
  change Prog.bind x f s = (ok b, t) ↔ _
  unfold Prog.bind
  constructor
  · intro h
    cases hrun : x s with
    | mk outcome u =>
      rw [hrun] at h
      cases outcome with
      | ok a => exact ⟨a, u, rfl, h⟩
      | err e => simp at h
      | panic => simp at h
  · rintro ⟨a, u, hx, hf⟩
    rw [hx]
    exact hf

lemma lift_eq_ok {o : Outcome ε α} {a : α} :
    (lift o : Prog σ ε α) s = (ok a, t) ↔ o = ok a ∧ t = s := by
  rw [lift, Prod.mk.injEq, @eq_comm _ s]

lemma pure_eq_ok {a b : α} : (pure a : Prog σ ε α) s = (ok b, t) ↔ a = b ∧ t = s := by
  change ((ok a : Outcome ε α), s) = (ok b, t) ↔ _
  rw [Prod.mk.injEq, Outcome.ok.injEq, @eq_comm _ s]

end Runs

section Rules

variable {P P' : σ → Prop} {x : Prog σ ε α} {f : α → Prog σ ε β} {Q Q' : α → σ → Prop}
  {R : β → σ → Prop} {E E' : ε → σ → Prop}

lemma triple_pure (a : α) (h : ∀ s, P s → Q a s) : Triple P (pure a) Q E := h

lemma triple_fail (e : ε) (h : ∀ s, P s → E e s) : Triple P (fail e : Prog σ ε α) Q E := h

lemma triple_lift {o : Outcome ε α} (hpanic : o ≠ .panic) (hok : ∀ a, o = ok a → ∀ s, P s → Q a s)
    (herr : ∀ e, o = err e → ∀ s, P s → E e s) : Triple P (lift o) Q E := by
  intro s hs
  cases o with
  | ok a => exact hok a rfl s hs
  | err e => exact herr e rfl s hs
  | panic => exact absurd rfl hpanic

lemma triple_get (g : σ → α) (h : ∀ s, P s → Q (g s) s) : Triple P (get g) Q E := h

lemma triple_modify {g : σ → σ} {Q : Unit → σ → Prop} (h : ∀ s, P s → Q () (g s)) :
    Triple P (modify g) Q E := h

/-- Sequencing: what the first program ensures is what the second one starts from. -/
theorem triple_bind (hx : Triple P x Q E) (hf : ∀ a, Triple (Q a) (f a) R E) :
    Triple P (x >>= f) R E := by
  intro s hs
  have hfirst := hx s hs
  change Ends R E (Prog.bind x f s)
  unfold Prog.bind
  cases hrun : x s with
  | mk outcome s' =>
    rw [hrun] at hfirst
    cases outcome with
    | ok a => exact hf a s' hfirst
    | err e => exact hfirst
    | panic => exact hfirst.elim

/-- A fallible computation in front: what follows may use which value it has returned. -/
theorem triple_lift_bind {o : Outcome ε α} (hpanic : o ≠ .panic)
    (herr : ∀ e, o = err e → ∀ s, P s → E e s) (hf : ∀ a, o = ok a → Triple P (f a) R E) :
    Triple P (lift o >>= f) R E := by
  cases o with
  | ok a => exact hf a rfl
  | err e => exact fun s hs => herr e rfl s hs
  | panic => exact absurd rfl hpanic

/-- A part of what holds before a program that does not speak of the state. -/
lemma triple_assume {φ : Prop} (h : φ → Triple P x Q E) : Triple (fun s => P s ∧ φ) x Q E :=
  fun s hs => h hs.2 s hs.1

lemma Ends.weaken {result : Outcome ε α × σ} (h : Ends Q' E' result)
    (hQ : ∀ a s, Q' a s → Q a s) (hE : ∀ e s, E' e s → E e s) : Ends Q E result := by
  obtain ⟨outcome, s⟩ := result
  cases outcome with
  | ok a => exact hQ a s h
  | err e => exact hE e s h
  | panic => exact h.elim

/-- Weaker requirements after, stronger ones before. -/
theorem triple_weaken (h : Triple P' x Q' E') (hP : ∀ s, P s → P' s)
    (hQ : ∀ a s, Q' a s → Q a s) (hE : ∀ e s, E' e s → E e s) : Triple P x Q E :=
  fun s hs => (h s (hP s hs)).weaken hQ hE

/-- Clean-up turns what a failure leaves into what it shall leave. -/
theorem triple_onError {cleanup : Prog σ ε' Unit} (hx : Triple P x Q E')
    (hclean : ∀ e s, E' e s → E e (cleanup s).2) : Triple P (onError x cleanup) Q E := by
  intro s hs
  have hrun := hx s hs
  unfold onError
  cases hx : x s with
  | mk outcome s' =>
    rw [hx] at hrun
    cases outcome with
    | ok a => exact hrun
    | err e => exact hclean e s' hrun
    | panic => exact hrun.elim

theorem triple_attempt {E' : ε' → σ → Prop} {R : Outcome ε α → σ → Prop}
    (hx : Triple P x (fun a => R (ok a)) fun e => R (err e)) :
    Triple P (attempt x : Prog σ ε' (Outcome ε α)) R E' := by
  intro s hs
  have hrun := hx s hs
  unfold attempt
  cases hx : x s with
  | mk outcome s' =>
    rw [hx] at hrun
    cases outcome with
    | ok a => exact hrun
    | err e => exact hrun
    | panic => exact hrun.elim

/-- A program on a part keeps what does not speak of the part. -/
theorem triple_zoom {P : τ → Prop} {x : Prog τ ε α} {Q : α → τ → Prop} {E : ε → τ → Prop}
    {part : σ → τ} {set : τ → σ → σ} (h : Triple P x Q E) (F : σ → Prop)
    (hpart : ∀ t s, part (set t s) = t) (hframe : ∀ t s, F s → F (set t s)) :
    Triple (fun s => P (part s) ∧ F s) (zoom part set x)
      (fun a s => Q a (part s) ∧ F s) fun e s => E e (part s) ∧ F s := by
  rintro s ⟨hs, hF⟩
  have hrun := h (part s) hs
  unfold zoom
  cases hx : x (part s) with
  | mk outcome t =>
    rw [hx] at hrun
    cases outcome with
    | ok a => exact ⟨(hpart t s).symm ▸ hrun, hframe t s hF⟩
    | err e => exact ⟨(hpart t s).symm ▸ hrun, hframe t s hF⟩
    | panic => exact hrun.elim

/-- A loop whose body keeps an invariant and decreases a measure ends. -/
theorem triple_loop {body : β → Prog σ ε (Option β)} {I : β → σ → Prop} {Q : Unit → σ → Prop}
    (measure : β → σ → ℕ)
    (hbody : ∀ b m, Triple (fun s => I b s ∧ measure b s = m) (body b)
      (fun next s => match next with
        | some b' => I b' s ∧ measure b' s < m
        | none => Q () s) E) (fuel : ℕ) (b : β) :
    Triple (fun s => I b s ∧ measure b s < fuel) (loop body fuel b) Q E := by
  induction fuel generalizing b with
  | zero =>
    rintro s ⟨-, hlt⟩
    exact absurd hlt (Nat.not_lt_zero _)
  | succ fuel ih =>
    rintro s ⟨hI, hlt⟩
    refine triple_bind (hbody b (measure b s)) (fun next => ?_) s ⟨hI, rfl⟩
    cases next with
    | some b' =>
      refine triple_weaken (ih b') (fun s' hs' => ⟨hs'.1, ?_⟩) (fun _ _ h => h) fun _ _ h => h
      exact lt_of_lt_of_le hs'.2 (Nat.le_of_lt_succ hlt)
    | none => exact triple_pure _ fun _ h => h

end Rules

/-! ## Invariants of programs -/

/-- From a state with `P` a program leaves a state with `I` however it ends, and where it
returns a value it has `Q`.  Unlike a triple this allows a panic. -/
def Keeps (P : σ → Prop) (x : Prog σ ε α) (Q : α → σ → Prop) (I : σ → Prop) : Prop :=
  ∀ s, P s → I (x s).2 ∧ ∀ a, (x s).1 = ok a → Q a (x s).2

section Keeps

variable {P P' I I' : σ → Prop} {x : Prog σ ε α} {f : α → Prog σ ε β} {Q Q' : α → σ → Prop}
  {R : β → σ → Prop}

lemma keeps_pure {a : α} (h : ∀ s, P s → I s ∧ Q a s) :
    Keeps P (pure a : Prog σ ε α) Q I := by
  refine fun s hs => ⟨(h s hs).1, fun b hb => ?_⟩
  obtain rfl := ok.inj hb
  exact (h s hs).2

lemma keeps_lift {o : Outcome ε α} (hI : ∀ s, P s → I s)
    (hQ : ∀ a, o = ok a → ∀ s, P s → Q a s) : Keeps P (lift o) Q I :=
  fun s hs => ⟨hI s hs, fun a ha => hQ a ha s hs⟩

lemma keeps_modify {g : σ → σ} {Q : Unit → σ → Prop} (h : ∀ s, P s → I (g s) ∧ Q () (g s)) :
    Keeps P (modify g : Prog σ ε Unit) Q I :=
  fun s hs => ⟨(h s hs).1, fun _ _ => (h s hs).2⟩

/-- Sequencing: the second program starts from what the first one has ensured. -/
theorem keeps_bind (hx : Keeps P x Q I) (hf : ∀ a, Keeps (Q a) (f a) R I) :
    Keeps P (x >>= f) R I := by
  intro s hs
  obtain ⟨hI, hQ⟩ := hx s hs
  change I (Prog.bind x f s).2 ∧ ∀ b, (Prog.bind x f s).1 = ok b → R b (Prog.bind x f s).2
  unfold Prog.bind
  cases hrun : x s with
  | mk outcome t =>
    rw [hrun] at hI hQ
    cases outcome with
    | ok a => exact hf a t (hQ a rfl)
    | err e => exact ⟨hI, fun _ h => by cases h⟩
    | panic => exact ⟨hI, fun _ h => by cases h⟩

/-- A fallible computation in front: either way its outcome is known. -/
lemma keeps_lift_bind_of_ne {o : Outcome ε α} (hI : (∀ a, o ≠ ok a) → ∀ s, P s → I s)
    (hf : ∀ a, o = ok a → Keeps P (f a) R I) : Keeps P (lift o >>= f) R I := by
  cases o with
  | ok a => exact hf a rfl
  | err e => exact fun s hs => ⟨hI (fun _ h => by cases h) s hs, fun _ h => by cases h⟩
  | panic => exact fun s hs => ⟨hI (fun _ h => by cases h) s hs, fun _ h => by cases h⟩

lemma keeps_lift_bind {o : Outcome ε α} (hI : ∀ s, P s → I s)
    (hf : ∀ a, o = ok a → Keeps P (f a) R I) : Keeps P (lift o >>= f) R I :=
  keeps_lift_bind_of_ne (fun _ => hI) hf

/-- What is read is known in what follows. -/
lemma keeps_get_bind {g : σ → α} (h : ∀ s, P s → Keeps (fun t => t = s) (f (g s)) R I) :
    Keeps P (get g >>= f) R I := fun s hs => h s hs s rfl

theorem keeps_weaken (h : Keeps P' x Q' I') (hP : ∀ s, P s → P' s)
    (hQ : ∀ a s, Q' a s → Q a s) (hI : ∀ s, I' s → I s) : Keeps P x Q I :=
  fun s hs => ⟨hI _ (h s (hP s hs)).1, fun a ha => hQ _ _ ((h s (hP s hs)).2 a ha)⟩

end Keeps

end Prog

end TouchBar.Lib
