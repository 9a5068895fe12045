import Mathlib

/-!
# Runs of a machine with outputs

A machine is a function from a state and an input to the next state and an
optional output.  This file has its runs over a list of inputs and the rules that
proofs about runs use: an invariant of every step holds after every run (or after
every run that meets a condition, if only steps that meet it keep the invariant),
two machines that stay related step by step are related after every run, and
outputs that each link to what was last shown form a chain.
-/

namespace TouchBar.Lib

variable {σ τ α β : Type*} {step : σ → α → σ} {out : σ → α → Option β}

/-- The state after a list of inputs. -/
def run (step : σ → α → σ) (s : σ) (inputs : List α) : σ := inputs.foldl step s

@[simp] lemma run_nil (s : σ) : run step s [] = s := rfl

@[simp] lemma run_cons (s : σ) (a : α) (l : List α) :
    run step s (a :: l) = run step (step s a) l := rfl

lemma run_append (s : σ) (l m : List α) : run step s (l ++ m) = run step (run step s l) m :=
  List.foldl_append

/-- What every step preserves holds after every run. -/
theorem run_invariant {P : σ → Prop} (hstep : ∀ s a, P s → P (step s a)) {s : σ} (h : P s)
    (l : List α) : P (run step s l) := by
  induction l generalizing s with
  | nil => exact h
  | cons a l ih => exact ih (hstep s a h)

/-- Every input of a run meets a condition at the state where it comes. -/
def Meets (step : σ → α → σ) (cond : σ → α → Prop) : σ → List α → Prop
  | _, [] => True
  | s, a :: l => cond s a ∧ Meets step cond (step s a) l

lemma meets_append {cond : σ → α → Prop} {s : σ} {l m : List α} :
    Meets step cond s (l ++ m) ↔ Meets step cond s l ∧ Meets step cond (run step s l) m := by
  induction l generalizing s with
  | nil => simp [Meets]
  | cons a l ih => simp [Meets, ih, and_assoc]

lemma meets_and {cond cond' : σ → α → Prop} {s : σ} {l : List α} (h : Meets step cond s l)
    (h' : Meets step cond' s l) : Meets step (fun s a => cond s a ∧ cond' s a) s l := by
  induction l generalizing s with
  | nil => trivial
  | cons a l ih => exact ⟨⟨h.1, h'.1⟩, ih h.2 h'.2⟩

/-- A condition on the inputs alone. -/
lemma meets_of_forall {cond : α → Prop} {s : σ} {l : List α} (h : ∀ a ∈ l, cond a) :
    Meets step (fun _ a => cond a) s l := by
  induction l generalizing s with
  | nil => trivial
  | cons a l ih =>
    exact ⟨h a List.mem_cons_self, ih fun b hb => h b (List.mem_cons_of_mem a hb)⟩

instance decidableMeets {cond : σ → α → Prop} [∀ s a, Decidable (cond s a)] :
    ∀ (s : σ) (l : List α), Decidable (Meets step cond s l)
  | _, [] => .isTrue trivial
  | s, a :: l =>
    have : Decidable (Meets step cond (step s a) l) := decidableMeets (step s a) l
    inferInstanceAs (Decidable (cond s a ∧ Meets step cond (step s a) l))

/-- What every step that meets a condition preserves holds after every run that meets it. -/
theorem run_invariant_of_meets {P : σ → Prop} {cond : σ → α → Prop}
    (hstep : ∀ s a, P s → cond s a → P (step s a)) {s : σ} (h : P s) {l : List α}
    (hl : Meets step cond s l) : P (run step s l) := by
  induction l generalizing s with
  | nil => exact h
  | cons a l ih => exact ih (hstep s a h hl.1) hl.2

/-- If admissible steps that meet a condition keep an invariant, and an admissible step
after which a property holds meets the condition, then the property, which the invariant
implies, holds in every state of an admissible run exactly when all its steps meet the
condition. -/
theorem forall_prefix_iff_meets_of_invariant {P Q : σ → Prop} {V C : σ → α → Prop}
    (himp : ∀ s, P s → Q s) (hkeep : ∀ s a, P s → V s a → C s a → P (step s a))
    (hneed : ∀ s a, P s → V s a → Q (step s a) → C s a) {s : σ} (h : P s) {l : List α}
    (hv : Meets step V s l) :
    (∀ front, front <+: l → Q (run step s front)) ↔ Meets step C s l := by
  induction l generalizing s with
  | nil =>
    refine ⟨fun _ => trivial, fun _ front hfront => ?_⟩
    rw [List.prefix_nil.1 hfront]
    exact himp s h
  | cons a l ih =>
    constructor
    · intro hall
      have hC : C s a := hneed s a h hv.1 (hall [a] (List.prefix_append [a] l))
      refine ⟨hC, (ih (hkeep s a h hv.1 hC) hv.2).1 fun front hfront => ?_⟩
      exact hall (a :: front) (List.cons_prefix_cons.2 ⟨rfl, hfront⟩)
    · rintro ⟨hC, hl⟩ front hfront
      cases front with
      | nil => exact himp s h
      | cons b front =>
        obtain ⟨rfl, hrest⟩ := List.cons_prefix_cons.1 hfront
        exact (ih (hkeep s b h hv.1 hC) hv.2).2 hl front hrest

/-- If a step keeps a property exactly when it meets a condition, the property holds in
every state of a run exactly when all its steps meet the condition. -/
theorem forall_prefix_iff_meets {P : σ → Prop} {C : σ → α → Prop}
    (hstep : ∀ s a, P s → (P (step s a) ↔ C s a)) {s : σ} (h : P s) (l : List α) :
    (∀ front, front <+: l → P (run step s front)) ↔ Meets step C s l :=
  forall_prefix_iff_meets_of_invariant (V := fun _ _ => True) (fun _ h => h)
    (fun s a h _ => (hstep s a h).2) (fun s a h _ => (hstep s a h).1) h
    (meets_of_forall fun _ _ => trivial)

/-- The outputs of a run, in order. -/
def outputs (step : σ → α → σ) (out : σ → α → Option β) : σ → List α → List β
  | _, [] => []
  | s, a :: l => (out s a).toList ++ outputs step out (step s a) l

/-- The inputs of a run that pass a test at the state where they come. -/
def accepted (step : σ → α → σ) (test : σ → α → Bool) : σ → List α → List α
  | _, [] => []
  | s, a :: l => (if test s a then [a] else []) ++ accepted step test (step s a) l

/-- A second machine that follows the accepted inputs stays related to the first, if an
accepted step keeps them related and a rejected one leaves the first related to the
unchanged second. -/
theorem run_accepted {step' : τ → α → τ} {test : σ → α → Bool} {R : σ → τ → Prop}
    (hyes : ∀ s t a, R s t → test s a = true → R (step s a) (step' t a))
    (hno : ∀ s t a, R s t → test s a = false → R (step s a) t) {s : σ} {t : τ} (h : R s t)
    (l : List α) : R (run step s l) (run step' t (accepted step test s l)) := by
  induction l generalizing s t with
  | nil => exact h
  | cons a l ih =>
    rw [accepted, run_cons]
    cases htest : test s a with
    | true => exact ih (hyes s t a h htest)
    | false => exact ih (hno s t a h htest)

/-- If every output links to what was shown before and is shown afterwards, and a step
without an output shows the same as before, the outputs of a run form a chain from what
was shown first to what is shown last. -/
theorem isChain_outputs {P : σ → Prop} {view : σ → β} {link : β → β → Prop}
    (hinv : ∀ s a, P s → P (step s a))
    (hout : ∀ s a b, P s → out s a = some b → link (view s) b ∧ view (step s a) = b)
    (hsilent : ∀ s a, P s → out s a = none → view (step s a) = view s) {s : σ} (h : P s)
    (l : List α) :
    (view s :: outputs step out s l).IsChain link ∧
      (view s :: outputs step out s l).getLast? = some (view (run step s l)) := by
  induction l generalizing s with
  | nil => simp [outputs]
  | cons a l ih =>
    obtain ⟨hchain, hlast⟩ := ih (hinv s a h)
    rw [outputs, run_cons]
    cases ho : out s a with
    | none =>
      rw [hsilent s a h ho] at hchain hlast
      exact ⟨hchain, hlast⟩
    | some b =>
      obtain ⟨hlink, hview⟩ := hout s a b h ho
      rw [hview] at hchain hlast
      refine ⟨.cons_cons hlink hchain, ?_⟩
      rw [Option.toList_some, List.singleton_append, List.getLast?_cons_cons]
      exact hlast

end TouchBar.Lib
