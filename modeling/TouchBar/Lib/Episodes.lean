import Mathlib
import TouchBar.Lib.Runs

/-!
# Episodes of an event stream

Some streams are made of episodes: an opening event, any number of continuing
events, a closing event, and then the next episode.  A finger on a screen and a
key of a keyboard are of this kind.  `follow` runs along a stream and remembers
only whether an episode is open; it gives up at the first event that is out of
place.  `follow_eq_some_iff` says that it succeeds exactly on the concatenations
of episodes of which the last one may be unfinished.
-/

namespace TouchBar.Lib

/-- What an event does to the episode it belongs to. -/
inductive Role where
  | opens
  | continues
  | closes
  deriving DecidableEq

/-- Whether an episode is open after one event. -/
def Role.next : Bool → Role → Option Bool
  | false, opens => some true
  | true, continues => some true
  | true, closes => some false
  | false, continues => none
  | false, closes => none
  | true, opens => none

variable {ε : Type*} (role : ε → Role)

/-- Whether an episode is open after a list of events, if every event is in place. -/
def follow : Bool → List ε → Option Bool
  | b, [] => some b
  | b, e :: l => ((role e).next b).bind fun c => follow c l

@[simp] lemma follow_nil (b : Bool) : follow role b [] = some b := rfl

lemma follow_append (b : Bool) (l m : List ε) :
    follow role b (l ++ m) = (follow role b l).bind fun c => follow role c m := by
  induction l generalizing b with
  | nil => rfl
  | cons e l ih =>
    rw [List.cons_append, follow, follow, Option.bind_assoc]
    simp only [ih]

lemma follow_map {δ : Type*} (f : δ → ε) (b : Bool) (l : List δ) :
    follow role b (l.map f) = follow (fun e => role (f e)) b l := by
  induction l generalizing b with
  | nil => rfl
  | cons e l ih =>
    rw [List.map_cons, follow, follow]
    simp only [ih]

lemma follow_singleton (b : Bool) (e : ε) : follow role b [e] = (role e).next b := by
  simp [follow]

/-- A finished episode. -/
def IsEpisode (l : List ε) : Prop :=
  ∃ first middle last, l = first :: (middle ++ [last]) ∧ role first = .opens ∧
    (∀ e ∈ middle, role e = .continues) ∧ role last = .closes

/-- An episode that has not been closed yet. -/
def IsUnfinished (l : List ε) : Prop :=
  ∃ first middle, l = first :: middle ∧ role first = .opens ∧ ∀ e ∈ middle, role e = .continues

/-- A concatenation of finished episodes, followed by an unfinished one if `unfinished`. -/
def Episodes (unfinished : Bool) (l : List ε) : Prop :=
  ∃ (parts : List (List ε)) (rest : List ε), l = parts.flatten ++ rest ∧
    (∀ p ∈ parts, IsEpisode role p) ∧
    if unfinished then IsUnfinished role rest else rest = []

variable {role}

lemma follow_continues {l : List ε} (h : ∀ e ∈ l, role e = .continues) :
    follow role true l = some true := by
  induction l with
  | nil => rfl
  | cons e l ih =>
    rw [follow, h e List.mem_cons_self]
    exact ih fun e' he' => h e' (List.mem_cons_of_mem e he')

lemma IsUnfinished.follow {l : List ε} (h : IsUnfinished role l) :
    follow role false l = some true := by
  obtain ⟨first, middle, rfl, hfirst, hmiddle⟩ := h
  rw [Lib.follow, hfirst]
  exact follow_continues hmiddle

lemma IsEpisode.follow {l : List ε} (h : IsEpisode role l) :
    follow role false l = some false := by
  obtain ⟨first, middle, last, rfl, hfirst, hmiddle, hlast⟩ := h
  have hopen : Lib.follow role false (first :: middle) = some true :=
    IsUnfinished.follow ⟨first, middle, rfl, hfirst, hmiddle⟩
  rw [← List.cons_append, follow_append, hopen, Option.bind_some, follow_singleton, hlast]
  rfl

lemma follow_flatten {parts : List (List ε)} (h : ∀ p ∈ parts, IsEpisode role p) :
    follow role false parts.flatten = some false := by
  induction parts with
  | nil => rfl
  | cons p parts ih =>
    rw [List.flatten_cons, follow_append, (h p List.mem_cons_self).follow]
    exact ih fun q hq => h q (List.mem_cons_of_mem p hq)

/-- One event more turns episodes into episodes, if it is in place. -/
lemma Episodes.concat {b c : Bool} {l : List ε} {e : ε} (h : Episodes role b l)
    (hnext : (role e).next b = some c) : Episodes role c (l ++ [e]) := by
  obtain ⟨parts, rest, rfl, hparts, hrest⟩ := h
  cases b <;> cases hrole : role e <;> rw [hrole] at hnext <;> cases hnext
  · -- the event opens the next episode
    cases hrest
    exact ⟨parts, [e], by simp, hparts, ⟨e, [], rfl, hrole, by simp⟩⟩
  · -- the event continues the open one
    obtain ⟨first, middle, rfl, hfirst, hmiddle⟩ := hrest
    refine ⟨parts, first :: (middle ++ [e]), by simp, hparts, first, middle ++ [e], rfl, hfirst, ?_⟩
    intro e' he'
    rcases List.mem_append.1 he' with hm | hm
    · exact hmiddle e' hm
    · rw [List.mem_singleton.1 hm, hrole]
  · -- the event closes the open one, which joins the finished ones
    obtain ⟨first, middle, rfl, hfirst, hmiddle⟩ := hrest
    refine ⟨parts ++ [first :: (middle ++ [e])], [], by simp, ?_, rfl⟩
    intro p hp
    rcases List.mem_append.1 hp with hm | hm
    · exact hparts p hm
    · rw [List.mem_singleton.1 hm]
      exact ⟨first, middle, e, rfl, hfirst, hmiddle, hrole⟩

/-- Running along a stream succeeds exactly on the concatenations of episodes. -/
theorem follow_eq_some_iff {b : Bool} {l : List ε} :
    follow role false l = some b ↔ Episodes role b l := by
  constructor
  · intro h
    induction l using List.reverseRecOn generalizing b with
    | nil =>
      cases h
      exact ⟨[], [], rfl, by simp, rfl⟩
    | append_singleton l e ih =>
      rw [follow_append, Option.bind_eq_some_iff] at h
      obtain ⟨c, hc, hnext⟩ := h
      rw [follow_singleton] at hnext
      exact (ih hc).concat hnext
  · rintro ⟨parts, rest, rfl, hparts, hrest⟩
    rw [follow_append, follow_flatten hparts, Option.bind_some]
    cases b with
    | false =>
      cases hrest
      rfl
    | true => exact IsUnfinished.follow hrest

/-- An episode is open exactly if the last event did not close one. -/
lemma follow_getLast? {b : Bool} {l : List ε} (h : follow role false l = some b) :
    b = true ↔ ∃ e, l.getLast? = some e ∧ role e ≠ .closes := by
  induction l using List.reverseRecOn with
  | nil =>
    cases h
    simp
  | append_singleton l e _ =>
    rw [follow_append, Option.bind_eq_some_iff] at h
    obtain ⟨c, -, hnext⟩ := h
    rw [follow_singleton] at hnext
    cases c <;> cases hrole : role e <;> rw [hrole] at hnext <;> cases hnext <;> simp [hrole]

/-- The first event opens an episode. -/
lemma follow_head? {b : Bool} {l : List ε} (h : follow role false l = some b) :
    ∀ e, l.head? = some e → role e = .opens := by
  intro e he
  cases l with
  | nil => cases he
  | cons e' l =>
    cases he
    rw [follow, Option.bind_eq_some_iff] at h
    obtain ⟨c, hnext, -⟩ := h
    cases hrole : role e <;> rw [hrole] at hnext <;> cases hnext

/-- In a stream without continuing events, opening and closing events alternate. -/
lemma isChain_of_follow {b c : Bool} {l : List ε} (h : follow role b l = some c)
    (hc : ∀ e ∈ l, role e ≠ .continues) : l.IsChain fun e f => role e ≠ role f := by
  induction l generalizing b with
  | nil => exact List.isChain_nil
  | cons e l ih =>
    rw [follow, Option.bind_eq_some_iff] at h
    obtain ⟨d, hnext, hrun⟩ := h
    have hl := ih hrun fun e' he' => hc e' (List.mem_cons_of_mem e he')
    cases l with
    | nil => exact List.isChain_singleton e
    | cons f l =>
      refine List.IsChain.cons_cons (fun heq => ?_) hl
      -- two events of one role in a row would both have to be in place
      rw [follow, Option.bind_eq_some_iff] at hrun
      obtain ⟨d', hnext', -⟩ := hrun
      have hne := hc e List.mem_cons_self
      rw [← heq] at hnext'
      cases b <;> cases hrole : role e <;> rw [hrole] at hnext hnext' hne <;>
        cases hnext <;> simp [Role.next] at hnext' hne

/-! ## Labelled episodes -/

section Labels

variable {κ : Type*}

/-- A concatenation of episodes, the last one perhaps unfinished, each of one label. -/
def UniformEpisodes (role : ε → Role) (l : List (ε × κ)) : Prop :=
  ∃ (parts : List (List (ε × κ))) (rest : List (ε × κ)), l = parts.flatten ++ rest ∧
    (∀ p ∈ parts, IsEpisode (fun e : ε × κ => role e.1) p) ∧
    (rest = [] ∨ IsUnfinished (fun e : ε × κ => role e.1) rest) ∧
    ∀ p ∈ rest :: parts, ∀ e ∈ p, ∀ f ∈ p, e.2 = f.2

/-- Every event has the label of the one before it, unless it opens an episode. -/
def KeepsLabel (role : ε → Role) (l : List (ε × κ)) : Prop :=
  l.IsChain fun e f => role f.1 ≠ .opens → e.2 = f.2

lemma keepsLabel_concat {l : List (ε × κ)} {e : ε × κ} :
    KeepsLabel role (l ++ [e]) ↔
      KeepsLabel role l ∧ ∀ f ∈ l.getLast?, role e.1 ≠ .opens → f.2 = e.2 := by
  simp [KeepsLabel, List.isChain_append]

lemma keepsLabel_of_uniform {p : List (ε × κ)} (h : ∀ e ∈ p, ∀ f ∈ p, e.2 = f.2) :
    KeepsLabel role p := by
  refine List.isChain_iff_getElem.2 fun i hi _ => ?_
  exact h _ (List.getElem_mem _) _ (List.getElem_mem _)

/-- After its first event, an episode keeps the label of that event. -/
lemma uniform_of_keepsLabel {first : ε × κ} {later : List (ε × κ)}
    (h : KeepsLabel role (first :: later)) (hlater : ∀ e ∈ later, role e.1 ≠ .opens) :
    ∀ e ∈ first :: later, e.2 = first.2 := by
  induction later generalizing first with
  | nil => simp
  | cons f later ih =>
    obtain ⟨hf, hrest⟩ := List.isChain_cons_cons.1 h
    have hlabel : first.2 = f.2 := hf (hlater f List.mem_cons_self)
    intro e he
    rcases List.mem_cons.1 he with rfl | he
    · rfl
    · rw [hlabel]
      exact ih hrest (fun e' he' => hlater e' (List.mem_cons_of_mem f he')) e he

lemma KeepsLabel.part {l m : List (ε × κ)} (h : KeepsLabel role l) (hm : m <:+: l) :
    KeepsLabel role m := by
  obtain ⟨front, back, rfl⟩ := hm
  exact h.left_of_append.right_of_append

lemma KeepsLabel.append {l m : List (ε × κ)} (hl : KeepsLabel role l) (hm : KeepsLabel role m)
    (hopens : ∀ e ∈ m.head?, role e.1 = .opens) : KeepsLabel role (l ++ m) := by
  refine List.isChain_append.2 ⟨hl, hm, fun e _ f hf hne => ?_⟩
  exact absurd (hopens f hf) hne

lemma UniformEpisodes.keepsLabel {parts : List (List (ε × κ))} {rest : List (ε × κ)}
    (hparts : ∀ p ∈ parts, IsEpisode (fun e : ε × κ => role e.1) p)
    (hrest : rest = [] ∨ IsUnfinished (fun e : ε × κ => role e.1) rest)
    (hlabel : ∀ p ∈ rest :: parts, ∀ e ∈ p, ∀ f ∈ p, e.2 = f.2) :
    KeepsLabel role (parts.flatten ++ rest) ∧
      ∀ e ∈ (parts.flatten ++ rest).head?, role e.1 = .opens := by
  induction parts with
  | nil =>
    refine ⟨keepsLabel_of_uniform (hlabel rest List.mem_cons_self), ?_⟩
    rcases hrest with rfl | ⟨first, middle, rfl, hfirst, -⟩
    · simp
    · simpa using hfirst
  | cons p parts ih =>
    obtain ⟨hchain, hhead⟩ := ih (fun q hq => hparts q (List.mem_cons_of_mem p hq))
      fun q hq => hlabel q (by
        rcases List.mem_cons.1 hq with rfl | hq
        · exact List.mem_cons_self
        · exact List.mem_cons_of_mem _ (List.mem_cons_of_mem p hq))
    have hp : KeepsLabel role p :=
      keepsLabel_of_uniform (hlabel p (List.mem_cons_of_mem rest List.mem_cons_self))
    rw [List.flatten_cons, List.append_assoc]
    refine ⟨hp.append hchain hhead, ?_⟩
    obtain ⟨first, middle, last, rfl, hfirst, -⟩ := hparts p List.mem_cons_self
    simpa using hfirst

lemma uniform_of_part {l p : List (ε × κ)} (hl : KeepsLabel role l) (hp : p <:+: l)
    (hunfinished : ∀ first later, p = first :: later → ∀ e ∈ later, role e.1 ≠ .opens) :
    ∀ e ∈ p, ∀ f ∈ p, e.2 = f.2 := by
  cases p with
  | nil => simp
  | cons first later =>
    have huniform := uniform_of_keepsLabel (hl.part hp) (hunfinished first later rfl)
    intro e he f hf
    rw [huniform e he, huniform f hf]

/-- In a stream of episodes, the episodes have one label each exactly if every event keeps
the label of the one before it. -/
theorem uniformEpisodes_iff {l : List (ε × κ)} :
    UniformEpisodes role l ↔
      (∃ b, Episodes (fun e : ε × κ => role e.1) b l) ∧ KeepsLabel role l := by
  constructor
  · rintro ⟨parts, rest, rfl, hparts, hrest, hlabel⟩
    refine ⟨?_, (UniformEpisodes.keepsLabel hparts hrest hlabel).1⟩
    rcases hrest with hrest | hrest
    · exact ⟨false, parts, rest, rfl, hparts, hrest⟩
    · exact ⟨true, parts, rest, rfl, hparts, hrest⟩
  · rintro ⟨⟨b, parts, rest, rfl, hparts, hrest⟩, hl⟩
    have hrest' : rest = [] ∨ IsUnfinished (fun e : ε × κ => role e.1) rest := by
      cases b with
      | false => exact .inl hrest
      | true => exact .inr hrest
    refine ⟨parts, rest, rfl, hparts, hrest', fun p hp => ?_⟩
    rcases List.mem_cons.1 hp with rfl | hp
    · refine uniform_of_part hl (List.suffix_append _ _).isInfix fun first later heq e he => ?_
      rcases hrest' with rfl | ⟨first', middle, heq', -, hmiddle⟩
      · cases heq
      · rw [heq] at heq'
        obtain ⟨-, rfl⟩ := List.cons.inj heq'
        have hrole : role e.1 = .continues := hmiddle e he
        simp [hrole]
    · have hinfix : p <:+: parts.flatten ++ rest :=
        (List.infix_of_mem_flatten hp).trans (List.prefix_append _ _).isInfix
      refine uniform_of_part hl hinfix fun first later heq e he => ?_
      obtain ⟨first', middle, last, heq', -, hmiddle, hlast⟩ := hparts p hp
      rw [heq] at heq'
      obtain ⟨-, rfl⟩ := List.cons.inj heq'
      rcases List.mem_append.1 he with he | he
      · have hrole : role e.1 = .continues := hmiddle e he
        simp [hrole]
      · have hrole : role last.1 = .closes := hlast
        rw [List.mem_singleton.1 he]
        simp [hrole]

/-- The events of one label are episodes too, and one is open exactly if one of that label
is open in the whole stream. -/
lemma follow_filter_label [DecidableEq κ] {b : Bool} {l : List (ε × κ)} (v : κ)
    (h : follow (fun e : ε × κ => role e.1) false l = some b) (hl : KeepsLabel role l) :
    follow (fun e : ε × κ => role e.1) false (l.filter fun e => e.2 = v) =
      some (b && l.getLast?.any fun e => e.2 = v) := by
  induction l using List.reverseRecOn generalizing b with
  | nil =>
    cases h
    rfl
  | append_singleton l e ih =>
    rw [follow_append, Option.bind_eq_some_iff] at h
    obtain ⟨c, hc, hnext⟩ := h
    rw [follow_singleton] at hnext
    obtain ⟨hl, hlabel⟩ := keepsLabel_concat.1 hl
    have hopen : c = true ↔ ∃ f, l.getLast? = some f ∧ role f.1 ≠ .closes := follow_getLast? hc
    rw [List.filter_append, follow_append, ih hc hl, Option.bind_some, List.getLast?_concat]
    by_cases hv : e.2 = v
    · -- the event has the label, and so does the episode that it belongs to
      have hlast : role e.1 ≠ .opens → (c && l.getLast?.any fun f => f.2 = v) = c := by
        intro hrole
        cases c with
        | false => rfl
        | true =>
          obtain ⟨f, hf, -⟩ := hopen.1 rfl
          simp [hf, hlabel f hf hrole, hv]
      cases c <;> cases hrole : role e.1 <;> rw [hrole] at hnext hlast <;>
        simp_all [follow, Role.next]
    · have hnone : [e].filter (fun e => decide (e.2 = v)) = [] := by simp [hv]
      rw [hnone, follow_nil]
      cases c with
      | false => simp [hv]
      | true =>
        obtain ⟨f, hf, -⟩ := hopen.1 rfl
        have hrole : role e.1 ≠ .opens := by
          intro hrole
          rw [hrole] at hnext
          cases hnext
        have hne : f.2 ≠ v := by rwa [hlabel f hf hrole]
        simp [hf, hv, hne]

end Labels

/-! ## Machines that report episodes -/

section Machine

variable {σ α : Type*} {step : σ → α → σ} {out : σ → α → List ε} {p : ε → Bool}

/-- Everything a run emits, in order. -/
def emitted (step : σ → α → σ) (out : σ → α → List ε) : σ → List α → List ε
  | _, [] => []
  | s, a :: l => out s a ++ emitted step out (step s a) l

lemma emitted_append (s : σ) (l m : List α) :
    emitted step out s (l ++ m) = emitted step out s l ++ emitted step out (run step s l) m := by
  induction l generalizing s with
  | nil => rfl
  | cons a l ih =>
    rw [List.cons_append, emitted, emitted, ih, List.append_assoc]
    rfl

/-- What holds of everything a step emits holds of everything a run emits. -/
lemma forall_emitted {Q : ε → Prop} (hout : ∀ s a, ∀ e ∈ out s a, Q e) (s : σ) (l : List α) :
    ∀ e ∈ emitted step out s l, Q e := by
  induction l generalizing s with
  | nil => simp [emitted]
  | cons a l ih =>
    intro e he
    rcases List.mem_append.1 he with hm | hm
    · exact hout s a e hm
    · exact ih (step s a) e hm

/-- If the events of one subject are in place at every step that meets a condition, they
are in place along every run that meets it, and an episode is open after the run exactly
if the last state says so. -/
theorem follow_emitted (isOpen : σ → Bool) {P : σ → Prop} {C : σ → α → Prop}
    (hstep : ∀ s a, P s → C s a → P (step s a) ∧
      follow role (isOpen s) ((out s a).filter p) = some (isOpen (step s a)))
    {s : σ} (h : P s) {inputs : List α} (hi : Meets step C s inputs) :
    follow role (isOpen s) ((emitted step out s inputs).filter p) =
      some (isOpen (run step s inputs)) := by
  induction inputs generalizing s with
  | nil => rfl
  | cons a l ih =>
    obtain ⟨hP, hout⟩ := hstep s a h hi.1
    rw [emitted, List.filter_append, follow_append, hout, Option.bind_some]
    exact ih hP hi.2

end Machine

end TouchBar.Lib
