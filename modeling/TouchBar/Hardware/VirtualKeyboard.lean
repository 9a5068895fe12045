import Mathlib
import TouchBar.Hardware.Events
import TouchBar.Rust.BTree

/-!
# The virtual keyboard

`VirtualKeyboard` writes key events to the kernel and tracks the keys it holds
down.  The set of pressed keys changes before the write that may fail: a release
that fails is forgotten although the key is still down, a failed write in
`release_all` forgets every key that has not been written yet, and a press that
fails is remembered although the key is up.  `InStep` is what a call must meet for
the tracked keys and the delivered events to stay in agreement, and
`lawful_iff_inStep` says that a run stays lawful exactly if all its calls meet it.
-/

namespace TouchBar.Hardware

open Lib Rust

/-- An event as the kernel gets it: value 1 presses the key, 2 repeats it, 0 releases it. -/
structure KernelEvent where
  key : SystemKey
  value : ℤ
  deriving DecidableEq, Repr

/-- The part a kernel event plays in the life of its key. -/
def KernelEvent.role (event : KernelEvent) : Role :=
  if event.value = 1 then .opens else if event.value = 2 then .continues else .closes

/-- The errors of the keyboard. -/
inductive KeyboardError where
  /-- `cannot repeat a system key that is not pressed`. -/
  | repeatNotPressed
  /-- `emit virtual key {key} value {value}`: the kernel did not take the event. -/
  | write (key : SystemKey) (value : ℤ)
  deriving DecidableEq, Repr

/-- `VirtualKeyboard`, without the handle of the device. -/
structure VirtualKeyboard where
  pressed : BTreeSet SystemKey

/-- What a call delivers to the kernel, and what it returns. -/
abbrev Written := List KernelEvent × Except KeyboardError Unit

namespace VirtualKeyboard

/-- The keyboard as `open` makes it. -/
def new : VirtualKeyboard where
  pressed := .empty

/-- `write`.  Whether the kernel takes the event is `ok`; a failed write delivers nothing. -/
def write (ok : Bool) (key : SystemKey) (value : ℤ) : Written :=
  if ok then ([⟨key, value⟩], .ok ()) else ([], .error (.write key value))

/-- `emit`. -/
def emit (keyboard : VirtualKeyboard) (key : SystemKey) (phase : KeyPhase) (ok : Bool) :
    VirtualKeyboard × Written :=
  match phase with
  | .pressed =>
    if keyboard.pressed.contains key then (keyboard, [], .ok ())
    else ({ pressed := keyboard.pressed.insert key }, write ok key 1)
  | .repeats =>
    if keyboard.pressed.contains key then (keyboard, write ok key 2)
    else (keyboard, [], .error .repeatNotPressed)
  | .released =>
    if keyboard.pressed.contains key then
      ({ pressed := keyboard.pressed.remove key }, write ok key 0)
    else (keyboard, [], .ok ())

/-- The loop of `release_all`, which ends at the first write that fails. -/
def releaseKeys (ok : SystemKey → Bool) : List SystemKey → Written
  | [] => ([], .ok ())
  | key :: keys =>
    match write (ok key) key 0 with
    | (delivered, .error e) => (delivered, .error e)
    | (delivered, .ok ()) =>
      let (rest, result) := releaseKeys ok keys
      (delivered ++ rest, result)

/-- `release_all`.  Whether the kernel takes the release of a key is `ok`. -/
def releaseAll (keyboard : VirtualKeyboard) (ok : SystemKey → Bool) :
    VirtualKeyboard × Written :=
  ({ pressed := .empty }, releaseKeys ok keyboard.pressed.toList)

/-- A call of the keyboard with what its writes come to. -/
inductive Call where
  | emit (key : SystemKey) (phase : KeyPhase) (ok : Bool)
  | releaseAll (ok : SystemKey → Bool)

/-- What a call does. -/
def perform (keyboard : VirtualKeyboard) : Call → VirtualKeyboard × Written
  | .emit key phase ok => keyboard.emit key phase ok
  | .releaseAll ok => keyboard.releaseAll ok

/-- A write of the loop is reached and taken if the kernel takes it and all before it. -/
lemma releaseKeys_delivered (ok : SystemKey → Bool) (keys : List SystemKey) :
    (releaseKeys ok keys).1 = (keys.takeWhile ok).map fun key => ⟨key, 0⟩ := by
  induction keys with
  | nil => rfl
  | cons key keys ih =>
    rw [releaseKeys, List.takeWhile_cons, write]
    cases ok key with
    | true => simp [ih]
    | false => rfl

end VirtualKeyboard

/-- The keyboard and the events that the kernel has got from it. -/
structure KeyboardRun where
  keyboard : VirtualKeyboard
  delivered : List KernelEvent

namespace KeyboardRun

/-- A keyboard that has written nothing. -/
def new : KeyboardRun := ⟨.new, []⟩

/-- A call of the keyboard. -/
def step (s : KeyboardRun) (call : VirtualKeyboard.Call) : KeyboardRun :=
  let (keyboard, delivered, _) := s.keyboard.perform call
  ⟨keyboard, s.delivered ++ delivered⟩

/-- The events of one key. -/
def eventsOf (s : KeyboardRun) (key : SystemKey) : List KernelEvent :=
  s.delivered.filter fun event => event.key = key

/-- The last event of the key that was delivered is a press or a repeat. -/
def Held (s : KeyboardRun) (key : SystemKey) : Prop :=
  ∃ event, (s.eventsOf key).getLast? = some event ∧ event.role ≠ .closes

instance (s : KeyboardRun) (key : SystemKey) : Decidable (s.Held key) :=
  decidable_of_iff (((s.eventsOf key).getLast?.any fun event => event.role ≠ .closes) = true) (by
    simp [Held, Option.any_eq_true])

/-- No key is forgotten. -/
structure Lawful (s : KeyboardRun) : Prop where
  /-- A key that is down is tracked. -/
  tracked : ∀ key, s.Held key → key ∈ s.keyboard.pressed
  /-- The next `release_all` whose writes succeed releases it. -/
  released : ∀ key, s.Held key → ⟨key, 0⟩ ∈ (s.keyboard.releaseAll fun _ => true).2.1
  /-- The delivered events of a key are presses, repeats and a release, in turns. -/
  episodes : ∀ key, ∃ unfinished, Episodes KernelEvent.role unfinished (s.eventsOf key)

/-- The writes of a call come out as the delivered events ask for: a press may fail; a
repeat of a tracked key fails if the key is not down; and the release of a tracked key, by
itself or in `release_all`, is delivered exactly if the key is down. -/
def InStep (s : KeyboardRun) : VirtualKeyboard.Call → Prop
  | .emit _ .pressed _ => True
  | .emit key .repeats ok => key ∈ s.keyboard.pressed → ok = true → s.Held key
  | .emit key .released ok => key ∈ s.keyboard.pressed → (ok = true ↔ s.Held key)
  | .releaseAll ok => ∀ key ∈ s.keyboard.pressed,
      (key ∈ s.keyboard.pressed.toList.takeWhile ok ↔ s.Held key)

/-- `Lawful` for one key, by the episodes of the key. -/
def Sound (s : KeyboardRun) (key : SystemKey) : Prop :=
  (s.Held key → key ∈ s.keyboard.pressed) ∧
    follow KernelEvent.role false (s.eventsOf key) = some (decide (s.Held key))

lemma mem_releaseAll {keyboard : VirtualKeyboard} {key : SystemKey} :
    ⟨key, 0⟩ ∈ (keyboard.releaseAll fun _ => true).2.1 ↔ key ∈ keyboard.pressed := by
  have htake : keyboard.pressed.toList.takeWhile (fun _ => true) = keyboard.pressed.toList :=
    List.takeWhile_eq_self_iff.2 fun _ _ => rfl
  rw [VirtualKeyboard.releaseAll, VirtualKeyboard.releaseKeys_delivered, htake]
  simp [BTreeSet.mem_def]

lemma lawful_iff_sound {s : KeyboardRun} : Lawful s ↔ ∀ key, Sound s key := by
  constructor
  · intro h key
    refine ⟨h.tracked key, ?_⟩
    obtain ⟨b, hb⟩ := h.episodes key
    have hfollow := follow_eq_some_iff.2 hb
    have hopen : b = true ↔ s.Held key := follow_getLast? hfollow
    rw [hfollow]
    cases b <;> simp_all
  · intro h
    exact ⟨fun key => (h key).1, fun key hheld => mem_releaseAll.2 ((h key).1 hheld),
      fun key => ⟨_, follow_eq_some_iff.1 (h key).2⟩⟩

/-! ## What one call does to one key -/

section Key

variable {s t : KeyboardRun} {key : SystemKey}

lemma held_congr (h : t.eventsOf key = s.eventsOf key) : t.Held key ↔ s.Held key := by
  rw [Held, Held, h]

lemma held_concat {event : KernelEvent} (h : t.eventsOf key = s.eventsOf key ++ [event]) :
    t.Held key ↔ event.role ≠ .closes := by
  simp [Held, h]

/-- A key of which nothing was delivered stays sound if it stays tracked while it is down. -/
lemma sound_of_silent (hs : Sound s key) (h : t.eventsOf key = s.eventsOf key) :
    Sound t key ↔ (s.Held key → key ∈ t.keyboard.pressed) := by
  have hheld := held_congr h
  simp only [Sound, hheld, h, hs.2, and_true]

/-- An event keeps its key sound if it is in place and the key is tracked while down. -/
lemma sound_of_event (hs : Sound s key) {event : KernelEvent}
    (h : t.eventsOf key = s.eventsOf key ++ [event]) :
    Sound t key ↔ (event.role ≠ .closes → key ∈ t.keyboard.pressed) ∧
      (s.Held key ↔ event.role ≠ .opens) := by
  have hheld := held_concat h
  simp only [Sound, hheld, h, follow_append, hs.2, Option.bind_some, follow_singleton]
  refine and_congr_right fun _ => ?_
  by_cases hdown : s.Held key <;> cases event.role <;> simp [hdown, Role.next]

/-- Another key is not touched. -/
lemma sound_of_other (hs : Sound s key) (h : t.eventsOf key = s.eventsOf key)
    (hkey : key ∈ t.keyboard.pressed ↔ key ∈ s.keyboard.pressed) : Sound t key := by
  rw [sound_of_silent hs h, hkey]
  exact hs.1

/-- A tracked key that was to be released is no longer tracked: it stays sound if the
release is delivered exactly when the key is down. -/
lemma sound_of_release (hs : Sound s key) (hkey : key ∉ t.keyboard.pressed) {taken : Prop}
    [Decidable taken]
    (h : t.eventsOf key = s.eventsOf key ++ if taken then [⟨key, 0⟩] else []) :
    Sound t key ↔ (taken ↔ s.Held key) := by
  by_cases htaken : taken
  · rw [if_pos htaken] at h
    rw [sound_of_event hs h]
    simp [KernelEvent.role, htaken]
  · rw [if_neg htaken, List.append_nil] at h
    rw [sound_of_silent hs h]
    simp [hkey, htaken]

end Key

lemma eventsOf_step (s : KeyboardRun) (call : VirtualKeyboard.Call) (key : SystemKey) :
    (s.step call).eventsOf key =
      s.eventsOf key ++ (s.keyboard.perform call).2.1.filter fun event => event.key = key :=
  List.filter_append _ _

lemma filter_write_self (ok : Bool) (key : SystemKey) (value : ℤ) :
    (VirtualKeyboard.write ok key value).1.filter (fun event => event.key = key) =
      if ok = true then [⟨key, value⟩] else [] := by
  cases ok <;> simp [VirtualKeyboard.write]

lemma filter_write_other (ok : Bool) {key other : SystemKey} (h : other ≠ key) (value : ℤ) :
    (VirtualKeyboard.write ok key value).1.filter (fun event => event.key = other) = [] := by
  cases ok <;> simp [VirtualKeyboard.write, Ne.symm h]

/-- The events of one key in the loop of `release_all`. -/
lemma filter_releaseKeys (ok : SystemKey → Bool) {keys : List SystemKey} (h : keys.Nodup)
    (key : SystemKey) :
    (VirtualKeyboard.releaseKeys ok keys).1.filter (fun event => event.key = key) =
      if key ∈ keys.takeWhile ok then [⟨key, 0⟩] else [] := by
  have htake : (keys.takeWhile ok).Nodup := h.sublist (List.takeWhile_sublist ok)
  have hkeys : (keys.takeWhile ok).filter (fun k => decide (k = key)) =
      if key ∈ keys.takeWhile ok then [key] else [] := by
    rw [List.filter_eq, htake.count]
    split_ifs <;> rfl
  rw [VirtualKeyboard.releaseKeys_delivered, List.filter_map]
  show (List.filter (fun k => decide (k = key)) (keys.takeWhile ok)).map _ = _
  rw [hkeys]
  split_ifs <;> rfl

/-- A call that emits a key leaves the other keys sound. -/
lemma sound_emit_other {s : KeyboardRun} {key other : SystemKey} (h : other ≠ key)
    (hs : Sound s other) (phase : KeyPhase) (ok : Bool) :
    Sound (s.step (.emit key phase ok)) other := by
  refine sound_of_other hs ?_ ?_
  · rw [eventsOf_step, List.append_right_eq_self]
    cases phase <;> simp only [VirtualKeyboard.perform, VirtualKeyboard.emit] <;> split_ifs <;>
      first | exact filter_write_other ok h _ | rfl
  · cases phase <;>
      simp only [step, VirtualKeyboard.perform, VirtualKeyboard.emit] <;> split_ifs <;>
      simp [h]

/-- What the call must meet for the key that it emits. -/
lemma sound_emit_self {s : KeyboardRun} {key : SystemKey} (hs : Sound s key) (phase : KeyPhase)
    (ok : Bool) :
    Sound (s.step (.emit key phase ok)) key ↔ s.InStep (.emit key phase ok) := by
  have hevents := eventsOf_step s (.emit key phase ok) key
  by_cases hin : key ∈ s.keyboard.pressed
  · have hcontains : s.keyboard.pressed.contains key = true := BTreeSet.contains_iff.2 hin
    cases phase with
    | pressed =>
      refine iff_of_true (sound_of_other hs ?_ ?_) trivial
      · simpa [VirtualKeyboard.perform, VirtualKeyboard.emit, hcontains] using hevents
      · simp [step, VirtualKeyboard.perform, VirtualKeyboard.emit, hcontains]
    | repeats =>
      simp only [VirtualKeyboard.perform, VirtualKeyboard.emit, hcontains, if_true,
        filter_write_self] at hevents
      have htracked : key ∈ (s.step (.emit key .repeats ok)).keyboard.pressed := by
        simpa [step, VirtualKeyboard.perform, VirtualKeyboard.emit, hcontains] using hin
      cases ok with
      | true =>
        rw [sound_of_event hs hevents]
        simp [InStep, hin, htracked, KernelEvent.role]
      | false =>
        rw [sound_of_silent hs (by simpa using hevents)]
        simp [InStep, htracked]
    | released =>
      simp only [VirtualKeyboard.perform, VirtualKeyboard.emit, hcontains, if_true,
        filter_write_self] at hevents
      have hforgotten : key ∉ (s.step (.emit key .released ok)).keyboard.pressed := by
        simp [step, VirtualKeyboard.perform, VirtualKeyboard.emit, hcontains]
      rw [sound_of_release hs hforgotten hevents, InStep]
      exact ⟨fun h _ => h, fun h => h hin⟩
  · -- the key is up, so that only a press is written
    have hcontains : s.keyboard.pressed.contains key = false := by
      simpa [← Bool.not_eq_true] using hin
    have hup : ¬ s.Held key := fun h => hin (hs.1 h)
    cases phase with
    | pressed =>
      simp only [VirtualKeyboard.perform, VirtualKeyboard.emit, hcontains, Bool.false_eq_true,
        if_false, filter_write_self] at hevents
      have htracked : key ∈ (s.step (.emit key .pressed ok)).keyboard.pressed := by
        simp [step, VirtualKeyboard.perform, VirtualKeyboard.emit, hcontains]
      cases ok with
      | true =>
        rw [sound_of_event hs hevents]
        simp [InStep, htracked, hup, KernelEvent.role]
      | false =>
        rw [sound_of_silent hs (by simpa using hevents)]
        simp [InStep, htracked]
    | repeats =>
      refine iff_of_true (sound_of_other hs ?_ ?_) fun h => absurd h hin
      · simpa [VirtualKeyboard.perform, VirtualKeyboard.emit, hcontains] using hevents
      · simp [step, VirtualKeyboard.perform, VirtualKeyboard.emit, hcontains]
    | released =>
      refine iff_of_true (sound_of_other hs ?_ ?_) fun h => absurd h hin
      · simpa [VirtualKeyboard.perform, VirtualKeyboard.emit, hcontains] using hevents
      · simp [step, VirtualKeyboard.perform, VirtualKeyboard.emit, hcontains]

/-- What `release_all` must meet for each key. -/
lemma sound_releaseAll {s : KeyboardRun} {key : SystemKey} (hs : Sound s key)
    (ok : SystemKey → Bool) :
    Sound (s.step (.releaseAll ok)) key ↔ (key ∈ s.keyboard.pressed →
      (key ∈ s.keyboard.pressed.toList.takeWhile ok ↔ s.Held key)) := by
  have hnodup : s.keyboard.pressed.toList.Nodup := s.keyboard.pressed.sorted.imp fun h => h.ne
  have hevents := eventsOf_step s (.releaseAll ok) key
  simp only [VirtualKeyboard.perform, VirtualKeyboard.releaseAll,
    filter_releaseKeys ok hnodup] at hevents
  have hforgotten : key ∉ (s.step (.releaseAll ok)).keyboard.pressed := by
    simp [step, VirtualKeyboard.perform, VirtualKeyboard.releaseAll]
  rw [sound_of_release hs hforgotten hevents]
  by_cases hin : key ∈ s.keyboard.pressed
  · simp [hin]
  · -- a key that is not tracked is up and not written
    have hup : ¬ s.Held key := fun h => hin (hs.1 h)
    have hnot : key ∉ s.keyboard.pressed.toList.takeWhile ok := fun h =>
      hin ((List.takeWhile_sublist ok).subset h)
    simp [hin, hup, hnot]

/-- A call keeps the keyboard lawful exactly if its writes come out in step. -/
lemma lawful_step {s : KeyboardRun} (h : Lawful s) (call : VirtualKeyboard.Call) :
    Lawful (s.step call) ↔ s.InStep call := by
  rw [lawful_iff_sound] at h ⊢
  cases call with
  | emit key phase ok =>
    constructor
    · intro hall
      exact (sound_emit_self (h key) phase ok).1 (hall key)
    · intro hstep other
      by_cases hother : other = key
      · rw [hother]
        exact (sound_emit_self (h key) phase ok).2 hstep
      · exact sound_emit_other hother (h other) phase ok
  | releaseAll ok => exact forall_congr' fun key => sound_releaseAll (h key) ok

lemma lawful_new : Lawful new where
  tracked := by simp [Held, eventsOf, new]
  released := by simp [Held, eventsOf, new]
  episodes := fun _ => ⟨false, [], [], rfl, by simp, rfl⟩

/-- The run after a list of calls. -/
def after (calls : List VirtualKeyboard.Call) : KeyboardRun := run step new calls

/-- No key is forgotten in any state of a run exactly if every write of the run comes out in
step: no release of a key that is down fails or is skipped, and no event of a key whose
press failed is delivered. -/
theorem lawful_iff_inStep (calls : List VirtualKeyboard.Call) :
    (∀ front, front <+: calls → Lawful (after front)) ↔ Meets step InStep new calls :=
  forall_prefix_iff_meets (P := Lawful) (fun _ call h => lawful_step h call) lawful_new calls

/-- A press is delivered and the release that follows fails: the key is down and nothing
will release it. -/
theorem not_lawful_failed_release :
    ¬ ∀ calls : List VirtualKeyboard.Call, Lawful (after calls) := by
  intro h
  have hlawful := h [.emit .f1 .pressed true, .emit .f1 .released false]
  have hdown := hlawful.tracked .f1 (by decide)
  rw [← BTreeSet.contains_iff] at hdown
  exact absurd hdown (by decide)

end KeyboardRun

end TouchBar.Hardware
