import TouchBar.Hardware.Events
import TouchBar.Lib.Lists

/-!
# Decoding the touch device

The kernel reports touches in slots.  A tracking id that is set in a slot starts a
contact, a negative one ends it, and what happens between two reports is one frame.
`TouchInput` keeps one pending phase for each slot and sends it at the report.  A slot
whose id changes twice in a frame has only one phase to tell of both: an id that is set
and cleared in one frame gives an `Up` without a `Down`, and an id that is replaced never
ends.  `FrameOk` is what a slot must meet at the end of a frame, and
`lawful_iff_framesOk` says that the touches are well formed exactly if all frames do.
-/

namespace TouchBar.Hardware

open Lib

/-- `LinuxInputEvent`, without its time. -/
structure LinuxInputEvent where
  kind : ℕ
  code : ℕ
  value : ℤ
  deriving DecidableEq, Repr

/-- `EV_SYN`. -/
def evSyn : ℕ := 0

/-- `EV_ABS`. -/
def evAbs : ℕ := 3

/-- `SYN_REPORT`. -/
def synReport : ℕ := 0

/-- `SYN_DROPPED`. -/
def synDropped : ℕ := 3

/-- `ABS_MT_SLOT`. -/
def absMtSlot : ℕ := 0x2f

/-- `ABS_MT_POSITION_X`. -/
def absMtPositionX : ℕ := 0x35

/-- `ABS_MT_POSITION_Y`. -/
def absMtPositionY : ℕ := 0x36

/-- `ABS_MT_TRACKING_ID`. -/
def absMtTrackingId : ℕ := 0x39

/-- `TouchSlot`. -/
structure TouchSlot where
  contactId : Option ℕ
  x : ℤ
  y : ℤ
  pending : Option TouchPhase
  deriving DecidableEq, Repr

namespace TouchSlot

/-- `TouchSlot::default()`. -/
def default : TouchSlot := ⟨none, 0, 0, none⟩

/-- A position event after the position has been stored. -/
def moved (slot : TouchSlot) : TouchSlot :=
  if slot.contactId.isSome ∧ slot.pending = none then { slot with pending := some .motion }
  else slot

/-- The event `ABS_MT_TRACKING_ID`. -/
def track (slot : TouchSlot) (value : ℤ) : TouchSlot :=
  if value < 0 then
    if slot.contactId.isSome then { slot with pending := some .up } else slot
  else { slot with contactId := some value.toNat, pending := some .down }

/-- The body of the loop of `flush_frame`: the slot after the frame, and its touch. -/
def flush (transform : ℤ → ℤ → ℤ × ℤ) (timeMs : ℕ) (slot : TouchSlot) :
    TouchSlot × Option TouchEvent :=
  match slot.pending with
  | none => (slot, none)
  | some phase =>
    match slot.contactId with
    | none => ({ slot with pending := none }, none)
    | some contactId =>
      let (x, y) := transform slot.x slot.y
      ({ slot with
          pending := none
          contactId := if phase = .up then none else some contactId },
        some ⟨phase, contactId, timeMs, x, y⟩)

/-- The body of the loop of `cancel_all`. -/
def cancel (transform : ℤ → ℤ → ℤ × ℤ) (timeMs : ℕ) (slot : TouchSlot) :
    TouchSlot × Option TouchEvent :=
  match slot.contactId with
  | none => (slot, none)
  | some contactId =>
    let (x, y) := transform slot.x slot.y
    ({ slot with pending := none, contactId := none }, some ⟨.cancel, contactId, timeMs, x, y⟩)

end TouchSlot

/-- The part of `TouchInput` that decodes. -/
structure TouchInput where
  currentSlot : ℕ
  slots : List TouchSlot
  current_lt : currentSlot < slots.length

namespace TouchInput

/-- The decoder as `open` makes it, for a device with slots. -/
def new (slotCount : ℕ) (h : 0 < slotCount) : TouchInput where
  currentSlot := 0
  slots := List.replicate slotCount .default
  current_lt := by simpa using h

/-- A change of the current slot. -/
def modifyCurrent (input : TouchInput) (f : TouchSlot → TouchSlot) : TouchInput where
  currentSlot := input.currentSlot
  slots := input.slots.modify input.currentSlot f
  current_lt := by simpa using input.current_lt

/-- The loops of `flush_frame` and `cancel_all`. -/
def endFrame (input : TouchInput) (f : TouchSlot → TouchSlot × Option TouchEvent) :
    TouchInput × List TouchEvent :=
  (⟨input.currentSlot, input.slots.map fun slot => (f slot).1, by simpa using input.current_lt⟩,
    input.slots.filterMap fun slot => (f slot).2)

/-- `process_event`, at the time at which it is called. -/
def processEvent (transform : ℤ → ℤ → ℤ × ℤ) (input : TouchInput) (event : LinuxInputEvent)
    (timeMs : ℕ) : TouchInput × List TouchEvent :=
  if event.kind = evAbs ∧ event.code = absMtSlot then
    if h : 0 ≤ event.value ∧ event.value.toNat < input.slots.length then
      (⟨event.value.toNat, input.slots, h.2⟩, [])
    else (input, [])
  else if event.kind = evAbs ∧ event.code = absMtTrackingId then
    (input.modifyCurrent fun slot => slot.track event.value, [])
  else if event.kind = evAbs ∧ event.code = absMtPositionX then
    (input.modifyCurrent fun slot => { slot with x := event.value }.moved, [])
  else if event.kind = evAbs ∧ event.code = absMtPositionY then
    (input.modifyCurrent fun slot => { slot with y := event.value }.moved, [])
  else if event.kind = evSyn ∧ event.code = synReport then
    input.endFrame (TouchSlot.flush transform timeMs)
  else if event.kind = evSyn ∧ event.code = synDropped then
    input.endFrame (TouchSlot.cancel transform timeMs)
  else (input, [])

end TouchInput

/-- The decoder, the ids that its slots held when the last frame ended, and the touches that
it has sent. -/
structure TouchRun where
  input : TouchInput
  frameStart : ℕ → Option ℕ
  output : List TouchEvent

namespace TouchRun

variable (transform : ℤ → ℤ → ℤ × ℤ)

/-- The id that a slot holds. -/
def contact (input : TouchInput) (i : ℕ) : Option ℕ := input.slots[i]?.bind TouchSlot.contactId

/-- A decoder that has read nothing. -/
def new (slotCount : ℕ) (h : 0 < slotCount) : TouchRun := ⟨.new slotCount h, fun _ => none, []⟩

/-- The event ends a frame. -/
def endsFrame (event : LinuxInputEvent) : Bool :=
  event.kind = evSyn && (event.code = synReport || event.code = synDropped)

/-- An event is read, with the time of the service. -/
def step (s : TouchRun) (event : LinuxInputEvent × ℕ) : TouchRun :=
  let (input, touches) := s.input.processEvent transform event.1 event.2
  { input := input
    frameStart := if endsFrame event.1 then contact input else s.frameStart
    output := s.output ++ touches }

/-- The run after a list of events. -/
def after (slotCount : ℕ) (h : 0 < slotCount) (events : List (LinuxInputEvent × ℕ)) : TouchRun :=
  run (step transform) (new slotCount h) events

/-- The touches of a contact. -/
def touchesOf (s : TouchRun) (id : ℕ) : List TouchEvent := s.output.filter (·.contactId = id)

/-- The touches are well formed, and a contact is unfinished exactly if a slot held it when
the last frame ended. -/
structure Lawful (s : TouchRun) : Prop where
  episodes : ∀ id, ∃ unfinished, Episodes TouchEvent.role unfinished (s.touchesOf id)
  unfinished : ∀ id, (∃ e ∈ (s.touchesOf id).getLast?, e.role ≠ .closes) ↔
    ∃ i, s.frameStart i = some id

/-- In this frame the slot has held the id. -/
def Uses (s : TouchRun) (i id : ℕ) : Prop :=
  s.frameStart i = some id ∨ contact s.input i = some id

/-- A tracking id tells one contact: it is not set in a slot while another slot has it in
the same frame. -/
def Valid (s : TouchRun) (event : LinuxInputEvent × ℕ) : Prop :=
  event.1.kind = evAbs → event.1.code = absMtTrackingId → 0 ≤ event.1.value →
    ∀ i, i ≠ s.input.currentSlot → ¬ s.Uses i event.1.value.toNat

/-- At a report, a slot whose last change was a new id was free when the frame started, and
any other slot has the id that it had then. -/
def FlushOk (start : Option ℕ) (slot : TouchSlot) : Prop :=
  if slot.pending = some .down ∧ slot.contactId.isSome then start = none
  else start = slot.contactId

instance (start : Option ℕ) (slot : TouchSlot) : Decidable (FlushOk start slot) := by
  unfold FlushOk
  infer_instance

/-- What the slots must meet where a frame ends; where events were dropped, each slot has
the id that it had when the frame started. -/
def FrameOk (s : TouchRun) (event : LinuxInputEvent × ℕ) : Prop :=
  event.1.kind = evSyn →
    (event.1.code = synReport →
      ∀ i, ∀ slot ∈ s.input.slots[i]?, FlushOk (s.frameStart i) slot) ∧
    (event.1.code = synDropped →
      ∀ i, ∀ slot ∈ s.input.slots[i]?, s.frameStart i = slot.contactId)

/-! ## One slot -/

section Slot

variable {transform} {start : Option ℕ} {slot : TouchSlot} {timeMs : ℕ}

/-- What the end of a frame must do to a slot: for each id, the touch leads from whether the
slot held it to whether it holds it now. -/
def SlotLaw (start : Option ℕ) (result : TouchSlot × Option TouchEvent) (id : ℕ) : Prop :=
  follow TouchEvent.role (decide (start = some id))
    (result.2.toList.filter (·.contactId = id)) = some (decide (result.1.contactId = some id))

/-- A slot that sends nothing must keep its id. -/
lemma slotLaw_silent {result : TouchSlot} (h : result.contactId = slot.contactId) :
    (∀ id, start = some id ∨ slot.contactId = some id → SlotLaw start (result, none) id) ↔
      start = slot.contactId := by
  simp only [SlotLaw, Option.toList_none, List.filter_nil, follow_nil, h, Option.some.injEq,
    decide_eq_decide]
  constructor
  · intro hall
    cases start with
    | none =>
      cases hc : slot.contactId with
      | none => rfl
      | some c => simpa using (hall c (.inr hc)).2 hc
    | some a => exact ((hall a (.inl rfl)).1 rfl).symm
  · rintro rfl id _
    exact Iff.rfl

/-- A slot that sends a touch of its id must have been free if the touch opens a contact,
and must have had the id if not. -/
lemma slotLaw_touch {c : ℕ} (hc : slot.contactId = some c) {event : TouchEvent}
    (hevent : event.contactId = c) {result : TouchSlot}
    (hresult : result.contactId = if event.role = .closes then none else some c) :
    (∀ id, start = some id ∨ slot.contactId = some id → SlotLaw start (result, some event) id) ↔
      if event.role = .opens then start = none else start = slot.contactId := by
  have hself : SlotLaw start (result, some event) c ↔
      event.role.next (decide (start = some c)) = some (decide (event.role ≠ .closes)) := by
    have hcontact : result.contactId = some c ↔ event.role ≠ .closes := by
      rw [hresult]
      split_ifs with h <;> simp [h]
    simp [SlotLaw, hevent, follow_singleton, hcontact]
  have hother : ∀ id, id ≠ c → (SlotLaw start (result, some event) id ↔ start ≠ some id) := by
    intro id hid
    have hcontact : result.contactId ≠ some id := by
      rw [hresult]
      split_ifs <;> simp [Ne.symm hid]
    simp [SlotLaw, hevent, Ne.symm hid, hcontact]
  have hall : (∀ id, start = some id ∨ slot.contactId = some id →
      SlotLaw start (result, some event) id) ↔
      event.role.next (decide (start = some c)) = some (decide (event.role ≠ .closes)) ∧
        ∀ a, start = some a → a = c := by
    constructor
    · intro h
      refine ⟨hself.1 (h c (.inr hc)), fun a ha => ?_⟩
      by_contra hne
      exact (hother a hne).1 (h a (.inl ha)) ha
    · rintro ⟨hnext, hstart⟩ id hid
      by_cases hidc : id = c
      · rw [hidc]
        exact hself.2 hnext
      · exact (hother id hidc).2 fun h => hidc (hstart id h)
  rw [hall, hc]
  cases start with
  | none => cases event.role <;> simp [Role.next]
  | some a => by_cases ha : a = c <;> cases event.role <;> simp [Role.next, ha]

lemma flush_slotLaw (hcancel : slot.pending ≠ some .cancel) :
    (∀ id, start = some id ∨ slot.contactId = some id →
      SlotLaw start (slot.flush transform timeMs) id) ↔ FlushOk start slot := by
  rw [FlushOk]
  cases hpending : slot.pending with
  | none =>
    rw [TouchSlot.flush, hpending]
    simpa using slotLaw_silent rfl
  | some phase =>
    cases hc : slot.contactId with
    | none =>
      rw [TouchSlot.flush, hpending, hc]
      have hkept : (⟨none, slot.x, slot.y, none⟩ : TouchSlot).contactId = slot.contactId := hc.symm
      have hsilent := @slotLaw_silent start slot _ hkept
      simpa [hc] using hsilent
    | some c =>
      let event : TouchEvent :=
        ⟨phase, c, timeMs, (transform slot.x slot.y).1, (transform slot.x slot.y).2⟩
      let result : TouchSlot :=
        ⟨if phase = .up then none else some c, slot.x, slot.y, none⟩
      have hval : slot.flush transform timeMs = (result, some event) := by
        rw [TouchSlot.flush, hpending, hc]
      have hresult : result.contactId = if event.role = .closes then none else some c := by
        rw [hpending] at hcancel
        cases phase <;> first | rfl | exact absurd rfl hcancel
      have hrole : event.role = .opens ↔ phase = .down := by
        cases phase <;> simp [event, TouchEvent.role]
      rw [hval, ← hc, slotLaw_touch hc rfl hresult, hc]
      simp [hrole]

lemma cancel_slotLaw :
    (∀ id, start = some id ∨ slot.contactId = some id →
      SlotLaw start (slot.cancel transform timeMs) id) ↔ start = slot.contactId := by
  cases hc : slot.contactId with
  | none =>
    rw [TouchSlot.cancel, hc]
    simpa [hc] using @slotLaw_silent start slot slot rfl
  | some c =>
    let event : TouchEvent :=
      ⟨.cancel, c, timeMs, (transform slot.x slot.y).1, (transform slot.x slot.y).2⟩
    let result : TouchSlot := ⟨none, slot.x, slot.y, none⟩
    have hval : slot.cancel transform timeMs = (result, some event) := by
      rw [TouchSlot.cancel, hc]
    have hclosed : result.contactId = if event.role = .closes then none else some c := rfl
    have hcontact : event.contactId = c := rfl
    rw [hval, ← hc, slotLaw_touch hc hcontact hclosed, hc]
    exact Iff.rfl

end Slot

/-! ## One frame -/

section Frame

variable {transform} {s : TouchRun}

lemma lawful_iff : Lawful s ↔ ∀ id, ∃ b,
    follow TouchEvent.role false (s.touchesOf id) = some b ∧
      (b = true ↔ ∃ i, s.frameStart i = some id) := by
  constructor
  · intro h id
    obtain ⟨b, hb⟩ := h.episodes id
    have hfollow := follow_eq_some_iff.2 hb
    exact ⟨b, hfollow, (follow_getLast? hfollow).trans (h.unfinished id)⟩
  · intro h
    refine ⟨fun id => ?_, fun id => ?_⟩
    · obtain ⟨b, hb, -⟩ := h id
      exact ⟨b, follow_eq_some_iff.1 hb⟩
    · obtain ⟨b, hb, hstart⟩ := h id
      exact (follow_getLast? hb).symm.trans hstart

/-- What holds in every run whose tracking ids tell one contact each. -/
structure Sound (s : TouchRun) : Prop where
  lawful : Lawful s
  distinct : ∀ i j id, s.Uses i id → s.Uses j id → i = j
  outside : ∀ i, s.input.slots.length ≤ i → s.frameStart i = none
  pending : ∀ slot ∈ s.input.slots, slot.pending ≠ some .cancel

/-- The run after the end of a frame. -/
def endFrame (s : TouchRun) (f : TouchSlot → TouchSlot × Option TouchEvent) : TouchRun where
  input := (s.input.endFrame f).1
  frameStart := contact (s.input.endFrame f).1
  output := s.output ++ (s.input.endFrame f).2

/-- What both loops over the slots have in common. -/
structure EndsFrame (f : TouchSlot → TouchSlot × Option TouchEvent) : Prop where
  contact : ∀ slot id, (f slot).1.contactId = some id → slot.contactId = some id
  touch : ∀ slot event, (f slot).2 = some event → slot.contactId = some event.contactId
  pending : ∀ slot, slot.pending ≠ some .cancel → (f slot).1.pending ≠ some .cancel

lemma frameStart_endFrame (s : TouchRun) (f : TouchSlot → TouchSlot × Option TouchEvent)
    (i : ℕ) : (s.endFrame f).frameStart i =
      s.input.slots[i]?.bind fun slot => (f slot).1.contactId := by
  show contact (s.input.endFrame f).1 i = _
  rw [contact, TouchInput.endFrame, List.getElem?_map, Option.bind_map]
  rfl

/-- An id is used by one slot only, or by none. -/
lemma Sound.exists_only (h : Sound s) (id : ℕ) : ∃ i, ∀ j, j ≠ i → ¬ s.Uses j id := by
  by_cases hex : ∃ i, s.Uses i id
  · obtain ⟨i, hi⟩ := hex
    exact ⟨i, fun j hj hused => hj (h.distinct j i id hused hi)⟩
  · exact ⟨0, fun j _ hused => hex ⟨j, hused⟩⟩

/-- The law of one id at the end of a frame is the law of the slot that uses it. -/
lemma law_iff_slotLaw (h : Sound s) {f : TouchSlot → TouchSlot × Option TouchEvent}
    (hf : EndsFrame f) {i id : ℕ} (honly : ∀ j, j ≠ i → ¬ s.Uses j id) :
    (∃ b, follow TouchEvent.role false ((s.endFrame f).touchesOf id) = some b ∧
      (b = true ↔ ∃ j, (s.endFrame f).frameStart j = some id)) ↔
    ∀ slot ∈ s.input.slots[i]?, SlotLaw (s.frameStart i) (f slot) id := by
  obtain ⟨b, hb, hstart⟩ := lawful_iff.1 h.lawful id
  have hb' : b = decide (s.frameStart i = some id) := by
    rw [Bool.eq_iff_iff, hstart, decide_eq_true_eq]
    constructor
    · rintro ⟨j, hj⟩
      by_cases hji : j = i
      · exact hji ▸ hj
      · exact absurd (.inl hj) (honly j hji)
    · exact fun hi => ⟨i, hi⟩
  have hout : (s.input.slots.filterMap fun slot => (f slot).2).filter (·.contactId = id) =
      (s.input.slots[i]?.bind fun slot => (f slot).2).toList.filter (·.contactId = id) := by
    refine filter_filterMap_only fun j hj slot hslot event hevent => ?_
    rw [decide_eq_false_iff_not]
    rintro rfl
    refine honly j hj (.inr ?_)
    rw [contact, Option.mem_def.1 hslot]
    exact hf.touch slot event hevent
  have hend : (∃ j, (s.endFrame f).frameStart j = some id) ↔
      (s.endFrame f).frameStart i = some id := by
    constructor
    · rintro ⟨j, hj⟩
      by_cases hji : j = i
      · exact hji ▸ hj
      · refine absurd (.inr ?_) (honly j hji)
        rw [frameStart_endFrame, Option.bind_eq_some_iff] at hj
        obtain ⟨slot, hslot, hid⟩ := hj
        rw [contact, hslot]
        exact hf.contact slot id hid
    · exact fun hi => ⟨i, hi⟩
  have htouches : (s.endFrame f).touchesOf id = s.touchesOf id ++
      (s.input.slots[i]?.bind fun slot => (f slot).2).toList.filter (·.contactId = id) := by
    rw [touchesOf, endFrame, List.filter_append, ← hout]
    rfl
  rw [hend, htouches]
  simp only [follow_append, hb, Option.bind_some]
  rw [frameStart_endFrame]
  cases hslot : s.input.slots[i]? with
  | none =>
    have hnone := h.outside i (List.getElem?_eq_none_iff.1 hslot)
    simp [hb', hnone]
  | some slot =>
    simp only [Option.bind_some, Option.mem_def, Option.some.injEq, forall_eq', SlotLaw, hb']
    constructor
    · rintro ⟨c, hc, hiff⟩
      rw [hc, Option.some.injEq, Bool.eq_iff_iff, hiff, decide_eq_true_eq]
    · exact fun hlaw => ⟨_, hlaw, by simp⟩

lemma slotLaw_of_unused {f : TouchSlot → TouchSlot × Option TouchEvent} (hf : EndsFrame f)
    {start : Option ℕ} {slot : TouchSlot} {id : ℕ} (hstart : start ≠ some id)
    (hslot : slot.contactId ≠ some id) : SlotLaw start (f slot) id := by
  have hcontact : (f slot).1.contactId ≠ some id := fun h => hslot (hf.contact slot id h)
  have htouches : (f slot).2.toList.filter (·.contactId = id) = [] := by
    refine List.filter_eq_nil_iff.2 fun event hevent => ?_
    rw [decide_eq_true_eq]
    rintro rfl
    exact hslot (hf.touch slot event (Option.mem_toList.1 hevent))
  rw [SlotLaw, htouches, follow_nil, decide_eq_false hstart, decide_eq_false hcontact]

/-- The end of a frame is lawful exactly if it is for each slot and the ids it has used. -/
lemma lawful_endFrame (h : Sound s) {f : TouchSlot → TouchSlot × Option TouchEvent}
    (hf : EndsFrame f) :
    Lawful (s.endFrame f) ↔ ∀ i, ∀ slot ∈ s.input.slots[i]?, ∀ id,
      s.frameStart i = some id ∨ slot.contactId = some id →
        SlotLaw (s.frameStart i) (f slot) id := by
  rw [lawful_iff]
  constructor
  · intro hlaw i slot hslot id hused
    have huses : s.Uses i id := by
      rcases hused with hstart | hid
      · exact .inl hstart
      · refine .inr ?_
        rw [contact, Option.mem_def.1 hslot]
        exact hid
    exact (law_iff_slotLaw h hf fun j hj hother => hj (h.distinct j i id hother huses)).1
      (hlaw id) slot hslot
  · intro hslots id
    obtain ⟨i, honly⟩ := h.exists_only id
    refine (law_iff_slotLaw h hf honly).2 fun slot hslot => ?_
    by_cases hused : s.frameStart i = some id ∨ slot.contactId = some id
    · exact hslots i slot hslot id hused
    · rw [not_or] at hused
      exact slotLaw_of_unused hf hused.1 hused.2

lemma sound_endFrame (h : Sound s) {f : TouchSlot → TouchSlot × Option TouchEvent}
    (hf : EndsFrame f) (hlaw : Lawful (s.endFrame f)) : Sound (s.endFrame f) where
  lawful := hlaw
  distinct := by
    have huses : ∀ i id, (s.endFrame f).Uses i id → s.Uses i id := by
      intro i id hused
      have hcontact : (s.endFrame f).frameStart i = some id :=
        hused.elim (fun h => h) fun h => h
      rw [frameStart_endFrame, Option.bind_eq_some_iff] at hcontact
      obtain ⟨slot, hslot, hid⟩ := hcontact
      refine .inr ?_
      rw [contact, hslot]
      exact hf.contact slot id hid
    exact fun i j id hi hj => h.distinct i j id (huses i id hi) (huses j id hj)
  outside := by
    intro i hi
    have hlen : s.input.slots.length ≤ i := by simpa [endFrame, TouchInput.endFrame] using hi
    rw [frameStart_endFrame, List.getElem?_eq_none_iff.2 hlen]
    rfl
  pending := by
    intro slot hslot
    obtain ⟨old, hold, rfl⟩ := List.mem_map.1 hslot
    exact hf.pending old (h.pending old hold)

lemma endsFrame_flush (timeMs : ℕ) :
    EndsFrame (TouchSlot.flush transform timeMs) where
  contact := by
    intro slot id hid
    rw [TouchSlot.flush] at hid
    cases hpending : slot.pending with
    | none => simpa [hpending] using hid
    | some phase =>
      cases hc : slot.contactId with
      | none => simp [hpending, hc] at hid
      | some c =>
        simp only [hpending, hc] at hid
        split_ifs at hid
        exact hid
  touch := by
    intro slot event hevent
    rw [TouchSlot.flush] at hevent
    cases hpending : slot.pending with
    | none => simp [hpending] at hevent
    | some phase =>
      cases hc : slot.contactId with
      | none => simp [hpending, hc] at hevent
      | some c =>
        simp only [hpending, hc, Option.some.injEq] at hevent
        rw [← hevent]
  pending := by
    intro slot hslot
    rw [TouchSlot.flush]
    cases hpending : slot.pending with
    | none => simpa using hslot
    | some phase => cases slot.contactId <;> simp

lemma endsFrame_cancel (timeMs : ℕ) : EndsFrame (TouchSlot.cancel transform timeMs) where
  contact := by
    intro slot id hid
    rw [TouchSlot.cancel] at hid
    cases hc : slot.contactId with
    | none => simp [hc] at hid
    | some c => simp [hc] at hid
  touch := by
    intro slot event hevent
    rw [TouchSlot.cancel] at hevent
    cases hc : slot.contactId with
    | none => simp [hc] at hevent
    | some c =>
      simp only [hc, Option.some.injEq] at hevent
      rw [← hevent]
  pending := by
    intro slot hslot
    rw [TouchSlot.cancel]
    cases hc : slot.contactId with
    | none => simpa [hc] using hslot
    | some c => simp

end Frame

/-! ## Inside a frame -/

section Steps

variable {transform} {s : TouchRun} {event : LinuxInputEvent} {timeMs : ℕ}

/-- The event gives its slot a new tracking id. -/
def SetsId (event : LinuxInputEvent) (id : ℕ) : Prop :=
  event.kind = evAbs ∧ event.code = absMtTrackingId ∧ 0 ≤ event.value ∧ event.value.toNat = id

/-- What an event inside a frame does to the slots: only the current one changes, and its id
only to one that the event sets. -/
structure Edits (input result : TouchInput) (event : LinuxInputEvent) : Prop where
  length : result.slots.length = input.slots.length
  contact : ∀ i id, contact result i = some id →
    contact input i = some id ∨ (i = input.currentSlot ∧ SetsId event id)
  pending : (∀ slot ∈ input.slots, slot.pending ≠ some .cancel) →
    ∀ slot ∈ result.slots, slot.pending ≠ some .cancel

lemma Edits.refl (input : TouchInput) (event : LinuxInputEvent) : Edits input input event :=
  ⟨rfl, fun _ _ h => .inl h, fun h => h⟩

lemma edits_modifyCurrent {input : TouchInput} {f : TouchSlot → TouchSlot}
    (hcontact : ∀ slot id, (f slot).contactId = some id →
      slot.contactId = some id ∨ SetsId event id)
    (hpending : ∀ slot, slot.pending ≠ some .cancel → (f slot).pending ≠ some .cancel) :
    Edits input (input.modifyCurrent f) event where
  length := List.length_modify _ _ _
  contact := by
    intro i id hid
    rw [TouchRun.contact, TouchInput.modifyCurrent, List.getElem?_modify,
      Option.bind_eq_some_iff] at hid
    obtain ⟨slot, hslot, hid⟩ := hid
    obtain ⟨old, hold, rfl⟩ := Option.map_eq_some_iff.1 hslot
    rw [TouchRun.contact, hold]
    split_ifs at hid with hi
    · exact (hcontact old id hid).imp_right fun hset => ⟨hi.symm, hset⟩
    · exact .inl hid
  pending := by
    intro hall slot hslot
    obtain ⟨i, hi⟩ := List.mem_iff_getElem?.1 hslot
    rw [TouchInput.modifyCurrent, List.getElem?_modify] at hi
    obtain ⟨old, hold, rfl⟩ := Option.map_eq_some_iff.1 hi
    have hmem := hall old (List.mem_of_getElem? hold)
    split_ifs
    · exact hpending old hmem
    · exact hmem

lemma moved_contactId (slot : TouchSlot) : slot.moved.contactId = slot.contactId := by
  rw [TouchSlot.moved]
  split_ifs <;> rfl

lemma moved_pending {slot : TouchSlot} (h : slot.pending ≠ some .cancel) :
    slot.moved.pending ≠ some .cancel := by
  rw [TouchSlot.moved]
  split_ifs
  · simp
  · exact h

/-- An event inside a frame edits the slots and sends nothing. -/
lemma processEvent_edits (input : TouchInput) (h : endsFrame event = false) :
    Edits input (input.processEvent transform event timeMs).1 event ∧
      (input.processEvent transform event timeMs).2 = [] := by
  have hsyn : ¬ (event.kind = evSyn ∧ event.code = synReport) ∧
      ¬ (event.kind = evSyn ∧ event.code = synDropped) := by
    rw [endsFrame] at h
    constructor <;> rintro ⟨hkind, hcode⟩ <;> simp [hkind, hcode] at h
  rw [TouchInput.processEvent]
  split_ifs with hslot hin htrack hx hy hreport hdropped
  · exact ⟨⟨rfl, fun _ _ h => .inl h, fun h => h⟩, rfl⟩
  · exact ⟨.refl input event, rfl⟩
  · refine ⟨edits_modifyCurrent (fun slot id hid => ?_) fun slot hpending => ?_, rfl⟩
    · rw [TouchSlot.track] at hid
      split_ifs at hid with hneg
      · exact .inl hid
      · exact .inl hid
      · exact .inr ⟨htrack.1, htrack.2, not_lt.1 hneg, Option.some.inj hid⟩
    · rw [TouchSlot.track]
      split_ifs <;> simp [hpending]
  · refine ⟨edits_modifyCurrent (fun slot id hid => ?_) fun slot hpending => ?_, rfl⟩
    · rw [moved_contactId] at hid
      exact .inl hid
    · exact moved_pending hpending
  · refine ⟨edits_modifyCurrent (fun slot id hid => ?_) fun slot hpending => ?_, rfl⟩
    · rw [moved_contactId] at hid
      exact .inl hid
    · exact moved_pending hpending
  · exact absurd hreport hsyn.1
  · exact absurd hdropped hsyn.2
  · exact ⟨.refl input event, rfl⟩

/-- Inside a frame nothing is sent, and the slots keep different ids. -/
lemma sound_inside (h : Sound s) (hv : Valid s (event, timeMs)) (hframe : endsFrame event = false) :
    Sound (s.step transform (event, timeMs)) := by
  obtain ⟨hedits, hsilent⟩ : Edits s.input (s.input.processEvent transform event timeMs).1 event ∧
      (s.input.processEvent transform event timeMs).2 = [] := processEvent_edits s.input hframe
  have hstart : (s.step transform (event, timeMs)).frameStart = s.frameStart := by
    simp [step, hframe]
  have houtput : (s.step transform (event, timeMs)).output = s.output := by
    simp [step, hsilent]
  have htouches : ∀ id, (s.step transform (event, timeMs)).touchesOf id = s.touchesOf id :=
    fun id => by rw [touchesOf, houtput, touchesOf]
  have huses : ∀ i id, (s.step transform (event, timeMs)).Uses i id →
      s.Uses i id ∨ (i = s.input.currentSlot ∧ SetsId event id) := by
    rintro i id (hused | hused)
    · rw [hstart] at hused
      exact .inl (.inl hused)
    · exact (hedits.contact i id hused).imp_left .inr
  constructor
  case lawful =>
    refine ⟨fun id => ?_, fun id => ?_⟩
    · rw [htouches]
      exact h.lawful.episodes id
    · rw [htouches, hstart]
      exact h.lawful.unfinished id
  case distinct =>
    intro i j id hi hj
    rcases huses i id hi with hold | ⟨hcurrent, hset⟩ <;>
      rcases huses j id hj with hold' | ⟨hcurrent', hset'⟩
    · exact h.distinct i j id hold hold'
    · -- the new id is not one that another slot has used
      by_contra hne
      obtain ⟨hkind, hcode, hvalue, rfl⟩ := hset'
      exact hv hkind hcode hvalue i (hcurrent' ▸ hne) hold
    · by_contra hne
      obtain ⟨hkind, hcode, hvalue, rfl⟩ := hset
      exact hv hkind hcode hvalue j (hcurrent ▸ Ne.symm hne) hold'
    · rw [hcurrent, hcurrent']
  case outside =>
    intro i hi
    rw [hstart]
    refine h.outside i ?_
    rw [← hedits.length]
    exact hi
  case pending => exact hedits.pending h.pending

/-- A report ends the frame with `flush_frame`. -/
lemma step_report (hkind : event.kind = evSyn) (hcode : event.code = synReport) :
    s.step transform (event, timeMs) = s.endFrame (TouchSlot.flush transform timeMs) := by
  simp [step, TouchInput.processEvent, endsFrame, hkind, hcode, evSyn, evAbs, endFrame]

/-- Dropped events end the frame with `cancel_all`. -/
lemma step_dropped (hkind : event.kind = evSyn) (hcode : event.code = synDropped) :
    s.step transform (event, timeMs) = s.endFrame (TouchSlot.cancel transform timeMs) := by
  simp [step, TouchInput.processEvent, endsFrame, hkind, hcode, evSyn, evAbs, synDropped,
    synReport, endFrame]

/-- A step keeps the run lawful exactly if the frame that it ends, if any, is in order. -/
lemma lawful_step (h : Sound s) (hv : Valid s (event, timeMs)) :
    Lawful (s.step transform (event, timeMs)) ↔ s.FrameOk (event, timeMs) := by
  by_cases hkind : event.kind = evSyn
  · by_cases hreport : event.code = synReport
    · have hne : ¬ synReport = synDropped := by decide
      rw [step_report hkind hreport, lawful_endFrame h (endsFrame_flush timeMs), FrameOk]
      simp only [hkind, hreport, hne, forall_true_left, false_imp_iff, and_true]
      refine forall_congr' fun i => forall_congr' fun slot => forall_congr' fun hslot => ?_
      exact flush_slotLaw (h.pending slot (List.mem_of_getElem? hslot))
    · by_cases hdropped : event.code = synDropped
      · have hne : ¬ synDropped = synReport := by decide
        rw [step_dropped hkind hdropped, lawful_endFrame h (endsFrame_cancel timeMs), FrameOk]
        simp only [hkind, hdropped, hne, forall_true_left, false_imp_iff, true_and]
        refine forall_congr' fun i => forall_congr' fun slot => forall_congr' fun hslot => ?_
        exact cancel_slotLaw
      · have hframe : endsFrame event = false := by simp [endsFrame, hreport, hdropped]
        refine iff_of_true (sound_inside h hv hframe).lawful fun _ => ⟨?_, ?_⟩
        · exact fun hcode => absurd hcode hreport
        · exact fun hcode => absurd hcode hdropped
  · have hframe : endsFrame event = false := by simp [endsFrame, hkind]
    exact iff_of_true (sound_inside h hv hframe).lawful fun hsyn => absurd hsyn hkind

lemma sound_step (h : Sound s) (hv : Valid s (event, timeMs)) (hok : s.FrameOk (event, timeMs)) :
    Sound (s.step transform (event, timeMs)) := by
  have hlaw : Lawful (s.step transform (event, timeMs)) := (lawful_step h hv).2 hok
  cases hframe : endsFrame event with
  | false => exact sound_inside h hv hframe
  | true =>
    rw [endsFrame, Bool.and_eq_true, Bool.or_eq_true] at hframe
    simp only [decide_eq_true_eq] at hframe
    rcases hframe with ⟨hkind, hcode | hcode⟩
    · rw [step_report hkind hcode] at hlaw ⊢
      exact sound_endFrame h (endsFrame_flush timeMs) hlaw
    · rw [step_dropped hkind hcode] at hlaw ⊢
      exact sound_endFrame h (endsFrame_cancel timeMs) hlaw

lemma sound_new (slotCount : ℕ) (hpos : 0 < slotCount) : Sound (new slotCount hpos) where
  lawful := ⟨fun id => ⟨false, [], [], rfl, by simp, rfl⟩, by simp [new, touchesOf]⟩
  distinct := by
    have hunused : ∀ i id, ¬ (new slotCount hpos).Uses i id := by
      rintro i id (h | h)
      · cases h
      · rw [contact, Option.bind_eq_some_iff] at h
        obtain ⟨slot, hslot, hid⟩ := h
        rw [new, TouchInput.new, List.getElem?_replicate] at hslot
        split_ifs at hslot
        cases hslot
        cases hid
    exact fun i j id hi => absurd hi (hunused i id)
  outside := fun _ _ => rfl
  pending := by
    intro slot hslot
    rw [List.eq_of_mem_replicate hslot]
    simp [TouchSlot.default]

end Steps

/-- If tracking ids tell one contact each, the touches are well formed in every state of a
run exactly if every frame of the run is in order. -/
theorem lawful_iff_framesOk {slotCount : ℕ} (hpos : 0 < slotCount)
    {events : List (LinuxInputEvent × ℕ)}
    (hv : Meets (step transform) Valid (new slotCount hpos) events) :
    (∀ front, front <+: events → Lawful (after transform slotCount hpos front)) ↔
      Meets (step transform) FrameOk (new slotCount hpos) events :=
  forall_prefix_iff_meets_of_invariant (P := Sound) (fun _ h => h.lawful)
    (fun _ _ h hv hok => sound_step h hv hok) (fun _ _ h hv hlaw => (lawful_step h hv).1 hlaw)
    (sound_new slotCount hpos) hv

/-- A change of the tracking id in the current slot. -/
def track (value : ℤ) : LinuxInputEvent × ℕ := (⟨evAbs, absMtTrackingId, value⟩, 0)

/-- `SYN_REPORT`. -/
def report : LinuxInputEvent × ℕ := (⟨evSyn, synReport, 0⟩, 0)

/-- On a device with one slot there is no other slot to have the id. -/
lemma valid_track {s : TouchRun} {value : ℤ} (hlen : s.input.slots.length = 1)
    (hstart : ∀ i, 1 ≤ i → s.frameStart i = none) : Valid s (track value) := by
  intro _ _ _ i hi hused
  have hcurrent := s.input.current_lt
  rcases hused with hused | hused
  · rw [hstart i (by omega)] at hused
    cases hused
  · rw [contact, List.getElem?_eq_none_iff.2 (by omega)] at hused
    cases hused

/-- A tap in two frames. -/
theorem lawful_iff_framesOk_tap :
    (∀ front, front <+: [track 17, report, track (-1), report] →
        Lawful (after Prod.mk 1 (by decide) front)) ↔
      Meets (step Prod.mk) FrameOk (new 1 (by decide)) [track 17, report, track (-1), report] := by
  refine lawful_iff_framesOk Prod.mk (by decide) ⟨?_, ?_, ?_, ?_, trivial⟩
  · exact valid_track rfl fun _ _ => rfl
  · exact fun hkind => absurd hkind (by decide)
  · refine valid_track rfl fun i hi => ?_
    show contact _ i = none
    rw [contact, List.getElem?_eq_none_iff.2]
    · rfl
    · exact hi
  · exact fun hkind => absurd hkind (by decide)

/-- An id that is set and cleared in one frame gives an `Up` without a `Down`. -/
theorem not_lawful_setAndCleared :
    ¬ ∀ (slotCount : ℕ) (hpos : 0 < slotCount) (events : List (LinuxInputEvent × ℕ)),
      Meets (step Prod.mk) Valid (new slotCount hpos) events →
        Lawful (after Prod.mk slotCount hpos events) := by
  intro h
  have hlawful := h 1 (by decide) [track 17, track (-1), report]
    ⟨valid_track rfl fun _ _ => rfl, valid_track rfl fun _ _ => rfl,
      fun hkind => absurd hkind (by decide), trivial⟩
  obtain ⟨b, hb⟩ := hlawful.episodes 17
  have htouches : (after Prod.mk 1 (by decide) [track 17, track (-1), report]).touchesOf 17 =
      [⟨.up, 17, 0, 0, 0⟩] := by
    decide
  rw [htouches, ← follow_eq_some_iff] at hb
  cases hb

end TouchRun

end TouchBar.Hardware
