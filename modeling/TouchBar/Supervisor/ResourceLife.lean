import TouchBar.Supervisor.Resources

/-!
# The life of one resource

Seen from one resource, a step of the runtime is one of a few: the resource is opened,
a producer adds an event or finishes it, the pump takes an event, reads the flag, pushes
the terminal event or removes the resource, or the host closes it.  Everything else
leaves the resource as it is.  `Life.Step` lists these steps, and
`life_step` says that every step of the runtime is one of them for each resource.
-/

namespace TouchBar.Supervisor

open TouchBar.Rust TouchBar.Lib TouchBar.Protocol Outcome

/-! ## The life and its steps -/

/-- Where the pump stands as far as one resource is concerned. -/
inductive Phase where
  | idle
  | draining
  /-- its flag is still to be read -/
  | unread
  /-- its flag was read and not set, or it is not managed -/
  | skipped
  /-- its flag was read and set -/
  | found
  /-- its terminal event was pushed -/
  | pushed
deriving DecidableEq, Repr

/-- The part of the runtime that belongs to one resource. -/
structure Life where
  opened : Bool
  managed : Bool
  finished : Bool
  terminal : Option BrokerResult
  /-- its events on the channel -/
  waiting : List BrokerResult
  phase : Phase

/-- What the next step of the pump is about to do to one resource. -/
inductive Turn where
  | drains
  | reads
  | pushes
  | other
deriving DecidableEq, Repr

/-- The steps of one resource, with the notes of it.  `full` says that the event queue is
full before the step. -/
inductive Life.Step (full : Bool) : Turn → Life → List Note → Life → Prop
  | stutter {t l} : Step full t l [] l
  | openKept {t l} : l.opened = false →
      Step full t l []
        { l with opened := true, managed := true, finished := false, terminal := none }
  | openRefused {t l} : l.opened = false →
      Step full t l [.closed] { l with opened := true, finished := false, terminal := none }
  | accept {t l} (p) : l.opened = true →
      Step full t l [.accepted p] { l with waiting := l.waiting ++ [.success p] }
  | finish {t l} (r) : l.opened = true → l.finished = false →
      Step full t l [.finished r] { l with finished := true, terminal := some r }
  | start {t l} : l.phase = .idle → Step full t l [] { l with phase := .draining }
  | drain {l} (w rest) : l.phase = .draining → l.waiting = w :: rest → l.managed = true →
      Step full .drains l [.pushed false w !full] { l with waiting := rest }
  | discard {l} (w rest) : l.phase = .draining → l.waiting = w :: rest → l.managed = false →
      Step full .drains l [] { l with waiting := rest }
  | drained {t l} : l.phase = .draining → l.waiting = [] →
      Step full t l [] { l with phase := if l.managed then .unread else .skipped }
  | read {l} : l.phase = .unread →
      Step full .reads l [] { l with phase := if l.finished then .found else .skipped }
  | push {l} : l.phase = .found →
      Step full .pushes l [.pushed true (l.terminal.getD (.error .internal)) !full]
        { l with phase := .pushed, terminal := none }
  | remove {t l} : l.phase = .pushed →
      Step full t l [] { l with managed := false, finished := true, phase := .idle }
  | leave {t l} : l.phase = .skipped → Step full t l [] { l with phase := .idle }
  | close {t l} : l.managed = true → l.phase = .idle →
      Step full t l [.closed] { l with managed := false, finished := true }
  | revoke {t l} : l.managed = true → l.phase = .idle →
      Step full t l [.pushed true (.error .denied) !full, .closed]
        { l with managed := false, finished := true }

/-! ## The life of a resource of the runtime -/

/-- The phase that the pump is in for one resource. -/
def Pump.phaseOf (id : ℕ) : Pump → Phase
  | .idle => .idle
  | .draining _ => .draining
  | .reading _ unread found =>
    if id ∈ unread then .unread else if id ∈ found then .found else .skipped
  | .terminals _ pending found =>
    if id ∈ pending then .found else if id ∈ found then .pushed else .skipped
  | .closing found => if id ∈ found then .pushed else .skipped

/-- The lists that the pump works through name managed resources, each at most once. -/
def Pump.Fits (managed : ℕ → Bool) : Pump → Prop
  | .reading _ unread found =>
    (unread ++ found).Nodup ∧ ∀ id ∈ unread ++ found, managed id = true
  | .terminals _ pending found =>
    pending.Nodup ∧ pending ⊆ found ∧ ∀ id ∈ found, managed id = true
  | .closing found => ∀ id ∈ found, managed id = true
  | _ => True

def Pending.resourceId : Pending → ℕ
  | .emitSend id _ => id
  | .bufferCheck id _ => id
  | .bufferSend id _ => id
  | .setTerminal id _ => id

/-- The next step of the thread is `try_send`. -/
def Pending.sends : Pending → Bool
  | .emitSend _ _ => true
  | .bufferSend _ _ => true
  | _ => false

/-- The notes of one resource. -/
def notesOf (id : ℕ) (notes : List (ℕ × Note)) : List Note :=
  (notes.filter fun n => n.1 = id).map Prod.snd

@[simp] lemma notesOf_nil (id : ℕ) : notesOf id [] = [] := rfl

lemma notesOf_append (id : ℕ) (l m : List (ℕ × Note)) :
    notesOf id (l ++ m) = notesOf id l ++ notesOf id m := by
  simp [notesOf]

lemma notesOf_cons_self (id : ℕ) (n : Note) (l : List (ℕ × Note)) :
    notesOf id ((id, n) :: l) = n :: notesOf id l := by
  simp [notesOf]

lemma notesOf_cons_of_ne {id i : ℕ} (h : i ≠ id) (n : Note) (l : List (ℕ × Note)) :
    notesOf id ((i, n) :: l) = notesOf id l := by
  simp [notesOf, h]

lemma mem_notesOf {id : ℕ} {n : Note} {l : List (ℕ × Note)} :
    n ∈ notesOf id l ↔ (id, n) ∈ l := by
  simp [notesOf]

namespace Runtime

variable {s : Runtime} {id i : ℕ}

/-- The part of the runtime that belongs to a resource. -/
def life (s : Runtime) (id : ℕ) : Life where
  opened := s.opened id
  managed := s.managed id
  finished := (s.cells id).finished
  terminal := (s.cells id).terminal
  waiting := (s.channel.filter fun e => e.resourceId = id).map IncomingEvent.result
  phase := s.pump.phaseOf id

/-- What the next step of the pump is about to do to a resource. -/
def pumpTurn (s : Runtime) (id : ℕ) : Pump → Turn
  | .draining _ =>
    if s.channel.head?.map IncomingEvent.resourceId = some id then .drains else .other
  | .reading _ (i :: _) _ => if i = id then .reads else .other
  | .terminals _ (i :: _) _ => if i = id then .pushes else .other
  | _ => .other

/-- What a step is about to do to a resource. -/
def turn (s : Runtime) (id : ℕ) : Action → Turn
  | .resumePump => s.pumpTurn id s.pump
  | _ => .other

/-- Managed resources and resources with a call in progress have been opened, and the
pump works through managed resources. -/
structure WellFormed (s : Runtime) : Prop where
  next_pos : 0 < s.nextResourceId
  managed_opened : ∀ id, s.managed id = true → s.opened id = true
  calls_opened : ∀ thread pending, s.calls thread = some pending →
    s.opened pending.resourceId = true
  fits : s.pump.Fits s.managed

/-! ### Managed resources -/

lemma managed_eq_true : s.managed id = true ↔ ∃ n, s.resources.get id = some n := by
  rw [managed, BTreeMap.containsKey, Option.isSome_iff_exists]

lemma managed_insert (n : ℕ) :
    (s.resources.insert i n).containsKey id = if id = i then true else s.managed id := by
  rw [BTreeMap.containsKey, BTreeMap.get_insert]
  split <;> rfl

/-- A push for a managed resource keeps the managed resources. -/
lemma managed_pushNext {n : ℕ} (h : s.resources.get i = some n) (r : BrokerResult) (g : ℕ) :
    (s.pushNext i n r g).managed = s.managed := by
  funext id
  have hins : (s.pushNext i n r g).managed id = if id = i then true else s.managed id :=
    managed_insert (U64.saturatingAdd n 1)
  rw [hins]
  split_ifs with hid
  · subst hid
    exact (managed_eq_true.mpr ⟨n, h⟩).symm
  · rfl

lemma managed_close : (s.close i).managed id = (s.managed id && id ≠ i) := by
  by_cases hm : s.managed i = true
  · have hget : (s.close i).managed id = (s.resources.remove i).containsKey id := by
      rw [close, if_pos hm]
      rfl
    rw [hget, BTreeMap.containsKey, BTreeMap.remove, BTreeMap.get_retain]
    by_cases hid : id = i <;> simp [hid, managed, BTreeMap.containsKey]
  · rw [close, if_neg hm]
    by_cases hid : id = i
    · subst hid
      simp [hm]
    · simp [hid]

/-- Closing touches nothing but the resources and their flags. -/
lemma close_frame : (s.close i).events = s.events ∧ (s.close i).channel = s.channel ∧
    (s.close i).nextResourceId = s.nextResourceId ∧ (s.close i).calls = s.calls ∧
    (s.close i).pump = s.pump := by
  rw [close]
  split_ifs <;> exact ⟨rfl, rfl, rfl, rfl, rfl⟩

lemma cells_close : (s.close i).cells id =
    if id = i ∧ s.managed i = true then { s.cells id with finished := true }
    else s.cells id := by
  rw [close]
  split_ifs with hm hc hc
  · obtain ⟨rfl, -⟩ := hc
    simp [setCells]
  · have hid : id ≠ i := fun hid => hc ⟨hid, hm⟩
    simp [setCells, hid]
  · exact absurd hc.2 hm
  · rfl

lemma closeMany_frame (ids : List ℕ) : (s.closeMany ids).events = s.events ∧
    (s.closeMany ids).channel = s.channel ∧
    (s.closeMany ids).nextResourceId = s.nextResourceId ∧
    (s.closeMany ids).calls = s.calls := by
  induction ids generalizing s with
  | nil => exact ⟨rfl, rfl, rfl, rfl⟩
  | cons i ids ih =>
    obtain ⟨he, hc, hn, hcalls, -⟩ := close_frame (s := s) (i := i)
    have h := ih (s := s.close i)
    rw [he, hc, hn, hcalls] at h
    exact h

lemma managed_closeMany (ids : List ℕ) :
    (s.closeMany ids).managed id = (s.managed id && id ∉ ids) := by
  induction ids generalizing s with
  | nil => simp [closeMany]
  | cons i ids ih =>
    rw [closeMany, List.foldl_cons]
    refine ih.trans ?_
    rw [managed_close]
    by_cases hid : id = i <;> simp [hid]

lemma cells_closeMany (ids : List ℕ) : (s.closeMany ids).cells id =
    if id ∈ ids ∧ s.managed id = true then { s.cells id with finished := true }
    else s.cells id := by
  induction ids generalizing s with
  | nil => simp [closeMany]
  | cons i ids ih =>
    rw [closeMany, List.foldl_cons]
    refine ih.trans ?_
    rw [managed_close, cells_close]
    by_cases hid : id = i
    · subst hid
      simp
    · simp [hid]

/-! ### Steps of the parts -/

@[simp] lemma opened_setCells (c : SharedCells) : (s.setCells i c).opened id = s.opened id := rfl

@[simp] lemma managed_setCells (c : SharedCells) : (s.setCells i c).managed id = s.managed id :=
  rfl

@[simp] lemma opened_send (p : List UInt8) : (s.send i p).opened id = s.opened id := rfl

@[simp] lemma managed_send (p : List UInt8) : (s.send i p).managed id = s.managed id := rfl

@[simp] lemma life_setCall (thread : ℕ) (c : Option Pending) :
    (s.setCall thread c).life id = s.life id := rfl

lemma life_setCells_self (c : SharedCells) : (s.setCells id c).life id =
    { s.life id with finished := c.finished, terminal := c.terminal } := by
  rw [life, opened_setCells, managed_setCells]
  simp [life, setCells]

lemma life_setCells_of_ne (h : id ≠ i) (c : SharedCells) :
    (s.setCells i c).life id = s.life id := by
  rw [life, opened_setCells, managed_setCells]
  simp [life, setCells, h]

lemma life_send (p : List UInt8) : (s.send i p).life id =
    if i = id then { s.life id with waiting := (s.life id).waiting ++ [.success p] }
    else s.life id := by
  rw [life, opened_send, managed_send]
  split_ifs with hi <;> simp [life, send, hi]

lemma life_pushNext {n : ℕ} (h : s.resources.get i = some n) (r : BrokerResult) (g : ℕ) :
    (s.pushNext i n r g).life id = s.life id := by
  have hm : (s.pushNext i n r g).managed id = s.managed id := by rw [managed_pushNext h]
  rw [life, hm]
  rfl

lemma life_close_self (h : s.managed id = true) :
    (s.close id).life id = { s.life id with managed := false, finished := true } := by
  rw [life, managed_close, cells_close, opened, close_frame.2.2.1, close_frame.2.1,
    close_frame.2.2.2.2]
  simp [h, life, opened]

lemma life_close_of_ne (h : id ≠ i) : (s.close i).life id = s.life id := by
  rw [life, managed_close, cells_close, opened, close_frame.2.2.1, close_frame.2.1,
    close_frame.2.2.2.2]
  simp [h, life, opened]

/-- Entering a call touches nothing but the thread and the count of dropped events. -/
lemma life_enter (thread : ℕ) (request : SinkCall) :
    (s.enter thread i request).life id = s.life id := by
  cases request with
  | emit payload slot =>
    rw [enter]
    split_ifs <;> rfl
  | emitBuffered payload slot =>
    rw [enter]
    split_ifs <;> rfl
  | complete payload =>
    rw [enter]
    split_ifs <;> rfl
  | finish code => rfl

variable {full : Bool} {t : Turn} {a : Action}

lemma life_resume (hs : s.WellFormed) {thread : ℕ} {pending : Pending}
    (hcall : s.calls thread = some pending) :
    Life.Step full t (s.life id) (notesOf id (s.resume thread pending).2)
      ((s.resume thread pending).1.life id) := by
  have hopened := hs.calls_opened thread pending hcall
  -- both kinds of emit send in the same way
  have hsend : ∀ i p, s.opened i = true →
      Life.Step full t (s.life id) (notesOf id [(i, .accepted p)])
        (((s.send i p).setCall thread none).life id) := by
    intro i p hi
    rw [life_setCall, life_send]
    split_ifs with hid
    · subst hid
      rw [notesOf_cons_self]
      exact .accept p hi
    · rw [notesOf_cons_of_ne hid]
      exact .stutter
  cases pending with
  | emitSend i p =>
    rw [resume]
    split_ifs
    · exact hsend i p hopened
    · exact .stutter
  | bufferCheck i p =>
    rw [resume]
    split_ifs <;> exact .stutter
  | bufferSend i p =>
    rw [resume]
    split_ifs
    · exact hsend i p hopened
    · exact .stutter
  | setTerminal i r =>
    rw [resume]
    split_ifs with hfin
    · exact .stutter
    · rw [life_setCall]
      by_cases hid : id = i
      · subst hid
        rw [life_setCells_self, notesOf_cons_self]
        exact .finish r hopened (Bool.eq_false_iff.mpr hfin)
      · rw [life_setCells_of_ne hid, notesOf_cons_of_ne (Ne.symm hid)]
        exact .stutter

/-! ### Steps of the pump -/

lemma mem_keys_iff : id ∈ s.resources.keys ↔ s.managed id = true := by
  rw [BTreeMap.mem_keys_iff, managed_eq_true]

/-- A step that only moves the pump. -/
lemma life_setPump (p : Pump) :
    { s with pump := p }.life id = { s.life id with phase := p.phaseOf id } := rfl

lemma life_draining {g : ℕ} (hp : s.pump = .draining g) :
    Life.Step s.events.full (s.pumpTurn id (.draining g)) (s.life id)
      (notesOf id (s.resumePump (.draining g)).2) ((s.resumePump (.draining g)).1.life id) := by
  have hphase : (s.life id).phase = .draining := by rw [life, hp]; rfl
  cases hc : s.channel with
  | nil =>
    have hwait : (s.life id).waiting = [] := by simp [life, hc]
    have hstep : s.resumePump (.draining g) =
        ({ s with pump := .reading g s.resources.keys [] }, []) := by
      simp [resumePump, hc]
    have hnext : Pump.phaseOf id (.reading g s.resources.keys []) =
        if (s.life id).managed then .unread else .skipped := by
      simp only [Pump.phaseOf, mem_keys_iff, List.not_mem_nil, if_false]
      rfl
    rw [hstep]
    simp only
    rw [life_setPump (.reading g s.resources.keys []), hnext]
    exact .drained hphase hwait
  | cons e rest =>
    have hturn : s.pumpTurn id (.draining g) =
        if e.resourceId = id then .drains else .other := by
      simp [pumpTurn, hc]
    have hother : e.resourceId ≠ id → { s with channel := rest }.life id = s.life id := by
      intro hid
      simp only [life, hc, List.filter_cons, hid, decide_false, Bool.false_eq_true, if_false]
      rfl
    have hself : e.resourceId = id → (s.life id).waiting = e.result ::
        (rest.filter fun e => e.resourceId = id).map IncomingEvent.result := by
      intro hid
      simp [life, hc, hid]
    rw [hturn]
    cases hget : s.resources.get e.resourceId with
    | none =>
      have hstep : s.resumePump (.draining g) = ({ s with channel := rest }, []) := by
        simp [resumePump, hc, hget]
      rw [hstep]
      by_cases hid : e.resourceId = id
      · have hm : (s.life id).managed = false := by
          rw [← hid]
          simp [life, managed, BTreeMap.containsKey, hget]
        rw [if_pos hid]
        exact .discard _ _ hphase (hself hid) hm
      · simp only
        rw [hother hid]
        exact .stutter
    | some n =>
      have hstep : s.resumePump (.draining g) =
          ({ s with channel := rest }.pushNext e.resourceId n e.result g,
            [(e.resourceId, .pushed false e.result !s.events.full)]) := by
        simp [resumePump, hc, hget]
      rw [hstep]
      simp only
      rw [life_pushNext (s := { s with channel := rest }) hget]
      by_cases hid : e.resourceId = id
      · have hm : (s.life id).managed = true := by
          rw [← hid]
          exact managed_eq_true.mpr ⟨n, hget⟩
        rw [if_pos hid, hid, notesOf_cons_self]
        exact .drain _ _ hphase (hself hid) hm
      · rw [hother hid, notesOf_cons_of_ne hid]
        exact .stutter

lemma life_reading {g : ℕ} {unread found : List ℕ} (hs : s.WellFormed)
    (hp : s.pump = .reading g unread found) :
    Life.Step s.events.full (s.pumpTurn id (.reading g unread found)) (s.life id)
      (notesOf id (s.resumePump (.reading g unread found)).2)
      ((s.resumePump (.reading g unread found)).1.life id) := by
  have hfits := hs.fits
  rw [hp] at hfits
  obtain ⟨hnodup, -⟩ := hfits
  have hphase : (s.life id).phase = Pump.phaseOf id (.reading g unread found) := by
    rw [life, hp]
  cases unread with
  | nil =>
    -- the lists change their names and the phase stays
    have hsame : Pump.phaseOf id (.terminals g found found) = (s.life id).phase := by
      rw [hphase, Pump.phaseOf, Pump.phaseOf]
      by_cases hid : id ∈ found <;> simp [hid]
    rw [resumePump, life_setPump (.terminals g found found), hsame]
    exact .stutter
  | cons i unread =>
    rw [pumpTurn, resumePump]
    simp only
    rw [life_setPump (.reading g unread _)]
    rw [List.cons_append, List.nodup_cons, List.mem_append, not_or] at hnodup
    obtain ⟨⟨hunread, hfound⟩, -⟩ := hnodup
    by_cases hid : i = id
    · subst hid
      rw [if_pos rfl]
      have hread : (s.life i).phase = .unread := by simp [hphase, Pump.phaseOf]
      have hnext : Pump.phaseOf i
          (.reading g unread (if s.isFinished i then found ++ [i] else found)) =
          if (s.life i).finished then .found else .skipped := by
        by_cases hfin : s.isFinished i = true
        · have hlife : (s.life i).finished = true := hfin
          simp [Pump.phaseOf, hunread, hfin, hlife]
        · have hlife : ¬ (s.life i).finished = true := hfin
          simp [Pump.phaseOf, hunread, hfin, hlife, hfound]
      rw [hnext]
      exact .read hread
    · have hsame : Pump.phaseOf id
          (.reading g unread (if s.isFinished i then found ++ [i] else found)) =
          (s.life id).phase := by
        rw [hphase, Pump.phaseOf, Pump.phaseOf]
        split_ifs <;> simp_all
      rw [hsame]
      exact .stutter

lemma life_terminals {g : ℕ} {pending found : List ℕ} (hs : s.WellFormed)
    (hp : s.pump = .terminals g pending found) :
    Life.Step s.events.full (s.pumpTurn id (.terminals g pending found)) (s.life id)
      (notesOf id (s.resumePump (.terminals g pending found)).2)
      ((s.resumePump (.terminals g pending found)).1.life id) := by
  have hfits := hs.fits
  rw [hp] at hfits
  obtain ⟨hnodup, hsub, hmanaged⟩ := hfits
  have hphase : (s.life id).phase = Pump.phaseOf id (.terminals g pending found) := by
    rw [life, hp]
  cases pending with
  | nil =>
    have hsame : Pump.phaseOf id (.closing found) = (s.life id).phase := by
      rw [hphase, Pump.phaseOf, Pump.phaseOf]
      by_cases hid : id ∈ found <;> simp [hid]
    have hlife : (s.resumePump (.terminals g [] found)).1.life id =
        { s.life id with phase := Pump.phaseOf id (.closing found) } := rfl
    rw [hlife, hsame]
    exact .stutter
  | cons i pending =>
    have hi : i ∈ found := hsub List.mem_cons_self
    obtain ⟨n, hget⟩ := managed_eq_true.mp (hmanaged i hi)
    rw [pumpTurn, resumePump, hget]
    simp only
    by_cases hid : i = id
    · subst hid
      have hfound : (s.life i).phase = .found := by simp [hphase, Pump.phaseOf]
      have hnext : Pump.phaseOf i (.terminals g pending found) = .pushed := by
        simp [Pump.phaseOf, (List.nodup_cons.mp hnodup).1, hi]
      rw [if_pos rfl, notesOf_cons_self, life_setCells_self,
        life_pushNext (s := { s with pump := .terminals g pending found }) hget,
        life_setPump (.terminals g pending found), hnext]
      exact .push hfound
    · have hsame : Pump.phaseOf id (.terminals g pending found) = (s.life id).phase := by
        rw [hphase, Pump.phaseOf, Pump.phaseOf]
        simp [Ne.symm hid]
      rw [notesOf_cons_of_ne hid, life_setCells_of_ne (Ne.symm hid),
        life_pushNext (s := { s with pump := .terminals g pending found }) hget,
        life_setPump (.terminals g pending found), hsame]
      exact .stutter

lemma life_closing {found : List ℕ} (hs : s.WellFormed) (hp : s.pump = .closing found) :
    Life.Step s.events.full (s.pumpTurn id (.closing found)) (s.life id)
      (notesOf id (s.resumePump (.closing found)).2)
      ((s.resumePump (.closing found)).1.life id) := by
  have hfits := hs.fits
  rw [hp] at hfits
  have hphase : (s.life id).phase = Pump.phaseOf id (.closing found) := by rw [life, hp]
  obtain ⟨-, hchannel, hnext, -⟩ := closeMany_frame (s := s) found
  have hopened : (s.closeMany found).opened id = s.opened id := by rw [opened, hnext]; rfl
  have hlife : (s.resumePump (.closing found)).1.life id =
      { s.life id with
        managed := s.managed id && id ∉ found
        finished := ((s.closeMany found).cells id).finished
        terminal := ((s.closeMany found).cells id).terminal
        phase := .idle } := by
    rw [← managed_closeMany found, resumePump]
    simp only [life, hchannel]
    rw [← hopened]
    rfl
  rw [hlife, cells_closeMany]
  by_cases hid : id ∈ found
  · have hm := hfits id hid
    rw [if_pos ⟨hid, hm⟩, hm]
    have hpushed : (s.life id).phase = .pushed := by simp [hphase, Pump.phaseOf, hid]
    have hflag : (true && decide (id ∉ found)) = false := by simp [hid]
    rw [hflag]
    exact .remove hpushed
  · rw [if_neg fun h => hid h.1]
    have hskipped : (s.life id).phase = .skipped := by simp [hphase, Pump.phaseOf, hid]
    have hflag : (s.managed id && decide (id ∉ found)) = s.managed id := by simp [hid]
    rw [hflag]
    exact .leave hskipped

lemma life_resumePump (hs : s.WellFormed) :
    Life.Step s.events.full (s.pumpTurn id s.pump) (s.life id)
      (notesOf id (s.resumePump s.pump).2) ((s.resumePump s.pump).1.life id) := by
  cases hp : s.pump with
  | idle => exact .stutter
  | draining g => exact life_draining hp
  | reading g unread found => exact life_reading hs hp
  | terminals g pending found => exact life_terminals hs hp
  | closing found => exact life_closing hs hp

/-! ### Steps of the supervisor between two pumps -/

lemma life_allocate_self (hs : s.WellFormed) : s.allocate.life s.nextResourceId =
    { s.life s.nextResourceId with
      opened := true
      finished := false
      terminal := none } := by
  have hpos := hs.next_pos
  have hopened : s.allocate.opened s.nextResourceId = true := by
    simp [allocate, setCells, opened, hpos]
  rw [life, hopened]
  simp [allocate, setCells, life, managed]

lemma life_allocate_of_ne (h : id ≠ s.nextResourceId) : s.allocate.life id = s.life id := by
  have hopened : s.allocate.opened id = s.opened id := by
    have hlt : id < s.nextResourceId + 1 ↔ id < s.nextResourceId := by omega
    simp [allocate, setCells, opened, hlt]
  rw [life, hopened]
  simp [allocate, setCells, life, managed, h]

lemma life_manage : (s.manage i).life id =
    { s.life id with managed := if id = i then true else s.managed id } := by
  rw [life, managed, manage, managed_insert]
  rfl

lemma life_openResource (hs : s.WellFormed) (kept : Bool) :
    Life.Step full t (s.life id) (notesOf id (s.supervise (.openResource kept)).2)
      ((s.supervise (.openResource kept)).1.life id) := by
  rw [supervise]
  split_ifs with hlast hkept
  · exact .stutter
  · simp only
    rw [life_manage]
    by_cases hid : id = s.nextResourceId
    · have hnew : (s.life id).opened = false := by simp [life, opened, hid]
      rw [if_pos hid, hid, life_allocate_self hs, ← hid]
      exact .openKept hnew
    · rw [if_neg hid, life_allocate_of_ne hid]
      exact .stutter
  · by_cases hid : id = s.nextResourceId
    · have hnew : (s.life id).opened = false := by simp [life, opened, hid]
      rw [hid, life_allocate_self hs, notesOf_cons_self, ← hid]
      exact .openRefused hnew
    · rw [life_allocate_of_ne hid, notesOf_cons_of_ne (Ne.symm hid)]
      exact .stutter

lemma life_supervise (hs : s.WellFormed) (hp : s.pump = .idle) :
    Life.Step s.events.full t (s.life id) (notesOf id (s.supervise a).2)
      ((s.supervise a).1.life id) := by
  have hphase : (s.life id).phase = .idle := by rw [life, hp]; rfl
  cases a with
  | openResource kept => exact life_openResource hs kept
  | startPump g => exact .start hphase
  | closeResource i =>
    rw [supervise]
    by_cases hid : id = i
    · subst hid
      by_cases hm : s.managed id = true
      · rw [life_close_self hm, if_pos hm, notesOf_cons_self]
        exact .close hm hphase
      · rw [close, if_neg hm, if_neg hm]
        exact .stutter
    · have hnotes : notesOf id (if s.managed i then [(i, .closed)] else []) = [] := by
        split_ifs
        · exact notesOf_cons_of_ne (Ne.symm hid) _ _
        · rfl
      simp only
      rw [life_close_of_ne hid, hnotes]
      exact .stutter
  | revoke i g =>
    rw [supervise]
    cases hget : s.resources.get i with
    | none => exact .stutter
    | some n =>
      simp only
      by_cases hid : id = i
      · subst hid
        have hm : s.managed id = true := managed_eq_true.mpr ⟨n, hget⟩
        have hclose := life_close_self
          (s := { s with events := s.events.pushResource id n (.error .denied) g }) hm
        rw [notesOf_cons_self, notesOf_cons_self, hclose]
        exact .revoke hm hphase
      · rw [notesOf_cons_of_ne (Ne.symm hid), notesOf_cons_of_ne (Ne.symm hid),
          life_close_of_ne hid]
        exact .stutter
  | pushCapability g state =>
    rw [supervise]
    cases s.events.pushCapability g state <;> exact .stutter
  | popEvent => exact .stutter
  | pushCompletion requestId result g => exact .stutter
  | call thread i request => exact .stutter
  | resume thread => exact .stutter
  | resumePump => exact .stutter

/-! ## Every step of the runtime -/

/-- A step is one of a producer, one of the pump, or one of the supervisor, which waits
while the pump runs. -/
lemma producer_or_supervisor (s : Runtime) (a : Action) :
    (∃ thread i request, a = .call thread i request) ∨ (∃ thread, a = .resume thread) ∨
      (s.step a = s.resumePump s.pump ∧ a = .resumePump) ∨
      (s.step a = if s.pump = .idle then s.supervise a else (s, [])) := by
  cases a with
  | call thread i request => exact .inl ⟨thread, i, request, rfl⟩
  | resume thread => exact .inr (.inl ⟨thread, rfl⟩)
  | resumePump => exact .inr (.inr (.inl ⟨rfl, rfl⟩))
  | _ => exact .inr (.inr (.inr rfl))

/-- For each resource, a step of the runtime is one of the steps of its life. -/
theorem life_step (hs : s.WellFormed) (a : Action) (id : ℕ) :
    Life.Step s.events.full (s.turn id a) (s.life id) (notesOf id (s.step a).2)
      ((s.step a).1.life id) := by
  rcases producer_or_supervisor s a with ⟨thread, i, request, rfl⟩ | ⟨thread, rfl⟩ | ⟨-, rfl⟩ | h
  · rw [step]
    split_ifs
    · simp only
      rw [life_enter]
      exact .stutter
    · exact .stutter
  · rw [step]
    cases hcall : s.calls thread with
    | none => exact .stutter
    | some pending => exact life_resume hs hcall
  · exact life_resumePump hs
  · rw [h]
    split_ifs with hp
    · exact life_supervise hs hp
    · exact .stutter

end Runtime

end TouchBar.Supervisor
