import TouchBar.Lib.Runs

/-!
# The recovery gesture

Holding Fn for eight seconds locks the service into its fallback, and a second hold
unlocks it.  While it is locked no session may run, and a marker file tells others so.
Two loops advance the gesture: `wait_for_session` and `run_session_inner`.  One
iteration of either is a step here, with what the devices, the files and the clients
answer.  The gesture sees only what a batch of Fn events comes to, so the run also keeps
the Fn key as the events tell it, and `Grounded` relates the two.

A toggle releases the virtual keys before it writes the marker, and returns if that
fails: inside a session the service then goes on, locked and without a marker.
-/

namespace TouchBar.Hardware

open Lib

/-- `HOLD_DURATION`, in milliseconds. -/
def holdDuration : ℕ := 8000

/-- `RecoveryAction`. -/
inductive RecoveryAction where
  | enterFallback
  | resumeSessions
  deriving DecidableEq, Repr

/-- `RecoveryGesture`. -/
structure RecoveryGesture where
  pressedSince : Option ℕ
  firedForPress : Bool
  fallbackLocked : Bool
  deriving DecidableEq, Repr

namespace RecoveryGesture

/-- `RecoveryGesture::new`. -/
def new (fnPressed : Bool) (now : ℕ) : RecoveryGesture where
  pressedSince := if fnPressed then some now else none
  firedForPress := false
  fallbackLocked := false

/-- `fn_changed`. -/
def fnChanged (gesture : RecoveryGesture) (pressed : Bool) (now : ℕ) : RecoveryGesture :=
  if pressed then { gesture with pressedSince := some now, firedForPress := false }
  else { gesture with pressedSince := none, firedForPress := false }

/-- `poll`. -/
def poll (gesture : RecoveryGesture) (now : ℕ) : RecoveryGesture × Option RecoveryAction :=
  match gesture.pressedSince with
  | none => (gesture, none)
  | some pressedSince =>
    -- `saturating_duration_since`
    if gesture.firedForPress ∨ now - pressedSince < holdDuration then (gesture, none)
    else
      let gesture :=
        { gesture with firedForPress := true, fallbackLocked := !gesture.fallbackLocked }
      (gesture, some (if gesture.fallbackLocked then .enterFallback else .resumeSessions))

/-- `sessions_allowed`. -/
def sessionsAllowed (gesture : RecoveryGesture) : Bool := !gesture.fallbackLocked

end RecoveryGesture

/-- Which operations on the marker file succeed. -/
structure MarkerAnswers where
  inspect : Bool
  create : Bool
  write : Bool
  remove : Bool
  deriving DecidableEq, Repr

/-- `RecoveryMarker::set_locked`: whether the marker exists afterwards, and whether the call
succeeds.  Nobody else can write to the directory of the marker. -/
def setLocked (marker locked : Bool) (answers : MarkerAnswers) : Bool × Bool :=
  if !answers.inspect then (marker, false)
  else if !locked then
    if !marker then (false, true)
    else if answers.remove then (false, true) else (true, false)
  else if marker then (true, false)
  else if !answers.create then (false, false)
  else (true, answers.write)

/-- `FnInput::read_changed`, on the Fn states that it reads: the last state, and the last
change. -/
def readChanged (pressed : Bool) (states : List Bool) : Bool × Option Bool :=
  states.foldl (fun s state => if s.1 ≠ state then (state, some state) else s) (pressed, none)

/-- Where the service is. -/
inductive ServiceMode where
  /-- In `wait_for_session`. -/
  | waiting
  /-- In `run_session`. -/
  | session
  /-- Shut down, or ended by an error. -/
  | stopped
  deriving DecidableEq, Repr

/-- The part of `ServiceHardware` that recovery reads and writes. -/
structure RecoveryService where
  mode : ServiceMode
  /-- The state that `FnInput` remembers. -/
  fnPressed : Bool
  gesture : RecoveryGesture
  /-- The marker exists. -/
  marker : Bool
  deriving DecidableEq, Repr

/-- A read of the Fn device: the events, each with its time, and whether the read then
fails. -/
structure FnRead where
  events : List (ℕ × Bool)
  fails : Bool
  deriving DecidableEq, Repr

/-- What one iteration of a loop meets. -/
structure Iteration where
  /-- The shutdown signal is there. -/
  shutdown : Bool
  /-- Something fails before the Fn device is read. -/
  failsBefore : Bool
  /-- The Fn device is ready, and what it gives. -/
  fn : Option FnRead
  /-- The time at which the gesture is told. -/
  fnTime : ℕ
  /-- Telling the fallback bar or the session of a change of Fn fails. -/
  failsOnChange : Bool
  /-- The time at which the gesture is polled. -/
  pollTime : ℕ
  /-- All virtual keys are released if the gesture fires. -/
  keysReleased : Bool
  markerAnswers : MarkerAnswers
  /-- Something fails after the gesture has been polled. -/
  failsAfter : Bool
  /-- A client connects, and whether it belongs to the active seat. -/
  connection : Option Bool
  /-- What fails before is a device that is lost. -/
  deviceLost : Bool
  /-- The fallback cannot be shown after a session. -/
  fallbackFails : Bool
  deriving DecidableEq, Repr

namespace RecoveryService

/-- The service when it has opened its devices, with the marker removed. -/
def new (fnPressed : Bool) (now : ℕ) : RecoveryService where
  mode := .waiting
  fnPressed := fnPressed
  gesture := .new fnPressed now
  marker := false

/-- `poll_recovery_gesture`: the action, and whether the call returns without an error. -/
def pollRecoveryGesture (s : RecoveryService) (i : Iteration) :
    RecoveryService × Option RecoveryAction × Bool :=
  let (gesture, action) := s.gesture.poll i.pollTime
  match action with
  | none => (s, none, true)
  | some action =>
    let s := { s with gesture := gesture }
    if !i.keysReleased then (s, some action, false)
    else
      -- an error of the marker is only reported
      let (marker, _) := setLocked s.marker (action = .enterFallback) i.markerAnswers
      ({ s with marker := marker }, some action, true)

/-- The Fn part of both loops: whether it passes without an error. -/
def readFn (s : RecoveryService) (i : Iteration) : RecoveryService × Bool :=
  match i.fn with
  | none => (s, true)
  | some read =>
    let (fnPressed, changed) := readChanged s.fnPressed (read.events.map Prod.snd)
    let s := { s with fnPressed := fnPressed }
    if read.fails then (s, false)
    else
      match changed with
      | none => (s, true)
      | some pressed =>
        ({ s with gesture := s.gesture.fnChanged pressed i.fnTime }, !i.failsOnChange)

/-- The main loop after a session that ended with an error. -/
def sessionFailed (s : RecoveryService) (deviceLost : Bool) : RecoveryService :=
  { s with mode := if deviceLost then .stopped else .waiting }

/-- An iteration of the loop of `wait_for_session`; an error there ends the service. -/
def waitForSession (s : RecoveryService) (i : Iteration) :
    RecoveryService × Option RecoveryAction :=
  if i.shutdown || i.failsBefore then ({ s with mode := .stopped }, none)
  else
    match s.readFn i with
    | (s, false) => ({ s with mode := .stopped }, none)
    | (s, true) =>
      match s.pollRecoveryGesture i with
      | (s, action, false) => ({ s with mode := .stopped }, action)
      | (s, action, true) =>
        if i.failsAfter then ({ s with mode := .stopped }, action)
        else
          match i.connection with
          | none => (s, action)
          | some activeSeat =>
            if !s.gesture.sessionsAllowed then (s, action)
            else if activeSeat then ({ s with mode := .session }, action)
            else (s, action)

/-- An iteration of the loop of `run_session_inner`, with the end of the session. -/
def runSession (s : RecoveryService) (i : Iteration) : RecoveryService × Option RecoveryAction :=
  if i.shutdown then
    -- a failure to show the fallback replaces the end of the service
    ({ s with mode := if i.fallbackFails then .waiting else .stopped }, none)
  else if i.failsBefore then (s.sessionFailed i.deviceLost, none)
  else
    match s.readFn i with
    | (s, false) => (s.sessionFailed false, none)
    | (s, true) =>
      match s.pollRecoveryGesture i with
      | (s, action, false) => (s.sessionFailed false, action)
      | (s, action, true) =>
        if action = some .enterFallback then ({ s with mode := .waiting }, action)
        else if i.failsAfter then (s.sessionFailed false, action)
        else (s, action)

/-- One iteration of the loop that the service is in. -/
def iterate (s : RecoveryService) (i : Iteration) : RecoveryService × Option RecoveryAction :=
  match s.mode with
  | .waiting => s.waitForSession i
  | .session => s.runSession i
  | .stopped => (s, none)

/-! ## What an iteration can do -/

/-- The iteration gets to the Fn device. -/
def Reads (s : RecoveryService) (i : Iteration) : Prop :=
  s.mode ≠ .stopped ∧ i.shutdown = false ∧ i.failsBefore = false

instance (s : RecoveryService) (i : Iteration) : Decidable (s.Reads i) :=
  inferInstanceAs (Decidable (_ ∧ _))

/-- Either the device is not ready, or the read fails, or it tells of no change, or the
gesture gets to know of a change. -/
lemma readFn_cases (s : RecoveryService) (i : Iteration) :
    i.fn = none ∧ s.readFn i = (s, true) ∨
    ∃ read, i.fn = some read ∧
      (read.fails = true ∧ s.readFn i =
          ({ s with fnPressed := (readChanged s.fnPressed (read.events.map Prod.snd)).1 }, false) ∨
        read.fails = false ∧ (readChanged s.fnPressed (read.events.map Prod.snd)).2 = none ∧
          s.readFn i =
            ({ s with fnPressed := (readChanged s.fnPressed (read.events.map Prod.snd)).1 },
              true) ∨
        ∃ pressed, read.fails = false ∧
          (readChanged s.fnPressed (read.events.map Prod.snd)).2 = some pressed ∧
          s.readFn i =
            ({ s with
                fnPressed := (readChanged s.fnPressed (read.events.map Prod.snd)).1
                gesture := s.gesture.fnChanged pressed i.fnTime },
              !i.failsOnChange)) := by
  cases hfn : i.fn with
  | none => exact .inl ⟨rfl, by rw [readFn, hfn]⟩
  | some read =>
    refine .inr ⟨read, rfl, ?_⟩
    rw [readFn, hfn]
    cases hfails : read.fails with
    | true => exact .inl ⟨rfl, by simp [hfails]⟩
    | false =>
      refine .inr ?_
      cases hchanged : (readChanged s.fnPressed (read.events.map Prod.snd)).2 with
      | none => exact .inl ⟨rfl, rfl, by simp [hfails, hchanged]⟩
      | some pressed => exact .inr ⟨pressed, rfl, rfl, by simp [hfails, hchanged]⟩

@[simp] lemma readFn_mode (s : RecoveryService) (i : Iteration) : (s.readFn i).1.mode = s.mode := by
  obtain ⟨-, h⟩ | ⟨read, -, ⟨-, h⟩ | ⟨-, -, h⟩ | ⟨pressed, -, -, h⟩⟩ := readFn_cases s i
  all_goals rw [h]

@[simp] lemma readFn_marker (s : RecoveryService) (i : Iteration) :
    (s.readFn i).1.marker = s.marker := by
  obtain ⟨-, h⟩ | ⟨read, -, ⟨-, h⟩ | ⟨-, -, h⟩ | ⟨pressed, -, -, h⟩⟩ := readFn_cases s i
  all_goals rw [h]

lemma readFn_whole {s : RecoveryService} {i : Iteration} (h : (s.readFn i).2 = true) :
    ∀ read ∈ i.fn, read.fails = false := by
  intro read hmem
  obtain ⟨hfn, -⟩ | ⟨first, hfn, ⟨-, hread⟩ | ⟨hfails, -, -⟩ | ⟨-, hfails, -, -⟩⟩ :=
    s.readFn_cases i
  · rw [hfn] at hmem
    cases hmem
  · rw [hread] at h
    cases h
  all_goals
    rw [hfn] at hmem
    cases hmem
    exact hfails

lemma poll_cases (gesture : RecoveryGesture) (now : ℕ) :
    gesture.poll now = (gesture, none) ∨
    ∃ since, gesture.pressedSince = some since ∧ gesture.firedForPress = false ∧
      since + holdDuration ≤ now ∧
      gesture.poll now =
        ({ gesture with firedForPress := true, fallbackLocked := !gesture.fallbackLocked },
          some (if gesture.fallbackLocked then .resumeSessions else .enterFallback)) := by
  rw [RecoveryGesture.poll]
  cases hpressed : gesture.pressedSince with
  | none => exact .inl rfl
  | some since =>
    by_cases hwaits : gesture.firedForPress ∨ now - since < holdDuration
    · exact .inl (if_pos hwaits)
    · refine .inr ⟨since, rfl, ?_, ?_, ?_⟩
      · simpa using fun h => hwaits (.inl h)
      · have hpos : 0 < holdDuration := by decide
        have hlong : ¬ now - since < holdDuration := fun h => hwaits (.inr h)
        omega
      · dsimp only
        rw [if_neg hwaits, ← hpressed]
        cases gesture.fallbackLocked <;> rfl

/-- Either nothing happens, or the gesture toggles, and the marker follows if the virtual keys
are released. -/
lemma pollRecoveryGesture_cases (s : RecoveryService) (i : Iteration) :
    (s.gesture.poll i.pollTime).2 = none ∧ s.pollRecoveryGesture i = (s, none, true) ∨
    ∃ since, s.gesture.pressedSince = some since ∧ s.gesture.firedForPress = false ∧
      since + holdDuration ≤ i.pollTime ∧ (s.gesture.poll i.pollTime).2 ≠ none ∧
      s.pollRecoveryGesture i =
        ({ s with
            gesture :=
              { s.gesture with
                  firedForPress := true
                  fallbackLocked := !s.gesture.fallbackLocked }
            marker := if i.keysReleased = true
              then (setLocked s.marker (!s.gesture.fallbackLocked) i.markerAnswers).1
              else s.marker },
          some (if s.gesture.fallbackLocked then .resumeSessions else .enterFallback),
          i.keysReleased) := by
  rw [pollRecoveryGesture]
  obtain h | ⟨since, hpressed, hfired, hlong, h⟩ := poll_cases s.gesture i.pollTime
  · exact .inl (by simp [h])
  · refine .inr ⟨since, hpressed, hfired, hlong, by simp [h], ?_⟩
    rw [h]
    cases i.keysReleased <;> cases s.gesture.fallbackLocked <;> simp

@[simp] lemma pollRecoveryGesture_mode (s : RecoveryService) (i : Iteration) :
    (s.pollRecoveryGesture i).1.mode = s.mode := by
  rw [pollRecoveryGesture]
  rcases s.gesture.poll i.pollTime with ⟨gesture, action | action⟩
  · rfl
  · dsimp only
    split_ifs <;> rfl

lemma iterate_of_waiting {s : RecoveryService} (h : s.mode = .waiting) (i : Iteration) :
    s.iterate i = s.waitForSession i := by
  rw [iterate, h]

lemma iterate_of_session {s : RecoveryService} (h : s.mode = .session) (i : Iteration) :
    s.iterate i = s.runSession i := by
  rw [iterate, h]

lemma iterate_of_stopped {s : RecoveryService} (h : s.mode = .stopped) (i : Iteration) :
    s.iterate i = (s, none) := by
  rw [iterate, h]

lemma iterate_of_not_reads {s : RecoveryService} {i : Iteration} (h : ¬ s.Reads i) :
    ∃ mode, mode ≠ .session ∧ (s.mode = .stopped → mode = .stopped) ∧
      s.iterate i = ({ s with mode := mode }, none) := by
  cases hmode : s.mode with
  | stopped =>
    refine ⟨.stopped, by simp, fun _ => rfl, ?_⟩
    rw [iterate_of_stopped hmode, ← hmode]
  | waiting =>
    have hearly : (i.shutdown || i.failsBefore) = true := by
      by_contra hnot
      rw [Bool.not_eq_true, Bool.or_eq_false_iff] at hnot
      exact h ⟨by simp [hmode], hnot⟩
    refine ⟨.stopped, by simp, by simp, ?_⟩
    rw [iterate_of_waiting hmode, waitForSession, if_pos hearly]
  | session =>
    rw [iterate_of_session hmode, runSession]
    by_cases hdown : i.shutdown = true
    · refine ⟨if i.fallbackFails then .waiting else .stopped, ?_, by simp, by rw [if_pos hdown]⟩
      split_ifs <;> simp
    · have hfails : i.failsBefore = true := by
        by_contra hnot
        exact h ⟨by simp [hmode], by simpa using hdown, by simpa using hnot⟩
      refine ⟨if i.deviceLost then .stopped else .waiting, ?_, by simp, ?_⟩
      · split_ifs <;> simp
      · rw [if_neg hdown, if_pos hfails, sessionFailed]

lemma iterate_of_read_fails {s : RecoveryService} {i : Iteration} (h : s.Reads i)
    (hread : (s.readFn i).2 = false) :
    ∃ mode, mode ≠ .session ∧ (s.mode = .waiting → mode = .stopped) ∧
      s.iterate i = ({ (s.readFn i).1 with mode := mode }, none) := by
  obtain ⟨hmode, hdown, hbefore⟩ := h
  rcases hr : s.readFn i with ⟨t, ok⟩
  rw [hr] at hread
  obtain rfl : ok = false := hread
  cases hm : s.mode with
  | stopped => exact absurd hm hmode
  | waiting =>
    rw [iterate_of_waiting hm]
    exact ⟨.stopped, by simp, fun _ => rfl, by simp [waitForSession, hdown, hbefore, hr]⟩
  | session =>
    rw [iterate_of_session hm]
    exact ⟨.waiting, by simp, by simp, by simp [runSession, hdown, hbefore, hr, sessionFailed]⟩

/-- The iteration polls the gesture.  A session is there afterwards only if it was there and
goes on, or if the gesture allows it. -/
lemma iterate_of_read {s : RecoveryService} {i : Iteration} (h : s.Reads i)
    (hread : (s.readFn i).2 = true) :
    ∃ mode, s.iterate i = ({ ((s.readFn i).1.pollRecoveryGesture i).1 with mode := mode },
        ((s.readFn i).1.pollRecoveryGesture i).2.1) ∧
      (mode = .session →
        ((s.readFn i).1.pollRecoveryGesture i).1.gesture.sessionsAllowed = true ∨
        s.mode = .session ∧
          ((s.readFn i).1.pollRecoveryGesture i).2.1 ≠ some .enterFallback) ∧
      (s.mode = .waiting → ((s.readFn i).1.pollRecoveryGesture i).2.2 = false →
        mode = .stopped) ∧
      (s.mode = .session → ((s.readFn i).1.pollRecoveryGesture i).2.2 = false →
        mode = .waiting) := by
  obtain ⟨hmode, hdown, hbefore⟩ := h
  have hmodes := pollRecoveryGesture_mode (s.readFn i).1 i
  rw [readFn_mode] at hmodes
  rcases hr : s.readFn i with ⟨t, ok⟩
  rw [hr] at hread hmodes
  obtain rfl : ok = true := hread
  rcases hp : t.pollRecoveryGesture i with ⟨u, action, released⟩
  rw [hp] at hmodes
  cases hm : s.mode with
  | stopped => exact absurd hm hmode
  | waiting =>
    rw [iterate_of_waiting hm]
    cases released with
    | false =>
      refine ⟨.stopped, ?_, by simp, fun _ _ => rfl, by simp⟩
      simp [waitForSession, hdown, hbefore, hr, hp]
    | true =>
      by_cases hafter : i.failsAfter = true
      · refine ⟨.stopped, ?_, by simp, by simp, by simp⟩
        simp [waitForSession, hdown, hbefore, hr, hp, hafter]
      · -- a connection becomes a session only if the gesture allows it
        by_cases hnew : u.gesture.sessionsAllowed = true ∧ i.connection = some true
        · refine ⟨.session, ?_, fun _ => .inl hnew.1, by simp, by simp⟩
          simp [waitForSession, hdown, hbefore, hr, hp, hafter, hnew.1, hnew.2]
        · refine ⟨u.mode, ?_, ?_, by simp, by simp⟩
          · simp only [waitForSession, hdown, hbefore, hr, hp, hafter, Bool.or_self,
              Bool.false_eq_true, ↓reduceIte]
            cases hc : i.connection with
            | none => rfl
            | some active =>
              cases hall : u.gesture.sessionsAllowed with
              | false => rfl
              | true =>
                cases active with
                | false => rfl
                | true => exact absurd ⟨hall, hc⟩ hnew
          · show u.mode = _ → _
            rw [hmodes, hm]
            simp
  | session =>
    rw [iterate_of_session hm]
    cases released with
    | false =>
      refine ⟨.waiting, ?_, by simp, by simp, fun _ _ => rfl⟩
      simp [runSession, hdown, hbefore, hr, hp, sessionFailed]
    | true =>
      by_cases henter : action = some .enterFallback
      · refine ⟨.waiting, ?_, by simp, by simp, by simp⟩
        simp [runSession, hdown, hbefore, hr, hp, henter]
      · by_cases hafter : i.failsAfter = true
        · refine ⟨.waiting, ?_, by simp, by simp, by simp⟩
          simp [runSession, hdown, hbefore, hr, hp, henter, hafter, sessionFailed]
        · refine ⟨u.mode, ?_, fun _ => .inr ⟨rfl, henter⟩, by simp, by simp⟩
          simp [runSession, hdown, hbefore, hr, hp, henter, hafter]

end RecoveryService

/-! ## Runs -/

/-- A toggle of the gesture: when, what, where the service was, since when Fn is down, and the
hold of Fn, as the number of its transitions. -/
structure RecoveryEntry where
  time : ℕ
  action : RecoveryAction
  mode : ServiceMode
  heldSince : Option ℕ
  hold : ℕ
  deriving DecidableEq, Repr

/-- The Fn key after some events: since when it is down, and the number of its transitions. -/
def fnKey (key : Option ℕ × ℕ) (events : List (ℕ × Bool)) : Option ℕ × ℕ :=
  events.foldl (fun key event =>
    if key.1.isSome ≠ event.2 then (if event.2 then some event.1 else none, key.2 + 1) else key) key

/-- The service, the Fn key as the events read so far tell it, and the toggles so far. -/
structure RecoveryRun where
  service : RecoveryService
  key : Option ℕ × ℕ
  log : List RecoveryEntry

namespace RecoveryRun

/-- The service opens its devices at a time, with Fn down since some time or up. -/
def start (heldSince : Option ℕ) (now : ℕ) : RecoveryRun :=
  ⟨.new heldSince.isSome now, (heldSince, 0), []⟩

/-- One iteration. -/
def step (s : RecoveryRun) (i : Iteration) : RecoveryRun :=
  let key :=
    if s.service.Reads i then fnKey s.key (i.fn.elim [] FnRead.events) else s.key
  { service := (s.service.iterate i).1
    key := key
    log := s.log ++ (s.service.iterate i).2.toList.map fun action =>
      ⟨i.pollTime, action, s.service.mode, key.1, key.2⟩ }

/-- What recovery promises. -/
structure Recovers (s : RecoveryRun) : Prop where
  /-- The gesture toggles only while Fn has been down for the whole duration. -/
  held : ∀ e ∈ s.log, ∃ since, e.heldSince = some since ∧ since + holdDuration ≤ e.time
  /-- No two toggles are of one hold. -/
  once : (s.log.map RecoveryEntry.hold).Pairwise (· < ·)
  /-- The actions alternate, and the first one enters the fallback. -/
  alternate : ∀ (k : ℕ) (e : RecoveryEntry), s.log[k]? = some e →
    e.action = if k % 2 = 0 then .enterFallback else .resumeSessions
  /-- There is no session while the fallback is locked. -/
  unlocked : s.service.mode = .session → s.service.gesture.fallbackLocked = false
  /-- A toggle inside a session enters the fallback. -/
  enters : ∀ e ∈ s.log, e.mode = .session → e.action = .enterFallback

/-- The marker exists exactly while the fallback is locked; a service that stops removes it. -/
def Marked (s : RecoveryRun) : Prop :=
  s.service.mode ≠ .stopped → (s.service.marker = true ↔ s.service.gesture.fallbackLocked = true)

/-- No event is later than the time at which the gesture is told, and a read that fails
inside a session has not seen a transition before. -/
def Timely (s : RecoveryRun) (i : Iteration) : Prop :=
  ∀ read ∈ i.fn, (∀ event ∈ read.events, event.1 ≤ i.fnTime) ∧
    (s.service.mode = .session → read.fails = true →
      (readChanged s.service.fnPressed (read.events.map Prod.snd)).2 = none)

/-- All operations on the marker file succeed. -/
def MarkerWorks (i : Iteration) : Prop := i.markerAnswers = ⟨true, true, true, true⟩

/-- A toggle inside a session releases the virtual keys. -/
def KeysReleased (s : RecoveryRun) (i : Iteration) : Prop :=
  s.service.mode = .session → s.service.Reads i → (s.service.readFn i).2 = true →
    ((s.service.readFn i).1.gesture.poll i.pollTime).2 ≠ none → i.keysReleased = true

/-! ### The gesture and the key -/

/-- What `read_changed` tells of a batch, against the key itself. -/
lemma readChanged_fnKey (key : Option ℕ × ℕ) (events : List (ℕ × Bool)) :
    (readChanged key.1.isSome (events.map Prod.snd)).1 = (fnKey key events).1.isSome ∧
      ((readChanged key.1.isSome (events.map Prod.snd)).2 = none → fnKey key events = key) ∧
      ∀ pressed, (readChanged key.1.isSome (events.map Prod.snd)).2 = some pressed →
        pressed = (fnKey key events).1.isSome ∧ key.2 < (fnKey key events).2 ∧
          ∀ since ∈ (fnKey key events).1, ∃ event ∈ events, event.1 = since := by
  -- on the batch, from its last event
  induction events using List.reverseRecOn with
  | nil => simp [readChanged, fnKey]
  | append_singleton events event ih =>
    obtain ⟨hstate, hsame, hchange⟩ := ih
    have hread : readChanged key.1.isSome ((events ++ [event]).map Prod.snd) =
        if (fnKey key events).1.isSome ≠ event.2 then (event.2, some event.2)
        else readChanged key.1.isSome (events.map Prod.snd) := by
      rw [← hstate]
      simp [readChanged, List.foldl_append]
    have hkey : fnKey key (events ++ [event]) =
        if (fnKey key events).1.isSome ≠ event.2 then
          (if event.2 then some event.1 else none, (fnKey key events).2 + 1)
        else fnKey key events := by
      simp [fnKey, List.foldl_append]
    rw [hread, hkey]
    by_cases hturns : (fnKey key events).1.isSome ≠ event.2
    · rw [if_pos hturns, if_pos hturns]
      have hgrows : key.2 ≤ (fnKey key events).2 := by
        cases hlast : (readChanged key.1.isSome (events.map Prod.snd)).2 with
        | none => rw [hsame hlast]
        | some pressed => exact (hchange pressed hlast).2.1.le
      refine ⟨by cases event.2 <;> rfl, by simp, fun pressed hpressed => ?_⟩
      obtain rfl : event.2 = pressed := by simpa using hpressed
      refine ⟨by cases event.2 <;> rfl, by simpa using hgrows, fun since hsince => ?_⟩
      refine ⟨event, by simp, ?_⟩
      cases hdown : event.2 with
      | false => simp [hdown] at hsince
      | true => simpa [hdown] using hsince
    · rw [if_neg hturns, if_neg hturns]
      refine ⟨hstate, hsame, fun pressed hpressed => ?_⟩
      obtain ⟨hnow, hlater, hsince⟩ := hchange pressed hpressed
      refine ⟨hnow, hlater, fun since h => ?_⟩
      obtain ⟨first, hfirst, htime⟩ := hsince since h
      exact ⟨first, List.mem_append_left _ hfirst, htime⟩

/-- The gesture knows the Fn key, and has fired for a hold if the log says so. -/
structure Grounded (s : RecoveryRun) : Prop where
  remembered : s.service.fnPressed = s.key.1.isSome
  pressed : s.service.gesture.pressedSince.isSome = s.key.1.isSome
  since : ∀ pressed ∈ s.service.gesture.pressedSince, ∀ since ∈ s.key.1, since ≤ pressed
  armed : s.service.gesture.firedForPress = false → ∀ e ∈ s.log, e.hold < s.key.2

/-- The invariant of a run. -/
structure Inv (s : RecoveryRun) : Prop where
  recovers : Recovers s
  counted : ∀ e ∈ s.log, e.hold ≤ s.key.2
  locked : s.service.gesture.fallbackLocked = true ↔ s.log.length % 2 = 1
  grounded : s.service.mode ≠ .stopped → Grounded s

/-- The run between the read of the Fn device and the poll of the gesture. -/
def afterRead (s : RecoveryRun) (i : Iteration) : RecoveryRun :=
  ⟨(s.service.readFn i).1, fnKey s.key (i.fn.elim [] FnRead.events), s.log⟩

lemma le_fnKey (key : Option ℕ × ℕ) (events : List (ℕ × Bool)) :
    key.2 ≤ (fnKey key events).2 := by
  obtain ⟨-, hsame, hchange⟩ := readChanged_fnKey key events
  cases hlast : (readChanged key.1.isSome (events.map Prod.snd)).2 with
  | none => rw [hsame hlast]
  | some pressed => exact (hchange pressed hlast).2.1.le

lemma readFn_locked (s : RecoveryService) (i : Iteration) :
    (s.readFn i).1.gesture.fallbackLocked = s.gesture.fallbackLocked := by
  obtain ⟨-, h⟩ | ⟨read, -, ⟨-, h⟩ | ⟨-, -, h⟩ | ⟨pressed, -, -, h⟩⟩ := s.readFn_cases i
  all_goals rw [h]
  cases pressed <;> rfl

/-- A read keeps the gesture grounded, unless it fails after it has seen a transition. -/
lemma grounded_afterRead {s : RecoveryRun} {i : Iteration} (h : Grounded s)
    (hcounted : ∀ e ∈ s.log, e.hold ≤ s.key.2)
    (htimes : ∀ read ∈ i.fn, ∀ event ∈ read.events, event.1 ≤ i.fnTime)
    (hwhole : ∀ read ∈ i.fn, read.fails = true →
      (readChanged s.service.fnPressed (read.events.map Prod.snd)).2 = none) :
    Grounded (s.afterRead i) := by
  obtain ⟨hfn, hread⟩ | ⟨read, hfn, hcases⟩ := s.service.readFn_cases i
  · rw [afterRead, hread, hfn]
    exact h
  have hbatch := readChanged_fnKey s.key read.events
  rw [← h.remembered] at hbatch
  obtain ⟨hstate, hsame, hchange⟩ := hbatch
  have hunchanged (hnone : (readChanged s.service.fnPressed (read.events.map Prod.snd)).2 = none) :
      Grounded ⟨{ s.service with
          fnPressed := (readChanged s.service.fnPressed (read.events.map Prod.snd)).1 },
        fnKey s.key read.events, s.log⟩ := by
    refine ⟨hstate, ?_, ?_, ?_⟩
    all_goals rw [hsame hnone]
    · exact h.pressed
    · exact h.since
    · exact h.armed
  rcases hcases with ⟨hfails, hread⟩ | ⟨-, hnone, hread⟩ | ⟨pressed, -, hsome, hread⟩
  · rw [afterRead, hread, hfn]
    exact hunchanged (hwhole read hfn hfails)
  · rw [afterRead, hread, hfn]
    exact hunchanged hnone
  · obtain ⟨hnow, hlater, htime⟩ := hchange pressed hsome
    rw [afterRead, hread, hfn]
    refine ⟨hstate, ?_, ?_, fun _ e he => (hcounted e he).trans_lt hlater⟩
    · show (s.service.gesture.fnChanged pressed i.fnTime).pressedSince.isSome =
          (fnKey s.key read.events).1.isSome
      rw [← hnow]
      cases pressed <;> rfl
    · intro told htold since hsince
      obtain ⟨event, hevent, rfl⟩ := htime since hsince
      obtain rfl : i.fnTime = told := by
        cases pressed with
        | false => simp [RecoveryGesture.fnChanged] at htold
        | true => simpa [RecoveryGesture.fnChanged] using htold
      exact htimes read hfn event hevent

/-! ### The invariant -/

/-- Reading the Fn device keeps all that does not depend on it. -/
lemma inv_afterRead {s : RecoveryRun} {i : Iteration} (h : Inv s) :
    Recovers (s.afterRead i) ∧ (∀ e ∈ (s.afterRead i).log, e.hold ≤ (s.afterRead i).key.2) ∧
      ((s.afterRead i).service.gesture.fallbackLocked = true ↔
        (s.afterRead i).log.length % 2 = 1) := by
  have hlocked : (s.afterRead i).service.gesture.fallbackLocked =
      s.service.gesture.fallbackLocked := readFn_locked s.service i
  refine ⟨⟨h.recovers.held, h.recovers.once, h.recovers.alternate, ?_, h.recovers.enters⟩, ?_, ?_⟩
  · intro hmode
    rw [hlocked]
    refine h.recovers.unlocked ?_
    rwa [afterRead, RecoveryService.readFn_mode] at hmode
  · exact fun e he => (h.counted e he).trans (le_fnKey _ _)
  · rw [hlocked]
    exact h.locked

lemma Recovers.setMode {s : RecoveryRun} (h : Recovers s) {mode : ServiceMode}
    (hmode : mode = .session → s.service.gesture.fallbackLocked = false) :
    Recovers ⟨{ s.service with mode := mode }, s.key, s.log⟩ :=
  ⟨h.held, h.once, h.alternate, hmode, h.enters⟩

/-- A toggle keeps the invariant: Fn has been down since the gesture was told, and it is the
first toggle of the hold. -/
lemma inv_toggle {s : RecoveryRun} (hrecovers : Recovers s) (hg : Grounded s)
    (hcounted : ∀ e ∈ s.log, e.hold ≤ s.key.2)
    (hlocked : s.service.gesture.fallbackLocked = true ↔ s.log.length % 2 = 1)
    {since now : ℕ} (hpressed : s.service.gesture.pressedSince = some since)
    (hfired : s.service.gesture.firedForPress = false) (hlong : since + holdDuration ≤ now)
    {origin mode : ServiceMode} (marker : Bool)
    (horigin : origin = .session → s.service.gesture.fallbackLocked = false)
    (hmode : mode = .session → s.service.gesture.fallbackLocked = true) :
    Inv ⟨⟨mode, s.service.fnPressed,
        { s.service.gesture with
            firedForPress := true
            fallbackLocked := !s.service.gesture.fallbackLocked },
        marker⟩, s.key,
      s.log ++ [⟨now,
        if s.service.gesture.fallbackLocked then .resumeSessions else .enterFallback,
        origin, s.key.1, s.key.2⟩]⟩ := by
  have hdown := hg.pressed
  rw [hpressed, Option.isSome_some] at hdown
  obtain ⟨pressed, hkey⟩ := Option.isSome_iff_exists.1 hdown.symm
  have hbefore : pressed ≤ since := hg.since since hpressed pressed hkey
  have hfirst := hg.armed hfired
  refine ⟨⟨?_, ?_, ?_, ?_, ?_⟩, ?_, ?_, fun _ => ⟨hg.remembered, hg.pressed, hg.since, ?_⟩⟩
  · intro e he
    rcases List.mem_append.1 he with he | he
    · exact hrecovers.held e he
    · obtain rfl := List.mem_singleton.1 he
      exact ⟨pressed, hkey, (Nat.add_le_add_right hbefore _).trans hlong⟩
  · rw [List.map_append, List.pairwise_append]
    refine ⟨hrecovers.once, List.pairwise_singleton _ _, fun hold hhold last hlast => ?_⟩
    obtain ⟨e, he, rfl⟩ := List.mem_map.1 hhold
    obtain rfl := List.mem_singleton.1 hlast
    exact hfirst e he
  · intro k e hk
    rcases lt_trichotomy k s.log.length with hlt | heq | hgt
    · rw [List.getElem?_append_left hlt] at hk
      exact hrecovers.alternate k e hk
    · rw [heq, List.getElem?_concat_length] at hk
      obtain rfl := (Option.some.inj hk).symm
      cases hl : s.service.gesture.fallbackLocked with
      | true =>
        have hodd := hlocked.1 hl
        simp [heq, hodd]
      | false =>
        have heven : s.log.length % 2 = 0 := by
          have hodd := mt hlocked.2 (by simp [hl])
          omega
        simp [heq, heven]
    · rw [List.getElem?_eq_none (by simp; omega)] at hk
      cases hk
  · intro hm
    simp [hmode hm]
  · intro e he hm
    rcases List.mem_append.1 he with he | he
    · exact hrecovers.enters e he hm
    · obtain rfl := List.mem_singleton.1 he
      simp [horigin hm]
  · intro e he
    rcases List.mem_append.1 he with he | he
    · exact hcounted e he
    · obtain rfl := List.mem_singleton.1 he
      exact le_rfl
  · rw [List.length_append, List.length_singleton]
    cases hl : s.service.gesture.fallbackLocked with
    | true =>
      have hodd := hlocked.1 hl
      simp only [Bool.not_true, Bool.false_eq_true, false_iff]
      omega
    | false =>
      have hodd := mt hlocked.2 (by simp [hl])
      simp only [Bool.not_false, true_iff]
      omega
  · intro h
    exact absurd h (by simp)

/-- One iteration keeps the invariant. -/
lemma inv_step {s : RecoveryRun} {i : Iteration} (h : Inv s) (htimely : Timely s i) :
    Inv (s.step i) := by
  by_cases hreads : s.service.Reads i
  swap
  · obtain ⟨mode, hsession, hstopped, hiterate⟩ := RecoveryService.iterate_of_not_reads hreads
    have hstep : s.step i = ⟨{ s.service with mode := mode }, s.key, s.log⟩ := by
      rw [step, hiterate, if_neg hreads]
      simp
    rw [hstep]
    refine ⟨h.recovers.setMode fun hm => absurd hm hsession, h.counted, h.locked, fun hmode => ?_⟩
    have hg := h.grounded fun hs => hmode (hstopped hs)
    exact ⟨hg.remembered, hg.pressed, hg.since, hg.armed⟩
  obtain ⟨hrecovers, hcounted, hlocked⟩ := inv_afterRead (i := i) h
  have htimes : ∀ read ∈ i.fn, ∀ event ∈ read.events, event.1 ≤ i.fnTime :=
    fun read hread => (htimely read hread).1
  cases hread : (s.service.readFn i).2 with
  | false =>
    obtain ⟨mode, hsession, hwaiting, hiterate⟩ :=
      RecoveryService.iterate_of_read_fails hreads hread
    have hstep : s.step i =
        ⟨{ (s.afterRead i).service with mode := mode }, (s.afterRead i).key, s.log⟩ := by
      rw [step, hiterate, if_pos hreads]
      simp [afterRead]
    rw [hstep]
    refine ⟨hrecovers.setMode fun hm => absurd hm hsession, hcounted, hlocked, fun hmode => ?_⟩
    have hinside : s.service.mode = .session := by
      cases hm : s.service.mode with
      | waiting => exact absurd (hwaiting hm) hmode
      | session => rfl
      | stopped => exact absurd hm hreads.1
    have hg := grounded_afterRead (h.grounded hreads.1) h.counted htimes
      fun read hmem => (htimely read hmem).2 hinside
    exact ⟨hg.remembered, hg.pressed, hg.since, hg.armed⟩
  | true =>
    obtain ⟨mode, hiterate, hsession, -, hfailed⟩ := RecoveryService.iterate_of_read hreads hread
    have hg := grounded_afterRead (h.grounded hreads.1) h.counted htimes fun read hmem hfails =>
      absurd (RecoveryService.readFn_whole hread read hmem) (by simp [hfails])
    have hstep : s.step i =
        ⟨{ ((s.afterRead i).service.pollRecoveryGesture i).1 with mode := mode },
          (s.afterRead i).key,
          s.log ++ ((s.afterRead i).service.pollRecoveryGesture i).2.1.toList.map fun action =>
            ⟨i.pollTime, action, s.service.mode, (s.afterRead i).key.1,
              (s.afterRead i).key.2⟩⟩ := by
      rw [step, hiterate, if_pos hreads]
      rfl
    have hunlocked : s.service.mode = .session →
        (s.afterRead i).service.gesture.fallbackLocked = false := by
      intro hm
      rw [afterRead, readFn_locked]
      exact h.recovers.unlocked hm
    rw [hstep]
    change mode = .session →
      (((s.afterRead i).service.pollRecoveryGesture i).1.gesture.sessionsAllowed = true ∨
      s.service.mode = .session ∧
        ((s.afterRead i).service.pollRecoveryGesture i).2.1 ≠ some .enterFallback) at hsession
    obtain ⟨-, hpoll⟩ | ⟨since, hpressed, hfired, hlong, -, hpoll⟩ :=
      (s.afterRead i).service.pollRecoveryGesture_cases i
    · rw [hpoll] at hsession ⊢
      simp only [Option.toList_none, List.map_nil, List.append_nil]
      refine ⟨hrecovers.setMode fun hm => ?_, hcounted, hlocked,
        fun _ => ⟨hg.remembered, hg.pressed, hg.since, hg.armed⟩⟩
      rcases hsession hm with hallowed | ⟨hinside, -⟩
      · simpa [RecoveryGesture.sessionsAllowed] using hallowed
      · exact hunlocked hinside
    · rw [hpoll] at hsession ⊢
      refine inv_toggle hrecovers hg hcounted hlocked hpressed hfired hlong _ hunlocked fun hm => ?_
      rcases hsession hm with hallowed | ⟨hinside, hnot⟩
      · simpa [RecoveryGesture.sessionsAllowed] using hallowed
      · -- a session that goes on has not entered the fallback
        exact absurd (by simp [hunlocked hinside]) hnot

/-! ### The marker -/

lemma setLocked_works (marker locked : Bool) :
    (setLocked marker locked ⟨true, true, true, true⟩).1 = locked := by
  cases marker <;> cases locked <;> rfl

/-- An iteration keeps the marker in step exactly if a toggle inside a session releases the
virtual keys. -/
lemma marked_step {s : RecoveryRun} {i : Iteration} (h : Marked s) (hworks : MarkerWorks i) :
    Marked (s.step i) ↔ KeysReleased s i := by
  by_cases hreads : s.service.Reads i
  swap
  · obtain ⟨mode, -, hstopped, hiterate⟩ := RecoveryService.iterate_of_not_reads hreads
    refine iff_of_true (fun hmode => ?_) fun _ h => absurd h hreads
    simp only [step, hiterate] at hmode ⊢
    exact h fun hs => hmode (hstopped hs)
  have hmarked : (s.service.readFn i).1.marker = true ↔
      (s.service.readFn i).1.gesture.fallbackLocked = true := by
    rw [RecoveryService.readFn_marker, readFn_locked]
    exact h hreads.1
  cases hread : (s.service.readFn i).2 with
  | false =>
    obtain ⟨mode, -, -, hiterate⟩ := RecoveryService.iterate_of_read_fails hreads hread
    refine iff_of_true (fun _ => ?_) fun _ _ hpasses => by simp [hread] at hpasses
    simp only [step, hiterate]
    exact hmarked
  | true =>
    obtain ⟨mode, hiterate, -, hwaiting, hsession⟩ := RecoveryService.iterate_of_read hreads hread
    obtain ⟨hsilent, hpoll⟩ | ⟨since, -, -, -, htoggles, hpoll⟩ :=
      (s.service.readFn i).1.pollRecoveryGesture_cases i
    · refine iff_of_true (fun _ => ?_) fun _ _ _ h => absurd hsilent h
      simp only [step, hiterate, hpoll]
      exact hmarked
    · rw [hpoll] at hwaiting hsession
      simp only [Marked, step, hiterate, hpoll, KeysReleased]
      rw [MarkerWorks] at hworks
      cases hreleased : i.keysReleased with
      | true => simp [hworks, setLocked_works]
      | false =>
        cases hm : s.service.mode with
        | stopped => exact absurd hm hreads.1
        | waiting => simp [hwaiting hm hreleased]
        | session =>
          -- the gesture has turned and the marker has not
          have hends : mode = .waiting := hsession hm hreleased
          refine iff_of_false (fun hafter => ?_) fun hkeys => ?_
          · have hsame := hafter (by simp [hends])
            simp only [Bool.false_eq_true, ↓reduceIte, hmarked] at hsame
            cases hl : (s.service.readFn i).1.gesture.fallbackLocked <;> simp [hl] at hsame
          · exact absurd (hkeys rfl hreads hread htoggles) (by simp)

lemma inv_start {heldSince : Option ℕ} {now : ℕ} (h : ∀ since ∈ heldSince, since ≤ now) :
    Inv (start heldSince now) where
  recovers := ⟨by simp [start], by simp [start], by simp [start], fun _ => rfl, by simp [start]⟩
  counted := by simp [start]
  locked := by simp [start, RecoveryService.new, RecoveryGesture.new]
  grounded := by
    intro _
    refine ⟨rfl, ?_, ?_, by simp [start]⟩
    · cases heldSince <;> rfl
    · intro told htold since hsince
      obtain rfl : heldSince = some since := hsince
      obtain rfl : now = told := by
        simpa [start, RecoveryService.new, RecoveryGesture.new] using htold
      exact h since rfl

/-- The run after some iterations. -/
def after (heldSince : Option ℕ) (now : ℕ) (iterations : List Iteration) : RecoveryRun :=
  run step (start heldSince now) iterations

/-- In every state of a run the gesture has toggled at most once for each hold of Fn and after
the whole duration, the actions alternate, and there is no session while the fallback is
locked.  If the operations on the marker succeed, the marker is there exactly while the
fallback is locked, in every state, exactly if every toggle inside a session releases the
virtual keys. -/
theorem recovers_and_marked_iff_keysReleased {heldSince : Option ℕ} {now : ℕ}
    {iterations : List Iteration} (hstart : ∀ since ∈ heldSince, since ≤ now)
    (htimely : Meets step Timely (start heldSince now) iterations) :
    (∀ front, front <+: iterations → Recovers (after heldSince now front)) ∧
      ((∀ i ∈ iterations, MarkerWorks i) →
        ((∀ front, front <+: iterations → Marked (after heldSince now front)) ↔
          Meets step KeysReleased (start heldSince now) iterations)) := by
  constructor
  · rintro front ⟨rest, rfl⟩
    have hfront := (meets_append.1 htimely).1
    exact (run_invariant_of_meets (fun _ _ => inv_step) (inv_start hstart) hfront).recovers
  · intro hworks
    exact forall_prefix_iff_meets_of_invariant (P := Marked) (fun _ h => h)
      (fun _ _ h hw => (marked_step h hw).2) (fun _ _ h hw => (marked_step h hw).1)
      (fun _ => by simp [start, RecoveryService.new, RecoveryGesture.new])
      (meets_of_forall hworks)

/-- An iteration without any failure. -/
def calm (fn : Option FnRead) (time : ℕ) (connection : Option Bool) : Iteration where
  shutdown := false
  failsBefore := false
  fn := fn
  fnTime := time
  failsOnChange := false
  pollTime := time
  keysReleased := true
  markerAnswers := ⟨true, true, true, true⟩
  failsAfter := false
  connection := connection
  deviceLost := false
  fallbackFails := false

/-- A session starts, Fn is pressed, and it is held for the whole duration. -/
def heldInSession : List Iteration :=
  [calm none 0 (some true), calm (some ⟨[(1, true)], false⟩) 2 none, calm none 8002 none]

theorem recovers_and_marked_iff_keysReleased_held :
    (∀ front, front <+: heldInSession → Recovers (after none 0 front)) ∧
      ((∀ i ∈ heldInSession, MarkerWorks i) →
        ((∀ front, front <+: heldInSession → Marked (after none 0 front)) ↔
          Meets step KeysReleased (start none 0) heldInSession)) :=
  recovers_and_marked_iff_keysReleased (by simp) (by simp [heldInSession, Meets, Timely, calm])

/-- The virtual keys cannot be released when Fn has been held for the whole duration inside a
session: the service is locked, goes on, and there is no marker. -/
theorem not_marked_release_fails :
    ¬ ∀ iterations : List Iteration, (∀ i ∈ iterations, MarkerWorks i) →
        Meets step Timely (start none 0) iterations → Marked (after none 0 iterations) := by
  intro h
  have hmarked := h
    [calm none 0 (some true), calm (some ⟨[(1, true)], false⟩) 2 none,
      { calm none 8002 none with keysReleased := false }]
    (by simp [MarkerWorks, calm]) (by simp [Meets, Timely, calm])
  exact absurd ((hmarked (by decide)).2 (by decide)) (by decide)

end RecoveryRun

end TouchBar.Hardware
