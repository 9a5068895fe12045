import TouchBar.Hardware.Events
import TouchBar.Lib.Runs

/-!
# Who owns a scanout buffer

The session renders into buffers of the hardware daemon: it acquires an available buffer,
renders, and submits it as a frame; the daemon flips to the frame and gives the buffer
that it showed before back.  Each side checks what the other sends and ends the session at
a violation.  A state here is both sides with the messages between them, and a step is
taken by one side.

The invariant lists the buffers that the session counts as in flight in the order of
their frames: those whose release is on its way, then what the daemon holds, then the
frames that it has not read.
-/

namespace TouchBar.Hardware

open Lib

/-- `HardwareMessage`. -/
inductive HardwareMessage where
  | bufferReleased (index sequence : ℕ)
  | touch (event : TouchEvent)
  | fnChanged (pressed : Bool)
  deriving DecidableEq, Repr

/-- `SessionMessage`. -/
inductive SessionMessage where
  | frameReady (index sequence : ℕ)
  | key (key : SystemKey) (phase : KeyPhase)
  deriving DecidableEq, Repr

/-! ## The session -/

/-- What a call on the output of the session can fail with. -/
inductive OutputError where
  /-- "submitted ADP buffer index is out of range" -/
  | submittedOutOfRange
  /-- "ADP buffer {index} was submitted while still in flight" -/
  | stillInFlight (index : ℕ)
  /-- "released ADP buffer index is out of range" -/
  | releasedOutOfRange
  /-- "stale ADP release for buffer {index}: sequence {sequence}, expected {slot}" -/
  | staleRelease (index sequence : ℕ) (slot : Option ℕ)
  /-- The connection has failed. -/
  | connection
  deriving DecidableEq, Repr

/-- The part of `DirectOutput` that its buffers and messages use. -/
structure DirectOutput where
  available : List ℕ
  inFlight : List (Option ℕ)
  pendingTouch : List TouchEvent
  pendingFn : Option Bool
  nextSequence : ℕ
  deriving DecidableEq, Repr

/-- A number of 16 bits; `index as u16` keeps the low ones. -/
def u16 (index : ℕ) : ℕ := index % 2 ^ 16

namespace DirectOutput

/-- `DirectOutput::new`. -/
def new (bufferCount : ℕ) : DirectOutput where
  available := List.range bufferCount
  inFlight := List.replicate bufferCount none
  pendingTouch := []
  pendingFn := none
  nextSequence := 1

/-- The loop of `poll_releases`, over the messages that the reader has put into its channel. -/
def pollReleases : DirectOutput → List HardwareMessage → DirectOutput × Option OutputError
  | output, [] => (output, none)
  | output, .touch event :: rest =>
    pollReleases { output with pendingTouch := output.pendingTouch ++ [event] } rest
  | output, .fnChanged pressed :: rest =>
    pollReleases { output with pendingFn := some pressed } rest
  | output, .bufferReleased index sequence :: rest =>
    match output.inFlight[index]? with
    | none => (output, some .releasedOutOfRange)
    | some slot =>
      if slot ≠ some sequence then (output, some (.staleRelease index sequence slot))
      else
        pollReleases
          { output with
              inFlight := output.inFlight.set index none
              available := output.available ++ [index] } rest

/-- `acquire`, after its `poll_releases`. -/
def popAvailable (output : DirectOutput) : DirectOutput × Option ℕ :=
  match output.available with
  | [] => (output, none)
  | index :: rest => ({ output with available := rest }, some index)

/-- `submit`, with whether the message can be sent: the message, or the error. -/
def submit (output : DirectOutput) (index : ℕ) (sent : Bool) :
    DirectOutput × Except OutputError SessionMessage :=
  match output.inFlight[index]? with
  | none => (output, .error .submittedOutOfRange)
  | some (some _) => (output, .error (.stillInFlight index))
  | some none =>
    let sequence := output.nextSequence
    -- `wrapping_add(1).max(1)` on 64 bits
    let output := { output with nextSequence := max ((sequence + 1) % 2 ^ 64) 1 }
    if sent then
      ({ output with inFlight := output.inFlight.set index (some sequence) },
        .ok (.frameReady (u16 index) sequence))
    else (output, .error .connection)

/-- The buffers in flight. -/
def flying (output : DirectOutput) : List ℕ :=
  (List.range output.inFlight.length).filter fun index =>
    (output.inFlight[index]?.getD none).isSome

end DirectOutput

/-! ## The hardware daemon -/

/-- `ServiceScanout`. -/
inductive ServiceScanout where
  | fallback
  | session (index sequence : ℕ)
  deriving DecidableEq, Repr

/-- The buffer of a session that is shown, with the sequence of its frame. -/
def ServiceScanout.frame : ServiceScanout → Option (ℕ × ℕ)
  | fallback => none
  | session index sequence => some (index, sequence)

/-- What a frame can end a session with. -/
inductive FrameError where
  /-- "session submitted an out-of-range hardware buffer" -/
  | outOfRange
  /-- "session resubmitted the buffer currently being scanned out" -/
  | resubmitted
  /-- "session submitted a stale hardware sequence" -/
  | staleSequence
  /-- The display or the connection has failed. -/
  | device
  deriving DecidableEq, Repr

/-- The part of `run_session_inner` that frames use: the framebuffers lent to the session,
what is shown, and the last sequence. -/
structure FrameLoop where
  framebuffers : ℕ
  scanout : ServiceScanout
  lastSequence : ℕ
  deriving DecidableEq, Repr

namespace FrameLoop

/-- A session starts. -/
def new (framebuffers : ℕ) : FrameLoop := ⟨framebuffers, .fallback, 0⟩

/-- What `run_session_inner` does with a frame, with whether the flip and the release
succeed: the release that it sends, or the error. -/
def frameReady (loop : FrameLoop) (index sequence : ℕ) (flipped released : Bool) :
    FrameLoop × Except FrameError (Option HardwareMessage) :=
  if loop.framebuffers ≤ index then (loop, .error .outOfRange)
  else if loop.scanout.frame.map Prod.fst = some index then (loop, .error .resubmitted)
  else if sequence ≤ loop.lastSequence then (loop, .error .staleSequence)
  else if !flipped then (loop, .error .device)
  else
    match loop.scanout with
    | .fallback =>
      ({ loop with scanout := .session index sequence, lastSequence := sequence }, .ok none)
    | .session releasedIndex releasedSequence =>
      if !released then (loop, .error .device)
      else
        ({ loop with scanout := .session index sequence, lastSequence := sequence },
          .ok (some (.bufferReleased (u16 releasedIndex) releasedSequence)))

end FrameLoop

/-! ## Both sides -/

/-- The session and the daemon with the messages between them. -/
structure Connection where
  output : DirectOutput
  /-- The buffers that the session has acquired and not submitted. -/
  acquired : List ℕ
  /-- The call that made the session give up. -/
  sessionError : Option OutputError
  toDaemon : List SessionMessage
  toSession : List HardwareMessage
  loop : FrameLoop
  /-- The frame that made the daemon give up. -/
  daemonError : Option FrameError
  /-- The frames that the daemon has read and not given back, in order: what is shown is
  among them. -/
  held : List (ℕ × ℕ)
  /-- How many frames the session has submitted. -/
  submitted : ℕ

/-- A step of one side. -/
inductive BufferStep where
  /-- `poll_releases`, with how many messages have arrived. -/
  | pollReleases (arrived : ℕ)
  /-- `acquire`, with how many messages have arrived. -/
  | acquire (arrived : ℕ)
  /-- `submit` of an acquired buffer, and whether the message can be sent. -/
  | submit (index : ℕ) (sent : Bool)
  /-- The session sends a key. -/
  | emitKey (key : SystemKey) (phase : KeyPhase)
  /-- The session notices that the connection has failed. -/
  | streamFails
  /-- The daemon reads the next message, and whether the flip and the release succeed. -/
  | receive (flipped released : Bool)
  /-- The daemon sends a touch. -/
  | forwardTouch (event : TouchEvent)
  /-- The daemon sends a change of Fn. -/
  | forwardFn (pressed : Bool)
  deriving DecidableEq, Repr

namespace Connection

/-- A connection over some buffers. -/
def new (bufferCount : ℕ) : Connection where
  output := .new bufferCount
  acquired := []
  sessionError := none
  toDaemon := []
  toSession := []
  loop := .new bufferCount
  daemonError := none
  held := []
  submitted := 0

/-- `poll_releases` takes the messages that have arrived. -/
def poll (s : Connection) (arrived : ℕ) : Connection :=
  let (output, error) := s.output.pollReleases (s.toSession.take arrived)
  { s with
      output := output
      sessionError := error
      toSession := s.toSession.drop arrived }

/-- A step of the session. -/
def sessionStep (s : Connection) : BufferStep → Connection
  | .pollReleases arrived => s.poll arrived
  | .acquire arrived =>
    let s := s.poll arrived
    match s.sessionError with
    | some _ => s
    | none =>
      let (output, index) := s.output.popAvailable
      { s with
          output := output
          acquired := s.acquired ++ index.toList }
  | .submit index sent =>
    if index ∈ s.acquired then
      match s.output.submit index sent with
      | (output, .error error) => { s with output := output, sessionError := some error }
      | (output, .ok message) =>
        { s with
            output := output
            acquired := s.acquired.erase index
            toDaemon := s.toDaemon ++ [message]
            submitted := s.submitted + 1 }
    else s
  | .emitKey key phase => { s with toDaemon := s.toDaemon ++ [.key key phase] }
  | .streamFails => { s with sessionError := some .connection }
  | _ => s

/-- A step of the daemon. -/
def daemonStep (s : Connection) : BufferStep → Connection
  | .receive flipped released =>
    match s.toDaemon with
    | [] => s
    | .key _ _ :: rest => { s with toDaemon := rest }
    | .frameReady index sequence :: rest =>
      let s := { s with toDaemon := rest, held := s.held ++ [(index, sequence)] }
      match s.loop.frameReady index sequence flipped released with
      | (loop, .error error) => { s with loop := loop, daemonError := some error }
      | (loop, .ok none) => { s with loop := loop }
      | (loop, .ok (some message)) =>
        { s with
            loop := loop
            held := s.held.tail
            toSession := s.toSession ++ [message] }
  | .forwardTouch event => { s with toSession := s.toSession ++ [.touch event] }
  | .forwardFn pressed => { s with toSession := s.toSession ++ [.fnChanged pressed] }
  | _ => s

/-- A step; a side that has given up takes no more. -/
def step (s : Connection) (a : BufferStep) : Connection :=
  let s := if s.sessionError.isSome then s else s.sessionStep a
  if s.daemonError.isSome then s else s.daemonStep a

/-- The releases among messages to the session. -/
def releases (messages : List HardwareMessage) : List (ℕ × ℕ) :=
  messages.filterMap fun
    | .bufferReleased index sequence => some (index, sequence)
    | _ => none

/-- The frames among messages to the daemon. -/
def frames (messages : List SessionMessage) : List (ℕ × ℕ) :=
  messages.filterMap fun
    | .frameReady index sequence => some (index, sequence)
    | _ => none

/-- What both sides promise each other. -/
structure Lawful (bufferCount : ℕ) (s : Connection) : Prop where
  /-- Every buffer is exactly once available, acquired or in flight. -/
  owned : (s.output.available ++ s.acquired ++ s.output.flying).Perm (List.range bufferCount)
  /-- What is shown is in flight. -/
  shown : ∀ p ∈ s.loop.scanout.frame, s.output.inFlight[p.1]? = some (some p.2) ∧
    p.1 ∉ s.acquired
  /-- So is what the daemon has read, also when it has given up. -/
  held : ∀ p ∈ s.held, s.output.inFlight[p.1]? = some (some p.2) ∧ p.1 ∉ s.acquired
  /-- So is every frame that it has not read. -/
  queued : ∀ p ∈ frames s.toDaemon, s.output.inFlight[p.1]? = some (some p.2) ∧
    p.1 ∉ s.acquired
  /-- The session gives up only if the connection fails. -/
  session : ∀ e ∈ s.sessionError, e = .connection
  /-- The daemon gives up only if the display or the connection fails. -/
  daemon : ∀ e ∈ s.daemonError, e = .device

/-! ## The books of the session -/

/-- The slots of an output hold exactly the frames of a list, and each buffer is once
available, acquired or the buffer of a frame. -/
structure Books (bufferCount : ℕ) (output : DirectOutput) (acquired : List ℕ)
    (l : List (ℕ × ℕ)) : Prop where
  slots : output.inFlight.length = bufferCount
  flight : ∀ i q, output.inFlight[i]? = some (some q) ↔ (i, q) ∈ l
  owned : (output.available ++ acquired ++ l.map Prod.fst).Perm (List.range bufferCount)

section Books

variable {bufferCount : ℕ} {output : DirectOutput} {acquired : List ℕ} {l : List (ℕ × ℕ)}

lemma Books.nodup (h : Books bufferCount output acquired l) :
    (output.available ++ acquired ++ l.map Prod.fst).Nodup :=
  h.owned.nodup_iff.2 List.nodup_range

lemma Books.lt (h : Books bufferCount output acquired l) {i : ℕ}
    (hi : i ∈ output.available ++ acquired ++ l.map Prod.fst) : i < bufferCount :=
  List.mem_range.1 (h.owned.subset hi)

lemma Books.release {i q : ℕ} (h : Books bufferCount output acquired ((i, q) :: l)) :
    Books bufferCount
      { output with
          inFlight := output.inFlight.set i none
          available := output.available ++ [i] } acquired l where
  slots := by rw [← h.slots, List.length_set]
  flight := by
    intro j r
    have hfirst : i ∉ l.map Prod.fst := by
      have hnodup := (List.nodup_append.1 h.nodup).2.1
      rw [List.map_cons, List.nodup_cons] at hnodup
      exact hnodup.1
    have hlt : i < output.inFlight.length := by
      rw [h.slots]
      exact h.lt (by simp)
    by_cases hj : i = j
    · subst hj
      rw [List.getElem?_set_self hlt]
      refine iff_of_false (by simp) fun hmem => hfirst ?_
      exact List.mem_map.2 ⟨(i, r), hmem, rfl⟩
    · rw [List.getElem?_set_ne hj, h.flight j r]
      simp [Ne.symm hj]
  owned := by
    refine List.Perm.trans ?_ h.owned
    rw [List.map_cons, List.append_assoc, List.append_assoc, List.append_assoc]
    refine List.Perm.append_left _ ?_
    have hmiddle : (acquired ++ i :: l.map Prod.fst).Perm (i :: (acquired ++ l.map Prod.fst)) :=
      List.perm_middle
    exact hmiddle.symm

lemma Books.touched (h : Books bufferCount output acquired l) (touches : List TouchEvent)
    (fn : Option Bool) :
    Books bufferCount { output with pendingTouch := touches, pendingFn := fn } acquired l :=
  ⟨h.slots, h.flight, h.owned⟩

/-- Releases of what is in flight are taken without an error. -/
lemma Books.pollReleases {messages : List HardwareMessage}
    (h : Books bufferCount output acquired (releases messages ++ l)) :
    ∃ output', output.pollReleases messages = (output', none) ∧
      Books bufferCount output' acquired l ∧ output'.nextSequence = output.nextSequence := by
  induction messages generalizing output with
  | nil => exact ⟨output, rfl, h, rfl⟩
  | cons message messages ih =>
    cases message with
    | touch event => exact ih (h.touched _ _)
    | fnChanged pressed => exact ih (h.touched _ _)
    | bufferReleased i q =>
      have hslot : output.inFlight[i]? = some (some q) := (h.flight i q).2 (by simp [releases])
      obtain ⟨output', hpoll, hbooks, hnext⟩ := ih h.release
      refine ⟨output', ?_, hbooks, hnext⟩
      rw [DirectOutput.pollReleases, hslot]
      simpa using hpoll

lemma Books.popAvailable (h : Books bufferCount output acquired l) :
    Books bufferCount output.popAvailable.1 (acquired ++ output.popAvailable.2.toList) l := by
  rw [DirectOutput.popAvailable]
  cases havailable : output.available with
  | nil => simpa using h
  | cons i rest =>
    refine ⟨h.slots, h.flight, List.Perm.trans ?_ h.owned⟩
    rw [havailable]
    refine List.Perm.append_right _ ?_
    show (rest ++ (acquired ++ [i])).Perm (i :: rest ++ acquired)
    rw [← List.append_assoc]
    exact List.perm_append_singleton i _

/-- An acquired buffer is submitted without an error. -/
lemma Books.submit (h : Books bufferCount output acquired l) {i : ℕ} (hi : i ∈ acquired) :
    output.submit i true =
        ({ output with
            nextSequence := max ((output.nextSequence + 1) % 2 ^ 64) 1
            inFlight := output.inFlight.set i (some output.nextSequence) },
          .ok (.frameReady (u16 i) output.nextSequence)) ∧
      output.submit i false =
        ({ output with nextSequence := max ((output.nextSequence + 1) % 2 ^ 64) 1 },
          .error .connection) ∧
      ∀ next, Books bufferCount
        { output with
            nextSequence := next
            inFlight := output.inFlight.set i (some output.nextSequence) }
        (acquired.erase i) (l ++ [(i, output.nextSequence)]) := by
  have hlt : i < output.inFlight.length := by
    rw [h.slots]
    exact h.lt (by simp [hi])
  have hfree : i ∉ l.map Prod.fst := fun hmem =>
    (List.nodup_append.1 h.nodup).2.2 i (by simp [hi]) i hmem rfl
  have hslot : output.inFlight[i]? = some none := by
    rw [List.getElem?_eq_getElem hlt]
    cases hvalue : output.inFlight[i] with
    | none => rfl
    | some q =>
      have hmem := (h.flight i q).1 (by rw [List.getElem?_eq_getElem hlt, hvalue])
      exact absurd (List.mem_map.2 ⟨(i, q), hmem, rfl⟩) hfree
  refine ⟨?_, ?_, fun next => ⟨?_, ?_, ?_⟩⟩
  · rw [DirectOutput.submit, hslot]
    rfl
  · rw [DirectOutput.submit, hslot]
    rfl
  · rw [← h.slots, List.length_set]
  · intro j r
    by_cases hj : i = j
    · subst hj
      rw [List.getElem?_set_self hlt]
      have hnot : (i, r) ∉ l := fun hmem => hfree (List.mem_map.2 ⟨(i, r), hmem, rfl⟩)
      simp [hnot, eq_comm]
    · rw [List.getElem?_set_ne hj, h.flight j r]
      simp [Ne.symm hj]
  · refine List.Perm.trans ?_ h.owned
    rw [List.map_append, List.append_assoc, List.append_assoc]
    refine List.Perm.append_left _ ?_
    have hback := (List.perm_cons_erase hi).append_right (l.map Prod.fst)
    refine List.Perm.trans ?_ hback.symm
    rw [List.map_singleton, ← List.append_assoc]
    exact List.perm_append_singleton i _

end Books

/-- The buffers in flight are those of the frames in the books. -/
lemma Books.flying {bufferCount : ℕ} {output : DirectOutput} {acquired : List ℕ}
    {l : List (ℕ × ℕ)} (h : Books bufferCount output acquired l) :
    output.flying.Perm (l.map Prod.fst) := by
  have hright : (l.map Prod.fst).Nodup := (List.nodup_append.1 h.nodup).2.1
  refine (List.perm_ext_iff_of_nodup (List.nodup_range.filter _) hright).2 fun i => ?_
  rw [List.mem_filter, List.mem_range]
  constructor
  · rintro ⟨-, hflying⟩
    cases hslot : output.inFlight[i]? with
    | none => simp [hslot] at hflying
    | some slot =>
      cases slot with
      | none => simp [hslot] at hflying
      | some q => exact List.mem_map.2 ⟨(i, q), (h.flight i q).1 hslot, rfl⟩
  · intro hmem
    obtain ⟨⟨i, q⟩, hq, rfl⟩ := List.mem_map.1 hmem
    have hslot := (h.flight i q).2 hq
    refine ⟨?_, by simp [hslot]⟩
    rw [h.slots]
    exact h.lt (List.mem_append_right _ hmem)

/-! ## The invariant of both sides -/

/-- The frames whose buffers are in flight, from the oldest one. -/
def outstanding (s : Connection) : List (ℕ × ℕ) :=
  releases s.toSession ++ (s.held ++ frames s.toDaemon)

/-- The invariant of a run. -/
structure Inv (bufferCount : ℕ) (s : Connection) : Prop where
  books : Books bufferCount s.output s.acquired s.outstanding
  ordered : (0 :: s.outstanding.map Prod.snd).Pairwise (· < ·)
  recent : ∀ p ∈ s.outstanding, p.2 ≤ s.submitted
  next : s.sessionError = none → s.submitted + 1 < 2 ^ 64 →
    s.output.nextSequence = s.submitted + 1
  framebuffers : s.loop.framebuffers = bufferCount
  shown : ∀ p ∈ s.loop.scanout.frame, p ∈ s.held
  reading : s.daemonError = none → s.held = s.loop.scanout.frame.toList ∧
    s.loop.lastSequence = (s.loop.scanout.frame.map Prod.snd).getD 0
  session : ∀ e ∈ s.sessionError, e = .connection
  daemon : ∀ e ∈ s.daemonError, e = .device

section Steps

variable {bufferCount : ℕ} {s : Connection}

lemma Inv.lawful (h : Inv bufferCount s) : Lawful bufferCount s where
  owned := (h.books.flying.append_left _).trans h.books.owned
  shown := fun p hp => flight_of_mem p (List.mem_append_right _
    (List.mem_append_left _ (h.shown p hp)))
  held := fun p hp => flight_of_mem p (List.mem_append_right _ (List.mem_append_left _ hp))
  queued := fun p hp => flight_of_mem p (List.mem_append_right _ (List.mem_append_right _ hp))
  session := h.session
  daemon := h.daemon
where
  flight_of_mem (p : ℕ × ℕ) (hp : p ∈ s.outstanding) :
      s.output.inFlight[p.1]? = some (some p.2) ∧ p.1 ∉ s.acquired := by
    refine ⟨(h.books.flight p.1 p.2).2 hp, fun hacquired => ?_⟩
    exact (List.nodup_append.1 h.books.nodup).2.2 p.1 (List.mem_append_right _ hacquired) p.1
      (List.mem_map_of_mem hp) rfl

lemma inv_new : Inv bufferCount (new bufferCount) where
  books := by
    refine ⟨by simp [new, DirectOutput.new], fun i q => ?_, ?_⟩
    · refine iff_of_false (fun h => ?_) (by simp [new, outstanding, releases, frames])
      have hmem := List.mem_of_getElem? h
      simp [new, DirectOutput.new] at hmem
    · simp [new, DirectOutput.new, outstanding, releases, frames]
  ordered := by simp [new, outstanding, releases, frames]
  recent := by simp [new, outstanding, releases, frames]
  next := fun _ _ => rfl
  framebuffers := rfl
  shown := by simp [new, FrameLoop.new, ServiceScanout.frame]
  reading := fun _ => ⟨rfl, rfl⟩
  session := by simp [new]
  daemon := by simp [new]

lemma inv_poll (h : Inv bufferCount s) (hrun : s.sessionError = none) (arrived : ℕ) :
    Inv bufferCount (s.poll arrived) ∧ (s.poll arrived).sessionError = none ∧
      (s.poll arrived).submitted = s.submitted := by
  have hsplit : s.outstanding = releases (s.toSession.take arrived) ++
      (releases (s.toSession.drop arrived) ++ (s.held ++ frames s.toDaemon)) := by
    rw [← List.append_assoc, releases, releases, ← List.filterMap_append, List.take_append_drop]
    rfl
  have hbooks := h.books
  rw [hsplit] at hbooks
  obtain ⟨output, hpoll, hbooks', hnext⟩ := hbooks.pollReleases
  have hs : s.poll arrived =
      { s with
          output := output
          sessionError := none
          toSession := s.toSession.drop arrived } := by
    rw [poll, hpoll]
  have hsuffix : (s.poll arrived).outstanding <:+ s.outstanding := by
    rw [hs, hsplit]
    exact List.suffix_append _ _
  refine ⟨?_, by rw [hs], by rw [hs]⟩
  have hordered := h.ordered.sublist ((hsuffix.sublist.map Prod.snd).cons_cons 0)
  have hrecent : ∀ p ∈ (s.poll arrived).outstanding, p.2 ≤ s.submitted := fun p hp =>
    h.recent p (hsuffix.subset hp)
  rw [hs] at hordered hrecent ⊢
  exact {
    books := hbooks'
    ordered := hordered
    recent := hrecent
    next := fun _ hlt => hnext.trans (h.next hrun hlt)
    framebuffers := h.framebuffers
    shown := h.shown
    reading := h.reading
    session := by simp
    daemon := h.daemon }

lemma popAvailable_next (output : DirectOutput) :
    output.popAvailable.1.nextSequence = output.nextSequence := by
  rw [DirectOutput.popAvailable]
  cases output.available <;> rfl

lemma inv_submit_fails (h : Inv bufferCount s) {i : ℕ} (hi : i ∈ s.acquired) :
    Inv bufferCount (s.sessionStep (.submit i false)) := by
  rw [sessionStep, if_pos hi, (h.books.submit hi).2.1]
  exact {
    books := ⟨h.books.slots, h.books.flight, h.books.owned⟩
    ordered := h.ordered
    recent := h.recent
    next := by simp
    framebuffers := h.framebuffers
    shown := h.shown
    reading := h.reading
    session := by simp
    daemon := h.daemon }

/-- A submitted frame comes last. -/
lemma inv_submit (h : Inv bufferCount s) (hrun : s.sessionError = none)
    (hcount : bufferCount ≤ 2 ^ 16) (hlt : s.submitted + 1 < 2 ^ 64) {i : ℕ}
    (hi : i ∈ s.acquired) : Inv bufferCount (s.sessionStep (.submit i true)) := by
  obtain ⟨hsent, -, hbooks⟩ := h.books.submit hi
  have hnext := h.next hrun hlt
  have hu16 : u16 i = i := by
    refine Nat.mod_eq_of_lt (lt_of_lt_of_le ?_ hcount)
    exact h.books.lt (by simp [hi])
  have hframes : frames (s.toDaemon ++ [.frameReady (u16 i) s.output.nextSequence]) =
      frames s.toDaemon ++ [(i, s.output.nextSequence)] := by
    simp [frames, hu16]
  have hout : (s.sessionStep (.submit i true)).outstanding =
      s.outstanding ++ [(i, s.output.nextSequence)] := by
    rw [outstanding, sessionStep, if_pos hi, hsent]
    show releases s.toSession ++ (s.held ++ frames (s.toDaemon ++ [_])) = _
    rw [hframes, outstanding, List.append_assoc, List.append_assoc]
  have hbooks' := hbooks (max ((s.output.nextSequence + 1) % 2 ^ 64) 1)
  rw [← hout] at hbooks'
  rw [sessionStep, if_pos hi, hsent] at hbooks' hout ⊢
  refine {
    books := hbooks'
    ordered := ?_
    recent := ?_
    next := ?_
    framebuffers := h.framebuffers
    shown := h.shown
    reading := h.reading
    session := by simp [hrun]
    daemon := h.daemon }
  · rw [hout, List.map_append, ← List.cons_append, List.pairwise_append]
    refine ⟨h.ordered, List.pairwise_singleton _ _, fun q hq r hr => ?_⟩
    obtain rfl := List.mem_singleton.1 hr
    rw [hnext]
    rcases List.mem_cons.1 hq with rfl | hq
    · omega
    · obtain ⟨p, hp, rfl⟩ := List.mem_map.1 hq
      exact Nat.lt_succ_of_le (h.recent p hp)
  · rw [hout]
    intro p hp
    rcases List.mem_append.1 hp with hp | hp
    · exact (h.recent p hp).trans (Nat.le_succ _)
    · obtain rfl := List.mem_singleton.1 hp
      exact hnext.le
  · intro _ hmore
    show max ((s.output.nextSequence + 1) % 2 ^ 64) 1 = s.submitted + 1 + 1
    have hmore' : s.submitted + 1 + 1 < 2 ^ 64 := hmore
    rw [hnext, Nat.mod_eq_of_lt hmore']
    omega

/-- A step of the session keeps the invariant while fewer than `2 ^ 64` frames are
submitted. -/
lemma inv_sessionStep (h : Inv bufferCount s) (hrun : s.sessionError = none)
    (hcount : bufferCount ≤ 2 ^ 16) (a : BufferStep)
    (hlt : (s.sessionStep a).submitted < 2 ^ 64) : Inv bufferCount (s.sessionStep a) := by
  cases a with
  | pollReleases arrived => exact (inv_poll h hrun arrived).1
  | acquire arrived =>
    obtain ⟨hpoll, hnone, -⟩ := inv_poll h hrun arrived
    rw [sessionStep]
    simp only [hnone]
    exact {
      books := hpoll.books.popAvailable
      ordered := hpoll.ordered
      recent := hpoll.recent
      next := fun _ hmore => (popAvailable_next _).trans (hpoll.next hnone hmore)
      framebuffers := hpoll.framebuffers
      shown := hpoll.shown
      reading := hpoll.reading
      session := by simp
      daemon := hpoll.daemon }
  | submit i sent =>
    by_cases hi : i ∈ s.acquired
    · -- a message that cannot be sent counts as no frame, but also ends the session
      cases sent with
      | false => exact inv_submit_fails h hi
      | true =>
        rw [sessionStep, if_pos hi, (h.books.submit hi).1] at hlt
        exact inv_submit h hrun hcount hlt hi
    · rw [sessionStep, if_neg hi]
      exact h
  | emitKey key phase =>
    have hframes : frames (s.toDaemon ++ [.key key phase]) = frames s.toDaemon := by
      simp [frames]
    have hout : (s.sessionStep (.emitKey key phase)).outstanding = s.outstanding := by
      rw [outstanding, sessionStep, hframes, outstanding]
    exact {
      books := hout ▸ h.books
      ordered := hout ▸ h.ordered
      recent := hout ▸ h.recent
      next := h.next
      framebuffers := h.framebuffers
      shown := h.shown
      reading := h.reading
      session := h.session
      daemon := h.daemon }
  | streamFails =>
    exact {
      books := h.books
      ordered := h.ordered
      recent := h.recent
      next := by simp [sessionStep]
      framebuffers := h.framebuffers
      shown := h.shown
      reading := h.reading
      session := by simp [sessionStep]
      daemon := h.daemon }
  | receive flipped released => exact h
  | forwardTouch event => exact h
  | forwardFn pressed => exact h

/-- A frame that comes after what is held passes all checks of the daemon. -/
lemma frameReady_passes {loop : FrameLoop} {i q : ℕ} (hi : i < loop.framebuffers)
    (hshown : ∀ p ∈ loop.scanout.frame, p.1 ≠ i) (hq : loop.lastSequence < q)
    (flipped released : Bool) :
    loop.frameReady i q flipped released =
      if !flipped then (loop, .error .device)
      else
        match loop.scanout with
        | .fallback =>
          ({ loop with scanout := .session i q, lastSequence := q }, .ok none)
        | .session releasedIndex releasedSequence =>
          if !released then (loop, .error .device)
          else
            ({ loop with scanout := .session i q, lastSequence := q },
              .ok (some (.bufferReleased (u16 releasedIndex) releasedSequence))) := by
  have hactive : ¬ loop.scanout.frame.map Prod.fst = some i := by
    intro h
    obtain ⟨p, hp, hpi⟩ := Option.map_eq_some_iff.1 h
    exact hshown p hp hpi
  rw [FrameLoop.frameReady, if_neg (not_le.2 hi), if_neg hactive, if_neg (not_le.2 hq)]

/-- A step of the daemon leaves the session and the list of frames as they are. -/
lemma Inv.moves (h : Inv bufferCount s) {t : Connection} (houtput : t.output = s.output)
    (hacquired : t.acquired = s.acquired) (hsubmitted : t.submitted = s.submitted)
    (hsession : t.sessionError = s.sessionError) (hout : t.outstanding = s.outstanding)
    (hframebuffers : t.loop.framebuffers = bufferCount)
    (hshown : ∀ p ∈ t.loop.scanout.frame, p ∈ t.held)
    (hreading : t.daemonError = none → t.held = t.loop.scanout.frame.toList ∧
      t.loop.lastSequence = (t.loop.scanout.frame.map Prod.snd).getD 0)
    (hdaemon : ∀ e ∈ t.daemonError, e = .device) : Inv bufferCount t where
  books := by
    rw [houtput, hacquired, hout]
    exact h.books
  ordered := hout ▸ h.ordered
  recent := by
    rw [hout, hsubmitted]
    exact h.recent
  next := by
    rw [houtput, hsubmitted, hsession]
    exact h.next
  framebuffers := hframebuffers
  shown := hshown
  reading := hreading
  session := hsession ▸ h.session
  daemon := hdaemon

/-- The frame that the daemon reads next is of a buffer that it does not hold, and newer than
what it has read. -/
lemma next_frame (h : Inv bufferCount s) (hrun : s.daemonError = none) {i q : ℕ}
    {rest : List SessionMessage} (hqueue : s.toDaemon = .frameReady i q :: rest) :
    i < s.loop.framebuffers ∧ (∀ p ∈ s.loop.scanout.frame, p.1 ≠ i) ∧ s.loop.lastSequence < q := by
  have hout : s.outstanding =
      (releases s.toSession ++ s.held) ++ (i, q) :: frames rest := by
    rw [outstanding, hqueue, List.append_assoc]
    rfl
  obtain ⟨-, hlast⟩ := h.reading hrun
  refine ⟨?_, fun p hp hpi => ?_, ?_⟩
  · rw [h.framebuffers]
    exact h.books.lt (by simp [hout])
  · have hnodup := (List.nodup_append.1 h.books.nodup).2.1
    rw [hout, List.map_append, List.nodup_append] at hnodup
    refine hnodup.2.2 p.1 (List.mem_map_of_mem ?_) i (by simp) hpi
    exact List.mem_append_right _ (h.shown p hp)
  · have hordered := h.ordered
    rw [hout, List.map_append, ← List.cons_append, List.pairwise_append] at hordered
    refine hordered.2.2 _ ?_ q (by simp)
    rw [hlast]
    cases hframe : s.loop.scanout.frame with
    | none => exact List.mem_cons_self
    | some p =>
      refine List.mem_cons_of_mem 0 (List.mem_map_of_mem ?_)
      exact List.mem_append_right _ (h.shown p hframe)

lemma inv_receive (h : Inv bufferCount s) (hrun : s.daemonError = none)
    (hcount : bufferCount ≤ 2 ^ 16) (flipped released : Bool) :
    Inv bufferCount (s.daemonStep (.receive flipped released)) := by
  rw [daemonStep]
  cases hqueue : s.toDaemon with
  | nil => exact h
  | cons message rest =>
    cases message with
    | key key phase =>
      refine h.moves rfl rfl rfl rfl ?_ h.framebuffers h.shown h.reading h.daemon
      rw [outstanding, outstanding, hqueue]
      rfl
    | frameReady i q =>
      obtain ⟨hi, hother, hq⟩ := next_frame h hrun hqueue
      obtain ⟨hheld, -⟩ := h.reading hrun
      have hout : s.outstanding =
          releases s.toSession ++ ((s.held ++ [(i, q)]) ++ frames rest) := by
        rw [outstanding, hqueue, List.append_assoc]
        rfl
      have hkept : ∀ p ∈ s.loop.scanout.frame, p ∈ s.held ++ [(i, q)] := fun p hp =>
        List.mem_append_left _ (h.shown p hp)
      dsimp only
      rw [frameReady_passes hi hother hq]
      cases flipped with
      | false =>
        exact h.moves rfl rfl rfl rfl hout.symm h.framebuffers hkept (by simp) (by simp)
      | true =>
        cases hscanout : s.loop.scanout with
        | fallback =>
          have hnone : s.held = [] := by rw [hheld, hscanout]; rfl
          refine h.moves rfl rfl rfl rfl hout.symm h.framebuffers ?_ ?_ h.daemon
          · simp [ServiceScanout.frame]
          · simp [ServiceScanout.frame, hnone]
        | session j r =>
          have hone : s.held = [(j, r)] := by rw [hheld, hscanout]; rfl
          cases released with
          | false =>
            exact h.moves rfl rfl rfl rfl hout.symm h.framebuffers hkept (by simp) (by simp)
          | true =>
            have hj : u16 j = j := by
              refine Nat.mod_eq_of_lt (lt_of_lt_of_le ?_ hcount)
              exact h.books.lt (by simp [hout, hone])
            refine h.moves rfl rfl rfl rfl ?_ h.framebuffers ?_ ?_ h.daemon
            · -- the release takes the place of what was held
              rw [hout]
              simp [outstanding, releases, hone, hj]
            · simp [ServiceScanout.frame, hone]
            · simp [ServiceScanout.frame, hone]

lemma inv_daemonStep (h : Inv bufferCount s) (hrun : s.daemonError = none)
    (hcount : bufferCount ≤ 2 ^ 16) (a : BufferStep) : Inv bufferCount (s.daemonStep a) := by
  cases a with
  | receive flipped released => exact inv_receive h hrun hcount flipped released
  | forwardTouch event =>
    refine h.moves rfl rfl rfl rfl ?_ h.framebuffers h.shown h.reading h.daemon
    simp [daemonStep, outstanding, releases]
  | forwardFn pressed =>
    refine h.moves rfl rfl rfl rfl ?_ h.framebuffers h.shown h.reading h.daemon
    simp [daemonStep, outstanding, releases]
  | pollReleases arrived => exact h
  | acquire arrived => exact h
  | submit i sent => exact h
  | emitKey key phase => exact h
  | streamFails => exact h

lemma daemonStep_submitted (s : Connection) (a : BufferStep) :
    (s.daemonStep a).submitted = s.submitted := by
  cases a with
  | receive flipped released =>
    rw [daemonStep]
    cases s.toDaemon with
    | nil => rfl
    | cons message rest =>
      cases message with
      | key key phase => rfl
      | frameReady i q =>
        dsimp only
        split <;> rfl
  | _ => rfl

lemma le_sessionStep_submitted (s : Connection) (a : BufferStep) :
    s.submitted ≤ (s.sessionStep a).submitted := by
  cases a with
  | acquire arrived =>
    rw [sessionStep]
    dsimp only
    split <;> exact le_rfl
  | submit i sent =>
    rw [sessionStep]
    split_ifs
    · split
      · exact le_rfl
      · exact Nat.le_succ _
    · exact le_rfl
  | _ => exact le_rfl

/-- A step keeps the invariant while fewer than `2 ^ 64` frames are submitted. -/
lemma inv_step (hcount : bufferCount ≤ 2 ^ 16) (a : BufferStep)
    (h : s.submitted < 2 ^ 64 → Inv bufferCount s) :
    (s.step a).submitted < 2 ^ 64 → Inv bufferCount (s.step a) := by
  intro hlt
  have hsession : (if s.sessionError.isSome then s else s.sessionStep a).submitted < 2 ^ 64 →
      Inv bufferCount (if s.sessionError.isSome then s else s.sessionStep a) := by
    intro hlater
    split_ifs at hlater ⊢ with herror
    · exact h hlater
    · have hnow := h ((le_sessionStep_submitted s a).trans_lt hlater)
      exact inv_sessionStep hnow (by simpa using herror) hcount a hlater
  rw [step] at hlt ⊢
  generalize (if s.sessionError.isSome then s else s.sessionStep a) = t at hlt hsession ⊢
  split_ifs at hlt ⊢ with herror
  · exact hsession hlt
  · rw [daemonStep_submitted] at hlt
    exact inv_daemonStep (hsession hlt) (by simpa using herror) hcount a

end Steps

/-- Both sides after some steps, over as many buffers as a number of 16 bits can count. -/
def after (bufferCount : UInt16) (steps : List BufferStep) : Connection :=
  run step (new bufferCount.toNat) steps

/-- Two frames through three buffers: the second one gives the buffer of the first one back. -/
def twoFrames : List BufferStep :=
  [.acquire 0, .submit 0 true, .acquire 0, .receive true true, .submit 1 true,
    .receive true true, .acquire 1]

example : (after 3 twoFrames).acquired = [2] ∧ (after 3 twoFrames).output.available = [0] := by
  decide

end Connection

end TouchBar.Hardware
