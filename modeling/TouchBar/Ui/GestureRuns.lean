import TouchBar.Lib.Runs
import TouchBar.Ui.Gesture

/-!
# Gestures of contacts

The arena is taken apart into one machine for each contact, which sees the inputs of its own
contact and the ticks only.  For a stream in which every contact comes down, moves and ends in
turn, the events of a contact are then a list of gestures, the last one possibly open: pressed,
possibly one of a pan and a long press, and an ending that fits.
-/

namespace TouchBar.Ui

open TouchBar.Rust TouchBar.Lib

variable {K : Type*}

/-! ## Streams -/

/-- A call of `handle`, with the map of its time, or of `tick`. -/
inductive Input (K : Type*) where
  | handle (map : GestureMap K) (contact : Contact K)
  | tick (now : ℕ)

/-- The events of one contact. -/
def ofContact (c : ℕ) (events : List (GestureEvent K)) : List (GestureEvent K) :=
  events.filter fun event => event.contact = c

lemma ofContact_self {c : ℕ} {events : List (GestureEvent K)}
    (h : ∀ event ∈ events, event.contact = c) : ofContact c events = events :=
  List.filter_eq_self.mpr fun event he => by simpa using h event he

lemma ofContact_other {c d : ℕ} {events : List (GestureEvent K)} (hne : d ≠ c)
    (h : ∀ event ∈ events, event.contact = d) : ofContact c events = [] :=
  List.filter_eq_nil_iff.mpr fun event he => by simp [h event he, hne]

lemma ofContact_append (c : ℕ) (events more : List (GestureEvent K)) :
    ofContact c (events ++ more) = ofContact c events ++ ofContact c more :=
  List.filter_append ..

/-- Among the events that come from the entries of a map, those of one contact come from its
own entry. -/
lemma ofContact_flatMap (sessions : BTreeMap ℕ (Session K))
    (f : ℕ × Session K → List (GestureEvent K))
    (hf : ∀ entry, ∀ event ∈ f entry, event.contact = entry.1) (c : ℕ) :
    ofContact c (sessions.entries.flatMap f) =
      (sessions.get c).elim [] fun session => f (c, session) := by
  have hsorted := sessions.sorted
  have hget : ∀ session, sessions.get c = some session ↔ (c, session) ∈ sessions.entries :=
    fun session => BTreeMap.get_eq_some_iff
  have hother : ∀ entries : List (ℕ × Session K), (∀ entry ∈ entries, entry.1 ≠ c) →
      ofContact c (entries.flatMap f) = [] := by
    intro entries hne
    refine List.filter_eq_nil_iff.mpr fun event he => ?_
    obtain ⟨entry, hentry, hevent⟩ := List.mem_flatMap.mp he
    simp [hf entry event hevent, hne entry hentry]
  cases hc : sessions.get c with
  | none =>
    refine hother _ fun entry hentry heq => ?_
    obtain ⟨key, session⟩ := entry
    obtain rfl : key = c := heq
    simp [(hget session).mpr hentry] at hc
  | some session =>
    -- the entries before and after the one of the contact have other keys
    obtain ⟨front, back, hsplit⟩ := List.append_of_mem ((hget session).mp hc)
    rw [hsplit, List.pairwise_append, List.pairwise_cons] at hsorted
    obtain ⟨-, ⟨hback, -⟩, hfront⟩ := hsorted
    rw [hsplit, List.flatMap_append, List.flatMap_cons, ofContact_append, ofContact_append,
      hother front fun entry hentry => (hfront entry hentry _ List.mem_cons_self).ne,
      hother back fun entry hentry => (hback entry hentry).ne', ofContact_self (hf (c, session))]
    simp

variable [Field K] [LinearOrder K] [Hypot K]

def GestureArena.step (arena : GestureArena K) : Input K → GestureArena K × List (GestureEvent K)
  | .handle map contact => arena.handle map contact
  | .tick now => arena.tick now

/-- The arena after a stream. -/
def arenaAfter (stream : List (Input K)) : GestureArena K :=
  run (fun arena input => (arena.step input).1) .default stream

/-- The events from an arena on. -/
def eventsFrom (arena : GestureArena K) : List (Input K) → List (GestureEvent K)
  | [] => []
  | input :: stream => (arena.step input).2 ++ eventsFrom (arena.step input).1 stream

def eventsOf (c : ℕ) (stream : List (Input K)) : List (GestureEvent K) :=
  ofContact c (eventsFrom .default stream)

/-- Whether a contact is down after an input. -/
def downStep (c : ℕ) (down : Bool) : Input K → Bool
  | .handle _ contact =>
    if contact.id = c then contact.phase == .down || contact.phase == .motion else down
  | .tick _ => down

def isDown (c : ℕ) (stream : List (Input K)) : Bool := run (downStep c) false stream

/-- A contact comes down when it is not, and does everything else when it is. -/
def Allowed (c : ℕ) (down : Bool) : Input K → Prop
  | .handle _ contact => contact.id = c → (contact.phase = .down ↔ down = false)
  | .tick _ => True

/-- Every contact comes down, moves and ends in turn. -/
def WellFormed (stream : List (Input K)) : Prop :=
  ∀ c, Meets (downStep c) (Allowed c) false stream

/-- The inputs that concern a contact. -/
def concerns (c : ℕ) : Input K → Bool
  | .handle _ contact => contact.id = c
  | .tick _ => true

/-- The target that the last `Down` of a contact hit, and the positions of the contact since
then. -/
structure Track (K : Type*) where
  target : Option (GestureTarget K)
  positions : List (Point K)

def Track.step (c : ℕ) (track : Track K) : Input K → Track K
  | .handle map contact =>
    if contact.id = c then
      match contact.phase with
      | .down => ⟨map.hitTest contact.position, [contact.position]⟩
      | .motion | .up => ⟨track.target, track.positions ++ [contact.position]⟩
      | .cancel => track
    else track
  | .tick _ => track

def trackOf (c : ℕ) (stream : List (Input K)) : Track K := run (Track.step c) ⟨none, []⟩ stream

/-! ## The shape of gestures -/

/-- `Pressed`, and what may follow before the end: a pan or a long press. -/
def Course (id c : ℕ) (winner : Option Winner) (events : List (GestureEvent K)) : Prop :=
  match winner with
  | none => ∃ p, events = [.pressed id c p]
  | some .longPress => ∃ p q, events = [.pressed id c p, .longPressBegan id c q]
  | some .pan => ∃ p q changes, events = .pressed id c p :: .panBegan id c q :: changes ∧
      ∀ event ∈ changes, ∃ r t d, event = .panChanged id c r t d

/-- The endings of a gesture. -/
def Ending (id c : ℕ) (winner : Option Winner) (events : List (GestureEvent K)) : Prop :=
  events = [.cancelled id c] ∨
    ∃ p ending, events = ending ++ [.released id c p] ∧
      match winner with
      | none => ending = [] ∨ ∃ q, ending = [.tap id c q]
      | some .longPress => ∃ q, ending = [.longPressEnded id c q]
      | some .pan => ∃ q t v, ending = [.panEnded id c q t v] ∨
          ∃ t' v', ending = [.panEnded id c q t v, .swipe id c t' v']

/-- A gesture from `Pressed` to its end. -/
def Complete (c : ℕ) (events : List (GestureEvent K)) : Prop :=
  ∃ id winner course ending, Course id c winner course ∧ Ending id c winner ending ∧
    events = course ++ ending

omit [Field K] [LinearOrder K] [Hypot K] in
lemma Complete.ne_nil {c : ℕ} {events : List (GestureEvent K)} (h : Complete c events) :
    events ≠ [] := by
  obtain ⟨id, winner, course, ending, hcourse, -, rfl⟩ := h
  cases winner with
  | none =>
    obtain ⟨p, rfl⟩ := hcourse
    simp
  | some winner =>
    cases winner with
    | longPress =>
      obtain ⟨p, q, rfl⟩ := hcourse
      simp
    | pan =>
      obtain ⟨p, q, changes, rfl, -⟩ := hcourse
      simp

/-- What there is of the gesture of a session. -/
def Open (c : ℕ) (session : Option (Session K)) (events : List (GestureEvent K)) : Prop :=
  match session with
  | none => events = []
  | some session => Course session.target.id c session.winner events

/-! ## One contact -/

/-- The arena as one contact sees it: its session and its events. -/
def laneStep (c : ℕ) (session : Option (Session K)) :
    Input K → Option (Session K) × List (GestureEvent K)
  | .handle map contact =>
    if contact.id = c then
      match contact.phase, session with
      | .down, session =>
        match map.hitTest contact.position with
        | none => (session, [])
        | some target => (some (.opened target contact), [.pressed target.id c contact.position])
      | .motion, some session => (some (session.motion contact).1, (session.motion contact).2)
      | .up, some session => (none, session.finish contact)
      | .cancel, some session => (none, [.cancelled session.target.id c])
      | _, none => (none, [])
    else (session, [])
  | .tick now =>
    match session with
    | none => (none, [])
    | some session =>
      (some (session.tick now), if session.recognizes now then [session.longPressBegan c] else [])

lemma mem_motion {session : Session K} {contact : Contact K} {event : GestureEvent K}
    (h : event ∈ (session.motion contact).2) :
    (∃ q, event = .panBegan session.target.id contact.id q) ∨
      ∃ q t d, event = .panChanged session.target.id contact.id q t d := by
  unfold Session.motion at h
  dsimp only at h
  cases hwinner : session.winner with
  | none =>
    simp only [hwinner] at h
    split_ifs at h
    · rcases List.mem_pair.mp h with rfl | rfl
      · exact Or.inl ⟨_, rfl⟩
      · exact Or.inr ⟨_, _, _, rfl⟩
    · simp at h
  | some winner =>
    cases winner with
    | longPress => simp [hwinner] at h
    | pan =>
      simp only [hwinner, List.mem_singleton] at h
      exact Or.inr ⟨_, _, _, h⟩

lemma mem_finish {session : Session K} {contact : Contact K} {event : GestureEvent K}
    (h : event ∈ session.finish contact) :
    event = .released session.target.id contact.id contact.position ∨
      event = .longPressEnded session.target.id contact.id contact.position ∨
      (∃ t v, event = .panEnded session.target.id contact.id contact.position t v ∨
        event = .swipe session.target.id contact.id t v) ∨
      event = .tap session.target.id contact.id contact.position ∧
        ∃ duration limit, .tap duration limit ∈ session.target.recognizers ∧
          max session.maxDistance (distance (subtract contact.position session.origin)) ≤
            limit := by
  rcases List.mem_append.mp h with h | h
  · cases hwinner : session.winner with
    | none =>
      simp only [hwinner] at h
      split_ifs at h with htap
      · refine Or.inr (Or.inr (Or.inr ⟨List.mem_singleton.mp h, ?_⟩))
        obtain ⟨recognizer, hrecognizer, hwins⟩ := List.any_eq_true.mp htap
        cases recognizer with
        | tap duration limit =>
          simp only [tapWins, Bool.and_eq_true, decide_eq_true_eq] at hwins
          exact ⟨duration, limit, hrecognizer, hwins.2⟩
        | longPress | pan | swipe => simp [tapWins] at hwins
      · simp at h
    | some winner =>
      cases winner with
      | longPress =>
        simp only [hwinner, List.mem_singleton] at h
        exact Or.inr (Or.inl h)
      | pan =>
        simp only [hwinner] at h
        rcases List.mem_cons.mp h with h | h
        · exact Or.inr (Or.inr (Or.inl ⟨_, _, Or.inl h⟩))
        · split_ifs at h
          · exact Or.inr (Or.inr (Or.inl ⟨_, _, Or.inr (List.mem_singleton.mp h)⟩))
          · simp at h
  · exact Or.inl (List.mem_singleton.mp h)

lemma motion_contact (session : Session K) (contact : Contact K) :
    ∀ event ∈ (session.motion contact).2, event.contact = contact.id := by
  intro event he
  rcases mem_motion he with ⟨_, rfl⟩ | ⟨_, _, _, rfl⟩ <;> rfl

lemma finish_contact (session : Session K) (contact : Contact K) :
    ∀ event ∈ session.finish contact, event.contact = contact.id := by
  intro event he
  rcases mem_finish he with rfl | rfl | ⟨_, _, rfl | rfl⟩ | ⟨rfl, -⟩ <;> rfl

/-- The arena does to a contact what its own machine does. -/
theorem step_lane (arena : GestureArena K) (input : Input K) (c : ℕ) :
    ((arena.step input).1.sessions.get c, ofContact c (arena.step input).2) =
      laneStep c (arena.sessions.get c) input := by
  cases input with
  | tick now =>
    have hevents := ofContact_flatMap arena.sessions
      (fun entry => if entry.2.recognizes now then [entry.2.longPressBegan entry.1] else [])
      (by
        intro entry event he
        split_ifs at he
        · rw [List.mem_singleton.mp he]
          rfl
        · simp at he) c
    simp only [GestureArena.step, GestureArena.tick, BTreeMap.get_mapValues, hevents, laneStep]
    cases arena.sessions.get c <;> rfl
  | handle map contact =>
    by_cases hc : contact.id = c
    · subst hc
      simp only [GestureArena.step, GestureArena.handle, laneStep, if_true]
      cases hphase : contact.phase with
      | down =>
        dsimp only
        unfold GestureArena.begin
        cases map.hitTest contact.position with
        | none => simp [ofContact]
        | some target => simp [ofContact, GestureEvent.contact, BTreeMap.get_insert]
      | motion =>
        dsimp only
        unfold GestureArena.motion
        cases hget : arena.sessions.get contact.id with
        | none => simp [ofContact, hget]
        | some session =>
          simp [BTreeMap.get_insert, ofContact_self (motion_contact session contact)]
      | up =>
        dsimp only
        unfold GestureArena.end
        cases hget : arena.sessions.get contact.id with
        | none => simp [ofContact, hget]
        | some session =>
          simp [BTreeMap.get_remove, ofContact_self (finish_contact session contact)]
      | cancel =>
        dsimp only
        unfold GestureArena.cancel
        cases hget : arena.sessions.get contact.id with
        | none => simp [ofContact, hget]
        | some session => simp [BTreeMap.get_remove, ofContact, GestureEvent.contact]
    · -- the input of another contact
      have hne : ¬c = contact.id := fun h => hc h.symm
      simp only [GestureArena.step, GestureArena.handle, laneStep, if_neg hc]
      cases contact.phase with
      | down =>
        dsimp only
        unfold GestureArena.begin
        cases map.hitTest contact.position with
        | none => simp [ofContact]
        | some target => simp [ofContact, GestureEvent.contact, BTreeMap.get_insert, hc, hne]
      | motion =>
        dsimp only
        unfold GestureArena.motion
        cases arena.sessions.get contact.id with
        | none => simp [ofContact]
        | some session =>
          simp [BTreeMap.get_insert, hne, ofContact_other hc (motion_contact session contact)]
      | up =>
        dsimp only
        unfold GestureArena.end
        cases arena.sessions.get contact.id with
        | none => simp [ofContact]
        | some session =>
          simp [BTreeMap.get_remove, hne, ofContact_other hc (finish_contact session contact)]
      | cancel =>
        dsimp only
        unfold GestureArena.cancel
        cases arena.sessions.get contact.id with
        | none => simp [ofContact]
        | some session =>
          simp [BTreeMap.get_remove, ofContact, GestureEvent.contact, hc, hne]

lemma session_step (arena : GestureArena K) (input : Input K) (c : ℕ) :
    (arena.step input).1.sessions.get c = (laneStep c (arena.sessions.get c) input).1 :=
  congrArg Prod.fst (step_lane arena input c)

lemma events_step (arena : GestureArena K) (input : Input K) (c : ℕ) :
    ofContact c (arena.step input).2 = (laneStep c (arena.sessions.get c) input).2 :=
  congrArg Prod.snd (step_lane arena input c)

/-! ## What one input preserves -/

section Shape

variable {c : ℕ} {session session' : Option (Session K)} {events more : List (GestureEvent K)}

/-- Gestures of which all are complete but one that belongs to the session. -/
def Gestures (c : ℕ) (session : Option (Session K)) (events : List (GestureEvent K)) : Prop :=
  ∃ (done : List (List (GestureEvent K))) (rest : List (GestureEvent K)),
    (∀ gesture ∈ done, Complete c gesture) ∧ events = done.flatten ++ rest ∧ Open c session rest

omit [Field K] [LinearOrder K] [Hypot K] in
lemma Gestures.extend (h : Gestures c session events)
    (hopen : ∀ rest, Open c session rest → Open c session' (rest ++ more)) :
    Gestures c session' (events ++ more) := by
  obtain ⟨done, rest, hdone, rfl, hrest⟩ := h
  exact ⟨done, rest ++ more, hdone, List.append_assoc .., hopen rest hrest⟩

omit [Field K] [LinearOrder K] [Hypot K] in
lemma Gestures.close {s : Session K} (h : Gestures c (some s) events)
    (hending : Ending s.target.id c s.winner more) : Gestures c none (events ++ more) := by
  obtain ⟨done, rest, hdone, rfl, hrest⟩ := h
  refine ⟨done ++ [rest ++ more], [], ?_, by simp, rfl⟩
  intro gesture hgesture
  rcases List.mem_append.mp hgesture with hmem | hmem
  · exact hdone gesture hmem
  · rw [List.mem_singleton.mp hmem]
    exact ⟨_, _, rest, more, hrest, hending, rfl⟩

lemma motion_target (s : Session K) (contact : Contact K) :
    (s.motion contact).1.target = s.target ∧ (s.motion contact).1.origin = s.origin ∧
      (s.motion contact).1.maxDistance =
        max s.maxDistance (distance (subtract contact.position s.origin)) := by
  unfold Session.motion
  dsimp only
  cases s.winner with
  | none =>
    dsimp only
    split_ifs <;> exact ⟨rfl, rfl, rfl⟩
  | some winner => cases winner <;> exact ⟨rfl, rfl, rfl⟩

lemma motion_course {s : Session K} {contact : Contact K}
    (h : Course s.target.id contact.id s.winner events) :
    Course s.target.id contact.id (s.motion contact).1.winner
      (events ++ (s.motion contact).2) := by
  unfold Session.motion
  dsimp only
  cases hwinner : s.winner with
  | none =>
    rw [hwinner] at h
    obtain ⟨p, rfl⟩ := h
    dsimp only
    split_ifs
    · exact ⟨p, contact.position, [_], rfl, fun event he =>
        ⟨_, _, _, List.mem_singleton.mp he⟩⟩
    · exact ⟨p, rfl⟩
  | some winner =>
    rw [hwinner] at h
    cases winner with
    | longPress => simpa using h
    | pan =>
      obtain ⟨p, q, changes, rfl, hchanges⟩ := h
      refine ⟨p, q, changes ++ [_], rfl, fun event he => ?_⟩
      rcases List.mem_append.mp he with he | he
      · exact hchanges event he
      · exact ⟨_, _, _, List.mem_singleton.mp he⟩

omit [Field K] [Hypot K] in
lemma tick_course {s : Session K} {now : ℕ} (h : Course s.target.id c s.winner events) :
    Course s.target.id c (s.tick now).winner
      (events ++ if s.recognizes now then [s.longPressBegan c] else []) := by
  unfold Session.tick
  split_ifs with hrecognizes
  · have hnone : s.winner = none := by
      simp only [Session.recognizes, Bool.and_eq_true, Option.isNone_iff_eq_none] at hrecognizes
      exact hrecognizes.1
    rw [hnone] at h
    obtain ⟨p, rfl⟩ := h
    exact ⟨p, s.lastPosition, rfl⟩
  · rwa [List.append_nil]

omit [Field K] [Hypot K] in
lemma tick_target (s : Session K) (now : ℕ) :
    (s.tick now).target = s.target ∧ (s.tick now).origin = s.origin ∧
      (s.tick now).maxDistance = s.maxDistance := by
  unfold Session.tick
  split_ifs <;> exact ⟨rfl, rfl, rfl⟩

lemma finish_ending (s : Session K) (contact : Contact K) :
    Ending s.target.id contact.id s.winner (s.finish contact) := by
  refine Or.inr ⟨contact.position, _, rfl, ?_⟩
  cases s.winner with
  | none =>
    dsimp only
    split_ifs
    · exact Or.inr ⟨_, rfl⟩
    · exact Or.inl rfl
  | some winner =>
    cases winner with
    | longPress => exact ⟨_, rfl⟩
    | pan =>
      dsimp only
      split_ifs
      · exact ⟨_, _, _, Or.inr ⟨_, _, rfl⟩⟩
      · exact ⟨_, _, _, Or.inl rfl⟩

/-- All positions lie within a limit around the first of them. -/
def Within (limit : K) (origin : Point K) (positions : List (Point K)) : Prop :=
  positions.head? = some origin ∧ ∀ q ∈ positions, distance (subtract q origin) ≤ limit

lemma Within.append {limit limit' : K} {origin p : Point K} {positions : List (Point K)}
    (h : Within limit origin positions) (hlimit : limit ≤ limit')
    (hp : distance (subtract p origin) ≤ limit') : Within limit' origin (positions ++ [p]) := by
  refine ⟨by simp [List.head?_append, h.1], fun q hq => ?_⟩
  rcases List.mem_append.mp hq with hq | hq
  · exact (h.2 q hq).trans hlimit
  · rwa [List.mem_singleton.mp hq]

/-- What is known about a contact: its session is on the target that it hit, if it is down;
the session remembers how far it went; and its events are gestures. -/
structure Lane (c : ℕ) (down : Bool) (track : Track K) (session : Option (Session K))
    (events : List (GestureEvent K)) : Prop where
  target : session.map Session.target = if down then track.target else none
  within : ∀ s, session = some s → Within s.maxDistance s.origin track.positions
  gestures : Gestures c session events

variable {down : Bool} {track : Track K}

lemma lane_start : Lane c false (⟨none, []⟩ : Track K) none [] :=
  ⟨rfl, by simp, [], [], by simp, rfl, rfl⟩

lemma Lane.step (h : Lane c down track session events) {input : Input K}
    (hallowed : Allowed c down input) :
    Lane c (downStep c down input) (track.step c input) (laneStep c session input).1
      (events ++ (laneStep c session input).2) := by
  cases input with
  | tick now =>
    cases hsession : session with
    | none =>
      rw [hsession] at h
      simpa [laneStep, downStep, Track.step] using h
    | some s =>
      rw [hsession] at h
      obtain ⟨htarget, horigin, hmax⟩ := tick_target s now
      refine ⟨?_, ?_, h.gestures.extend fun rest hrest => ?_⟩
      · show some (s.tick now).target = _
        rw [htarget]
        exact h.target
      · intro s' hs'
        obtain rfl := Option.some.inj hs'
        rw [hmax, horigin]
        exact h.within s rfl
      · show Course _ _ _ _
        rw [htarget]
        exact tick_course hrest
  | handle map contact =>
    by_cases hc : contact.id = c
    · subst hc
      have hphases := hallowed rfl
      have hup : contact.phase ≠ .down → down = true := fun hne => by
        cases hdown : down with
        | true => rfl
        | false => exact absurd (hphases.mpr hdown) hne
      cases hphase : contact.phase with
      | down =>
        have hnone : session = none := by
          have htarget := h.target
          rw [hphases.mp hphase] at htarget
          simpa using htarget
        subst hnone
        cases htest : map.hitTest contact.position with
        | none =>
          have hgestures := h.gestures
          refine ⟨?_, ?_, ?_⟩
          · simp [laneStep, downStep, Track.step, hphase, htest]
          · simp [laneStep, hphase, htest]
          · simpa [laneStep, hphase, htest] using hgestures
        | some target =>
          have hopened : laneStep contact.id none (.handle map contact) =
              (some (.opened target contact),
                [.pressed target.id contact.id contact.position]) := by
            simp [laneStep, hphase, htest]
          rw [hopened]
          refine ⟨?_, ?_, h.gestures.extend fun rest hrest => ?_⟩
          · simp [downStep, Track.step, hphase, htest, Session.opened]
          · intro s' hs'
            obtain rfl := Option.some.inj hs'
            have hzero : distance (subtract contact.position contact.position) = (0 : K) := by
              simp [distance, subtract, Hypot.hypot_zero]
            simp only [Track.step, hphase, if_true]
            exact ⟨rfl, fun q hq => by rw [List.mem_singleton.mp hq]; exact hzero.le⟩
          · obtain rfl : rest = [] := hrest
            exact ⟨_, rfl⟩
      | motion =>
        have hdown := hup (by simp [hphase])
        cases hsession : session with
        | none =>
          rw [hsession] at h
          have htarget := h.target
          have hgestures := h.gestures
          refine ⟨?_, by simp [laneStep, hphase], by simpa [laneStep, hphase] using hgestures⟩
          simpa [laneStep, downStep, Track.step, hphase, hdown] using htarget
        | some s =>
          rw [hsession] at h
          obtain ⟨htarget, horigin, hmax⟩ := motion_target s contact
          have hmoved : laneStep contact.id (some s) (.handle map contact) =
              (some (s.motion contact).1, (s.motion contact).2) := by
            simp [laneStep, hphase]
          rw [hmoved]
          refine ⟨?_, ?_, h.gestures.extend fun rest hrest => ?_⟩
          · have hhit := h.target
            simpa [downStep, Track.step, hphase, hdown, htarget] using hhit
          · intro s' hs'
            obtain rfl := Option.some.inj hs'
            rw [hmax, horigin]
            simp only [Track.step, hphase, if_true]
            exact (h.within s rfl).append (le_max_left ..) (le_max_right ..)
          · show Course _ _ _ _
            rw [htarget]
            exact motion_course hrest
      | up =>
        refine ⟨?_, ?_, ?_⟩
        · cases session <;> simp [laneStep, downStep, hphase]
        · cases session <;> simp [laneStep, hphase]
        · cases hsession : session with
          | none =>
            have hgestures := h.gestures
            rw [hsession] at hgestures
            simpa [laneStep, hphase] using hgestures
          | some s =>
            have hgestures := h.gestures
            rw [hsession] at hgestures
            simpa [laneStep, hphase] using hgestures.close (finish_ending s contact)
      | cancel =>
        refine ⟨?_, ?_, ?_⟩
        · cases session <;> simp [laneStep, downStep, hphase]
        · cases session <;> simp [laneStep, hphase]
        · cases hsession : session with
          | none =>
            have hgestures := h.gestures
            rw [hsession] at hgestures
            simpa [laneStep, hphase] using hgestures
          | some s =>
            have hgestures := h.gestures
            rw [hsession] at hgestures
            simpa [laneStep, hphase] using hgestures.close (Or.inl rfl)
    · -- the input of another contact
      simpa [laneStep, downStep, Track.step, hc] using h

/-- A recognizer of the target that a contact hit has a movement limit that no position of
the contact has exceeded. -/
def Stayed (track : Track K) (id : ℕ) (recognizer : ℕ → K → GestureRecognizer K) : Prop :=
  ∃ (target : GestureTarget K) (duration : ℕ) (limit : K), track.target = some target ∧
    target.id = id ∧ recognizer duration limit ∈ target.recognizers ∧
      ∃ origin, Within limit origin track.positions

lemma Lane.track_target {s : Session K} (h : Lane c down track (some s) events) :
    track.target = some s.target := by
  have htarget := h.target
  cases down with
  | true => exact htarget.symm
  | false => simp at htarget

omit [Field K] [Hypot K] in
lemma longPress_of_recognizes {s : Session K} {now : ℕ} (h : s.recognizes now = true) :
    ∃ duration limit, .longPress duration limit ∈ s.target.recognizers ∧
      s.maxDistance ≤ limit := by
  simp only [Session.recognizes, Bool.and_eq_true] at h
  obtain ⟨recognizer, hrecognizer, hwins⟩ := List.any_eq_true.mp h.2
  cases recognizer with
  | longPress duration limit =>
    refine ⟨duration, limit, hrecognizer, ?_⟩
    simp only [longPressWins, Bool.and_eq_true, decide_eq_true_eq] at hwins
    exact hwins.2
  | tap | pan | swipe => simp [longPressWins] at hwins

/-- A contact taps only if it stayed within the limit of a tap recognizer. -/
lemma Lane.tap (h : Lane c down track session events) {input : Input K} {id : ℕ} {p : Point K}
    (hmem : .tap id c p ∈ (laneStep c session input).2) :
    Stayed (track.step c input) id .tap := by
  cases input with
  | tick now =>
    cases session with
    | none => simp [laneStep] at hmem
    | some s =>
      simp only [laneStep] at hmem
      split_ifs at hmem <;> simp [Session.longPressBegan] at hmem
  | handle map contact =>
    by_cases hc : contact.id = c
    · subst hc
      cases hphase : contact.phase with
      | down =>
        simp only [laneStep, hphase, if_true] at hmem
        cases htest : map.hitTest contact.position <;> simp [htest] at hmem
      | motion =>
        cases session with
        | none => simp [laneStep, hphase] at hmem
        | some s =>
          simp only [laneStep, hphase, if_true] at hmem
          rcases mem_motion hmem with ⟨_, h'⟩ | ⟨_, _, _, h'⟩ <;> cases h'
      | up =>
        cases session with
        | none => simp [laneStep, hphase] at hmem
        | some s =>
          simp only [laneStep, hphase, if_true] at hmem
          rcases mem_finish hmem with h' | h' | ⟨_, _, h' | h'⟩ | ⟨h', htap⟩ <;> cases h'
          obtain ⟨duration, limit, hrecognizer, hle⟩ := htap
          have hwithin := (h.within s rfl).append ((le_max_left _ _).trans hle)
            ((le_max_right _ _).trans hle)
          refine ⟨s.target, duration, limit, ?_, rfl, hrecognizer, s.origin, ?_⟩
          · simpa [Track.step, hphase] using h.track_target
          · simpa [Track.step, hphase] using hwithin
      | cancel => cases session <;> simp [laneStep, hphase] at hmem
    · simp [laneStep, hc] at hmem

/-- A long press begins only if the contact stayed within the limit of its recognizer. -/
lemma Lane.longPress (h : Lane c down track session events) {input : Input K} {id : ℕ}
    {p : Point K} (hmem : .longPressBegan id c p ∈ (laneStep c session input).2) :
    Stayed (track.step c input) id .longPress := by
  cases input with
  | tick now =>
    cases session with
    | none => simp [laneStep] at hmem
    | some s =>
      simp only [laneStep] at hmem
      split_ifs at hmem with hrecognizes
      · obtain ⟨duration, limit, hrecognizer, hle⟩ := longPress_of_recognizes hrecognizes
        have hid : id = s.target.id := by
          simp only [Session.longPressBegan, List.mem_singleton,
            GestureEvent.longPressBegan.injEq] at hmem
          exact hmem.1
        obtain ⟨hhead, hall⟩ := h.within s rfl
        exact ⟨s.target, duration, limit, h.track_target, hid.symm, hrecognizer, s.origin, hhead,
          fun q hq => (hall q hq).trans hle⟩
      · simp at hmem
  | handle map contact =>
    by_cases hc : contact.id = c
    · subst hc
      cases hphase : contact.phase with
      | down =>
        simp only [laneStep, hphase, if_true] at hmem
        cases htest : map.hitTest contact.position <;> simp [htest] at hmem
      | motion =>
        cases session with
        | none => simp [laneStep, hphase] at hmem
        | some s =>
          simp only [laneStep, hphase, if_true] at hmem
          rcases mem_motion hmem with ⟨_, h'⟩ | ⟨_, _, _, h'⟩ <;> cases h'
      | up =>
        cases session with
        | none => simp [laneStep, hphase] at hmem
        | some s =>
          simp only [laneStep, hphase, if_true] at hmem
          rcases mem_finish hmem with h' | h' | ⟨_, _, h' | h'⟩ | ⟨h', -⟩ <;> cases h'
      | cancel => cases session <;> simp [laneStep, hphase] at hmem
    · simp [laneStep, hc] at hmem

end Shape

/-! ## Streams of inputs -/

lemma eventsFrom_append (arena : GestureArena K) (stream more : List (Input K)) :
    eventsFrom arena (stream ++ more) = eventsFrom arena stream ++
      eventsFrom (run (fun arena input => (arena.step input).1) arena stream) more := by
  induction stream generalizing arena with
  | nil => rfl
  | cons input stream ih =>
    rw [List.cons_append, eventsFrom, eventsFrom, ih, List.append_assoc]
    rfl

/-- What is known about a contact after every stream. -/
lemma lane_after {stream : List (Input K)} {c : ℕ}
    (h : Meets (downStep c) (Allowed c) false stream) :
    Lane c (isDown c stream) (trackOf c stream) ((arenaAfter stream).sessions.get c)
      (eventsOf c stream) := by
  induction stream using List.reverseRecOn with
  | nil => exact lane_start
  | append_singleton stream input ih =>
    rw [meets_append] at h
    have hallowed : Allowed c (isDown c stream) input := h.2.1
    have hstep := (ih h.1).step hallowed
    rw [← session_step, ← events_step] at hstep
    have harena : arenaAfter (stream ++ [input]) = ((arenaAfter stream).step input).1 :=
      run_append ..
    have hevents : eventsOf c (stream ++ [input]) =
        eventsOf c stream ++ ofContact c ((arenaAfter stream).step input).2 := by
      rw [eventsOf, eventsFrom_append, ofContact_append, eventsFrom, eventsFrom, List.append_nil]
      rfl
    rw [harena, hevents]
    have hdown : isDown c (stream ++ [input]) = downStep c (isDown c stream) input :=
      run_append ..
    have htrack : trackOf c (stream ++ [input]) = (trackOf c stream).step c input :=
      run_append ..
    rw [hdown, htrack]
    exact hstep

/-- The events of a contact depend on its own inputs and the ticks only. -/
lemma ofContact_filter (c : ℕ) (stream : List (Input K)) {arena arena' : GestureArena K}
    (h : arena.sessions.get c = arena'.sessions.get c) :
    ofContact c (eventsFrom arena stream) =
      ofContact c (eventsFrom arena' (stream.filter (concerns c))) := by
  induction stream generalizing arena arena' with
  | nil => rfl
  | cons input stream ih =>
    rw [eventsFrom, ofContact_append, events_step]
    by_cases hc : concerns c input = true
    · rw [List.filter_cons_of_pos hc, eventsFrom, ofContact_append, events_step, h]
      exact congrArg _ (ih (by rw [session_step, session_step, h]))
    · -- the input of another contact leaves the session and has no events of this one
      have hother : laneStep c (arena.sessions.get c) input = (arena.sessions.get c, []) := by
        cases input with
        | tick now => simp [concerns] at hc
        | handle map contact =>
          have hne : ¬contact.id = c := by simpa [concerns] using hc
          simp [laneStep, hne]
      rw [List.filter_cons_of_neg hc, hother, List.nil_append]
      exact ih (by rw [session_step, hother, h])

/-- One target with a tap and a long press, which may move by eight. -/
def tapMap : GestureMap ℝ :=
  ⟨[⟨7, ⟨0, 0, 200, 60⟩, [.tap 350000000 8, .longPress 300000000 8]⟩]⟩

/-- A contact comes down on the target, is held for a while and goes up. -/
def heldStream : List (Input ℝ) :=
  [.handle tapMap ⟨1, .down, ⟨20, 20⟩, 0⟩, .tick 400000000,
    .handle tapMap ⟨1, .up, ⟨20, 20⟩, 410000000⟩]

/-- A contact comes down beside the target and goes up. -/
def missedStream : List (Input ℝ) :=
  [.handle tapMap ⟨1, .down, ⟨300, 20⟩, 0⟩, .handle tapMap ⟨1, .up, ⟨300, 20⟩, 100000000⟩]

end TouchBar.Ui
