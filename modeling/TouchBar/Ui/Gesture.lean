import TouchBar.Rust.BTree

/-!
# The gesture arena

A contact that comes down on a target opens a session, in which the recognizers of the
target compete: a pan wins when the contact has moved far enough, a long press when it has
stayed long enough.  The arena keeps the sessions of all contacts in one map.

Coordinates and thresholds are exact numbers of an ordered field, with a `hypot`.  Times are
in nanoseconds.
-/

namespace TouchBar.Ui

open TouchBar.Rust

/-- Numbers with a `hypot`. -/
class Hypot (K : Type*) [Zero K] where
  hypot : K → K → K
  hypot_zero : hypot 0 0 = 0

noncomputable instance : Hypot ℝ where
  hypot x y := Real.sqrt (x ^ 2 + y ^ 2)
  hypot_zero := by simp

/-! ## Targets and events -/

structure Point (K : Type*) where
  x : K
  y : K

structure Rect (K : Type*) where
  x : K
  y : K
  width : K
  height : K

inductive GestureAxis where
  | any
  | horizontal
  | vertical
deriving DecidableEq

inductive GestureRecognizer (K : Type*) where
  | tap (maxDuration : ℕ) (maxMovement : K)
  | longPress (minimumDuration : ℕ) (maxMovement : K)
  | pan (axis : GestureAxis) (minimumDistance : K)
  | swipe (axis : GestureAxis) (minimumDistance minimumVelocity : K)

structure GestureTarget (K : Type*) where
  id : ℕ
  bounds : Rect K
  recognizers : List (GestureRecognizer K)

structure GestureMap (K : Type*) where
  targets : List (GestureTarget K)

inductive ContactPhase where
  | down
  | motion
  | up
  | cancel
deriving DecidableEq

structure Contact (K : Type*) where
  id : ℕ
  phase : ContactPhase
  position : Point K
  time : ℕ

inductive GestureEvent (K : Type*) where
  | pressed (id contact : ℕ) (position : Point K)
  | tap (id contact : ℕ) (position : Point K)
  | longPressBegan (id contact : ℕ) (position : Point K)
  | longPressEnded (id contact : ℕ) (position : Point K)
  | panBegan (id contact : ℕ) (position : Point K)
  | panChanged (id contact : ℕ) (position translation delta : Point K)
  | panEnded (id contact : ℕ) (position translation velocity : Point K)
  | swipe (id contact : ℕ) (translation velocity : Point K)
  | released (id contact : ℕ) (position : Point K)
  | cancelled (id contact : ℕ)

variable {K : Type*}

/-- The contact of an event. -/
def GestureEvent.contact : GestureEvent K → ℕ
  | pressed _ contact _ | tap _ contact _ | longPressBegan _ contact _
  | longPressEnded _ contact _ | panBegan _ contact _ | panChanged _ contact _ _ _
  | panEnded _ contact _ _ _ | swipe _ contact _ _ | released _ contact _
  | cancelled _ contact => contact

/-! ## Distances -/

section Numbers

variable [Field K] [LinearOrder K] [Hypot K]

def Rect.contains (r : Rect K) (point : Point K) : Bool :=
  r.x ≤ point.x && point.x ≤ r.x + r.width && r.y ≤ point.y && point.y ≤ r.y + r.height

def GestureMap.hitTest (map : GestureMap K) (point : Point K) : Option (GestureTarget K) :=
  map.targets.reverse.find? fun target => target.bounds.contains point

def subtract (left right : Point K) : Point K := ⟨left.x - right.x, left.y - right.y⟩

def distance (point : Point K) : K := Hypot.hypot point.x point.y

def axisDistance (point : Point K) : GestureAxis → K
  | .any => distance point
  | .horizontal => |point.x|
  | .vertical => |point.y|

def axisMatches (point : Point K) : GestureAxis → Bool
  | .any => true
  | .horizontal => |point.y| ≤ |point.x|
  | .vertical => |point.x| ≤ |point.y|

/-- `as_secs_f32`. -/
def asSecs (elapsed : ℕ) : K := elapsed / 10 ^ 9

/-- `f32::EPSILON`. -/
def epsilon : K := 1 / 2 ^ 23

def velocity (translation : Point K) (elapsed : ℕ) : Point K :=
  let seconds : K := asSecs elapsed
  if seconds ≤ epsilon then ⟨0, 0⟩ else ⟨translation.x / seconds, translation.y / seconds⟩

/-! ## Sessions -/

inductive Winner where
  | longPress
  | pan
deriving DecidableEq

structure Session (K : Type*) where
  target : GestureTarget K
  began : ℕ
  origin : Point K
  lastPosition : Point K
  maxDistance : K
  winner : Option Winner

/-- The test of a pan recognizer. -/
def panWins (translation : Point K) : GestureRecognizer K → Bool
  | .pan axis minimumDistance =>
    minimumDistance ≤ axisDistance translation axis && axisMatches translation axis
  | _ => false

/-- The test of a swipe recognizer. -/
def swipeWins (translation velocity : Point K) : GestureRecognizer K → Bool
  | .swipe axis minimumDistance minimumVelocity =>
    axisMatches translation axis && minimumDistance ≤ axisDistance translation axis &&
      minimumVelocity ≤ axisDistance velocity axis
  | _ => false

/-- The test of a tap recognizer. -/
def tapWins (elapsed : ℕ) (moved : K) : GestureRecognizer K → Bool
  | .tap maxDuration maxMovement => elapsed ≤ maxDuration && moved ≤ maxMovement
  | _ => false

/-- The test of a long press recognizer. -/
def longPressWins (elapsed : ℕ) (moved : K) : GestureRecognizer K → Bool
  | .longPress minimumDuration maxMovement => minimumDuration ≤ elapsed && moved ≤ maxMovement
  | _ => false

namespace Session

def panChanged (session : Session K) (contact : ℕ) (position translation delta : Point K) :
    GestureEvent K :=
  .panChanged session.target.id contact position translation delta

/-- The session that `begin` inserts. -/
def opened (target : GestureTarget K) (contact : Contact K) : Session K where
  target := target
  began := contact.time
  origin := contact.position
  lastPosition := contact.position
  maxDistance := 0
  winner := none

/-- The part of `motion` after the lookup. -/
def motion (session : Session K) (contact : Contact K) : Session K × List (GestureEvent K) :=
  let delta := subtract contact.position session.lastPosition
  let translation := subtract contact.position session.origin
  let session :=
    { session with
      maxDistance := max session.maxDistance (distance translation)
      lastPosition := contact.position }
  match session.winner with
  | some .pan =>
    (session, [session.panChanged contact.id contact.position translation delta])
  | some .longPress => (session, [])
  | none =>
    if session.target.recognizers.any (panWins translation) then
      ({ session with winner := some .pan },
        [.panBegan session.target.id contact.id contact.position,
          session.panChanged contact.id contact.position translation delta])
    else (session, [])

/-- The events of `end` for a session that was removed. -/
def finish (session : Session K) (contact : Contact K) : List (GestureEvent K) :=
  let id := session.target.id
  let translation := subtract contact.position session.origin
  let elapsed := contact.time - session.began
  let velocity := velocity translation elapsed
  let events :=
    match session.winner with
    | some .pan =>
      .panEnded id contact.id contact.position translation velocity ::
        (if session.target.recognizers.any (swipeWins translation velocity) then
          [.swipe id contact.id translation velocity]
        else [])
    | some .longPress => [.longPressEnded id contact.id contact.position]
    | none =>
      if session.target.recognizers.any
          (tapWins elapsed (max session.maxDistance (distance translation))) then
        [.tap id contact.id contact.position]
      else []
  events ++ [.released id contact.id contact.position]

/-- The test of `tick` for one session. -/
def recognizes (session : Session K) (now : ℕ) : Bool :=
  session.winner.isNone &&
    session.target.recognizers.any (longPressWins (now - session.began) session.maxDistance)

/-- The event of `tick` for a session that it recognizes. -/
def longPressBegan (session : Session K) (contact : ℕ) : GestureEvent K :=
  .longPressBegan session.target.id contact session.lastPosition

def tick (session : Session K) (now : ℕ) : Session K :=
  if session.recognizes now then { session with winner := some .longPress } else session

end Session

/-! ## The arena -/

structure GestureArena (K : Type*) where
  sessions : BTreeMap ℕ (Session K)

namespace GestureArena

def default : GestureArena K := ⟨.empty⟩

def «begin» (arena : GestureArena K) (map : GestureMap K) (contact : Contact K) :
    GestureArena K × List (GestureEvent K) :=
  match map.hitTest contact.position with
  | none => (arena, [])
  | some target =>
    (⟨arena.sessions.insert contact.id (.opened target contact)⟩,
      [.pressed target.id contact.id contact.position])

def motion (arena : GestureArena K) (contact : Contact K) :
    GestureArena K × List (GestureEvent K) :=
  match arena.sessions.get contact.id with
  | none => (arena, [])
  | some session =>
    let (session, events) := session.motion contact
    (⟨arena.sessions.insert contact.id session⟩, events)

def «end» (arena : GestureArena K) (contact : Contact K) :
    GestureArena K × List (GestureEvent K) :=
  match arena.sessions.get contact.id with
  | none => (arena, [])
  | some session => (⟨arena.sessions.remove contact.id⟩, session.finish contact)

def cancel (arena : GestureArena K) (contact : ℕ) : GestureArena K × List (GestureEvent K) :=
  match arena.sessions.get contact with
  | none => (arena, [])
  | some session =>
    (⟨arena.sessions.remove contact⟩, [.cancelled session.target.id contact])

def handle (arena : GestureArena K) (map : GestureMap K) (contact : Contact K) :
    GestureArena K × List (GestureEvent K) :=
  match contact.phase with
  | .down => arena.begin map contact
  | .motion => arena.motion contact
  | .up => arena.end contact
  | .cancel => arena.cancel contact.id

/-- `tick`, which visits the sessions in the order of their contacts. -/
def tick (arena : GestureArena K) (now : ℕ) : GestureArena K × List (GestureEvent K) :=
  (⟨arena.sessions.mapValues fun session => session.tick now⟩,
    arena.sessions.entries.flatMap fun entry =>
      if entry.2.recognizes now then [entry.2.longPressBegan entry.1] else [])

def hasContact (arena : GestureArena K) (contact : ℕ) : Bool :=
  arena.sessions.containsKey contact

end GestureArena

end Numbers

end TouchBar.Ui
