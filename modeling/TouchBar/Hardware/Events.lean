import Mathlib
import TouchBar.Lib.Episodes

/-!
# Touches and system keys

What the hardware daemon and the session exchange about fingers and keys: touch
events with their phase, and the keys of the virtual keyboard with theirs.  Both
streams are made of episodes, of a contact from `Down` to `Up` or `Cancel` and of
a key from `Pressed` to `Released`.
-/

namespace TouchBar.Hardware

/-- `TouchPhase`. -/
inductive TouchPhase where
  | down
  | motion
  | up
  | cancel
  deriving DecidableEq, Repr

/-- `TouchEvent`. -/
structure TouchEvent where
  phase : TouchPhase
  contactId : ℕ
  timeMs : ℕ
  xMillipixels : ℤ
  yMillipixels : ℤ
  deriving DecidableEq, Repr

/-- `SystemKey`: the only keys that can be injected. -/
inductive SystemKey where
  | brightnessDown
  | brightnessUp
  | keyboardIlluminationDown
  | keyboardIlluminationUp
  | previousSong
  | playPause
  | nextSong
  | mute
  | volumeDown
  | volumeUp
  | microphoneMute
  | search
  | f1
  | f2
  | f3
  | f4
  | f5
  | f6
  | f7
  | f8
  | f9
  | f10
  | f11
  | f12
  deriving DecidableEq, Repr

/-- The discriminant of a key. -/
def SystemKey.code : SystemKey → ℕ
  | brightnessDown => 1
  | brightnessUp => 2
  | keyboardIlluminationDown => 3
  | keyboardIlluminationUp => 4
  | previousSong => 5
  | playPause => 6
  | nextSong => 7
  | mute => 8
  | volumeDown => 9
  | volumeUp => 10
  | microphoneMute => 11
  | search => 12
  | f1 => 21
  | f2 => 22
  | f3 => 23
  | f4 => 24
  | f5 => 25
  | f6 => 26
  | f7 => 27
  | f8 => 28
  | f9 => 29
  | f10 => 30
  | f11 => 31
  | f12 => 32

lemma SystemKey.code_injective : Function.Injective SystemKey.code := by
  intro key other h
  cases key <;> cases other <;> first | rfl | simp [SystemKey.code] at h

/-- The derived order, which is the order of the discriminants. -/
instance : LinearOrder SystemKey := LinearOrder.lift' SystemKey.code SystemKey.code_injective

/-- `KeyPhase`. -/
inductive KeyPhase where
  | released
  | pressed
  | repeats
  deriving DecidableEq, Repr

/-- The part an event plays in the life of its contact. -/
def TouchEvent.role (event : TouchEvent) : Lib.Role :=
  match event.phase with
  | .down => .opens
  | .motion => .continues
  | .up => .closes
  | .cancel => .closes

/-- The part a phase plays in the life of its key. -/
def KeyPhase.role : KeyPhase → Lib.Role
  | pressed => .opens
  | repeats => .continues
  | released => .closes

end TouchBar.Hardware
