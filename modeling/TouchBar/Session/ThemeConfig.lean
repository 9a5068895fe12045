import TouchBar.Rust.BTree
import TouchBar.Rust.Numbers
import TouchBar.Rust.Outcome

/-!
# Theme files

A theme file has one `key = value` on a line.  Colours are written as `#rrggbb`; the parser cuts
the six bytes after the `#` into three parts at byte offsets and reads each as a hexadecimal
number.  Such a cut panics inside a character, and the number may have a plus sign.  A function
that returns an `Option` is an `Outcome` here whose error is the missing value, so that the
panic stays apart.
-/

namespace TouchBar.Session

open TouchBar.Rust Outcome

/-- The components are of type `u8`. -/
structure Rgba8 where
  red : ℕ
  green : ℕ
  blue : ℕ
  alpha : ℕ
deriving DecidableEq

def Rgba8.rgb (red green blue : ℕ) : Rgba8 := ⟨red, green, blue, 255⟩

inductive ColorScheme where
  | dark
  | light
deriving DecidableEq

inductive MotionPolicy where
  | full
  | reduced
  | disabled
deriving DecidableEq

structure AppearanceSnapshot where
  generation : ℕ
  scheme : ColorScheme
  motion : MotionPolicy
  background : Rgba8
  surface : Rgba8
  surfaceHover : Rgba8
  surfacePressed : Rgba8
  foreground : Rgba8
  muted : Rgba8
  accent : Rgba8
  destructive : Rgba8
  cornerRadiusMillipixels : ℕ
deriving DecidableEq

structure AnimationCadence where
  externalHz : ℕ
  batteryHz : ℕ
deriving DecidableEq

/-- `AnimationCadence::default`. -/
def AnimationCadence.default : AnimationCadence := ⟨60, 30⟩

structure AppearanceConfig where
  snapshot : AppearanceSnapshot
  cadence : AnimationCadence
deriving DecidableEq

/-! ## The parser -/

/-- A value that may be missing. -/
def ofOption {α : Type} : Option α → Outcome Unit α
  | some a => ok a
  | none => err ()

/-- `Option::unwrap_or`. -/
def unwrapOr {α : Type} (x : Outcome Unit α) (fallback : α) : Outcome Unit α :=
  match x with
  | ok a => ok a
  | err _ => ok fallback
  | .panic => .panic

/-- `u8::from_str_radix(&value[start..stop], 16).ok()?`. -/
def component (value : String) (start stop : ℕ) : Outcome Unit ℕ := do
  let digits ← Outcome.check (Text.slice value start stop)
  ofOption (Text.fromStrRadix 16 256 digits)

/-- The end of `parse_hex_color`, for six bytes. -/
def hexComponents (value : String) : Outcome Unit Rgba8 := do
  let red ← component value 0 2
  let green ← component value 2 4
  let blue ← component value 4 6
  return .rgb red green blue

def parseHexColor (value : String) : Outcome Unit Rgba8 := do
  let value ← ofOption (Text.stripPrefix value "#")
  if Text.len value ≠ 6 then err () else hexComponents value

/-- The closure that reads a line. -/
def themeEntry (line : String) : Option (String × String) :=
  let line := Text.trim line
  if Text.isEmpty line || Text.startsWith line "#" then none
  else (Text.splitOnce line "=").map fun entry =>
    (Text.trim entry.1, Text.trimMatches (Text.trim entry.2) fun c => c = '"' || c = '\'')

/-- The entries of a file; the last one of a key counts. -/
def themeValues (contents : String) : BTreeMap String String :=
  .ofList ((Text.lines contents).filterMap themeEntry)

/-- The closure `color`. -/
def color (values : BTreeMap String String) (key : String) : Outcome Unit Rgba8 := do
  parseHexColor (← ofOption (values.get key))

def parseAnimationHz (value : Option String) (default : ℕ) : Option ℕ :=
  value.elim (some default) fun value =>
    (Text.fromStrRadix 10 (2 ^ 32) value).filter fun hz => 1 ≤ hz && hz ≤ 60

def withAlpha (color : Rgba8) (alpha : ℕ) : Rgba8 := { color with alpha := alpha }

/-- The part of `parse_theme_config` after the colours. -/
def themeConfig (values : BTreeMap String String) (generation : ℕ)
    (background accent foreground muted selection destructive : Rgba8) :
    Outcome Unit AppearanceConfig := do
  let scheme := if values.get "mode" = some "light" then ColorScheme.light else .dark
  let motion :=
    if values.get "motion" = some "reduced" then MotionPolicy.reduced
    else if values.get "motion" = some "disabled" then .disabled
    else .full
  let defaults := AnimationCadence.default
  let externalHz ← ofOption (parseAnimationHz (values.get "animation_hz") defaults.externalHz)
  let batteryHz ← ofOption
    (parseAnimationHz (values.get "battery_animation_hz") defaults.batteryHz)
  return {
    snapshot := {
      generation := generation
      scheme := scheme
      motion := motion
      background := background
      surface := withAlpha selection 180
      surfaceHover := withAlpha muted 210
      surfacePressed := withAlpha accent 230
      foreground := foreground
      muted := muted
      accent := accent
      destructive := destructive
      cornerRadiusMillipixels := 9000 }
    cadence := ⟨externalHz, batteryHz⟩ }

def parseThemeConfig (contents : String) (generation : ℕ) : Outcome Unit AppearanceConfig := do
  let values := themeValues contents
  let background ← color values "background"
  let accent ← color values "accent"
  let foreground ← color values "foreground"
  let muted ← unwrapOr (color values "muted") foreground
  let selection ← unwrapOr (color values "selection") accent
  let destructive ← unwrapOr (color values "red") (.rgb 230 80 80)
  themeConfig values generation background accent foreground muted selection destructive

/-! ## Pairs of digits -/

open Text

/-- Two characters that are read as a number: two hexadecimal digits, or one after a plus
sign. -/
inductive Pair : Char → Char → ℕ → Prop
  | digits {a b : Char} {high low : ℕ} (ha : toDigit 16 a = some high)
    (hb : toDigit 16 b = some low) : Pair a b (16 * high + low)
  | signed {b : Char} {low : ℕ} (hb : toDigit 16 b = some low) : Pair '+' b low

variable {a b : Char} {n : ℕ} {cs : List Char}

lemma toDigit_lt {radix : ℕ} {c : Char} {digit : ℕ} (h : toDigit radix c = some digit) :
    digit < radix := by
  rw [toDigit, Option.filter_eq_some_iff] at h
  exact of_decide_eq_true h.2

/-- A digit is an ASCII character. -/
lemma utf8Size_of_toDigit {radix : ℕ} {c : Char} {digit : ℕ}
    (h : toDigit radix c = some digit) : c.utf8Size = 1 := by
  rw [toDigit, Option.filter_eq_some_iff] at h
  have hclass : c.isDigit = true ∨ c.isLower = true ∨ c.isUpper = true := by
    by_contra hnone
    rw [not_or, not_or] at hnone
    obtain ⟨hdigit, hlower, hupper⟩ := hnone
    rw [if_neg hdigit, if_neg hlower, if_neg hupper] at h
    cases h.1
  rw [Char.utf8Size_eq_one_iff]
  simp only [Char.isDigit, Char.isLower, Char.isUpper, Bool.and_eq_true, decide_eq_true_eq,
    UInt32.le_iff_toNat_le, ge_iff_le] at hclass ⊢
  have hnine : '9'.val.toNat = 57 := rfl
  have hz : 'z'.val.toNat = 122 := rfl
  have hZ : 'Z'.val.toNat = 90 := rfl
  have hlast : (127 : UInt32).toNat = 127 := rfl
  omega

lemma Pair.utf8Size_eq (h : Pair a b n) : a.utf8Size = 1 ∧ b.utf8Size = 1 := by
  cases h with
  | digits ha hb => exact ⟨utf8Size_of_toDigit ha, utf8Size_of_toDigit hb⟩
  | signed hb => exact ⟨rfl, utf8Size_of_toDigit hb⟩

lemma fromStrRadixList_signed (b : Char) : fromStrRadixList 16 256 ['+', b] = toDigit 16 b := by
  cases hb : toDigit 16 b with
  | none => simp [fromStrRadixList, hb]
  | some low =>
    have hlow := toDigit_lt hb
    simp [fromStrRadixList, hb]
    omega

lemma fromStrRadixList_digits (ha : a ≠ '+') (b : Char) :
    fromStrRadixList 16 256 [a, b] = (toDigit 16 a).bind fun high =>
      (toDigit 16 b).map fun low => 16 * high + low := by
  cases hhigh : toDigit 16 a with
  | none => simp [fromStrRadixList, ha, hhigh]
  | some high =>
    cases hlow : toDigit 16 b with
    | none => simp [fromStrRadixList, ha, hhigh, hlow]
    | some low =>
      have hhigh_lt := toDigit_lt hhigh
      have hlow_lt := toDigit_lt hlow
      simp [fromStrRadixList, ha, hhigh, hlow]
      omega

/-- What `from_str_radix` makes of two bytes. -/
lemma fromStrRadixList_eq_some (hlength : byteLength cs = 2) :
    fromStrRadixList 16 256 cs = some n ↔ ∃ a b, cs = [a, b] ∧ Pair a b n := by
  rcases cs with _ | ⟨a, _ | ⟨b, _ | ⟨c, cs⟩⟩⟩
  · cases hlength
  · -- one character of two bytes
    have hnone : toDigit 16 a = none := by
      by_contra hsome
      obtain ⟨digit, hdigit⟩ := Option.ne_none_iff_exists'.mp hsome
      rw [byteLength_cons, utf8Size_of_toDigit hdigit] at hlength
      cases hlength
    refine iff_of_false ?_ (by simp)
    simp [fromStrRadixList, hnone]
  · have hplus : toDigit 16 '+' = none := by decide
    have hpair : (∃ x y, [a, b] = [x, y] ∧ Pair x y n) ↔ Pair a b n := by
      constructor
      · rintro ⟨_, _, ⟨rfl, rfl⟩, h⟩
        exact h
      · exact fun h => ⟨a, b, rfl, h⟩
    rw [hpair]
    by_cases hsign : a = '+'
    · subst hsign
      rw [fromStrRadixList_signed]
      constructor
      · exact fun hb => .signed hb
      · intro h
        cases h with
        | digits ha hb =>
          rw [hplus] at ha
          cases ha
        | signed hb => exact hb
    · rw [fromStrRadixList_digits hsign, Option.bind_eq_some_iff]
      constructor
      · rintro ⟨high, ha, hrest⟩
        obtain ⟨low, hb, rfl⟩ := Option.map_eq_some_iff.mp hrest
        exact .digits ha hb
      · intro h
        cases h with
        | digits ha hb => exact ⟨_, ha, Option.map_eq_some_iff.mpr ⟨_, hb, rfl⟩⟩
        | signed hb => exact absurd rfl hsign
  · have ha := a.utf8Size_pos
    have hb := b.utf8Size_pos
    have hc := c.utf8Size_pos
    rw [byteLength_cons, byteLength_cons, byteLength_cons] at hlength
    omega

/-! ## The three components -/

/-- `is_char_boundary`: the offset is the end of a character, or zero. -/
def OnBoundary (n : ℕ) (cs : List Char) : Prop :=
  ∃ front back, cs = front ++ back ∧ byteLength front = n

/-- The front with a given number of bytes is unique. -/
lemma front_unique {front front' back back' : List Char}
    (happend : front ++ back = front' ++ back') (hlength : byteLength front = byteLength front') :
    front = front' ∧ back = back' := by
  have h : splitAtByte (byteLength front) (front ++ back) = some (front, back) :=
    splitAtByte_eq_some.mpr ⟨rfl, rfl⟩
  have h' := splitAtByte_eq_some.mpr ⟨happend, hlength.symm⟩
  rw [h, Option.some.injEq, Prod.mk.injEq] at h'
  exact h'

lemma byteLength_append (front back : List Char) :
    byteLength (front ++ back) = byteLength front + byteLength back := by
  rw [byteLength, byteLength, byteLength, List.map_append, List.sum_append]

lemma slice_eq_some {start : ℕ} {part : String} :
    slice (.ofList cs) start (start + 2) = some part ↔
      ∃ front middle back, cs = front ++ (middle ++ back) ∧ byteLength front = start ∧
        byteLength middle = 2 ∧ String.ofList middle = part := by
  have hwidth : start + 2 - start = 2 := by omega
  simp only [slice, String.toList_ofList, hwidth, Option.bind_eq_bind, Option.bind_eq_some_iff,
    Prod.exists, splitAtByte_eq_some, Option.pure_def, Option.some.injEq]
  constructor
  · rintro ⟨front, _, ⟨rfl, hfront⟩, middle, back, ⟨rfl, hmiddle⟩, hpart⟩
    exact ⟨front, middle, back, rfl, hfront, hmiddle, hpart⟩
  · rintro ⟨front, middle, back, rfl, hfront, hmiddle, hpart⟩
    exact ⟨front, _, ⟨rfl, hfront⟩, middle, back, ⟨rfl, hmiddle⟩, hpart⟩

/-- Two bytes are read as a component. -/
lemma component_eq_ok {start : ℕ} :
    component (.ofList cs) start (start + 2) = ok n ↔
      ∃ front a b back, cs = front ++ a :: b :: back ∧ byteLength front = start ∧ Pair a b n := by
  have hread : ∀ part, ofOption (fromStrRadix 16 256 part) = ok n ↔
      fromStrRadix 16 256 part = some n := by
    intro part
    cases fromStrRadix 16 256 part <;> simp [ofOption]
  simp only [component, Outcome.bind_eq_ok, Outcome.check_eq_ok, slice_eq_some, hread]
  constructor
  · rintro ⟨_, ⟨front, middle, back, rfl, hfront, hmiddle, rfl⟩, hpart⟩
    rw [fromStrRadix, String.toList_ofList, fromStrRadixList_eq_some hmiddle] at hpart
    obtain ⟨a, b, rfl, hpair⟩ := hpart
    exact ⟨front, a, b, back, rfl, hfront, hpair⟩
  · rintro ⟨front, a, b, back, rfl, hfront, hpair⟩
    obtain ⟨ha, hb⟩ := hpair.utf8Size_eq
    have hmiddle : byteLength [a, b] = 2 := by
      rw [byteLength_cons, byteLength_cons, ha, hb]
      rfl
    refine ⟨.ofList [a, b], ⟨front, [a, b], back, rfl, hfront, hmiddle, rfl⟩, ?_⟩
    rw [fromStrRadix, String.toList_ofList, fromStrRadixList_eq_some hmiddle]
    exact ⟨a, b, rfl, hpair⟩

/-- The cut of a component panics unless both its ends are boundaries. -/
lemma component_eq_panic {start : ℕ} :
    component (.ofList cs) start (start + 2) = .panic ↔
      ¬ ∃ front middle back, cs = front ++ (middle ++ back) ∧ byteLength front = start ∧
        byteLength middle = 2 := by
  rw [component]
  cases hslice : slice (.ofList cs) start (start + 2) with
  | none =>
    refine iff_of_true rfl ?_
    rintro ⟨front, middle, back, happend, hfront, hmiddle⟩
    rw [slice_eq_some.mpr ⟨front, middle, back, happend, hfront, hmiddle, rfl⟩] at hslice
    cases hslice
  | some part =>
    obtain ⟨front, middle, back, happend, hfront, hmiddle, -⟩ := slice_eq_some.mp hslice
    refine iff_of_false ?_ (not_not.mpr ⟨front, middle, back, happend, hfront, hmiddle⟩)
    rw [Outcome.check_some, Outcome.ok_bind]
    cases fromStrRadix 16 256 part <;> simp [ofOption]

/-! ## Colours -/

/-- A cut of the six bytes falls inside a character. -/
def Torn (cs : List Char) : Prop :=
  ¬ OnBoundary 2 cs ∨ ∃ a b n back, cs = a :: b :: back ∧ Pair a b n ∧ ¬ OnBoundary 4 cs

/-- Six characters that are read as the components of a colour. -/
def ReadsAs (cs : List Char) (color : Rgba8) : Prop :=
  ∃ a b c d e f red green blue, cs = [a, b, c, d, e, f] ∧ Pair a b red ∧ Pair c d green ∧
    Pair e f blue ∧ color = .rgb red green blue

/-- The two cuts in the middle hit boundaries where the first pair is read. -/
lemma onBoundary_four {back : List Char} (hpair : Pair a b n) :
    OnBoundary 4 (a :: b :: back) ↔ OnBoundary 2 back := by
  obtain ⟨ha, hb⟩ := hpair.utf8Size_eq
  constructor
  · rintro ⟨front, rest, happend, hlength⟩
    rcases front with _ | ⟨x, _ | ⟨y, front⟩⟩
    · cases hlength
    · obtain ⟨hx, -⟩ := List.cons_eq_cons.mp happend
      rw [byteLength_cons, ← hx, ha] at hlength
      cases hlength
    · obtain ⟨hx, hrest⟩ := List.cons_eq_cons.mp happend
      obtain ⟨hy, hrest⟩ := List.cons_eq_cons.mp hrest
      rw [byteLength_cons, byteLength_cons, ← hx, ← hy, ha, hb] at hlength
      exact ⟨front, rest, hrest, by omega⟩
  · rintro ⟨front, rest, rfl, hlength⟩
    refine ⟨a :: b :: front, rest, rfl, ?_⟩
    rw [byteLength_cons, byteLength_cons, ha, hb, hlength]

lemma byteLength_eq_zero {cs : List Char} (h : byteLength cs = 0) : cs = [] := by
  cases cs with
  | nil => rfl
  | cons c cs =>
    have hpos := c.utf8Size_pos
    rw [byteLength_cons] at h
    omega

lemma Pair.byteLength_eq (h : Pair a b n) : byteLength [a, b] = 2 := by
  obtain ⟨ha, hb⟩ := h.utf8Size_eq
  rw [byteLength_cons, byteLength_cons, ha, hb]
  rfl

lemma byteLength_four {a b c d : Char} {n m : ℕ} (hab : Pair a b n) (hcd : Pair c d m) :
    byteLength [a, b, c, d] = 4 := by
  have happend := byteLength_append [a, b] [c, d]
  rw [hab.byteLength_eq, hcd.byteLength_eq] at happend
  exact happend

/-- What the first component reads. -/
lemma component_zero_eq_ok :
    component (.ofList cs) 0 2 = ok n ↔ ∃ a b back, cs = a :: b :: back ∧ Pair a b n := by
  rw [@component_eq_ok n cs 0]
  constructor
  · rintro ⟨front, a, b, back, rfl, hfront, hpair⟩
    obtain rfl := byteLength_eq_zero hfront
    exact ⟨a, b, back, rfl, hpair⟩
  · rintro ⟨a, b, back, rfl, hpair⟩
    exact ⟨[], a, b, back, rfl, rfl, hpair⟩

/-- What the next component reads behind the characters of those before it. -/
lemma component_append_eq_ok {front : List Char} {start : ℕ} (hfront : byteLength front = start) :
    component (.ofList (front ++ cs)) start (start + 2) = ok n ↔
      ∃ a b back, cs = a :: b :: back ∧ Pair a b n := by
  rw [component_eq_ok]
  constructor
  · rintro ⟨front', a, b, back, happend, hfront', hpair⟩
    obtain ⟨-, rfl⟩ := front_unique happend (hfront.trans hfront'.symm)
    exact ⟨a, b, back, rfl, hpair⟩
  · rintro ⟨a, b, back, rfl, hpair⟩
    exact ⟨front, a, b, back, rfl, hfront, hpair⟩

theorem hexComponents_eq_ok {color : Rgba8} (hlength : byteLength cs = 6) :
    hexComponents (.ofList cs) = ok color ↔ ReadsAs cs color := by
  simp only [hexComponents, Outcome.bind_eq_ok, Outcome.pure_eq, Outcome.ok.injEq]
  constructor
  · rintro ⟨red, hred, green, hgreen, blue, hblue, rfl⟩
    obtain ⟨a, b, back, rfl, hab⟩ := component_zero_eq_ok.mp hred
    have htwo := hab.byteLength_eq
    obtain ⟨c, d, back, rfl, hcd⟩ := (@component_append_eq_ok green back [a, b] 2 htwo).mp hgreen
    have hfour := byteLength_four hab hcd
    obtain ⟨e, f, back, rfl, hef⟩ :=
      (@component_append_eq_ok blue back [a, b, c, d] 4 hfour).mp hblue
    -- nothing remains of the six bytes
    have hback : byteLength back = 0 := by
      have hfront : byteLength ([a, b, c, d] ++ ([e, f] ++ back)) = 6 := hlength
      rw [byteLength_append, byteLength_append, hfour, hef.byteLength_eq] at hfront
      omega
    obtain rfl := byteLength_eq_zero hback
    exact ⟨a, b, c, d, e, f, red, green, blue, rfl, hab, hcd, hef, rfl⟩
  · rintro ⟨a, b, c, d, e, f, red, green, blue, rfl, hab, hcd, hef, rfl⟩
    have htwo := hab.byteLength_eq
    have hfour := byteLength_four hab hcd
    exact ⟨red, component_zero_eq_ok.mpr ⟨a, b, _, rfl, hab⟩,
      green, (@component_append_eq_ok green [c, d, e, f] [a, b] 2 htwo).mpr ⟨c, d, _, rfl, hcd⟩,
      blue, (@component_append_eq_ok blue [e, f] [a, b, c, d] 4 hfour).mpr ⟨e, f, _, rfl, hef⟩,
      rfl⟩

theorem hexComponents_eq_panic (hlength : byteLength cs = 6) :
    hexComponents (.ofList cs) = .panic ↔ Torn cs := by
  rw [hexComponents, Outcome.bind_eq_panic]
  constructor
  · rintro (hred | ⟨red, hred, hrest⟩)
    · refine .inl ?_
      rintro ⟨front, back, rfl, hfront⟩
      exact (@component_eq_panic _ 0).mp hred ⟨[], front, back, rfl, rfl, hfront⟩
    · obtain ⟨a, b, back, rfl, hab⟩ := component_zero_eq_ok.mp hred
      have htwo := hab.byteLength_eq
      rcases Outcome.bind_eq_panic.mp hrest with hgreen | ⟨green, hgreen, hrest⟩
      · refine .inr ⟨a, b, red, back, rfl, hab, ?_⟩
        rw [onBoundary_four hab]
        rintro ⟨front, rest, rfl, hfront⟩
        exact (@component_eq_panic _ 2).mp hgreen ⟨[a, b], front, rest, rfl, htwo, hfront⟩
      · -- once four bytes are read, the rest is the last part
        obtain ⟨c, d, back, rfl, hcd⟩ :=
          (@component_append_eq_ok green back [a, b] 2 htwo).mp hgreen
        have hfour := byteLength_four hab hcd
        have hback : byteLength ([a, b, c, d] ++ back) = 6 := hlength
        rw [byteLength_append, hfour] at hback
        rcases Outcome.bind_eq_panic.mp hrest with hblue | ⟨blue, -, hreturn⟩
        · refine absurd ⟨[a, b, c, d], back, [], ?_, hfour, ?_⟩
            ((@component_eq_panic _ 4).mp hblue)
          · rw [List.append_nil]
            rfl
          · omega
        · cases hreturn
  · rintro (hcut | ⟨a, b, red, back, rfl, hab, hcut⟩)
    · refine .inl ((@component_eq_panic _ 0).mpr ?_)
      rintro ⟨front, middle, back, rfl, hfront, hmiddle⟩
      obtain rfl := byteLength_eq_zero hfront
      exact hcut ⟨middle, back, rfl, hmiddle⟩
    · refine .inr ⟨red, component_zero_eq_ok.mpr ⟨a, b, back, rfl, hab⟩, ?_⟩
      refine Outcome.bind_eq_panic.mpr (.inl ((@component_eq_panic _ 2).mpr ?_))
      rintro ⟨front, middle, rest, happend, hfront, hmiddle⟩
      refine hcut ⟨front ++ middle, rest, ?_, ?_⟩
      · rw [happend, List.append_assoc]
      · rw [byteLength_append, hfront, hmiddle]

lemma ReadsAs.byteLength_eq {color : Rgba8} (h : ReadsAs cs color) : byteLength cs = 6 := by
  obtain ⟨a, b, c, d, e, f, red, green, blue, rfl, hab, hcd, hef, -⟩ := h
  have happend := byteLength_append [a, b, c, d] [e, f]
  rw [byteLength_four hab hcd, hef.byteLength_eq] at happend
  exact happend

lemma stripPrefix_hash {value rest : String} :
    stripPrefix value "#" = some rest ↔ value.toList = '#' :: rest.toList := by
  rw [stripPrefix_eq_some]
  constructor
  · rintro rfl
    rw [String.toList_append]
    rfl
  · intro h
    refine String.toList_inj.mp ?_
    rw [h, String.toList_append]
    rfl

theorem parseHexColor_eq_ok {value : String} {color : Rgba8} :
    parseHexColor value = ok color ↔ ∃ cs, value.toList = '#' :: cs ∧ ReadsAs cs color := by
  rw [parseHexColor]
  cases hstrip : stripPrefix value "#" with
  | none =>
    refine iff_of_false (by simp [ofOption]) ?_
    rintro ⟨cs, hvalue, -⟩
    have hsome : stripPrefix value "#" = some (.ofList cs) :=
      stripPrefix_hash.mpr (by rw [String.toList_ofList, hvalue])
    rw [hstrip] at hsome
    cases hsome
  | some rest =>
    have hvalue := stripPrefix_hash.mp hstrip
    rw [ofOption, Outcome.ok_bind]
    constructor
    · intro h
      split_ifs at h with hlength
      rw [not_not, len_eq_byteLength] at hlength
      rw [← String.ofList_toList (s := rest), hexComponents_eq_ok hlength] at h
      exact ⟨rest.toList, hvalue, h⟩
    · rintro ⟨cs, hcs, hreads⟩
      obtain rfl : rest.toList = cs := (List.cons_eq_cons.mp (hvalue.symm.trans hcs)).2
      have hlength := hreads.byteLength_eq
      rw [if_neg (not_not.mpr ((len_eq_byteLength rest).trans hlength)),
        ← String.ofList_toList (s := rest)]
      exact (hexComponents_eq_ok hlength).mpr hreads

theorem parseHexColor_eq_panic {value : String} :
    parseHexColor value = .panic ↔
      ∃ cs, value.toList = '#' :: cs ∧ byteLength cs = 6 ∧ Torn cs := by
  rw [parseHexColor]
  cases hstrip : stripPrefix value "#" with
  | none =>
    refine iff_of_false (by simp [ofOption]) ?_
    rintro ⟨cs, hvalue, -⟩
    have hsome : stripPrefix value "#" = some (.ofList cs) :=
      stripPrefix_hash.mpr (by rw [String.toList_ofList, hvalue])
    rw [hstrip] at hsome
    cases hsome
  | some rest =>
    have hvalue := stripPrefix_hash.mp hstrip
    rw [ofOption, Outcome.ok_bind]
    constructor
    · intro h
      split_ifs at h with hlength
      rw [not_not, len_eq_byteLength] at hlength
      rw [← String.ofList_toList (s := rest), hexComponents_eq_panic hlength] at h
      exact ⟨rest.toList, hvalue, hlength, h⟩
    · rintro ⟨cs, hcs, hlength, htorn⟩
      obtain rfl : rest.toList = cs := (List.cons_eq_cons.mp (hvalue.symm.trans hcs)).2
      rw [if_neg (not_not.mpr ((len_eq_byteLength rest).trans hlength)),
        ← String.ofList_toList (s := rest)]
      exact (hexComponents_eq_panic hlength).mpr htorn

/-- The value is `#` and six hexadecimal digits, and the colour is the one they spell. -/
def Spells (value : String) (color : Rgba8) : Prop :=
  ∃ a b c d e f r r' g g' u u', value.toList = ['#', a, b, c, d, e, f] ∧
    toDigit 16 a = some r ∧ toDigit 16 b = some r' ∧ toDigit 16 c = some g ∧
    toDigit 16 d = some g' ∧ toDigit 16 e = some u ∧ toDigit 16 f = some u' ∧
    color = .rgb (16 * r + r') (16 * g + g') (16 * u + u')

/-- What a strict reader of colours does with a value. -/
structure ReadStrictly (value : String) : Prop where
  returns : parseHexColor value ≠ .panic
  reads : ∀ color, parseHexColor value = ok color ↔ Spells value color

/-- The six bytes after the `#` of the value can be cut in three, if it comes to that, and none
of the parts has a plus sign, if all are read. -/
structure WellCut (value : String) : Prop where
  whole : ∀ cs, value.toList = '#' :: cs → byteLength cs = 6 → ¬ Torn cs
  unsigned : ∀ cs color, value.toList = '#' :: cs → ReadsAs cs color → '+' ∉ cs

lemma toDigit_plus : toDigit 16 '+' = none := by decide

lemma Pair.of_ne (h : Pair a b n) (hne : a ≠ '+') :
    ∃ high low, toDigit 16 a = some high ∧ toDigit 16 b = some low ∧ n = 16 * high + low := by
  cases h with
  | digits ha hb => exact ⟨_, _, ha, hb, rfl⟩
  | signed hb => exact absurd rfl hne

lemma ne_plus_of_digit {c : Char} {digit : ℕ} (h : toDigit 16 c = some digit) : '+' ≠ c := by
  rintro rfl
  rw [toDigit_plus] at h
  cases h

/-- A colour that is spelled is read. -/
lemma Spells.readsAs {value : String} {color : Rgba8} (h : Spells value color) :
    ∃ cs, value.toList = '#' :: cs ∧ ReadsAs cs color ∧ '+' ∉ cs := by
  obtain ⟨a, b, c, d, e, f, r, r', g, g', u, u', hvalue, ha, hb, hc, hd, he, hf, rfl⟩ := h
  refine ⟨[a, b, c, d, e, f], hvalue, ⟨a, b, c, d, e, f, _, _, _, rfl, .digits ha hb,
    .digits hc hd, .digits he hf, rfl⟩, ?_⟩
  simp [ne_plus_of_digit ha, ne_plus_of_digit hb, ne_plus_of_digit hc, ne_plus_of_digit hd,
    ne_plus_of_digit he, ne_plus_of_digit hf]

/-- What is read without a plus sign is spelled. -/
lemma ReadsAs.spells {value : String} {color : Rgba8} (h : ReadsAs cs color)
    (hvalue : value.toList = '#' :: cs) (hplus : '+' ∉ cs) : Spells value color := by
  obtain ⟨a, b, c, d, e, f, red, green, blue, rfl, hab, hcd, hef, rfl⟩ := h
  have hall : ∀ x ∈ [a, b, c, d, e, f], x ≠ '+' := by
    rintro x hx rfl
    exact hplus hx
  obtain ⟨r, r', ha, hb, rfl⟩ := hab.of_ne (hall a (by simp))
  obtain ⟨g, g', hc, hd, rfl⟩ := hcd.of_ne (hall c (by simp))
  obtain ⟨u, u', he, hf, rfl⟩ := hef.of_ne (hall e (by simp))
  exact ⟨a, b, c, d, e, f, r, r', g, g', u, u', hvalue, ha, hb, hc, hd, he, hf, rfl⟩

theorem readStrictly_of_wellCut_iff {value : String} : ReadStrictly value ↔ WellCut value := by
  constructor
  · intro h
    refine ⟨fun cs hvalue hlength htorn => h.returns ?_, fun cs color hvalue hreads => ?_⟩
    · exact parseHexColor_eq_panic.mpr ⟨cs, hvalue, hlength, htorn⟩
    · obtain ⟨cs', hcs', -, hplus⟩ :=
        ((h.reads color).mp (parseHexColor_eq_ok.mpr ⟨cs, hvalue, hreads⟩)).readsAs
      obtain rfl : cs = cs' := (List.cons_eq_cons.mp (hvalue.symm.trans hcs')).2
      exact hplus
  · intro h
    refine ⟨fun hpanic => ?_, fun color => ⟨fun hok => ?_, fun hspells => ?_⟩⟩
    · obtain ⟨cs, hvalue, hlength, htorn⟩ := parseHexColor_eq_panic.mp hpanic
      exact h.whole cs hvalue hlength htorn
    · obtain ⟨cs, hvalue, hreads⟩ := parseHexColor_eq_ok.mp hok
      exact hreads.spells hvalue (h.unsigned cs color hvalue hreads)
    · obtain ⟨cs, hvalue, hreads, -⟩ := hspells.readsAs
      exact parseHexColor_eq_ok.mpr ⟨cs, hvalue, hreads⟩

/-! ## Files -/

/-- The value of a key is cut inside a character. -/
def TornAt (values : BTreeMap String String) (key : String) : Prop :=
  ∃ value cs, values.get key = some value ∧ value.toList = '#' :: cs ∧ byteLength cs = 6 ∧ Torn cs

/-- The value of a key is read as a colour. -/
def ReadsAt (values : BTreeMap String String) (key : String) : Prop :=
  ∃ value cs color, values.get key = some value ∧ value.toList = '#' :: cs ∧ ReadsAs cs color

/-- The first of the values that the parser comes to and cannot read is cut inside a
character. -/
def TornFile (values : BTreeMap String String) : Prop :=
  TornAt values "background" ∨ ReadsAt values "background" ∧
    (TornAt values "accent" ∨ ReadsAt values "accent" ∧
      (TornAt values "foreground" ∨ ReadsAt values "foreground" ∧
        (TornAt values "muted" ∨ TornAt values "selection" ∨ TornAt values "red")))

variable {values : BTreeMap String String} {key : String}

lemma color_eq_panic : color values key = .panic ↔ TornAt values key := by
  rw [color]
  cases hget : values.get key with
  | none =>
    refine iff_of_false (by simp [ofOption]) ?_
    rintro ⟨value, cs, hvalue, -⟩
    rw [hget] at hvalue
    cases hvalue
  | some value =>
    rw [ofOption, Outcome.ok_bind, parseHexColor_eq_panic]
    constructor
    · rintro ⟨cs, hvalue, hlength, htorn⟩
      exact ⟨value, cs, hget, hvalue, hlength, htorn⟩
    · rintro ⟨value', cs, hvalue', hvalue, hlength, htorn⟩
      obtain rfl : value = value' := Option.some.inj (hget.symm.trans hvalue')
      exact ⟨cs, hvalue, hlength, htorn⟩

lemma exists_color_eq_ok : (∃ found, color values key = ok found) ↔ ReadsAt values key := by
  constructor
  · rintro ⟨found, h⟩
    rw [color] at h
    cases hget : values.get key with
    | none =>
      rw [hget] at h
      cases h
    | some value =>
      rw [hget, ofOption, Outcome.ok_bind, parseHexColor_eq_ok] at h
      obtain ⟨cs, hvalue, hreads⟩ := h
      exact ⟨value, cs, found, hget, hvalue, hreads⟩
  · rintro ⟨value, cs, found, hget, hvalue, hreads⟩
    refine ⟨found, ?_⟩
    rw [color, hget, ofOption, Outcome.ok_bind]
    exact parseHexColor_eq_ok.mpr ⟨cs, hvalue, hreads⟩

lemma themeConfig_ne_panic {generation : ℕ}
    {background accent foreground muted selection destructive : Rgba8} :
    themeConfig values generation background accent foreground muted selection destructive ≠
      .panic := by
  rw [themeConfig]
  generalize parseAnimationHz (values.get "animation_hz") _ = external
  generalize parseAnimationHz (values.get "battery_animation_hz") _ = battery
  rcases external with _ | external <;> rcases battery with _ | battery <;> simp [ofOption]

lemma bind_eq_panic_iff {x : Outcome Unit Rgba8} {f : Rgba8 → Outcome Unit AppearanceConfig}
    {p : Prop} (hf : ∀ found, x = ok found → (f found = .panic ↔ p)) :
    (x >>= f) = .panic ↔ x = .panic ∨ (∃ found, x = ok found) ∧ p := by
  rw [Outcome.bind_eq_panic]
  refine or_congr_right ⟨?_, ?_⟩
  · rintro ⟨found, hfound, hpanic⟩
    exact ⟨⟨found, hfound⟩, (hf found hfound).mp hpanic⟩
  · rintro ⟨⟨found, hfound⟩, hp⟩
    exact ⟨found, hfound, (hf found hfound).mpr hp⟩

/-- An optional colour is passed over unless its value is torn. -/
lemma bind_unwrapOr_eq_panic {fallback : Rgba8} {f : Rgba8 → Outcome Unit AppearanceConfig}
    {p : Prop} (hf : ∀ found, f found = .panic ↔ p) :
    (unwrapOr (color values key) fallback >>= f) = .panic ↔ TornAt values key ∨ p := by
  rw [← color_eq_panic]
  rcases hcolor : color values key with found | e | _
  · rw [unwrapOr, Outcome.ok_bind, hf]
    simp
  · rw [unwrapOr, Outcome.ok_bind, hf]
    simp
  · simp [unwrapOr]

theorem parseThemeConfig_eq_panic {contents : String} {generation : ℕ} :
    parseThemeConfig contents generation = .panic ↔ TornFile (themeValues contents) := by
  rw [parseThemeConfig, TornFile]
  generalize themeValues contents = values
  simp only [← color_eq_panic, ← exists_color_eq_ok]
  refine bind_eq_panic_iff fun background _ => bind_eq_panic_iff fun accent _ =>
    bind_eq_panic_iff fun foreground _ => ?_
  simp only [color_eq_panic]
  refine bind_unwrapOr_eq_panic fun muted => bind_unwrapOr_eq_panic fun selection => ?_
  rw [bind_unwrapOr_eq_panic (p := False) fun destructive => iff_false_intro themeConfig_ne_panic,
    or_false]

/-- The parser returns on exactly the files in which no value that it comes to is cut inside a
character, and reads as colours exactly what they spell unless a value is cut so or has plus
signs. -/
theorem theme_strict_iff (contents : String) (generation : ℕ) (value : String) :
    (parseThemeConfig contents generation ≠ .panic ↔ ¬ TornFile (themeValues contents)) ∧
      (ReadStrictly value ↔ WellCut value) :=
  ⟨not_congr parseThemeConfig_eq_panic, readStrictly_of_wellCut_iff⟩

/-- The first colour of this file is two characters of three bytes each. -/
theorem theme_not_strict :
    ¬ ∀ (contents : String) (generation : ℕ) (value : String),
      parseThemeConfig contents generation ≠ .panic ∧ ReadStrictly value := by
  intro h
  have hpanic : parseThemeConfig "background = \"#€€\"" 1 = .panic := by decide
  exact (h "background = \"#€€\"" 1 "").1 hpanic

example : parseHexColor "#+1+2+3" = ok (.rgb 1 2 3) := by decide

end TouchBar.Session
