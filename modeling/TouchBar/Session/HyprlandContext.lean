import TouchBar.Lib.Runs
import TouchBar.Model.Context
import TouchBar.Rust.Split

/-!
# Context facts from Hyprland

The compositor reports windows, workspaces and layers line by line.  A tracker counts the
open layers of every namespace and makes a fact of the first to open and of the last to
close; a filter behind it drops a fact that repeats the last value of its key.  The reader
forgets the value of a closed activity, so that the filter does not grow with the namespaces
it has seen.

The facts on the channel are compared with what a multiset of open layers says.  The event
signal that wakes the receiver is left out.
-/

namespace TouchBar.Session

open TouchBar.Lib TouchBar.Rust TouchBar.Model

def maxTrackedActivities : ℕ := 128

structure ContextEvent where
  key : String
  value : ContextValue
deriving DecidableEq

namespace ContextEvent

def text (key value : String) : ContextEvent := ⟨key, .text value⟩

def application (value : String) : ContextEvent :=
  text "application.id" (Text.toAsciiLowercase (Text.trim value))

def activity (value : String) (active : Bool) : ContextEvent :=
  ⟨"activity." ++ value, .boolean active⟩

end ContextEvent

/-! ## The tracker -/

def normalizedActivity (value : String) : Option String :=
  let value := Text.toAsciiLowercase (Text.trim value)
  if !Text.isEmpty value && Text.len value ≤ 112 && Text.all value fun c =>
      c.isLower || c.isDigit || c = '-' || c = '_' || c = '.' || c = ':'
  then some value
  else none

def parseHyprlandEvent (line : String) : Option ContextEvent := do
  let (name, payload) ← Text.splitOnce line ">>"
  if name = "activewindow" then
    some (.application ((Text.splitOnce payload ",").elim payload Prod.fst))
  else if name = "workspace" ∨ name = "workspacev2" then
    some (.text "workspace.id" ((Text.rsplitOnce payload ',').elim payload Prod.snd))
  else if name = "focusedmon" then
    (Text.splitOnce payload ",").map fun parts => .text "workspace.id" parts.2
  else none

/-- The counts are of type `u32`. -/
structure HyprlandEventTracker where
  layerCounts : BTreeMap String ℕ

namespace HyprlandEventTracker

variable (t : HyprlandEventTracker)

/-- The arm of `openlayer`. -/
def openLayer (activity : String) : HyprlandEventTracker × Option ContextEvent :=
  if !t.layerCounts.containsKey activity && maxTrackedActivities ≤ t.layerCounts.len then
    (t, none)
  else
    let count := min ((t.layerCounts.get activity).getD 0 + 1) (2 ^ 32 - 1)
    (⟨t.layerCounts.insert activity count⟩,
      if count = 1 then some (.activity activity true) else none)

/-- The arm of `closelayer`. -/
def closeLayer (activity : String) : HyprlandEventTracker × Option ContextEvent :=
  match t.layerCounts.get activity with
  | none => (t, none)
  | some count =>
    if 1 < count then (⟨t.layerCounts.insert activity (count - 1)⟩, none)
    else (⟨t.layerCounts.remove activity⟩, some (.activity activity false))

def parse (line : String) : HyprlandEventTracker × Option ContextEvent :=
  match Text.splitOnce line ">>" with
  | none => (t, none)
  | some (name, payload) =>
    if name = "openlayer" then (normalizedActivity payload).elim (t, none) t.openLayer
    else if name = "closelayer" then (normalizedActivity payload).elim (t, none) t.closeLayer
    else (t, parseHyprlandEvent line)

end HyprlandEventTracker

/-! ## The reader -/

/-- Whether the fact is new, and the values to remember. -/
def retainChangedFact (lastValues : BTreeMap String ContextValue) (event : ContextEvent) :
    Bool × BTreeMap String ContextValue :=
  if lastValues.get event.key = some event.value then (false, lastValues)
  else (true, lastValues.insert event.key event.value)

/-- What `hyprctl activewindow` printed, if it could be run. -/
def initialApplication (stdout : Option String) : Option ContextEvent :=
  stdout.bind fun stdout => (Text.lines stdout).findSome? fun line =>
    (((Text.stripPrefix (Text.trim line) "class:").map Text.trim).filter
      fun name => !Text.isEmpty name).map .application

/-- The thread that reads the socket.  `seen` are the lines that it has read, and `sent` the
facts that it has put on the channel. -/
structure HyprlandReader where
  tracker : HyprlandEventTracker
  lastValues : BTreeMap String ContextValue
  running : Bool
  seen : List String
  sent : List ContextEvent

/-- What the socket gives next: a line, with whether the receiver is still there to take a
fact, or an error (or the end). -/
inductive ReaderInput where
  | line (line : String) (connected : Bool)
  | failed

namespace HyprlandReader

def connect (initial : Option ContextEvent) : HyprlandReader where
  tracker := ⟨.empty⟩
  lastValues := .ofList (initial.toList.map fun event => (event.key, event.value))
  running := true
  seen := []
  sent := []

variable (r : HyprlandReader)

/-- What the loop does with a fact of the tracker. -/
def forward (event : ContextEvent) (connected : Bool) : HyprlandReader :=
  let (changed, lastValues) := retainChangedFact r.lastValues event
  let r := { r with lastValues := lastValues }
  if changed then
    if connected then
      let closed := Text.startsWith event.key "activity." && event.value = .boolean false
      { r with
        sent := r.sent ++ [event]
        lastValues := if closed then lastValues.remove event.key else lastValues }
    else { r with running := false }
  else r

/-- One round of the loop. -/
def step : ReaderInput → HyprlandReader
  | .failed => { r with running := false }
  | .line line connected =>
    if r.running then
      let (tracker, event) := r.tracker.parse line
      let r := { r with tracker := tracker, seen := r.seen ++ [line] }
      event.elim r fun event => r.forward event connected
    else r

end HyprlandReader

/-- The values of the facts for a key, in order. -/
def factsOf (events : List ContextEvent) (key : String) : List ContextValue :=
  (events.filter fun event => event.key = key).map ContextEvent.value

/-! ## The layers that are open -/

inductive LayerChange where
  | opened (activity : String)
  | closed (activity : String)

/-- What a line says about the layers. -/
def layerChange (line : String) : Option LayerChange := do
  let (name, payload) ← Text.splitOnce line ">>"
  if name = "openlayer" then (normalizedActivity payload).map .opened
  else if name = "closelayer" then (normalizedActivity payload).map .closed
  else none

/-- A line that closes a layer has an effect only if one of the namespace is open. -/
def LayerChange.apply (layers : Multiset String) : LayerChange → Multiset String
  | opened activity => activity ::ₘ layers
  | closed activity => layers.erase activity

def changeLayers (layers : Multiset String) (line : String) : Multiset String :=
  (layerChange line).elim layers (LayerChange.apply layers)

/-- The layers that are open after some lines. -/
def openLayers (lines : List String) : Multiset String := run changeLayers 0 lines

/-- No more namespaces are open than the tracker follows, and no more layers of one than it
counts. -/
structure Bounded (layers : Multiset String) : Prop where
  activities : layers.toFinset.card ≤ maxTrackedActivities
  count_lt : ∀ activity, layers.count activity < 2 ^ 32

lemma openLayers_append (lines : List String) (line : String) :
    openLayers (lines ++ [line]) = changeLayers (openLayers lines) line := by
  rw [openLayers, run_append]
  rfl

/-- What a line can do to the open layers, with the fact that the tracker makes of it. -/
inductive Transition (layers : Multiset String) : Multiset String → Option ContextEvent → Prop
  | opens (activity : String) (h : layers.count activity = 0) :
    Transition layers (activity ::ₘ layers) (some (.activity activity true))
  | opensAgain (activity : String) (h : layers.count activity ≠ 0) :
    Transition layers (activity ::ₘ layers) none
  | closes (activity : String) (h : layers.count activity = 1) :
    Transition layers (layers.erase activity) (some (.activity activity false))
  | closesOne (activity : String) (h : layers.count activity ≠ 1) :
    Transition layers (layers.erase activity) none
  | other (event : Option ContextEvent)
      (h : ∀ e ∈ event, e.key = "application.id" ∨ e.key = "workspace.id") :
    Transition layers layers event

/-! ## The tracker counts the open layers -/

/-- The tracker has an entry for exactly the namespaces with an open layer. -/
def Counts (layers : Multiset String) (t : HyprlandEventTracker) : Prop :=
  ∀ activity, t.layerCounts.get activity =
    if layers.count activity = 0 then none else some (layers.count activity)

namespace Counts

variable {layers : Multiset String} {t : HyprlandEventTracker} {activity : String}

lemma containsKey_iff (h : Counts layers t) :
    t.layerCounts.containsKey activity = true ↔ activity ∈ layers := by
  rw [BTreeMap.containsKey, h, ← Multiset.count_ne_zero]
  split_ifs with hzero
  · simp [hzero]
  · simp [hzero]

lemma len_eq (h : Counts layers t) : t.layerCounts.len = layers.toFinset.card := by
  have hkeys : t.layerCounts.keys.toFinset = layers.toFinset := by
    ext key
    rw [List.mem_toFinset, BTreeMap.mem_keys_iff_containsKey, h.containsKey_iff,
      Multiset.mem_toFinset]
  rw [← BTreeMap.length_keys, ← List.toFinset_card_of_nodup t.layerCounts.keys_nodup, hkeys]

lemma getD_eq (h : Counts layers t) :
    (t.layerCounts.get activity).getD 0 = layers.count activity := by
  rw [h]
  split_ifs with hzero
  · exact hzero.symm
  · rfl

lemma openLayer (h : Counts layers t) (hb : Bounded (activity ::ₘ layers)) :
    Counts (activity ::ₘ layers) (t.openLayer activity).1 ∧
      Transition layers (activity ::ₘ layers) (t.openLayer activity).2 := by
  -- there is room for a namespace that is not yet followed
  have hroom : ¬ (!t.layerCounts.containsKey activity &&
      decide (maxTrackedActivities ≤ t.layerCounts.len)) = true := by
    rw [Bool.and_eq_true, Bool.not_eq_true', decide_eq_true_iff, h.len_eq]
    rintro ⟨hnew, hfull⟩
    have hnotMem : activity ∉ layers.toFinset := by
      intro hmem
      rw [h.containsKey_iff.mpr (Multiset.mem_toFinset.mp hmem)] at hnew
      cases hnew
    have hle := hb.activities
    rw [Multiset.toFinset_cons, Finset.card_insert_of_notMem hnotMem] at hle
    omega
  -- and the count does not saturate
  have hcount : min (layers.count activity + 1) (2 ^ 32 - 1) = layers.count activity + 1 := by
    have hlt := hb.count_lt activity
    rw [Multiset.count_cons_self] at hlt
    omega
  rw [HyprlandEventTracker.openLayer, if_neg hroom]
  simp only [h.getD_eq, hcount]
  constructor
  · intro other
    rw [BTreeMap.get_insert]
    by_cases heq : other = activity
    · subst heq
      rw [if_pos rfl, Multiset.count_cons_self, if_neg (Nat.succ_ne_zero _)]
    · rw [if_neg heq, Multiset.count_cons_of_ne heq, h]
  · by_cases hzero : layers.count activity = 0
    · rw [if_pos (by omega)]
      exact .opens activity hzero
    · rw [if_neg (by omega)]
      exact .opensAgain activity hzero

lemma closeLayer (h : Counts layers t) :
    Counts (layers.erase activity) (t.closeLayer activity).1 ∧
      Transition layers (layers.erase activity) (t.closeLayer activity).2 := by
  have hget := h activity
  rw [HyprlandEventTracker.closeLayer]
  by_cases hzero : layers.count activity = 0
  · -- a close without an open layer
    rw [if_pos hzero] at hget
    rw [hget]
    have herase : layers.erase activity = layers :=
      Multiset.erase_of_notMem (Multiset.count_eq_zero.mp hzero)
    have htransition : Transition layers (layers.erase activity) none :=
      .closesOne activity (by omega)
    rw [herase] at htransition ⊢
    exact ⟨h, htransition⟩
  · rw [if_neg hzero] at hget
    rw [hget]
    by_cases hone : 1 < layers.count activity
    · simp only [if_pos hone]
      refine ⟨fun other => ?_, .closesOne activity (by omega)⟩
      rw [BTreeMap.get_insert]
      by_cases heq : other = activity
      · subst heq
        rw [if_pos rfl, Multiset.count_erase_self, if_neg (by omega)]
      · rw [if_neg heq, Multiset.count_erase_of_ne heq, h]
    · simp only [if_neg hone]
      refine ⟨fun other => ?_, .closes activity (by omega)⟩
      rw [BTreeMap.get_remove]
      by_cases heq : other = activity
      · subst heq
        rw [if_pos rfl, Multiset.count_erase_self, if_pos (by omega)]
      · rw [if_neg heq, Multiset.count_erase_of_ne heq, h]

end Counts

lemma key_of_parseHyprlandEvent {line : String} {event : ContextEvent}
    (h : parseHyprlandEvent line = some event) :
    event.key = "application.id" ∨ event.key = "workspace.id" := by
  rw [parseHyprlandEvent, Option.bind_eq_bind, Option.bind_eq_some_iff] at h
  obtain ⟨⟨name, payload⟩, -, h⟩ := h
  dsimp only at h
  split_ifs at h
  · obtain rfl := Option.some.inj h
    exact .inl rfl
  · obtain rfl := Option.some.inj h
    exact .inr rfl
  · obtain ⟨parts, -, rfl⟩ := Option.map_eq_some_iff.mp h
    exact .inr rfl

/-- One line keeps the counts right, and the fact made of it is that of the transition. -/
theorem parse_transition {layers : Multiset String} {t : HyprlandEventTracker}
    (h : Counts layers t) {line : String} (hb : Bounded (changeLayers layers line)) :
    Counts (changeLayers layers line) (t.parse line).1 ∧
      Transition layers (changeLayers layers line) (t.parse line).2 := by
  have hsilent : Counts layers t ∧ Transition layers layers none := by
    refine ⟨h, .other none fun event hevent => ?_⟩
    cases hevent
  rw [changeLayers, layerChange] at hb ⊢
  rw [HyprlandEventTracker.parse]
  generalize Text.splitOnce line ">>" = found at hb ⊢
  cases found with
  | none => exact hsilent
  | some parts =>
    obtain ⟨name, payload⟩ := parts
    simp only [Option.bind_eq_bind, Option.bind_some] at hb ⊢
    by_cases hopen : name = "openlayer"
    · simp only [if_pos hopen] at hb ⊢
      cases hactivity : normalizedActivity payload with
      | none => exact hsilent
      | some activity =>
        rw [hactivity] at hb
        exact h.openLayer hb
    · simp only [if_neg hopen] at hb ⊢
      by_cases hclose : name = "closelayer"
      · simp only [if_pos hclose] at hb ⊢
        cases normalizedActivity payload with
        | none => exact hsilent
        | some activity => exact h.closeLayer
      · simp only [if_neg hclose] at hb ⊢
        exact ⟨h, .other _ fun event hevent => key_of_parseHyprlandEvent hevent⟩

/-! ## The facts on the channel -/

def activityKey (activity : String) : String := "activity." ++ activity

/-- The first `n` of the values true, false, true, … -/
def alternating : ℕ → List ContextValue
  | 0 => []
  | n + 1 => alternating n ++ [.boolean (n % 2 = 0)]

lemma getLast?_alternating {n : ℕ} :
    (alternating n).getLast? = some (.boolean true) ↔ n % 2 = 1 := by
  cases n with
  | zero => simp [alternating]
  | succ n =>
    rw [alternating, List.getLast?_append, List.getLast?_singleton, Option.some_or,
      Option.some.injEq, ContextValue.boolean.injEq, decide_eq_true_iff]
    omega

lemma activityKey_inj {a b : String} : activityKey a = activityKey b ↔ a = b := by
  refine ⟨fun h => Text.append_left_cancel h, ?_⟩
  rintro rfl
  rfl

lemma startsWith_activityKey (activity : String) :
    Text.startsWith (activityKey activity) "activity." = true :=
  Text.startsWith_iff.mpr ⟨activity, rfl⟩

lemma activityKey_ne {key : String} (h : Text.startsWith key "activity." = false)
    (activity : String) : activityKey activity ≠ key := by
  rintro rfl
  rw [startsWith_activityKey] at h
  cases h

lemma startsWith_other {event : ContextEvent}
    (h : event.key = "application.id" ∨ event.key = "workspace.id") :
    Text.startsWith event.key "activity." = false := by
  rcases h with h | h
  · rw [h]
    decide
  · rw [h]
    decide

lemma factsOf_append_self (events : List ContextEvent) (event : ContextEvent) :
    factsOf (events ++ [event]) event.key = factsOf events event.key ++ [event.value] := by
  simp [factsOf]

lemma factsOf_append_of_ne (events : List ContextEvent) {event : ContextEvent} {key : String}
    (h : event.key ≠ key) : factsOf (events ++ [event]) key = factsOf events key := by
  simp [factsOf, h]

/-- The values of two facts in a row for a key differ. -/
def Changing (values : List ContextValue) : Prop := values.IsChain (· ≠ ·)

lemma Changing.append {values : List ContextValue} {value : ContextValue} (h : Changing values)
    (hne : values.getLast? ≠ some value) : Changing (values ++ [value]) := by
  rw [Changing, List.isChain_append]
  refine ⟨h, List.isChain_singleton _, ?_⟩
  rintro x hx y hy rfl
  obtain rfl := Option.some.inj hy
  exact hne hx

/-- The facts that have been sent are in order. -/
structure Ordered (initial sent : List ContextEvent) : Prop where
  alternating : ∀ activity, ∃ n, factsOf sent (activityKey activity) = alternating n
  changing : ∀ key, Text.startsWith key "activity." = false →
    Changing (factsOf (initial ++ sent) key)

/-- The filter and the last facts agree with what is open. -/
structure Agrees (initial : List ContextEvent) (layers : Multiset String)
    (lastValues : BTreeMap String ContextValue) (sent : List ContextEvent) : Prop where
  cached : ∀ activity, lastValues.get (activityKey activity) =
    if layers.count activity = 0 then none else some (.boolean true)
  alternating : ∀ activity, ∃ n, factsOf sent (activityKey activity) = alternating n ∧
    (n % 2 = 1 ↔ layers.count activity ≠ 0)
  changing : ∀ key, Text.startsWith key "activity." = false →
    Changing (factsOf (initial ++ sent) key) ∧
      (factsOf (initial ++ sent) key).getLast? = lastValues.get key

namespace HyprlandReader

variable {r : HyprlandReader} {event : ContextEvent}

lemma forward_repeated (h : r.lastValues.get event.key = some event.value) (connected : Bool) :
    r.forward event connected = r := by
  rw [forward, retainChangedFact, if_pos h]
  rfl

lemma forward_disconnected (h : r.lastValues.get event.key ≠ some event.value) :
    r.forward event false =
      { r with lastValues := r.lastValues.insert event.key event.value, running := false } := by
  rw [forward, retainChangedFact, if_neg h]
  rfl

lemma forward_connected (h : r.lastValues.get event.key ≠ some event.value) :
    r.forward event true =
      { r with
        sent := r.sent ++ [event]
        lastValues :=
          if Text.startsWith event.key "activity." && event.value = .boolean false then
            (r.lastValues.insert event.key event.value).remove event.key
          else r.lastValues.insert event.key event.value } := by
  rw [forward, retainChangedFact, if_neg h]
  rfl

lemma forward_seen (connected : Bool) : (r.forward event connected).seen = r.seen := by
  rw [forward]
  dsimp only
  split_ifs <;> rfl

lemma seen_step (h : r.running = true) (line : String) (connected : Bool) :
    (r.step (.line line connected)).seen = r.seen ++ [line] := by
  rw [step, if_pos h]
  dsimp only
  cases hevent : (r.tracker.parse line).2 with
  | none => rfl
  | some event => rw [Option.elim_some, forward_seen]

lemma forward_tracker (connected : Bool) : (r.forward event connected).tracker = r.tracker := by
  rw [forward]
  dsimp only
  split_ifs <;> rfl

end HyprlandReader

/-- A fact about an activity that is sent leaves the value of an open activity, and none for a
closed one. -/
lemma get_cached (lastValues : BTreeMap String ContextValue) (activity : String) (active : Bool)
    (key : String) :
    (if Text.startsWith (activityKey activity) "activity." &&
        (ContextValue.boolean active = ContextValue.boolean false) then
      (lastValues.insert (activityKey activity) (.boolean active)).remove (activityKey activity)
      else lastValues.insert (activityKey activity) (.boolean active)).get key =
    if key = activityKey activity then (if active then some (.boolean true) else none)
    else lastValues.get key := by
  rw [startsWith_activityKey]
  cases active with
  | true =>
    rw [if_neg (by decide), BTreeMap.get_insert]
    rfl
  | false =>
    rw [if_pos (by decide), BTreeMap.get_remove]
    by_cases heq : key = activityKey activity
    · rw [if_pos heq, if_pos heq]
      rfl
    · rw [if_neg heq, if_neg heq, BTreeMap.get_insert, if_neg heq]

namespace Agrees

variable {initial sent : List ContextEvent} {layers next : Multiset String}
  {lastValues : BTreeMap String ContextValue} {r : HyprlandReader} {event : ContextEvent}

lemma ordered (h : Agrees initial layers lastValues sent) : Ordered initial sent where
  alternating activity := by
    obtain ⟨n, hn, -⟩ := h.alternating activity
    exact ⟨n, hn⟩
  changing key hkey := (h.changing key hkey).1

/-- Only which namespaces are open matters. -/
lemma congr (h : Agrees initial layers lastValues sent)
    (hsame : ∀ activity, next.count activity = 0 ↔ layers.count activity = 0) :
    Agrees initial next lastValues sent where
  cached activity := by
    rw [h.cached]
    simp only [hsame activity]
  alternating activity := by
    obtain ⟨n, hn, hodd⟩ := h.alternating activity
    exact ⟨n, hn, hodd.trans (not_congr (hsame activity)).symm⟩
  changing := h.changing

/-- The filter never drops a fact of the tracker about an activity. -/
lemma retained (h : Agrees initial layers lastValues sent)
    (ht : Transition layers next (some event))
    (hkey : Text.startsWith event.key "activity." = true) :
    lastValues.get event.key ≠ some event.value := by
  cases ht with
  | opens activity hzero =>
    have hcached := h.cached activity
    rw [if_pos hzero] at hcached
    intro heq
    rw [ContextEvent.activity, ← activityKey, hcached] at heq
    cases heq
  | closes activity hone =>
    have hcached := h.cached activity
    rw [if_neg (by omega)] at hcached
    intro heq
    rw [ContextEvent.activity, ← activityKey, hcached] at heq
    cases heq
  | other _ hother =>
    rw [startsWith_other (hother event rfl)] at hkey
    cases hkey

/-- Sending a fact that opens or closes an activity. -/
lemma send_activity (h : Agrees initial layers r.lastValues r.sent) {activity : String}
    {active : Bool} (hbefore : layers.count activity = 0 ↔ active = true)
    (hafter : next.count activity = 0 ↔ active = false)
    (hframe : ∀ other, other ≠ activity → next.count other = layers.count other)
    (hget : r.lastValues.get (activityKey activity) ≠ some (.boolean active)) :
    Agrees initial next (r.forward (.activity activity active) true).lastValues
      (r.forward (.activity activity active) true).sent := by
  have hforward := @HyprlandReader.forward_connected r (.activity activity active) hget
  rw [hforward]
  refine ⟨fun other => ?_, fun other => ?_, fun key hkey => ?_⟩
  · refine (get_cached r.lastValues activity active (activityKey other)).trans ?_
    by_cases heq : other = activity
    · subst heq
      rw [if_pos rfl]
      cases active <;> simp [hafter]
    · rw [if_neg fun hkey => heq (activityKey_inj.mp hkey), h.cached, hframe other heq]
  · obtain ⟨n, hn, hodd⟩ := h.alternating other
    by_cases heq : other = activity
    · subst heq
      refine ⟨n + 1, ?_, ?_⟩
      · refine (factsOf_append_self r.sent (.activity other active)).trans ?_
        -- the fact is true exactly if an even number came before
        have hactive : active = decide (n % 2 = 0) := by
          rw [Bool.eq_iff_iff, decide_eq_true_iff, ← hbefore]
          omega
        show factsOf r.sent (activityKey other) ++ [.boolean active] = _
        rw [hn, hactive]
        rfl
      · have hactive : active = false ↔ ¬ active = true := by cases active <;> simp
        rw [Ne, hafter, hactive, ← hbefore]
        omega
    · refine ⟨n, ?_, ?_⟩
      · exact (factsOf_append_of_ne r.sent fun hkey => heq (activityKey_inj.mp hkey).symm).trans hn
      · rw [hodd, hframe other heq]
  · have hne := activityKey_ne hkey activity
    obtain ⟨hchanging, hlast⟩ := h.changing key hkey
    rw [← List.append_assoc]
    rw [@factsOf_append_of_ne (initial ++ r.sent) (.activity activity active) key hne]
    refine ⟨hchanging, hlast.trans ?_⟩
    exact ((get_cached r.lastValues activity active key).trans (if_neg hne.symm)).symm

/-- Sending any other fact. -/
lemma send_other (h : Agrees initial layers r.lastValues r.sent)
    (hkey : Text.startsWith event.key "activity." = false)
    (hget : r.lastValues.get event.key ≠ some event.value) :
    Agrees initial layers (r.forward event true).lastValues (r.forward event true).sent := by
  rw [HyprlandReader.forward_connected hget, hkey]
  refine ⟨fun other => ?_, fun other => ?_, fun key hother => ?_⟩
  · have hne := activityKey_ne hkey other
    exact BTreeMap.get_insert.trans ((if_neg hne).trans (h.cached other))
  · obtain ⟨n, hn, hodd⟩ := h.alternating other
    have hne := activityKey_ne hkey other
    exact ⟨n, (factsOf_append_of_ne r.sent hne.symm).trans hn, hodd⟩
  · obtain ⟨hchanging, hlast⟩ := h.changing key hother
    rw [← List.append_assoc]
    by_cases heq : event.key = key
    · subst heq
      rw [factsOf_append_self]
      refine ⟨hchanging.append (hlast ▸ hget), ?_⟩
      rw [List.getLast?_append, List.getLast?_singleton, Option.some_or]
      exact (BTreeMap.get_insert.trans (if_pos rfl)).symm
    · rw [factsOf_append_of_ne _ heq]
      refine ⟨hchanging, hlast.trans ?_⟩
      exact (BTreeMap.get_insert.trans (if_neg fun hkey => heq hkey.symm)).symm

/-- What the loop does with the fact of a transition. -/
lemma forward (h : Agrees initial layers r.lastValues r.sent)
    (ht : Transition layers next (some event)) (connected : Bool) :
    Ordered initial (r.forward event connected).sent ∧
      ((r.forward event connected).running = true →
        Agrees initial next (r.forward event connected).lastValues
          (r.forward event connected).sent) := by
  by_cases hget : r.lastValues.get event.key = some event.value
  · -- a repeated fact is not about an activity
    have hnext : next = layers := by
      have hretained := h.retained ht
      cases ht with
      | opens activity hzero => exact absurd hget (hretained (startsWith_activityKey activity))
      | closes activity hone => exact absurd hget (hretained (startsWith_activityKey activity))
      | other _ hother => rfl
    rw [HyprlandReader.forward_repeated hget, hnext]
    exact ⟨h.ordered, fun _ => h⟩
  · cases connected with
    | false =>
      rw [HyprlandReader.forward_disconnected hget]
      exact ⟨h.ordered, fun hrunning => by cases hrunning⟩
    | true =>
      suffices hsend : Agrees initial next (r.forward event true).lastValues
          (r.forward event true).sent from ⟨hsend.ordered, fun _ => hsend⟩
      cases ht with
      | opens activity hzero =>
        refine h.send_activity (by simp [hzero]) (by simp) (fun other hne => ?_) hget
        rw [Multiset.count_cons_of_ne hne]
      | closes activity hone =>
        refine h.send_activity (by simp [hone]) ?_ (fun other hne => ?_) hget
        · rw [Multiset.count_erase_self, hone]
          simp
        · rw [Multiset.count_erase_of_ne hne]
      | other _ hother => exact h.send_other (startsWith_other (hother event rfl)) hget

/-- A transition without a fact opens or closes no namespace. -/
lemma silent (h : Agrees initial layers lastValues sent) (ht : Transition layers next none) :
    Agrees initial next lastValues sent := by
  cases ht with
  | opensAgain activity hne =>
    refine h.congr fun other => ?_
    by_cases heq : other = activity
    · subst heq
      rw [Multiset.count_cons_self]
      omega
    · rw [Multiset.count_cons_of_ne heq]
  | closesOne activity hne =>
    refine h.congr fun other => ?_
    by_cases heq : other = activity
    · subst heq
      rw [Multiset.count_erase_self]
      omega
    · rw [Multiset.count_erase_of_ne heq]
  | other _ hother => exact h

end Agrees

/-! ## Runs -/

/-- What holds of the reader after every input: the facts sent are in order, and as long as it
runs, tracker and filter know what is open. -/
structure Inv (initial : List ContextEvent) (r : HyprlandReader) : Prop where
  ordered : Ordered initial r.sent
  agrees : r.running = true → Counts (openLayers r.seen) r.tracker ∧
    Agrees initial (openLayers r.seen) r.lastValues r.sent

lemma inv_step {initial : List ContextEvent} {r : HyprlandReader} (h : Inv initial r)
    {input : ReaderInput} (hb : Bounded (openLayers (r.step input).seen)) :
    Inv initial (r.step input) := by
  cases input with
  | failed => exact ⟨h.ordered, fun hrunning => by cases hrunning⟩
  | line line connected =>
    by_cases hrunning : r.running = true
    · obtain ⟨hcounts, hagrees⟩ := h.agrees hrunning
      rw [HyprlandReader.seen_step hrunning, openLayers_append] at hb
      obtain ⟨hcounts, ht⟩ := parse_transition hcounts hb
      rw [HyprlandReader.step, if_pos hrunning]
      dsimp only
      cases hevent : (r.tracker.parse line).2 with
      | none =>
        rw [hevent] at ht
        refine ⟨h.ordered, fun _ => ?_⟩
        show Counts (openLayers (r.seen ++ [line])) _ ∧ Agrees _ (openLayers (r.seen ++ [line])) _ _
        rw [openLayers_append]
        exact ⟨hcounts, hagrees.silent ht⟩
      | some event =>
        rw [hevent] at ht
        have hforward := @Agrees.forward initial _ _
          { r with tracker := (r.tracker.parse line).1, seen := r.seen ++ [line] } event hagrees ht
          connected
        refine ⟨hforward.1, fun hrunning => ?_⟩
        rw [Option.elim_some, HyprlandReader.forward_seen, HyprlandReader.forward_tracker]
        show Counts (openLayers (r.seen ++ [line])) _ ∧ Agrees _ (openLayers (r.seen ++ [line])) _ _
        rw [openLayers_append]
        exact ⟨hcounts, hforward.2 hrunning⟩
    · rw [HyprlandReader.step, if_neg hrunning]
      exact h

lemma key_of_initialApplication {stdout : Option String} {event : ContextEvent}
    (h : initialApplication stdout = some event) : event.key = "application.id" := by
  rw [initialApplication, Option.bind_eq_some_iff] at h
  obtain ⟨text, -, h⟩ := h
  obtain ⟨line, -, h⟩ := List.exists_of_findSome?_eq_some h
  obtain ⟨value, -, rfl⟩ := Option.map_eq_some_iff.mp h
  rfl

lemma inv_connect (stdout : Option String) :
    Inv (initialApplication stdout).toList (.connect (initialApplication stdout)) := by
  have hagrees : Agrees (initialApplication stdout).toList 0
      (HyprlandReader.connect (initialApplication stdout)).lastValues [] := by
    rw [HyprlandReader.connect]
    cases hinitial : initialApplication stdout with
    | none =>
      exact ⟨fun _ => rfl, fun _ => ⟨0, rfl, by simp⟩, fun _ _ => ⟨.nil, rfl⟩⟩
    | some event =>
      have hkey := key_of_initialApplication hinitial
      have hother : Text.startsWith event.key "activity." = false := startsWith_other (.inl hkey)
      have hget : ∀ key, (BTreeMap.ofList ((some event).toList.map
          fun event => (event.key, event.value))).get key =
          if key = event.key then some event.value else none := fun key => BTreeMap.get_insert
      refine ⟨fun activity => ?_, fun _ => ⟨0, rfl, by simp⟩, fun key _ => ?_⟩
      · rw [hget, if_neg (activityKey_ne hother activity), Multiset.count_zero, if_pos rfl]
      · rw [hget, List.append_nil]
        by_cases heq : event.key = key
        · subst heq
          rw [if_pos rfl]
          simp [factsOf, Changing]
        · rw [if_neg fun h => heq h.symm]
          simp [factsOf, Changing, heq]
  refine ⟨hagrees.ordered, fun _ => ⟨fun activity => ?_, hagrees⟩⟩
  show BTreeMap.empty.get activity = _
  rw [BTreeMap.get_empty, openLayers]
  simp [HyprlandReader.connect]

/-- As long as the open layers are bounded, the reader keeps up with them. -/
lemma inv_run (stdout : Option String) {inputs : List ReaderInput}
    (hbounded : ∀ front, front <+: inputs → Bounded (openLayers
      (run HyprlandReader.step (.connect (initialApplication stdout)) front).seen)) :
    Inv (initialApplication stdout).toList
      (run HyprlandReader.step (.connect (initialApplication stdout)) inputs) := by
  have hmeets := (@forall_prefix_iff_meets _ _ HyprlandReader.step
    (fun r => Bounded (openLayers r.seen))
    (fun r input => Bounded (openLayers (r.step input).seen)) (fun _ _ _ => Iff.rfl) _
    (hbounded [] List.nil_prefix) inputs).mp hbounded
  have hstep : ∀ (r : HyprlandReader) (input : ReaderInput),
      Inv (initialApplication stdout).toList r → Bounded (openLayers (r.step input).seen) →
        Inv (initialApplication stdout).toList (r.step input) := fun _ _ h hb => inv_step h hb
  exact run_invariant_of_meets hstep (inv_connect stdout) hmeets

/-- Whatever lines come in which order, the facts sent for an activity are true, false, true, …,
and while the loop runs the last one is true exactly if a layer of the namespace is open.  The
filter drops none of them, and the facts for any other key change from one to the next. -/
theorem activity_facts_track_layers (stdout : Option String) (inputs : List ReaderInput)
    (hbounded : ∀ front, front <+: inputs → Bounded (openLayers
      (run HyprlandReader.step (.connect (initialApplication stdout)) front).seen)) :
    let reader := run HyprlandReader.step (.connect (initialApplication stdout))
    (∀ activity, ∃ n, factsOf (reader inputs).sent (activityKey activity) = alternating n) ∧
      ((reader inputs).running = true → ∀ activity,
        (factsOf (reader inputs).sent (activityKey activity)).getLast? = some (.boolean true) ↔
          activity ∈ openLayers (reader inputs).seen) ∧
      (∀ front line connected, front ++ [.line line connected] <+: inputs →
        (reader front).running = true → ∀ event ∈ ((reader front).tracker.parse line).2,
          Text.startsWith event.key "activity." = true →
            (retainChangedFact (reader front).lastValues event).1 = true) ∧
      ∀ key, Text.startsWith key "activity." = false →
        Changing (factsOf ((initialApplication stdout).toList ++ (reader inputs).sent) key) := by
  intro reader
  have hinv := inv_run stdout hbounded
  refine ⟨hinv.ordered.alternating, fun hrunning activity => ?_,
    fun front line connected hfront hrunning event hevent hkey => ?_, hinv.ordered.changing⟩
  · obtain ⟨n, hn, hodd⟩ := (hinv.agrees hrunning).2.alternating activity
    have hfacts : factsOf (reader inputs).sent (activityKey activity) = alternating n := hn
    rw [hfacts, getLast?_alternating, hodd, Multiset.count_ne_zero]
  · -- the state before the line satisfies the invariant, and the line is one of the bounded ones
    have hbefore := inv_run stdout fun other hother =>
      hbounded other (hother.trans ((List.prefix_append front _).trans hfront))
    obtain ⟨hcounts, hagrees⟩ := hbefore.agrees hrunning
    have hb := hbounded _ hfront
    rw [run_append] at hb
    have hseen : (run HyprlandReader.step (reader front) [.line line connected]).seen =
        (reader front).seen ++ [line] := HyprlandReader.seen_step hrunning line connected
    rw [hseen, openLayers_append] at hb
    have ht := (parse_transition hcounts hb).2
    rw [Option.mem_def.mp hevent] at ht
    rw [retainChangedFact, if_neg (hagrees.retained ht hkey)]

lemma card_openLayers_le (lines : List String) : (openLayers lines).card ≤ lines.length := by
  induction lines using List.reverseRecOn with
  | nil => exact le_rfl
  | append_singleton lines line ih =>
    rw [openLayers_append, changeLayers, List.length_append, List.length_singleton]
    rcases layerChange line with _ | ⟨activity⟩ | ⟨activity⟩
    · exact Nat.le_succ_of_le ih
    · show (activity ::ₘ openLayers lines).card ≤ _
      rw [Multiset.card_cons]
      omega
    · exact (Multiset.card_le_card (Multiset.erase_le _ _)).trans (Nat.le_succ_of_le ih)

/-- A few lines cannot open too many layers. -/
lemma bounded_of_length_le {lines : List String} (h : lines.length ≤ maxTrackedActivities) :
    Bounded (openLayers lines) where
  activities := (Multiset.toFinset_card_le _).trans ((card_openLayers_le lines).trans h)
  count_lt activity := by
    have hcount := Multiset.count_le_card activity (openLayers lines)
    have hcard := card_openLayers_le lines
    rw [maxTrackedActivities] at h
    omega

lemma length_seen_le (r : HyprlandReader) (inputs : List ReaderInput) :
    (run HyprlandReader.step r inputs).seen.length ≤ r.seen.length + inputs.length := by
  induction inputs generalizing r with
  | nil => exact le_rfl
  | cons input inputs ih =>
    have hstep : (r.step input).seen.length ≤ r.seen.length + 1 := by
      cases input with
      | failed => exact Nat.le_succ _
      | line line connected =>
        by_cases hrunning : r.running = true
        · rw [HyprlandReader.seen_step hrunning, List.length_append, List.length_singleton]
        · rw [HyprlandReader.step, if_neg hrunning]
          exact Nat.le_succ _
    have hrest := ih (r.step input)
    rw [run_cons, List.length_cons]
    omega

/-- A layer that is open twice is closed twice, and closed once more. -/
def selectorLines : List ReaderInput :=
  [.line "openlayer>>Selector" true, .line "openlayer>>selector" true,
    .line "closelayer>>selector" true, .line "closelayer>>selector" true,
    .line "closelayer>>selector" true]

theorem activity_facts_track_layers_selector :
    ∃ n, factsOf (run HyprlandReader.step (.connect (initialApplication none)) selectorLines).sent
      (activityKey "selector") = alternating n := by
  refine (activity_facts_track_layers none selectorLines fun front hfront => ?_).1 "selector"
  have hseen := length_seen_le (.connect (initialApplication none)) front
  have hlength : front.length ≤ 5 := hfront.length_le
  have hnone : (HyprlandReader.connect (initialApplication none)).seen.length = 0 := rfl
  refine bounded_of_length_le ?_
  rw [maxTrackedActivities]
  omega

end TouchBar.Session
