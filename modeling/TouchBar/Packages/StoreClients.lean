import TouchBar.Lib.Runs
import TouchBar.Packages.StoreChanges

/-!
# Two clients of the plugin store

Each client opens the store, makes one mutating call, and saves the copy that it has in
memory: it writes a temporary file and renames it over the lock file.  Nothing keeps the
other client from doing the same in between.  Here every system call is a step of its own,
which may fail, and the steps of the two clients come in any order.  If the clients take
turns, the lock file has the changes of both; otherwise the change of the client that
renames first is lost, unless the copy of the other client has it already.
-/

namespace TouchBar.Packages

open TouchBar.Rust TouchBar.Lib TouchBar.Policy Outcome

/-! ## The steps of a client -/

inductive Client where
  | first
  | second
deriving DecidableEq, Repr

def Client.other : Client → Client
  | first => second
  | second => first

/-- How far a client is. -/
inductive Phase where
  | idle
  | opened (store : PluginStore)
  | encoded (store : PluginStore) (change : Change) (bytes : List UInt8)
  | written (store : PluginStore) (change : Change) (bytes : List UInt8)
  /-- The lock is replaced; the directory is not synced yet. -/
  | renamed (store : PluginStore) (change : Change)
  | finished (store : PluginStore) (change : Change) (result : Outcome String Unit)
  /-- `remove` of a plugin that is not installed saves nothing. -/
  | unchanged
  | failed (error : String)
  | panicked

namespace Phase

/-- The client is between its `open` and its rename. -/
def isBetween : Phase → Bool
  | opened _ | encoded _ _ _ | written _ _ _ => true
  | _ => false

def isIdle : Phase → Bool
  | idle => true
  | _ => false

/-- The copy that the client read and the change that it saved. -/
def saved : Phase → Option (PluginStore × Change)
  | renamed store change | finished store change _ => some (store, change)
  | _ => none

end Phase

structure State where
  /-- The content of the lock file. -/
  lock : Option (List UInt8)
  phase : Client → Phase
  /-- The client that renamed last. -/
  last : Option Client

/-- A step of one client. -/
structure Event where
  client : Client
  /-- The error of the system call that the step makes, if it fails. -/
  failure : Option String
  files : PackageFiles

namespace State

variable (toml : LockToml) (calls : Client → StoreCall)

def setPhase (state : State) (client : Client) (phase : Phase) : State :=
  { state with phase := Function.update state.phase client phase }

/-- The phase after a result, which an error ends. -/
def afterResult {α : Type} (result : Outcome String α) (next : α → Phase) : Phase :=
  match result with
  | ok a => next a
  | err error => .failed error
  | .panic => .panicked

/-- The edit in memory and the encoding of the copy. -/
def afterEdit (call : StoreCall) (files : PackageFiles) (store : PluginStore) : Phase :=
  afterResult (call.edit files store) fun edit =>
    match edit.change with
    | none => .unchanged
    | some change =>
      afterResult ((store.apply change).encode toml) fun bytes => .encoded store change bytes

/-- A system call that succeeds, or ends the call with its error. -/
def afterCall (state : State) (event : Event) (next : State) : State :=
  match event.failure with
  | none => next
  | some error => state.setPhase event.client (.failed error)

def step (state : State) (event : Event) : State :=
  let client := event.client
  match state.phase client with
  | .idle =>
    state.afterCall event
      (state.setPhase client (afterResult (PluginStore.open toml state.lock) .opened))
  | .opened store =>
    state.setPhase client (afterEdit toml (calls client) event.files store)
  | .encoded store change bytes =>
    state.afterCall event (state.setPhase client (.written store change bytes))
  | .written store change bytes =>
    state.afterCall event
      { state.setPhase client (.renamed store change) with
        lock := some bytes
        last := some client }
  | .renamed store change =>
    state.setPhase client (.finished store change (event.failure.elim (ok ()) err))
  | .finished _ _ _ | .unchanged | .failed _ | .panicked => state

end State

/-- The lock file before the clients start. -/
def State.start (lock : Option (List UInt8)) : State := ⟨lock, fun _ => .idle, none⟩

/-- A step opens the store only while the other client is not between its own `open` and its
rename. -/
def TakesTurn (state : State) (event : Event) : Prop :=
  (state.phase event.client).isIdle = true → (state.phase event.client.other).isBetween = false

/-! ## What a step can do -/

lemma Client.other_other (client : Client) : client.other.other = client := by
  cases client <;> rfl

lemma Client.other_ne (client : Client) : client.other ≠ client := by
  cases client <;> decide

lemma Client.eq_or_other (client other : Client) : other = client ∨ other = client.other := by
  cases client <;> cases other <;> decide

/-- The client has read a store, and what it will write encodes a change of that store. -/
def Phase.Drafts (toml : LockToml) (read : PluginStore) : Phase → Prop
  | opened store => store = read
  | encoded store change bytes | written store change bytes =>
    store = read ∧ (store.apply change).encode toml = ok bytes
  | _ => False

section Steps

variable {toml : LockToml} {calls : Client → StoreCall} {state : State} {event : Event}

lemma State.setPhase_self (client : Client) :
    state.setPhase client (state.phase client) = state := by
  rw [State.setPhase, Function.update_eq_self]

lemma State.setPhase_phase (client : Client) (phase : Phase) :
    (state.setPhase client phase).phase client = phase := Function.update_self ..

lemma State.setPhase_other (client : Client) (phase : Phase) :
    (state.setPhase client phase).phase client.other = state.phase client.other :=
  Function.update_of_ne client.other_ne _ _

/-- Everything that a step can do. -/
inductive Steps (toml : LockToml) (state : State) (client : Client) : State → Prop where
  /-- The client ends, or goes on after its rename. -/
  | rests (phase : Phase) (hsaved : phase.saved = (state.phase client).saved)
      (hbetween : phase.isBetween = false) : Steps toml state client (state.setPhase client phase)
  | opens (store : PluginStore) (hidle : state.phase client = .idle)
      (hopen : PluginStore.open toml state.lock = ok store) :
      Steps toml state client (state.setPhase client (.opened store))
  /-- The client edits its copy, or writes the temporary file. -/
  | drafts (phase : Phase) (hsaved : phase.saved = none)
      (hbefore : (state.phase client).saved = none)
      (hbetween : (state.phase client).isBetween = true)
      (hdrafts : ∀ read, (state.phase client).Drafts toml read → phase.Drafts toml read) :
      Steps toml state client (state.setPhase client phase)
  | renames (store : PluginStore) (change : Change) (bytes : List UInt8)
      (hwritten : state.phase client = .written store change bytes) :
      Steps toml state client
        { state.setPhase client (.renamed store change) with
          lock := some bytes
          last := some client }

/-- A client whose result is an error rests. -/
lemma rests_or_of_afterResult {α : Type} {result : Outcome String α} {next : α → Phase}
    (hbefore : (state.phase event.client).saved = none) :
    (∃ a, result = ok a ∧ State.afterResult result next = next a) ∨
      Steps toml state event.client
        (state.setPhase event.client (State.afterResult result next)) := by
  cases result with
  | ok a => exact .inl ⟨a, rfl, rfl⟩
  | err error => exact .inr (.rests _ hbefore.symm rfl)
  | panic => exact .inr (.rests _ hbefore.symm rfl)

lemma steps_afterCall {next : State} (hbefore : (state.phase event.client).saved = none)
    (hnext : Steps toml state event.client next) :
    Steps toml state event.client (state.afterCall event next) := by
  rw [State.afterCall]
  cases event.failure with
  | none => exact hnext
  | some error => exact .rests _ hbefore.symm rfl

lemma steps_step : Steps toml state event.client (state.step toml calls event) := by
  rw [State.step]
  cases hphase : state.phase event.client with
  | idle =>
    have hbefore : (state.phase event.client).saved = none := by rw [hphase]; rfl
    refine steps_afterCall hbefore ?_
    rcases @rests_or_of_afterResult toml state event _ (PluginStore.open toml state.lock)
      Phase.opened hbefore with ⟨store, hopen, heq⟩ | hrests
    · rw [heq]
      exact .opens store hphase hopen
    · exact hrests
  | opened store =>
    have hbefore : (state.phase event.client).saved = none := by rw [hphase]; rfl
    show Steps toml state event.client
      (state.setPhase event.client (State.afterEdit toml (calls event.client) event.files store))
    rw [State.afterEdit]
    rcases @rests_or_of_afterResult toml state event _ ((calls event.client).edit event.files store)
      _ hbefore with ⟨edit, -, heq⟩ | hrests
    · rw [heq]
      cases hchange : edit.change with
      | none => exact .rests _ hbefore.symm rfl
      | some change =>
        rcases @rests_or_of_afterResult toml state event _ ((store.apply change).encode toml)
          (Phase.encoded store change) hbefore with ⟨bytes, hencode, heq⟩ | hrests
        · show Steps toml state event.client (state.setPhase event.client
            (State.afterResult ((store.apply change).encode toml) (Phase.encoded store change)))
          rw [heq]
          refine .drafts _ rfl hbefore (by rw [hphase]; rfl) ?_
          intro read hread
          rw [hphase] at hread
          exact ⟨hread, hencode⟩
        · exact hrests
    · exact hrests
  | encoded store change bytes =>
    have hbefore : (state.phase event.client).saved = none := by rw [hphase]; rfl
    refine steps_afterCall hbefore (.drafts _ rfl hbefore (by rw [hphase]; rfl) ?_)
    intro read hread
    rw [hphase] at hread
    exact hread
  | written store change bytes =>
    have hbefore : (state.phase event.client).saved = none := by rw [hphase]; rfl
    exact steps_afterCall hbefore (.renames store change bytes hphase)
  | renamed store change => exact .rests _ (by rw [hphase]; rfl) rfl
  | finished store change result =>
    have hrests := @Steps.rests toml state event.client _ rfl (by rw [hphase]; rfl)
    rwa [State.setPhase_self] at hrests
  | unchanged =>
    have hrests := @Steps.rests toml state event.client _ rfl (by rw [hphase]; rfl)
    rwa [State.setPhase_self] at hrests
  | failed error =>
    have hrests := @Steps.rests toml state event.client _ rfl (by rw [hphase]; rfl)
    rwa [State.setPhase_self] at hrests
  | panicked =>
    have hrests := @Steps.rests toml state event.client _ rfl (by rw [hphase]; rfl)
    rwa [State.setPhase_self] at hrests

end Steps

/-! ## Clients that take turns -/

section Turns

variable {toml : LockToml} {calls : Client → StoreCall} {state : State} {event : Event}

/-- The lock file is what the client wrote. -/
def Wrote (toml : LockToml) (lock : Option (List UInt8)) (store : PluginStore)
    (change : Change) : Prop :=
  ∃ bytes, lock = some bytes ∧ (store.apply change).encode toml = ok bytes

/-- What holds while the clients take turns. -/
structure InTurn (toml : LockToml) (state : State) : Prop where
  /-- The copy of a client is what the lock file holds. -/
  drafts : ∀ client, (state.phase client).isBetween = true →
    ∃ read, PluginStore.open toml state.lock = ok read ∧ (state.phase client).Drafts toml read
  alone : ∀ client : Client, (state.phase client).isBetween = true →
    (state.phase client.other).isBetween = false
  fresh : ∀ client store change, (state.phase client).saved = some (store, change) →
    (state.phase client.other).saved = none → Wrote toml state.lock store change
  kept : ∀ client store change store' change',
    (state.phase client).saved = some (store, change) →
    (state.phase client.other).saved = some (store', change') →
    change.source ≠ change'.source → change.InLock toml state.lock

lemma inTurn_start (lock : Option (List UInt8)) : InTurn toml (State.start lock) := by
  refine ⟨?_, ?_, ?_, ?_⟩
  · intro client hbetween
    cases hbetween
  · intro client hbetween
    cases hbetween
  · intro client store change hsaved
    cases hsaved
  · intro client store change store' change' hsaved
    cases hsaved

/-- A step that changes neither the lock nor what is saved. -/
lemma InTurn.setPhase (h : InTurn toml state) {client : Client} {phase : Phase}
    (hsaved : phase.saved = (state.phase client).saved)
    (hdrafts : phase.isBetween = true →
      (∃ read, PluginStore.open toml state.lock = ok read ∧ phase.Drafts toml read) ∧
        (state.phase client.other).isBetween = false) :
    InTurn toml (state.setPhase client phase) := by
  have hall : ∀ other, ((state.setPhase client phase).phase other).saved =
      (state.phase other).saved := by
    intro other
    rcases client.eq_or_other other with rfl | rfl
    · rw [State.setPhase_phase, hsaved]
    · rw [State.setPhase_other]
  refine ⟨?_, ?_, ?_, ?_⟩
  · intro other hbetween
    rcases client.eq_or_other other with rfl | rfl
    · rw [State.setPhase_phase] at hbetween ⊢
      exact (hdrafts hbetween).1
    · rw [State.setPhase_other] at hbetween ⊢
      exact h.drafts _ hbetween
  · intro other hbetween
    rcases client.eq_or_other other with rfl | rfl
    · rw [State.setPhase_phase] at hbetween
      rw [State.setPhase_other]
      exact (hdrafts hbetween).2
    · rw [Client.other_other, State.setPhase_phase]
      rw [State.setPhase_other] at hbetween
      by_contra hphase
      rw [Bool.not_eq_false] at hphase
      rw [(hdrafts hphase).2] at hbetween
      cases hbetween
  · intro other store change hother hnone
    rw [hall] at hother hnone
    exact h.fresh other store change hother hnone
  · intro other store change store' change' hother hother' hne
    rw [hall] at hother hother'
    exact h.kept other store change store' change' hother hother' hne

/-- A client that renames has read what is in the lock file. -/
lemma InTurn.rename (h : InTurn toml state) {client : Client} {store : PluginStore}
    {change : Change} {bytes : List UInt8}
    (hwritten : state.phase client = .written store change bytes) :
    InTurn toml { state.setPhase client (.renamed store change) with
      lock := some bytes
      last := some client } := by
  have hbetween : (state.phase client).isBetween = true := by rw [hwritten]; rfl
  have hnone : (state.phase client).saved = none := by rw [hwritten]; rfl
  obtain ⟨read, hopen, hdrafts⟩ := h.drafts client hbetween
  rw [hwritten] at hdrafts
  obtain ⟨rfl, hencode⟩ := hdrafts
  have hphase : (state.setPhase client (.renamed store change)).phase client =
      .renamed store change := State.setPhase_phase ..
  have hother : (state.setPhase client (.renamed store change)).phase client.other =
      state.phase client.other := State.setPhase_other ..
  -- what the other client saved is in the copy that was read
  have hearlier : ∀ store' change', (state.phase client.other).saved = some (store', change') →
      store = store'.apply change' := by
    intro store' change' hsaved
    obtain ⟨bytes', hlock, hencode'⟩ := h.fresh client.other store' change' hsaved
      (by rw [Client.other_other]; exact hnone)
    rw [hlock] at hopen
    exact open_encode hencode' hopen
  refine ⟨?_, ?_, ?_, ?_⟩
  · intro other hdrafting
    dsimp only at hdrafting
    rcases client.eq_or_other other with rfl | rfl
    · rw [hphase] at hdrafting
      cases hdrafting
    · rw [hother, h.alone client hbetween] at hdrafting
      cases hdrafting
  · intro other hdrafting
    dsimp only at hdrafting ⊢
    rcases client.eq_or_other other with rfl | rfl
    · rw [hphase] at hdrafting
      cases hdrafting
    · rw [Client.other_other, hphase]
      rfl
  · intro other store' change' hsaved hunsaved
    dsimp only at hsaved hunsaved ⊢
    rcases client.eq_or_other other with rfl | rfl
    · rw [hphase] at hsaved
      obtain ⟨rfl, rfl⟩ := Prod.mk.inj (Option.some.inj hsaved)
      exact ⟨bytes, rfl, hencode⟩
    · rw [Client.other_other, hphase] at hunsaved
      cases hunsaved
  · intro other store₁ change₁ store₂ change₂ hsaved hsaved' hne
    dsimp only at hsaved hsaved' ⊢
    rcases client.eq_or_other other with rfl | rfl
    · rw [hphase] at hsaved
      obtain ⟨rfl, rfl⟩ := Prod.mk.inj (Option.some.inj hsaved)
      exact inLock_apply hencode
    · rw [Client.other_other, hphase] at hsaved'
      obtain ⟨rfl, rfl⟩ := Prod.mk.inj (Option.some.inj hsaved')
      rw [hother] at hsaved
      rw [hearlier _ _ hsaved] at hencode
      exact inLock_apply_apply hne hencode

lemma InTurn.step (h : InTurn toml state) (hturn : TakesTurn state event) :
    InTurn toml (state.step toml calls event) := by
  have hsteps : Steps toml state event.client (state.step toml calls event) := steps_step
  generalize state.step toml calls event = next at hsteps ⊢
  cases hsteps with
  | rests phase hsaved hbetween =>
    refine h.setPhase hsaved ?_
    intro hdrafting
    rw [hbetween] at hdrafting
    cases hdrafting
  | opens store hidle hopen =>
    refine h.setPhase (by rw [hidle]; rfl) ?_
    exact fun _ => ⟨⟨store, hopen, rfl⟩, hturn (by rw [hidle]; rfl)⟩
  | drafts phase hsaved hbefore hbetween hdrafts =>
    refine h.setPhase (by rw [hsaved, hbefore]) ?_
    intro _
    obtain ⟨read, hopen, hread⟩ := h.drafts _ hbetween
    exact ⟨⟨read, hopen, hdrafts read hread⟩, h.alone _ hbetween⟩
  | renames store change bytes hwritten => exact h.rename hwritten

end Turns

/-! ## Clients in any order -/

section Order

variable {toml : LockToml} {calls : Client → StoreCall} {state : State} {event : Event}

/-- What holds in every run: the lock file is what the client wrote that renamed last. -/
structure Ordered (toml : LockToml) (state : State) : Prop where
  drafts : ∀ client, (state.phase client).isBetween = true →
    ∃ read, (state.phase client).Drafts toml read
  last : ∀ client, state.last = some client → ∃ store change,
    (state.phase client).saved = some (store, change) ∧ Wrote toml state.lock store change
  some_last : ∀ client, (state.phase client).saved.isSome = true → state.last.isSome = true

lemma ordered_start (lock : Option (List UInt8)) : Ordered toml (State.start lock) := by
  refine ⟨?_, ?_, ?_⟩
  · intro client hbetween
    cases hbetween
  · intro client hlast
    cases hlast
  · intro client hsaved
    cases hsaved

lemma Ordered.setPhase (h : Ordered toml state) {client : Client} {phase : Phase}
    (hsaved : phase.saved = (state.phase client).saved)
    (hdrafts : phase.isBetween = true → ∃ read, phase.Drafts toml read) :
    Ordered toml (state.setPhase client phase) := by
  refine ⟨?_, ?_, ?_⟩
  · intro other hbetween
    rcases client.eq_or_other other with rfl | rfl
    · rw [State.setPhase_phase] at hbetween ⊢
      exact hdrafts hbetween
    · rw [State.setPhase_other] at hbetween ⊢
      exact h.drafts _ hbetween
  · intro other hlast
    obtain ⟨store, change, hother, hwrote⟩ := h.last other hlast
    refine ⟨store, change, ?_, hwrote⟩
    rcases client.eq_or_other other with rfl | rfl
    · rw [State.setPhase_phase, hsaved]
      exact hother
    · rw [State.setPhase_other]
      exact hother
  · intro other hother
    refine h.some_last other ?_
    rcases client.eq_or_other other with rfl | rfl
    · rwa [State.setPhase_phase, hsaved] at hother
    · rwa [State.setPhase_other] at hother

lemma Ordered.step (h : Ordered toml state) : Ordered toml (state.step toml calls event) := by
  have hsteps : Steps toml state event.client (state.step toml calls event) := steps_step
  generalize state.step toml calls event = next at hsteps ⊢
  cases hsteps with
  | rests phase hsaved hbetween =>
    refine h.setPhase hsaved ?_
    intro hdrafting
    rw [hbetween] at hdrafting
    cases hdrafting
  | opens store hidle hopen =>
    exact h.setPhase (by rw [hidle]; rfl) fun _ => ⟨store, rfl⟩
  | drafts phase hsaved hbefore hbetween hdrafts =>
    refine h.setPhase (by rw [hsaved, hbefore]) ?_
    intro _
    obtain ⟨read, hread⟩ := h.drafts _ hbetween
    exact ⟨read, hdrafts read hread⟩
  | renames store change bytes hwritten =>
    have hphase : (state.setPhase event.client (.renamed store change)).phase event.client =
        .renamed store change := State.setPhase_phase ..
    obtain ⟨read, hread⟩ := h.drafts event.client (by rw [hwritten]; rfl)
    rw [hwritten] at hread
    refine ⟨?_, ?_, fun _ _ => rfl⟩
    · intro other hbetween
      dsimp only at hbetween ⊢
      rcases event.client.eq_or_other other with rfl | rfl
      · rw [hphase] at hbetween
        cases hbetween
      · rw [State.setPhase_other] at hbetween ⊢
        exact h.drafts _ hbetween
    · intro other hlast
      obtain rfl := Option.some.inj hlast
      refine ⟨store, change, ?_, bytes, rfl, hread.2⟩
      dsimp only
      rw [hphase]
      rfl

end Order

/-- The client that renames last has its entry in the lock file, and the entry of the other
client is there exactly if the copy that was written had it when it was read. -/
lemma Ordered.entries {toml : LockToml} {state : State} (h : Ordered toml state) {client : Client}
    {store : PluginStore} {change change' : Change} (hlast : state.last = some client)
    (hsaved : (state.phase client).saved = some (store, change))
    (hne : change'.source ≠ change.source) :
    change.EntryInLock toml state.lock ∧
      (change'.EntryInLock toml state.lock ↔ change'.HasEntry store.document) := by
  obtain ⟨written, saved, hwritten, bytes, hlock, hencode⟩ := h.last client hlast
  obtain ⟨rfl, rfl⟩ := Prod.mk.inj (Option.some.inj (hwritten.symm.trans hsaved))
  have hread := readDocument_encode hencode
  rw [← hlock] at hread
  refine ⟨⟨_, hread, hasEntry_apply⟩, ?_⟩
  rw [← hasEntry_apply_iff hne]
  constructor
  · rintro ⟨document, hdocument, hentry⟩
    obtain rfl := ok.inj (hread.symm.trans hdocument)
    exact hentry
  · exact fun hentry => ⟨_, hread, hentry⟩

/-- Two clients that take turns lose no change of a plugin, and none of its releases.  In any
order of their steps, both entries are in the lock file exactly if the client that renamed last
had read the entry of the other one. -/
theorem no_lost_update_of_turns (toml : LockToml) (calls : Client → StoreCall)
    (lock : Option (List UInt8)) (events : List Event) :
    let state := run (State.step toml calls) (State.start lock) events
    ∀ store change store' change', (state.phase .first).saved = some (store, change) →
      (state.phase .second).saved = some (store', change') → change.source ≠ change'.source →
      (Meets (State.step toml calls) TakesTurn (State.start lock) events →
        change.InLock toml state.lock ∧ change'.InLock toml state.lock) ∧
      (change.EntryInLock toml state.lock ∧ change'.EntryInLock toml state.lock ↔
        state.last = some .first ∧ change'.HasEntry store.document ∨
          state.last = some .second ∧ change.HasEntry store'.document) := by
  intro state store change store' change' hfirst hsecond hne
  constructor
  · intro hturns
    have hturn : InTurn toml state :=
      run_invariant_of_meets (fun _ _ h hturn => h.step hturn) (inTurn_start lock) hturns
    exact ⟨hturn.kept .first _ _ _ _ hfirst hsecond hne,
      hturn.kept .second _ _ _ _ hsecond hfirst hne.symm⟩
  · have hordered : Ordered toml state :=
      run_invariant (fun _ _ h => h.step) (ordered_start lock) events
    obtain ⟨client, hlast⟩ := Option.isSome_iff_exists.mp
      (hordered.some_last .first (by rw [hfirst]; rfl))
    cases client with
    | first =>
      obtain ⟨hown, hother⟩ := @Ordered.entries toml state hordered .first store change
        change' hlast hfirst hne.symm
      rw [hlast]
      simp [hown, hother]
    | second =>
      obtain ⟨hown, hother⟩ := @Ordered.entries toml state hordered .second store' change'
        change hlast hsecond hne
      rw [hlast]
      simp [hown, hother]

/-! ## A client without failures -/

section Success

variable {toml : LockToml} {calls : Client → StoreCall} {state : State} {client : Client}
  {files : PackageFiles} {store : PluginStore} {change : Change} {bytes : List UInt8}

/-- Steps of one client in which no system call fails. -/
def Client.steps (client : Client) (files : PackageFiles) (count : ℕ) : List Event :=
  List.replicate count ⟨client, none, files⟩

/-- A step leaves the phase of the other client. -/
lemma step_other (event : Event) : (state.step toml calls event).phase event.client.other =
    state.phase event.client.other := by
  have hsteps : Steps toml state event.client (state.step toml calls event) := steps_step
  generalize state.step toml calls event = next at hsteps ⊢
  cases hsteps with
  | rests phase hsaved hbetween => exact State.setPhase_other ..
  | opens store hidle hopen => exact State.setPhase_other ..
  | drafts phase hsaved hbefore hbetween hdrafts => exact State.setPhase_other ..
  | renames store change bytes hwritten => exact State.setPhase_other ..

/-- The steps of one client are in its turn while the other client is not between. -/
lemma meets_steps (h : (state.phase client.other).isBetween = false) (count : ℕ) :
    Meets (State.step toml calls) TakesTurn state (client.steps files count) := by
  induction count generalizing state with
  | zero => trivial
  | succ count ih =>
    refine ⟨fun _ => h, ih ?_⟩
    rw [@step_other toml calls state ⟨client, none, files⟩]
    exact h

/-- A client reads the lock file and edits its copy. -/
lemma run_begin {answer : Answer} (hidle : state.phase client = .idle)
    (hopen : PluginStore.open toml state.lock = ok store)
    (hedit : (calls client).edit files store = ok ⟨some change, answer⟩)
    (hencode : (store.apply change).encode toml = ok bytes) :
    run (State.step toml calls) state (client.steps files 2) =
      state.setPhase client (.encoded store change bytes) := by
  have hfirst : state.step toml calls ⟨client, none, files⟩ =
      state.setPhase client (.opened store) := by
    simp only [State.step, hidle, State.afterCall, hopen, State.afterResult]
  have hsecond : (state.setPhase client (.opened store)).step toml calls ⟨client, none, files⟩ =
      state.setPhase client (.encoded store change bytes) := by
    simp only [State.step, State.setPhase_phase, State.afterEdit, hedit, State.afterResult,
      hencode]
    simp only [State.setPhase, Function.update_idem]
  show (state.step toml calls ⟨client, none, files⟩).step toml calls ⟨client, none, files⟩ = _
  rw [hfirst, hsecond]

/-- A client writes what it encoded and renames it over the lock file. -/
lemma run_end (hencoded : state.phase client = .encoded store change bytes) :
    run (State.step toml calls) state (client.steps files 3) =
      { state.setPhase client (.finished store change (ok ())) with
        lock := some bytes
        last := some client } := by
  have hfirst : state.step toml calls ⟨client, none, files⟩ =
      state.setPhase client (.written store change bytes) := by
    simp only [State.step, hencoded, State.afterCall]
  have hsecond : (state.setPhase client (.written store change bytes)).step toml calls
      ⟨client, none, files⟩ = { state.setPhase client (.renamed store change) with
        lock := some bytes
        last := some client } := by
    simp only [State.step, State.setPhase_phase, State.afterCall]
    simp only [State.setPhase, Function.update_idem]
  show ((state.step toml calls ⟨client, none, files⟩).step toml calls
    ⟨client, none, files⟩).step toml calls ⟨client, none, files⟩ = _
  rw [hfirst, hsecond]
  simp only [State.step, State.setPhase, Function.update_self, Function.update_idem]
  rfl

end Success

/-! ## Two clients that enable a plugin each -/

def digestOf (digit : Char) : String := "sha256:" ++ .ofList (List.replicate 64 digit)

/-- A plugin with one item. -/
def clockPlugin (name : String) (digit : Char) (enabled : Bool) : InstalledPlugin where
  source := ⟨"example", name⟩
  version := ⟨1, 0, 0, "", ""⟩
  packageDigest := digestOf digit
  artifacts := BTreeMap.empty.insert "plugin.wasm" (digestOf digit)
  enabled := enabled
  runtime := .component
  origin := .localDevelopment
  items := [⟨"clock", "Clock", 160, true⟩]
  profiles := []

def twoPlugins (first second : Bool) : StoreDocument :=
  ⟨1, [clockPlugin "clock" 'a' first, clockPlugin "timer" 'b' second], []⟩

lemma len_replicate {c : Char} (h : c.utf8Size = 1) (n : ℕ) :
    Text.len (.ofList (List.replicate n c)) = n := by
  induction n with
  | zero => rfl
  | succ n ih =>
    rw [List.replicate_succ, String.ofList_cons, Text.len_append, ih, Text.len,
      String.utf8ByteSize_singleton, h, Nat.add_comm]

lemma packagePath_digestOf {digit : Char} (hsize : digit.utf8Size = 1)
    (hdigit : (digit.isDigit || ('a' ≤ digit && digit ≤ 'f')) = true) :
    packagePath (digestOf digit) = ok () := by
  have hvalue : Text.stripPrefix (digestOf digit) "sha256:" =
      some (.ofList (List.replicate 64 digit)) := Text.stripPrefix_eq_some.mpr rfl
  have hdigits : Text.all (.ofList (List.replicate 64 digit))
      (fun c => c.isDigit || ('a' ≤ c && c ≤ 'f')) = true := by
    rw [Text.all, String.toList_ofList, List.all_eq_true]
    intro c hc
    rw [(List.mem_replicate.mp hc).2]
    exact hdigit
  rw [packagePath, hvalue, Option.any_some, len_replicate hsize, hdigits]
  rfl

lemma validateInstalled_clockPlugin {digit : Char} (h : packagePath (digestOf digit) = ok ())
    (name : String) (enabled : Bool) :
    validateInstalled (clockPlugin name digit enabled) = ok () := by
  have hpath : validateRelativePath "plugin.wasm" = ok () := by decide
  have hartifacts : validateArtifacts (clockPlugin name digit enabled).artifacts.entries =
      ok () := by
    simp only [clockPlugin, BTreeMap.insert, BTreeMap.empty, BTreeMap.insertEntry,
      validateArtifacts, hpath, h, ok_bind]
  have hitems : validateInstalledItems [⟨"clock", "Clock", 160, true⟩] .empty = ok () := by
    decide
  rw [validateInstalled, hartifacts]
  simp only [clockPlugin, h, validateOrigin, hitems, validateInstalledProfiles, List.isEmpty_cons,
    bailIf, Bool.false_eq_true, if_false, ok_bind, BTreeMap.insert, BTreeMap.empty,
    BTreeMap.insertEntry]

/-- The text of an entry. -/
def pluginText (name : String) (digit : Char) (enabled : Bool) : String :=
  "[[plugins]]\nsource = \"github:example/" ++ name ++ "\"\nversion = \"1.0.0\"\n" ++
    "package_digest = \"" ++ digestOf digit ++ "\"\nenabled = " ++ toString enabled ++
    "\nruntime = \"component\"\nprofiles = []\n\n[plugins.artifacts]\n\"plugin.wasm\" = \"" ++
    digestOf digit ++ "\"\n\n[plugins.origin]\nkind = \"local-development\"\n\n" ++
    "[[plugins.items]]\nid = \"clock\"\nlabel = \"Clock\"\nwidth = 160\nenabled = true\n"

def twoPluginsText (enabled : Bool × Bool) : String :=
  "schema_version = 1\nrelease_history = []\n\n" ++ pluginText "clock" 'a' enabled.1 ++ "\n" ++
    pluginText "timer" 'b' enabled.2

def anyTwo : List (Bool × Bool) := [(false, false), (false, true), (true, false), (true, true)]

/-- A library that knows the documents of the two plugins. -/
def twoPluginsToml : LockToml where
  fromStr text :=
    (anyTwo.find? fun enabled => text = twoPluginsText enabled).elim
      (.error "expected `plugins`") fun enabled => .ok (twoPlugins enabled.1 enabled.2)
  toStringPretty document :=
    (anyTwo.find? fun enabled => document = twoPlugins enabled.1 enabled.2).elim
      (.error "unsupported document") fun enabled => .ok (twoPluginsText enabled)
  lossless := by
    have htexts : ∀ enabled ∈ anyTwo,
        (anyTwo.find? fun other => twoPluginsText enabled = twoPluginsText other) =
          some enabled := by decide +kernel
    intro document text h
    cases hfind : anyTwo.find? fun enabled => document = twoPlugins enabled.1 enabled.2 with
    | none =>
      rw [hfind] at h
      cases h
    | some enabled =>
      rw [hfind] at h
      obtain rfl := Except.ok.inj h
      rw [htexts enabled (List.mem_of_find?_eq_some hfind)]
      have hdocument := List.find?_some hfind
      rw [decide_eq_true_eq] at hdocument
      rw [hdocument]
      rfl

instance : DecidableEq PluginStore := fun s t =>
  decidable_of_iff (s.plugins = t.plugins ∧ s.releaseHistory = t.releaseHistory)
    ⟨fun h => ext_plugins h.1 h.2, fun h => by rw [h]; exact ⟨rfl, rfl⟩⟩

lemma keyed_empty (source : GithubSource) (plugin : InstalledPlugin)
    (h : (BTreeMap.empty : BTreeMap GithubSource InstalledPlugin).get source = some plugin) :
    plugin.source = source := by
  cases h

/-- The store of the two plugins. -/
def twoPluginsStore (enabled : Bool × Bool) : PluginStore :=
  (PluginStore.insert ⟨.empty, keyed_empty, []⟩ (clockPlugin "clock" 'a' enabled.1)).insert
    (clockPlugin "timer" 'b' enabled.2)

lemma insertPlugins_cons {store : PluginStore} {plugin : InstalledPlugin}
    {plugins : List InstalledPlugin} (hvalid : validateInstalled plugin = ok ())
    (hnew : store.plugins.containsKey plugin.source = false) :
    insertPlugins store (plugin :: plugins) = insertPlugins (store.insert plugin) plugins := by
  rw [insertPlugins, hvalid, hnew]
  rfl

lemma open_of_document {toml : LockToml} {content : Option (List UInt8)}
    {document : StoreDocument} {store : PluginStore}
    (hread : readDocument toml content = ok document)
    (hhistory : document.releaseHistory.length ≤ maxReleaseHistory)
    (hinsert : insertPlugins ⟨.empty, keyed_empty, document.releaseHistory⟩ document.plugins =
      ok store)
    (hreleases : validateReleases document.releaseHistory = ok ()) :
    PluginStore.open toml content = ok store := by
  rw [PluginStore.open, hread, ok_bind, decide_eq_false (by omega)]
  show (insertPlugins _ document.plugins >>= _) = _
  rw [hinsert, ok_bind, hreleases]
  rfl

lemma document_twoPlugins (enabled : Bool × Bool) :
    (twoPluginsStore enabled).document = twoPlugins enabled.1 enabled.2 := by
  revert enabled
  decide

lemma encode_twoPlugins (enabled : Bool × Bool) :
    (twoPluginsStore enabled).encode twoPluginsToml =
      ok (Text.asBytes (twoPluginsText enabled)) := by
  have hfind : (anyTwo.find? fun other =>
      twoPlugins enabled.1 enabled.2 = twoPlugins other.1 other.2) = some enabled := by
    revert enabled
    decide
  have hsize : decide (maxLockBytes < Text.len (twoPluginsText enabled)) = false := by
    revert enabled
    decide +kernel
  have htext : twoPluginsToml.toStringPretty (twoPluginsStore enabled).document =
      .ok (twoPluginsText enabled) := by
    rw [document_twoPlugins]
    show (anyTwo.find? fun other =>
      twoPlugins enabled.1 enabled.2 = twoPlugins other.1 other.2).elim _ _ = _
    rw [hfind]
    rfl
  rw [PluginStore.encode, htext]
  dsimp only
  rw [hsize]
  rfl

lemma open_twoPlugins (enabled : Bool × Bool) :
    PluginStore.open twoPluginsToml (some (Text.asBytes (twoPluginsText enabled))) =
      ok (twoPluginsStore enabled) := by
  have hfirst := validateInstalled_clockPlugin
    (@packagePath_digestOf 'a' rfl (by decide)) "clock" enabled.1
  have hsecond := validateInstalled_clockPlugin
    (@packagePath_digestOf 'b' rfl (by decide)) "timer" enabled.2
  have hnew : (PluginStore.insert ⟨.empty, keyed_empty, []⟩
      (clockPlugin "clock" 'a' enabled.1)).plugins.containsKey ⟨"example", "timer"⟩ = false := by
    clear hfirst hsecond
    revert enabled
    decide
  have hinsert : insertPlugins ⟨.empty, keyed_empty, []⟩
      (twoPluginsStore enabled).document.plugins = ok (twoPluginsStore enabled) := by
    rw [document_twoPlugins, twoPlugins, insertPlugins_cons hfirst rfl,
      insertPlugins_cons hsecond hnew]
    rfl
  exact open_of_document (readDocument_encode (encode_twoPlugins enabled)) (Nat.zero_le _) hinsert
    rfl

/-- The first client enables the clock, the second one the timer. -/
def enableBoth : Client → StoreCall
  | .first => .setEnabled ⟨"example", "clock"⟩ true
  | .second => .setEnabled ⟨"example", "timer"⟩ true

/-- No package directory is looked at. -/
def noFiles : PackageFiles where
  place _ := err "unavailable"
  inspect _ := err "unavailable"
  isDirectory _ := false

def bothDisabled : Option (List UInt8) := some (Text.asBytes (twoPluginsText (false, false)))

/-- The change of either client. -/
def enabling : Client → Change
  | .first => .put (clockPlugin "clock" 'a' true) false
  | .second => .put (clockPlugin "timer" 'b' true) false

def enabledBy (enabled : Bool × Bool) : Client → Bool × Bool
  | .first => (true, enabled.2)
  | .second => (enabled.1, true)

lemma edit_enableBoth (client : Client) (enabled : Bool × Bool) :
    (enableBoth client).edit noFiles (twoPluginsStore enabled) =
      ok ⟨some (enabling client), .done⟩ := by
  cases client with
  | first =>
    have hget : getInstalled (twoPluginsStore enabled) ⟨"example", "clock"⟩ =
        ok (clockPlugin "clock" 'a' enabled.1) := by
      revert enabled
      decide
    simp only [enableBoth, StoreCall.edit, setEnabled, hget]
    rfl
  | second =>
    have hget : getInstalled (twoPluginsStore enabled) ⟨"example", "timer"⟩ =
        ok (clockPlugin "timer" 'b' enabled.2) := by
      revert enabled
      decide
    simp only [enableBoth, StoreCall.edit, setEnabled, hget]
    rfl

lemma encode_enabling (client : Client) (enabled : Bool × Bool) :
    ((twoPluginsStore enabled).apply (enabling client)).encode twoPluginsToml =
      ok (Text.asBytes (twoPluginsText (enabledBy enabled client))) := by
  have happly : (twoPluginsStore enabled).apply (enabling client) =
      twoPluginsStore (enabledBy enabled client) := by
    revert enabled
    cases client <;> decide
  rw [happly, encode_twoPlugins]

/-- The phase of a client that has read the store and edited its copy. -/
def editing (client : Client) (enabled : Bool × Bool) : Phase :=
  .encoded (twoPluginsStore enabled) (enabling client)
    (Text.asBytes (twoPluginsText (enabledBy enabled client)))

/-- The state after a client has saved its copy. -/
def State.afterSave (state : State) (client : Client) (enabled : Bool × Bool) : State :=
  { state.setPhase client (.finished (twoPluginsStore enabled) (enabling client) (ok ())) with
    lock := some (Text.asBytes (twoPluginsText (enabledBy enabled client)))
    last := some client }

section EnableBoth

variable {state : State} {client : Client} (enabled : Bool × Bool)

/-- A client that begins while some plugins are enabled. -/
lemma begin_enableBoth (hidle : state.phase client = .idle)
    (hlock : state.lock = some (Text.asBytes (twoPluginsText enabled))) :
    run (State.step twoPluginsToml enableBoth) state (client.steps noFiles 2) =
      state.setPhase client (editing client enabled) :=
  run_begin hidle (hlock ▸ open_twoPlugins enabled) (edit_enableBoth client enabled)
    (encode_enabling client enabled)

lemma end_enableBoth (hediting : state.phase client = editing client enabled) :
    run (State.step twoPluginsToml enableBoth) state (client.steps noFiles 3) =
      state.afterSave client enabled := run_end hediting

end EnableBoth

/-- One client after the other. -/
theorem no_lost_update_of_turns_enableBoth :
    let events := (Client.first.steps noFiles 2 ++ Client.first.steps noFiles 3) ++
      (Client.second.steps noFiles 2 ++ Client.second.steps noFiles 3)
    let state := run (State.step twoPluginsToml enableBoth) (State.start bothDisabled) events
    (enabling .first).InLock twoPluginsToml state.lock ∧
      (enabling .second).InLock twoPluginsToml state.lock := by
  let begun := (State.start bothDisabled).setPhase .first (editing .first (false, false))
  let saved := begun.afterSave .first (false, false)
  let begun' := saved.setPhase .second (editing .second (true, false))
  have hbegun : run (State.step twoPluginsToml enableBoth) (State.start bothDisabled)
      (Client.first.steps noFiles 2) = begun := begin_enableBoth (false, false) rfl rfl
  have hsaved : run (State.step twoPluginsToml enableBoth) begun (Client.first.steps noFiles 3) =
      saved := end_enableBoth (false, false) rfl
  have hbegun' : run (State.step twoPluginsToml enableBoth) saved
      (Client.second.steps noFiles 2) = begun' := begin_enableBoth (true, false) rfl rfl
  have hsaved' : run (State.step twoPluginsToml enableBoth) begun'
      (Client.second.steps noFiles 3) = begun'.afterSave .second (true, false) :=
    end_enableBoth (true, false) rfl
  have hturns : Meets (State.step twoPluginsToml enableBoth) TakesTurn (State.start bothDisabled)
      ((Client.first.steps noFiles 2 ++ Client.first.steps noFiles 3) ++
        (Client.second.steps noFiles 2 ++ Client.second.steps noFiles 3)) := by
    rw [meets_append, meets_append, meets_append, run_append, hbegun, hsaved, hbegun']
    exact ⟨⟨meets_steps rfl 2, meets_steps rfl 3⟩, meets_steps rfl 2, meets_steps rfl 3⟩
  have hstate : run (State.step twoPluginsToml enableBoth) (State.start bothDisabled)
      ((Client.first.steps noFiles 2 ++ Client.first.steps noFiles 3) ++
        (Client.second.steps noFiles 2 ++ Client.second.steps noFiles 3)) =
      begun'.afterSave .second (true, false) := by
    rw [run_append, run_append, run_append, hbegun, hsaved, hbegun', hsaved']
  have h := no_lost_update_of_turns twoPluginsToml enableBoth bothDisabled
    ((Client.first.steps noFiles 2 ++ Client.first.steps noFiles 3) ++
      (Client.second.steps noFiles 2 ++ Client.second.steps noFiles 3))
  dsimp only at h ⊢
  rw [hstate] at h ⊢
  exact (h _ _ _ _ rfl rfl (by decide)).1 hturns

/-- Both clients read the lock file before either renames: the first change is lost. -/
theorem enable_lost :
    ¬ ∀ (toml : LockToml) (calls : Client → StoreCall) (lock : Option (List UInt8))
        (events : List Event),
      let state := run (State.step toml calls) (State.start lock) events
      ∀ store change store' change', (state.phase .first).saved = some (store, change) →
        (state.phase .second).saved = some (store', change') → change.source ≠ change'.source →
        change.InLock toml state.lock ∧ change'.InLock toml state.lock := by
  intro h
  let both := (State.start bothDisabled).setPhase .first (editing .first (false, false))
    |>.setPhase .second (editing .second (false, false))
  let events := Client.first.steps noFiles 2 ++ (Client.second.steps noFiles 2 ++
    (Client.first.steps noFiles 3 ++ Client.second.steps noFiles 3))
  have hstate : run (State.step twoPluginsToml enableBoth) (State.start bothDisabled) events =
      (both.afterSave .first (false, false)).afterSave .second (false, false) := by
    rw [run_append, begin_enableBoth (false, false) rfl rfl, run_append,
      begin_enableBoth (false, false) rfl rfl, run_append, end_enableBoth (false, false) rfl,
      end_enableBoth (false, false) rfl]
  have hboth := h twoPluginsToml enableBoth bothDisabled events
  rw [hstate] at hboth
  obtain ⟨⟨document, hread, hentry, -⟩, -⟩ := hboth (twoPluginsStore (false, false))
    (enabling .first) (twoPluginsStore (false, false)) (enabling .second) rfl rfl (by decide)
  have hlock : readDocument twoPluginsToml
      (some (Text.asBytes (twoPluginsText (false, true)))) = ok _ :=
    readDocument_encode (encode_twoPlugins (false, true))
  obtain rfl := ok.inj (hlock.symm.trans hread)
  have habsent : clockPlugin "clock" 'a' true ∉
      (twoPluginsStore (false, true)).document.plugins := by decide
  exact habsent hentry

end TouchBar.Packages
