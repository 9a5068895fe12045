import TouchBar.Supervisor.Request

/-!
# Activations are used once

The ledger of a connection remembers the input sequence of every activation that it has
let through.  A backend that needs the user to act decides about a request, consumes the
activation, and may still refuse the request afterwards; the activation is used all the
same.
-/

namespace TouchBar.Supervisor

open TouchBar.Rust TouchBar.Lib Outcome

/-! ## The ledger -/

/-- A real activation, for what is expected, in time and with a number. -/
structure Usable (activation : ActivationContext) (expected : ActivationExpectation) : Prop where
  origin : activation.origin ≠ .synthetic
  surface : activation.surfaceInstance = expected.surfaceInstance
  item : activation.itemId = expected.itemId
  widget : activation.widgetId = expected.widgetId
  deadline : expected.nowMonotonicMicros ≤ activation.deadlineMonotonicMicros
  sequence : activation.inputSequence ≠ 0

namespace ActivationLedger

variable {ledger : ActivationLedger} {activation : ActivationContext}
  {expected : ActivationExpectation}

/-- `new`. -/
def new (maximumConsumedSequences : ℕ) : ActivationLedger := ⟨.empty, maximumConsumedSequences⟩

/-- `clear`. -/
def clear (ledger : ActivationLedger) : ActivationLedger :=
  { ledger with consumedSequences := .empty }

/-- The ledger after an activation was let through. -/
def use (ledger : ActivationLedger) (sequence : ℕ) : ActivationLedger :=
  { ledger with consumedSequences := ledger.consumedSequences.insert sequence }

lemma length_insertList {sequence : ℕ} {l : List ℕ} (h : sequence ∉ l) :
    (BTreeSet.insertList sequence l).length = l.length + 1 := by
  induction l with
  | nil => rfl
  | cons other l ih =>
    rw [List.mem_cons, not_or] at h
    rw [BTreeSet.insertList]
    split_ifs with hlt heq
    · rfl
    · exact absurd heq h.1
    · rw [List.length_cons, ih h.2, List.length_cons]

lemma len_use {sequence : ℕ} (h : sequence ∉ ledger.consumedSequences) :
    (ledger.use sequence).consumedSequences.len = ledger.consumedSequences.len + 1 :=
  length_insertList h

/-- What `consume` refuses for want of an activation is not usable, or used. -/
lemma refuses_iff : (activation.origin = .synthetic ||
    activation.surfaceInstance ≠ expected.surfaceInstance ||
    activation.itemId ≠ expected.itemId || activation.widgetId ≠ expected.widgetId ||
    activation.deadlineMonotonicMicros < expected.nowMonotonicMicros ||
    activation.inputSequence = 0 ||
    ledger.consumedSequences.contains activation.inputSequence) = false ↔
      Usable activation expected ∧ activation.inputSequence ∉ ledger.consumedSequences := by
  simp only [Bool.or_eq_false_iff, decide_eq_false_iff_not, ne_eq, not_not, not_lt]
  rw [← Bool.not_eq_true, BTreeSet.contains_iff]
  constructor
  · rintro ⟨⟨⟨⟨⟨⟨horigin, hsurface⟩, hitem⟩, hwidget⟩, hdeadline⟩, hsequence⟩, hfresh⟩
    exact ⟨⟨horigin, hsurface, hitem, hwidget, hdeadline, hsequence⟩, hfresh⟩
  · rintro ⟨h, hfresh⟩
    exact ⟨⟨⟨⟨⟨⟨h.origin, h.surface⟩, h.item⟩, h.widget⟩, h.deadline⟩, h.sequence⟩, hfresh⟩

lemma consume_cases (ledger : ActivationLedger) (activation : ActivationContext)
    (expected : ActivationExpectation) :
    (¬ (Usable activation expected ∧ activation.inputSequence ∉ ledger.consumedSequences) ∧
      ledger.consume (some activation) expected = err .activationRequired) ∨
    ((Usable activation expected ∧ activation.inputSequence ∉ ledger.consumedSequences) ∧
      ((ledger.maximumConsumedSequences ≤ ledger.consumedSequences.len ∧
        ledger.consume (some activation) expected = err .quotaExceeded) ∨
      (ledger.consumedSequences.len < ledger.maximumConsumedSequences ∧
        ledger.consume (some activation) expected =
          ok (activation.origin, ledger.use activation.inputSequence)))) := by
  rw [consume, okOr, ok_bind]
  by_cases husable :
      Usable activation expected ∧ activation.inputSequence ∉ ledger.consumedSequences
  · refine .inr ⟨husable, ?_⟩
    rw [refuses_iff.mpr husable]
    by_cases hfull : ledger.maximumConsumedSequences ≤ ledger.consumedSequences.len
    · refine .inl ⟨hfull, ?_⟩
      rw [decide_eq_true hfull]
      rfl
    · refine .inr ⟨not_le.mp hfull, ?_⟩
      rw [decide_eq_false hfull]
      rfl
  · refine .inl ⟨husable, ?_⟩
    rw [← refuses_iff, Bool.not_eq_false] at husable
    rw [husable]
    rfl

/-- An activation is let through if it is usable and fresh and the ledger has room. -/
lemma consume_eq_ok {origin : ActivationOrigin} {ledger' : ActivationLedger} :
    ledger.consume (some activation) expected = ok (origin, ledger') ↔
      (Usable activation expected ∧ activation.inputSequence ∉ ledger.consumedSequences) ∧
        ledger.consumedSequences.len < ledger.maximumConsumedSequences ∧
        activation.origin = origin ∧ ledger.use activation.inputSequence = ledger' := by
  rcases consume_cases ledger activation expected with
    ⟨hnot, h⟩ | ⟨husable, ⟨hfull, h⟩ | ⟨hroom, h⟩⟩
  · rw [h]
    simp [hnot]
  · rw [h]
    simp [not_lt.mpr hfull]
  · rw [h, ok.injEq, Prod.mk.injEq]
    exact ⟨fun heq => ⟨husable, hroom, heq⟩, fun heq => heq.2.2⟩

lemma consume_eq_quotaExceeded :
    ledger.consume (some activation) expected = err .quotaExceeded ↔
      (Usable activation expected ∧ activation.inputSequence ∉ ledger.consumedSequences) ∧
        ledger.maximumConsumedSequences ≤ ledger.consumedSequences.len := by
  rcases consume_cases ledger activation expected with
    ⟨hnot, h⟩ | ⟨husable, ⟨hfull, h⟩ | ⟨hroom, h⟩⟩
  · rw [h]
    simp [hnot]
  · rw [h]
    simp [husable.1, husable.2, hfull]
  · rw [h]
    simp [not_le.mpr hroom]

/-- A touch of the media item. -/
def touch (sequence : ℕ) : ActivationContext := ⟨.physical, 4, "media", 9, sequence, 100⟩

def touched : ActivationExpectation := ⟨4, "media", 9, 99⟩

lemma usable_touch {sequence : ℕ} (h : sequence ≠ 0) : Usable (touch sequence) touched where
  origin := by simp [touch]
  surface := rfl
  item := rfl
  widget := rfl
  deadline := by simp [touch, touched]
  sequence := h

/-- Activations that are let through one after the other. -/
def consumeEach (ledger : ActivationLedger) :
    List ActivationContext → Outcome BrokerErrorCode ActivationLedger
  | [] => ok ledger
  | activation :: rest => do
    let (_, ledger) ← ledger.consume (some activation) touched
    consumeEach ledger rest

/-- Touches with fresh numbers fill the ledger. -/
lemma consumeEach_touches {n start : ℕ} (hstart : start ≠ 0)
    (hroom : ledger.consumedSequences.len + n ≤ ledger.maximumConsumedSequences)
    (hfresh : ∀ sequence ∈ ledger.consumedSequences, sequence < start) :
    ∃ ledger', ledger.consumeEach ((List.range' start n).map touch) = ok ledger' ∧
      ledger'.maximumConsumedSequences = ledger.maximumConsumedSequences ∧
      ledger'.consumedSequences.len = ledger.consumedSequences.len + n ∧
      ∀ sequence ∈ ledger'.consumedSequences, sequence < start + n := by
  induction n generalizing ledger start with
  | zero => exact ⟨ledger, rfl, rfl, rfl, hfresh⟩
  | succ n ih =>
    have hnotin : start ∉ ledger.consumedSequences := fun hmem => lt_irrefl _ (hfresh _ hmem)
    have hconsume : ledger.consume (some (touch start)) touched =
        ok (.physical, ledger.use start) := by
      rw [consume_eq_ok]
      exact ⟨⟨usable_touch hstart, hnotin⟩, by omega, rfl, rfl⟩
    have hlen := len_use hnotin
    obtain ⟨ledger', heach, hmaximum, hlen', hbelow⟩ := ih (Nat.succ_ne_zero start)
      (show (ledger.use start).consumedSequences.len + n ≤ ledger.maximumConsumedSequences by
        omega) fun sequence hmem => by
      rcases BTreeSet.mem_insert.mp hmem with rfl | hmem
      · exact Nat.lt_succ_self _
      · exact Nat.lt_succ_of_lt (hfresh sequence hmem)
    refine ⟨ledger', ?_, hmaximum, by omega, fun sequence hmem => ?_⟩
    · rw [List.range'_succ, List.map_cons, consumeEach, hconsume]
      exact heach
    · have := hbelow sequence hmem
      omega

/-- With the default limit, the touch after 4096 others is refused. -/
theorem consume_quotaExceeded_default :
    ∃ ledger, (new 4096).consumeEach ((List.range' 1 4096).map touch) = ok ledger ∧
      Usable (touch 4097) touched ∧ (touch 4097).origin = .physical ∧
      4097 ∉ ledger.consumedSequences ∧
      ledger.consume (some (touch 4097)) touched = err .quotaExceeded := by
  obtain ⟨ledger, heach, hmaximum, hlen, hbelow⟩ := @consumeEach_touches (new 4096) 4096 1
    one_ne_zero le_rfl (by simp [new])
  have husable : Usable (touch 4097) touched := usable_touch (by decide)
  have hfresh : 4097 ∉ ledger.consumedSequences := fun hmem => lt_irrefl _ (hbelow 4097 hmem)
  refine ⟨ledger, heach, husable, rfl, hfresh, ?_⟩
  rw [consume_eq_quotaExceeded]
  refine ⟨⟨husable, hfresh⟩, ?_⟩
  rw [hmaximum, hlen]
  exact le_rfl

end ActivationLedger

/-! ## Backends that need an activation -/

/-- What a backend decides about a request without looking at the ledger: it refuses it, or lets
it through without an activation, or with one whose origin and other limits it looks at once
the activation is consumed. -/
abbrev ActivationDecision : Type :=
  Outcome BrokerErrorCode (Option (ActivationOrigin → Outcome BrokerErrorCode Unit))

/-- The request is let through only with an activation. -/
def ActivationDecision.demands (decision : ActivationDecision) : Bool :=
  match decision with
  | ok (some _) => true
  | _ => false

/-- Every broker expects what the activation itself says. -/
def expectationOf (activation : ActivationContext) (now : ℕ) : ActivationExpectation :=
  ⟨activation.surfaceInstance, activation.itemId, activation.widgetId, now⟩

def consumeOwn (activation : Option ActivationContext) (ledger : ActivationLedger) (now : ℕ) :
    Outcome BrokerErrorCode (ActivationOrigin × ActivationLedger) := do
  let activation ← okOr activation .activationRequired
  ledger.consume (some activation) (expectationOf activation now)

/-- `Backend::authorize`: what the backend says, and the ledger afterwards. -/
def authorize (decision : ActivationDecision) (activation : Option ActivationContext)
    (ledger : ActivationLedger) (now : ℕ) : Outcome BrokerErrorCode Unit × ActivationLedger :=
  match decision with
  | err code => (err code, ledger)
  | .panic => (.panic, ledger)
  | ok none => (ok (), ledger)
  | ok (some after) =>
    match consumeOwn activation ledger now with
    | ok (origin, ledger) => (after origin, ledger)
    | err code => (err code, ledger)
    | .panic => (.panic, ledger)

/-- The input sequence that is used. -/
def usedBy (decision : ActivationDecision) (activation : Option ActivationContext)
    (ledger : ActivationLedger) (now : ℕ) : List ℕ :=
  match decision with
  | ok (some _) =>
    match consumeOwn activation ledger now with
    | ok _ => (activation.map ActivationContext.inputSequence).toList
    | _ => []
  | _ => []

lemma consumeOwn_eq_ok {activation : Option ActivationContext} {ledger ledger' : ActivationLedger}
    {now : ℕ} {origin : ActivationOrigin} :
    consumeOwn activation ledger now = ok (origin, ledger') ↔
      ∃ used, activation = some used ∧ (Usable used (expectationOf used now) ∧
        used.inputSequence ∉ ledger.consumedSequences) ∧
        ledger.consumedSequences.len < ledger.maximumConsumedSequences ∧
        used.origin = origin ∧ ledger.use used.inputSequence = ledger' := by
  rw [consumeOwn, bind_eq_ok]
  simp only [okOr_eq_ok, ActivationLedger.consume_eq_ok]

/-- An authorization uses no activation, or one that is usable and fresh.  Where one is
demanded, the request is let through only with the latter. -/
lemma authorize_cases (decision : ActivationDecision) (activation : Option ActivationContext)
    (ledger : ActivationLedger) (now : ℕ) :
    ((authorize decision activation ledger now).2 = ledger ∧
      usedBy decision activation ledger now = [] ∧
      (decision.demands = true → ∀ u, (authorize decision activation ledger now).1 ≠ ok u)) ∨
    ∃ used, activation = some used ∧ Usable used (expectationOf used now) ∧
      used.inputSequence ∉ ledger.consumedSequences ∧
      ledger.consumedSequences.len < ledger.maximumConsumedSequences ∧
      (authorize decision activation ledger now).2 = ledger.use used.inputSequence ∧
      usedBy decision activation ledger now = [used.inputSequence] := by
  cases decision with
  | err code => exact .inl ⟨rfl, rfl, fun h => by cases h⟩
  | panic => exact .inl ⟨rfl, rfl, fun h => by cases h⟩
  | ok demand =>
    cases demand with
    | none => exact .inl ⟨rfl, rfl, fun h => by cases h⟩
    | some after =>
      cases hconsume : consumeOwn activation ledger now with
      | err code =>
        have hauthorize : authorize (ok (some after)) activation ledger now =
            (err code, ledger) := by
          rw [authorize, hconsume]
        have hused : usedBy (ok (some after)) activation ledger now = [] := by
          rw [usedBy, hconsume]
        rw [hauthorize, hused]
        exact .inl ⟨rfl, rfl, fun _ u h => by cases h⟩
      | panic =>
        have hauthorize : authorize (ok (some after)) activation ledger now =
            (.panic, ledger) := by
          rw [authorize, hconsume]
        have hused : usedBy (ok (some after)) activation ledger now = [] := by
          rw [usedBy, hconsume]
        rw [hauthorize, hused]
        exact .inl ⟨rfl, rfl, fun _ u h => by cases h⟩
      | ok result =>
        obtain ⟨origin, ledger'⟩ := result
        have hauthorize : authorize (ok (some after)) activation ledger now =
            (after origin, ledger') := by
          rw [authorize, hconsume]
        have hused : usedBy (ok (some after)) activation ledger now =
            (activation.map ActivationContext.inputSequence).toList := by
          rw [usedBy, hconsume]
        obtain ⟨used, rfl, ⟨husable, hfresh⟩, hroom, -, rfl⟩ := consumeOwn_eq_ok.mp hconsume
        rw [hauthorize, hused]
        exact .inr ⟨used, rfl, husable, hfresh, hroom, rfl, rfl⟩

end TouchBar.Supervisor
