import TouchBar.Policy.Subset
import TouchBar.Rust.Net
import TouchBar.Schema.Wire

/-!
# Requests to the brokers

What the supervisor hands to a broker, the ledger of trusted activations, and the
parts of a parsed URL that the brokers look at.  Parsing itself belongs to the `url`
crate and is a parameter of the brokers.
-/

namespace TouchBar.Supervisor

open TouchBar.Rust TouchBar.Lib TouchBar.Policy TouchBar.Schema Outcome

inductive BrokerErrorCode where
  | unavailable
  | denied
  | outOfScope
  | invalidRequest
  | invalidPhase
  | activationRequired
  | quotaExceeded
  | rateLimited
  | timeout
  | cancelled
  | unsupported
  | backendFailed
  | internal
deriving DecidableEq, Repr

def schemaError : SchemaError → BrokerErrorCode
  | .malformed => .invalidRequest
  | .limitExceeded => .quotaExceeded

/-- `result.map_err(schema_error)`. -/
def mapSchemaError {α : Type} : Outcome SchemaError α → Outcome BrokerErrorCode α
  | ok a => ok a
  | err e => err (schemaError e)
  | .panic => .panic

@[simp] lemma mapSchemaError_eq_ok {α : Type} {x : Outcome SchemaError α} {a : α} :
    mapSchemaError x = ok a ↔ x = ok a := by
  cases x <;> simp [mapSchemaError]

/-- `option.ok_or(code)`. -/
def okOr {α : Type} (o : Option α) (code : BrokerErrorCode) : Outcome BrokerErrorCode α :=
  match o with
  | some a => ok a
  | none => err code

@[simp] lemma okOr_eq_ok {α : Type} {o : Option α} {code : BrokerErrorCode} {a : α} :
    okOr o code = ok a ↔ o = some a := by
  cases o <;> simp [okOr]

/-- `if condition { return Err(code) }`. -/
def rejectIf (condition : Bool) (code : BrokerErrorCode) : Outcome BrokerErrorCode Unit :=
  if condition then err code else ok ()

@[simp] lemma rejectIf_eq_ok {condition : Bool} {code : BrokerErrorCode} {u : Unit} :
    rejectIf condition code = ok u ↔ condition = false := by
  cases condition <;> simp [rejectIf]

/-! ## Activations -/

inductive ActivationOrigin where
  | physical
  | trustedControl
  | synthetic
deriving DecidableEq, Repr

structure ActivationContext where
  origin : ActivationOrigin
  surfaceInstance : ℕ
  itemId : String
  widgetId : ℕ
  inputSequence : ℕ
  deadlineMonotonicMicros : ℕ
deriving DecidableEq, Repr

structure ActivationExpectation where
  surfaceInstance : ℕ
  itemId : String
  widgetId : ℕ
  nowMonotonicMicros : ℕ

structure ActivationLedger where
  consumedSequences : BTreeSet ℕ
  maximumConsumedSequences : ℕ
deriving DecidableEq

/-- `consume`: the origin and the ledger afterwards; a failure changes nothing. -/
def ActivationLedger.consume (ledger : ActivationLedger) (activation : Option ActivationContext)
    (expected : ActivationExpectation) :
    Outcome BrokerErrorCode (ActivationOrigin × ActivationLedger) := do
  let activation ← okOr activation .activationRequired
  rejectIf (activation.origin = .synthetic ||
    activation.surfaceInstance ≠ expected.surfaceInstance ||
    activation.itemId ≠ expected.itemId || activation.widgetId ≠ expected.widgetId ||
    activation.deadlineMonotonicMicros < expected.nowMonotonicMicros ||
    activation.inputSequence = 0 ||
    ledger.consumedSequences.contains activation.inputSequence) .activationRequired
  rejectIf (ledger.maximumConsumedSequences ≤ ledger.consumedSequences.len) .quotaExceeded
  return (activation.origin,
    { ledger with consumedSequences := ledger.consumedSequences.insert activation.inputSequence })

/-- The parts of a request that the brokers read. -/
structure BackendRequest where
  capability : CapabilityId
  authorizedScope : CapabilityScope
  activation : Option ActivationContext
  operation : String
  payload : List UInt8

/-- Consume the activation of a request, as a broker does for an operation that requires
one: the expectation repeats what the activation says. -/
def BackendRequest.consumeActivation (request : BackendRequest) (ledger : ActivationLedger)
    (now : ℕ) : Outcome BrokerErrorCode ActivationLedger := do
  let activation ← okOr request.activation .activationRequired
  let (_, ledger) ← ledger.consume (some activation)
    ⟨activation.surfaceInstance, activation.itemId, activation.widgetId, now⟩
  return ledger

/-! ## URLs -/

inductive Host where
  | domain (name : String)
  | ipv4 (address : Net.Ipv4Addr)
  | ipv6 (address : Net.Ipv6Addr)
deriving DecidableEq, Repr

def Host.display : Host → String
  | domain name => name
  | ipv4 address => address.display
  | ipv6 address => address.display

/-- What the methods of a parsed `Url` return. -/
structure Url where
  asStr : String
  scheme : String
  username : String
  password : Option String
  cannotBeABase : Bool
  host : Option Host
  portOrKnownDefault : Option ℕ
  path : String
  fragment : Option String
deriving DecidableEq, Repr

def dangerousEncodedPath (path : String) : Bool :=
  let lowercase := Text.toAsciiLowercase path
  Text.containsStr lowercase "%2f" || Text.containsStr lowercase "%5c" ||
    Text.containsStr lowercase "%2e" || Text.containsStr lowercase "%00"

def pathAllowed (origin : HttpOriginRule) (path : String) : Bool :=
  origin.pathPrefixes.isEmpty || origin.pathPrefixes.toList.any (Text.startsWith path)

/-- The origin rule admits the host, the port and the path. -/
def originAllows (url : Url) (host : String) (port : ℕ) (origin : HttpOriginRule) : Bool :=
  origin.scheme = url.scheme && origin.host = host && origin.port = port &&
    pathAllowed origin url.path

/-- A path below a narrower set of prefixes is below the wider one. -/
lemma pathAllowed_of_subset {new old : HttpOriginRule} {path : String}
    (h : pathPrefixesSubset new.pathPrefixes old.pathPrefixes = true)
    (hpath : pathAllowed new path = true) : pathAllowed old path = true := by
  simp only [pathPrefixesSubset, pathAllowed, Bool.or_eq_true, Bool.and_eq_true,
    Bool.not_eq_true'] at h hpath ⊢
  rcases h with h | ⟨hne, hcov⟩
  · exact .inl h
  rcases hpath with hpath | hpath
  · rw [hpath] at hne
    cases hne
  · exact .inr (any_of_coveredBy (fun _ _ hab hp => Text.startsWith_trans hp hab) hcov hpath)

/-- What a set of origins admits, every set that contains it admits. -/
lemma any_originAllows_of_subset {new old : BTreeSet HttpOriginRule} {url : Url} {host : String}
    {port : ℕ} (h : originsSubset new old = true)
    (hany : new.toList.any (originAllows url host port) = true) :
    old.toList.any (originAllows url host port) = true := by
  refine any_of_coveredBy (fun a b hab ha => ?_) h hany
  simp only [originSubset, originAllows, Bool.and_eq_true, decide_eq_true_eq] at hab ha ⊢
  obtain ⟨⟨⟨hscheme, hhost⟩, hport⟩, hpaths⟩ := hab
  obtain ⟨⟨⟨hs, hh⟩, hp⟩, hpath⟩ := ha
  exact ⟨⟨⟨hscheme ▸ hs, hhost ▸ hh⟩, hport ▸ hp⟩, pathAllowed_of_subset hpaths hpath⟩

end TouchBar.Supervisor
