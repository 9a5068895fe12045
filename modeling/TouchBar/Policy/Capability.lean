import TouchBar.Rust.BTree
import TouchBar.Rust.Text

/-!
# Capabilities and their scopes

What a plugin may ask for: a capability, and a scope that says how far the
capability reaches.  Rules that are kept in sets have the derived order of the
source, which compares the fields one after the other; it decides in which order
the rules of a set are tried.
-/

namespace TouchBar.Policy

open TouchBar.Rust

/-- `None` before `Some`, as the order of the lists. -/
lemma optionToList_inj {α : Type*} {o p : Option α} : o.toList = p.toList ↔ o = p := by
  cases o <;> cases p <;> simp

/-! ## Capabilities -/

inductive CapabilityId where
  | contextReadV1
  | filesystemReadV1
  | filesystemWriteV1
  | httpRequestV1
  | dbusCallV1
  | dbusSubscribeV1
  | commandRunV1
  | clipboardReadV1
  | clipboardWriteV1
  | secretReadV1
  | notificationSendV1
  | uriOpenV1
  | localConnectV1
  | appearanceProvideV1
  | unknown (value : String)
deriving DecidableEq, Repr

namespace CapabilityId

/-- The position in the declaration and the value of an unknown capability. -/
def key : CapabilityId → ℕ ×ₗ String
  | contextReadV1 => toLex (0, "")
  | filesystemReadV1 => toLex (1, "")
  | filesystemWriteV1 => toLex (2, "")
  | httpRequestV1 => toLex (3, "")
  | dbusCallV1 => toLex (4, "")
  | dbusSubscribeV1 => toLex (5, "")
  | commandRunV1 => toLex (6, "")
  | clipboardReadV1 => toLex (7, "")
  | clipboardWriteV1 => toLex (8, "")
  | secretReadV1 => toLex (9, "")
  | notificationSendV1 => toLex (10, "")
  | uriOpenV1 => toLex (11, "")
  | localConnectV1 => toLex (12, "")
  | appearanceProvideV1 => toLex (13, "")
  | unknown value => toLex (14, value)

lemma key_injective : Function.Injective key := by
  intro a b h
  cases a <;> cases b <;> simp_all [key]

instance : LinearOrder CapabilityId := LinearOrder.lift' key key_injective

def isKnown : CapabilityId → Bool
  | unknown _ => false
  | _ => true

end CapabilityId

/-- `CapabilityRegistry`. -/
structure CapabilityRegistry where
  supported : BTreeSet CapabilityId

namespace CapabilityRegistry

def v1 : CapabilityRegistry where
  supported := .ofList [.contextReadV1, .filesystemReadV1, .filesystemWriteV1, .httpRequestV1,
    .dbusCallV1, .dbusSubscribeV1, .commandRunV1, .clipboardReadV1, .clipboardWriteV1,
    .secretReadV1, .notificationSendV1, .uriOpenV1, .localConnectV1, .appearanceProvideV1]

def supports (registry : CapabilityRegistry) (capability : CapabilityId) : Bool :=
  capability.isKnown && registry.supported.contains capability

end CapabilityRegistry

inductive RiskClass where
  | isolated
  | limited
  | connected
  | sensitive
  | controlling
  | effectivelyTrusted
  | unrestrictedNative
deriving DecidableEq, Repr

def RiskClass.rank : RiskClass → ℕ
  | isolated => 0
  | limited => 1
  | connected => 2
  | sensitive => 3
  | controlling => 4
  | effectivelyTrusted => 5
  | unrestrictedNative => 6

instance : LinearOrder RiskClass :=
  LinearOrder.lift' RiskClass.rank fun a b h => by cases a <;> cases b <;> first | rfl | cases h

inductive RuntimeKind where
  | component
  | native
deriving DecidableEq, Repr

structure TrustSummary where
  class_ : RiskClass
  warnings : BTreeSet String
deriving DecidableEq

inductive CapabilityStatus where
  | granted
  | denied
  | needsConsent
  | unsupported
  | disclosureOnly
deriving DecidableEq, Repr

/-! ## Rules and scopes -/

structure FilesystemMountRequest where
  label : String
  suggestedLocation : Option String
deriving DecidableEq, Repr

instance : LinearOrder FilesystemMountRequest :=
  LinearOrder.lift' (fun m => toLex (m.label, m.suggestedLocation.toList)) fun a b h => by
    cases a
    cases b
    simpa [optionToList_inj] using h

structure ContextReadScope where
  facts : BTreeSet String
  maximumUpdatesPerSecond : ℕ
deriving DecidableEq

inductive FileKind where
  | regularFile
  | directory
deriving DecidableEq, Repr

def FileKind.rank : FileKind → ℕ
  | regularFile => 0
  | directory => 1

instance : LinearOrder FileKind :=
  LinearOrder.lift' FileKind.rank fun a b h => by cases a <;> cases b <;> first | rfl | cases h

structure FilesystemReadScope where
  mounts : BTreeSet FilesystemMountRequest
  kinds : BTreeSet FileKind
  maximumFileBytes : ℕ
  enumerate : Bool
deriving DecidableEq

inductive WriteOperation where
  | create
  | replace
  | append
  | delete
  | rename
  | createDirectory
deriving DecidableEq, Repr

def WriteOperation.rank : WriteOperation → ℕ
  | create => 0
  | replace => 1
  | append => 2
  | delete => 3
  | rename => 4
  | createDirectory => 5

instance : LinearOrder WriteOperation :=
  LinearOrder.lift' WriteOperation.rank fun a b h => by
    cases a <;> cases b <;> first | rfl | cases h

structure FilesystemWriteScope where
  mounts : BTreeSet FilesystemMountRequest
  operations : BTreeSet WriteOperation
  maximumFileBytes : ℕ
  maximumTotalBytesPerHour : ℕ
deriving DecidableEq

structure HttpOriginRule where
  scheme : String
  host : String
  port : ℕ
  pathPrefixes : BTreeSet String
deriving DecidableEq

instance : LinearOrder HttpOriginRule :=
  LinearOrder.lift' (fun o => toLex (o.scheme, toLex (o.host, toLex (o.port, o.pathPrefixes))))
    fun a b h => by
      cases a
      cases b
      simpa using h

inductive HttpMethod where
  | get
  | head
  | post
  | put
  | patch
  | delete
deriving DecidableEq, Repr

def HttpMethod.rank : HttpMethod → ℕ
  | get => 0
  | head => 1
  | post => 2
  | put => 3
  | patch => 4
  | delete => 5

instance : LinearOrder HttpMethod :=
  LinearOrder.lift' HttpMethod.rank fun a b h => by cases a <;> cases b <;> first | rfl | cases h

structure HttpRequestScope where
  origins : BTreeSet HttpOriginRule
  methods : BTreeSet HttpMethod
  privateNetwork : Bool
  maximumRequestBytes : ℕ
  maximumResponseBytes : ℕ
  maximumRequestsPerMinute : ℕ
deriving DecidableEq

inductive DbusBus where
  | session
  | system
deriving DecidableEq, Repr

def DbusBus.rank : DbusBus → ℕ
  | session => 0
  | system => 1

instance : LinearOrder DbusBus :=
  LinearOrder.lift' DbusBus.rank fun a b h => by cases a <;> cases b <;> first | rfl | cases h

structure DbusArgumentConstraint where
  index : ℕ
  equalsString : Option String
  oneOfStrings : Option (BTreeSet String)
deriving DecidableEq

instance : LinearOrder DbusArgumentConstraint :=
  LinearOrder.lift' (fun c => toLex (c.index, toLex (c.equalsString.toList, c.oneOfStrings.toList)))
    fun a b h => by
      cases a
      cases b
      simpa [optionToList_inj] using h

structure DbusCallRule where
  bus : DbusBus
  destination : String
  path : String
  interface : String
  member : String
  signature : String
  arguments : List DbusArgumentConstraint
  allowServiceActivation : Bool
  requiresUserActivation : Bool
deriving DecidableEq

instance : LinearOrder DbusCallRule :=
  LinearOrder.lift' (fun r => toLex (r.bus, toLex (r.destination, toLex (r.path, toLex (r.interface,
    toLex (r.member, toLex (r.signature, toLex (r.arguments, toLex (r.allowServiceActivation,
      r.requiresUserActivation)))))))))
    fun a b h => by
      cases a
      cases b
      simpa using h

structure DbusCallScope where
  rules : BTreeSet DbusCallRule
deriving DecidableEq

structure DbusSignalRule where
  bus : DbusBus
  sender : String
  path : String
  interface : String
  member : String
  signature : String
  argumentZero : Option String
deriving DecidableEq

instance : LinearOrder DbusSignalRule :=
  LinearOrder.lift' (fun r => toLex (r.bus, toLex (r.sender, toLex (r.path, toLex (r.interface,
    toLex (r.member, toLex (r.signature, r.argumentZero.toList)))))))
    fun a b h => by
      cases a
      cases b
      simpa [optionToList_inj] using h

structure DbusSubscribeScope where
  rules : BTreeSet DbusSignalRule
  maximumEventsPerSecond : ℕ
deriving DecidableEq

inductive CommandArgument where
  | literal (value : String)
  | boundedInteger (name : String) (minimum maximum : ℤ)
  | fixedEnum (name : String) (values : BTreeSet String)
  | boundedText (name : String) (maximumBytes : ℕ)
  | approvedFile (name mount : String)
  | url (name : String) (schemes : BTreeSet String)
deriving DecidableEq

namespace CommandArgument

/-- The variant, then its fields in order; a field that a variant does not have is
constant. -/
def key : CommandArgument → ℕ ×ₗ String ×ₗ ℤ ×ₗ ℤ ×ₗ List String ×ₗ String
  | literal value => toLex (0, toLex (value, toLex (0, toLex (0, toLex ([], "")))))
  | boundedInteger name minimum maximum =>
    toLex (1, toLex (name, toLex (minimum, toLex (maximum, toLex ([], "")))))
  | fixedEnum name values =>
    toLex (2, toLex (name, toLex (0, toLex (0, toLex (values.toList, "")))))
  | boundedText name maximumBytes =>
    toLex (3, toLex (name, toLex ((maximumBytes : ℤ), toLex (0, toLex ([], "")))))
  | approvedFile name mount => toLex (4, toLex (name, toLex (0, toLex (0, toLex ([], mount)))))
  | url name schemes => toLex (5, toLex (name, toLex (0, toLex (0, toLex (schemes.toList, "")))))

lemma key_injective : Function.Injective key := by
  intro a b h
  cases a <;> cases b <;> simp [key] at h <;> simp [h, BTreeSet.ext_toList_iff]

instance : LinearOrder CommandArgument := LinearOrder.lift' key key_injective

end CommandArgument

structure CommandRule where
  id : String
  executable : String
  arguments : List CommandArgument
  environment : BTreeMap String String
  workingDirectory : Option String
  maximumOutputBytes : ℕ
  timeoutMilliseconds : ℕ
deriving DecidableEq

instance : LinearOrder CommandRule :=
  LinearOrder.lift' (fun r => toLex (r.id, toLex (r.executable, toLex (r.arguments,
    toLex (r.environment, toLex (r.workingDirectory.toList, toLex (r.maximumOutputBytes,
      r.timeoutMilliseconds)))))))
    fun a b h => by
      cases a
      cases b
      simpa [optionToList_inj] using h

structure CommandRunScope where
  commands : BTreeSet CommandRule
  maximumParallelProcesses : ℕ
deriving DecidableEq

structure ClipboardScope where
  mimeTypes : BTreeSet String
  maximumBytes : ℕ
  maximumOperationsPerMinute : ℕ
deriving DecidableEq

structure SecretReadScope where
  logicalNames : BTreeSet String
deriving DecidableEq

inductive NotificationUrgency where
  | low
  | normal
  | critical
deriving DecidableEq, Repr

def NotificationUrgency.rank : NotificationUrgency → ℕ
  | low => 0
  | normal => 1
  | critical => 2

instance : LinearOrder NotificationUrgency :=
  LinearOrder.lift' NotificationUrgency.rank fun a b h => by
    cases a <;> cases b <;> first | rfl | cases h

structure NotificationScope where
  categories : BTreeSet String
  urgency : BTreeSet NotificationUrgency
  actions : Bool
  maximumPerMinute : ℕ
deriving DecidableEq

structure UriOpenScope where
  schemes : BTreeSet String
  origins : BTreeSet HttpOriginRule
deriving DecidableEq

structure LocalEndpointRequest where
  label : String
  protocol : String
  suggestedEndpoint : Option String
deriving DecidableEq, Repr

instance : LinearOrder LocalEndpointRequest :=
  LinearOrder.lift' (fun e => toLex (e.label, toLex (e.protocol, e.suggestedEndpoint.toList)))
    fun a b h => by
      cases a
      cases b
      simpa [optionToList_inj] using h

structure LocalConnectScope where
  endpoints : BTreeSet LocalEndpointRequest
  maximumFrameBytes : ℕ
  maximumBytesPerMinute : ℕ
deriving DecidableEq

structure AppearanceProvideScope where
  providers : BTreeSet String
  mounts : BTreeSet FilesystemMountRequest
  maximumFileBytes : ℕ
  maximumUpdatesPerSecond : ℕ
deriving DecidableEq

inductive CapabilityScope where
  | contextRead (scope : ContextReadScope)
  | filesystemRead (scope : FilesystemReadScope)
  | filesystemWrite (scope : FilesystemWriteScope)
  | httpRequest (scope : HttpRequestScope)
  | dbusCall (scope : DbusCallScope)
  | dbusSubscribe (scope : DbusSubscribeScope)
  | commandRun (scope : CommandRunScope)
  | clipboard (scope : ClipboardScope)
  | secretRead (scope : SecretReadScope)
  | notificationSend (scope : NotificationScope)
  | uriOpen (scope : UriOpenScope)
  | localConnect (scope : LocalConnectScope)
  | appearanceProvide (scope : AppearanceProvideScope)
  | unknown (encoded : String)
deriving DecidableEq

/-- `matches_capability`. -/
def CapabilityScope.matchesCapability : CapabilityScope → CapabilityId → Bool
  | contextRead _, .contextReadV1 => true
  | filesystemRead _, .filesystemReadV1 => true
  | filesystemWrite _, .filesystemWriteV1 => true
  | httpRequest _, .httpRequestV1 => true
  | dbusCall _, .dbusCallV1 => true
  | dbusSubscribe _, .dbusSubscribeV1 => true
  | commandRun _, .commandRunV1 => true
  | clipboard _, .clipboardReadV1 => true
  | clipboard _, .clipboardWriteV1 => true
  | secretRead _, .secretReadV1 => true
  | notificationSend _, .notificationSendV1 => true
  | uriOpen _, .uriOpenV1 => true
  | localConnect _, .localConnectV1 => true
  | appearanceProvide _, .appearanceProvideV1 => true
  | unknown _, .unknown _ => true
  | _, _ => false

structure CapabilityRequest where
  capability : CapabilityId
  required : Bool
  reason : String
  scope : CapabilityScope
deriving DecidableEq

end TouchBar.Policy
