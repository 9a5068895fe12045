import TouchBar.Policy.Subset

/-!
# Grants and the effective policy

Decisions of the user are kept in grant records, one for each source and
capability, for the session or persistently.  `calculate_effective_policy` looks up
the record of every request of a package and reports whether it is granted.
-/

namespace TouchBar.Policy

open TouchBar.Rust Outcome

/-! ## Packages and records -/

structure GithubSource where
  owner : String
  repository : String
deriving DecidableEq, Repr

instance : LinearOrder GithubSource :=
  LinearOrder.lift' (fun s => toLex (s.owner, s.repository)) fun a b h => by
    cases a
    cases b
    simpa using h

inductive Provenance where
  | verifiedRelease
  | unverifiedRelease
  | localDevelopment
deriving DecidableEq, Repr

inductive ReusePolicy where
  | verifiedSameSource
  | exactDigest
deriving DecidableEq, Repr

inductive Decision where
  | allow
  | deny
deriving DecidableEq, Repr

structure PackageInstance where
  source : GithubSource
  digest : String
  provenance : Provenance
  runtime : RuntimeKind
deriving DecidableEq, Repr

inductive SecretBinding where
  | secretServiceItem (objectPath : String)
deriving DecidableEq, Repr

inductive LocalEndpointBinding where
  | unixStream (path : String)
deriving DecidableEq, Repr

inductive ClipboardBinding where
  | waylandDataControl (socket : String)
deriving DecidableEq, Repr

inductive StandardDirectoryBinding where
  | home
  | xdgConfig
  | xdgData
  | xdgState
  | xdgCache
  | xdgRuntime
deriving DecidableEq, Repr

inductive FilesystemMountBinding where
  | path (path : String)
  | standardDirectory (directory : StandardDirectoryBinding) (relative : String)
deriving DecidableEq, Repr

structure GrantBindings where
  filesystemMounts : BTreeMap String FilesystemMountBinding
  secrets : BTreeMap String SecretBinding
  localEndpoints : BTreeMap String LocalEndpointBinding
  clipboard : Option ClipboardBinding
deriving DecidableEq

def GrantBindings.default : GrantBindings := ⟨.empty, .empty, .empty, none⟩

structure GrantRecord where
  source : GithubSource
  capability : CapabilityId
  approvedScope : CapabilityScope
  bindings : GrantBindings
  decision : Decision
  reuse : ReusePolicy
  approvedDigest : String
deriving DecidableEq

/-! ## Validation of records -/

def validDbusObjectPath (value : String) : Bool :=
  value = "/" || (Text.startsWith value "/" && !Text.endsWith value "/" &&
    (Text.split (.ofList (value.toList.drop 1)) '/').all fun segment =>
      !Text.isEmpty segment && Text.all segment fun c => c.isAlphanum || c == '_')

def validateDigest (digest : String) : Outcome String Unit :=
  match Text.stripPrefix digest "sha256:" with
  | none => err "artifact digest must use sha256:<64 lowercase hex>"
  | some value =>
    if Text.len value ≠ 64 ∨ !Text.all value (fun c => c.isDigit || ('a' ≤ c && c ≤ 'f')) then
      err "artifact digest must use sha256:<64 lowercase hex>"
    else
      ok ()

def validSocketPath (path : String) : Bool :=
  Path.isNormalizedAbsolute path && !Text.containsChar path '\x00' && Text.len path ≤ 107

def FilesystemMountBinding.validate : FilesystemMountBinding → Outcome String Unit
  | path root =>
    if !Path.isNormalizedAbsolute root || Text.containsChar root '\x00' then
      err "filesystem grant roots must be normalized absolute paths"
    else
      ok ()
  | standardDirectory _ relative =>
    if !Path.isNormalizedRelative relative || Text.containsChar relative '\x00' then
      err "standard directory suffixes must be normalized and relative"
    else
      ok ()

def SecretBinding.validate : SecretBinding → Outcome String Unit
  | secretServiceItem objectPath =>
    if Text.len objectPath ≤ 1024 ∧ validDbusObjectPath objectPath then ok ()
    else err "secret item bindings must be valid D-Bus object paths"

def LocalEndpointBinding.validate : LocalEndpointBinding → Outcome String Unit
  | unixStream path =>
    if validSocketPath path then ok ()
    else err "local endpoint bindings must use normalized absolute paths"

def ClipboardBinding.validate : ClipboardBinding → Outcome String Unit
  | waylandDataControl socket =>
    if validSocketPath socket then ok ()
    else err "clipboard socket bindings must be normalized absolute paths"

/-- The first error of a loop of checks. -/
def firstError {α : Type} (check : α → Outcome String Unit) : List α → Outcome String Unit
  | [] => ok ()
  | a :: l => do
    check a
    firstError check l

def expectedFilesystem : CapabilityScope → BTreeSet String
  | .filesystemRead scope => .ofList (scope.mounts.toList.map FilesystemMountRequest.label)
  | .filesystemWrite scope => .ofList (scope.mounts.toList.map FilesystemMountRequest.label)
  | .commandRun scope =>
    .ofList ((scope.commands.toList.flatMap CommandRule.arguments).filterMap fun argument =>
      match argument with
      | .approvedFile _ mount => some mount
      | _ => none)
  | .appearanceProvide scope => .ofList (scope.mounts.toList.map FilesystemMountRequest.label)
  | _ => .empty

def expectedSecrets : CapabilityScope → BTreeSet String
  | .secretRead scope => scope.logicalNames
  | _ => .empty

def expectedEndpoints : CapabilityScope → BTreeSet String
  | .localConnect scope => .ofList (scope.endpoints.toList.map LocalEndpointRequest.label)
  | _ => .empty

def expectsClipboard : CapabilityId → Bool
  | .clipboardReadV1 => true
  | .clipboardWriteV1 => true
  | _ => false

/-- `if !condition { return Err(message) }`. -/
def require (condition : Bool) (message : String) : Outcome String Unit :=
  if condition then ok () else err message

namespace GrantRecord

variable (record : GrantRecord)

def validateBindings : Outcome String Unit :=
  if record.decision = .deny then
    require (record.bindings = .default) "denied grants cannot retain authority bindings"
  else do
    require (BTreeSet.ofList record.bindings.filesystemMounts.keys =
      expectedFilesystem record.approvedScope)
      "filesystem grant bindings must exactly match approved mount labels"
    firstError FilesystemMountBinding.validate record.bindings.filesystemMounts.values
    require (BTreeSet.ofList record.bindings.secrets.keys = expectedSecrets record.approvedScope)
      "secret grant bindings must exactly match approved logical names"
    firstError SecretBinding.validate record.bindings.secrets.values
    require (BTreeSet.ofList record.bindings.localEndpoints.keys =
      expectedEndpoints record.approvedScope)
      "local endpoint bindings must exactly match approved labels"
    firstError LocalEndpointBinding.validate record.bindings.localEndpoints.values
    require (record.bindings.clipboard.isSome = expectsClipboard record.capability)
      "clipboard grant bindings must exist exactly for clipboard capabilities"
    firstError ClipboardBinding.validate record.bindings.clipboard.toList

def validate : Outcome String Unit := do
  require (record.approvedScope.matchesCapability record.capability)
    "approved scope does not match capability"
  match validateCapabilityScope record.capability record.approvedScope with
  | ok () => pure ()
  | err errors => err ("; ".intercalate (errors.map NormalizationError.display))
  | .panic => .panic
  validateDigest record.approvedDigest
  record.validateBindings
  require (!(record.reuse = .verifiedSameSource && !record.capability.isKnown))
    "unknown capabilities cannot use verified-source grant reuse"

end GrantRecord

/-- Records for the session, each valid and under its own source and capability. -/
structure SessionGrants where
  records : BTreeMap (GithubSource ×ₗ CapabilityId) GrantRecord
  valid : ∀ key record, records.get key = some record →
    record.validate = ok () ∧ key = toLex (record.source, record.capability)

namespace SessionGrants

def default : SessionGrants where
  records := .empty
  valid := by simp

/-- `insert`; the record that was replaced is dropped. -/
def insert (session : SessionGrants) (record : GrantRecord) : Outcome String SessionGrants :=
  match h : record.validate with
  | ok () =>
    ok {
      records := session.records.insert (toLex (record.source, record.capability)) record
      valid := by
        intro key r hr
        rw [BTreeMap.get_insert] at hr
        split_ifs at hr with hkey
        · obtain rfl := Option.some.inj hr
          exact ⟨h, hkey⟩
        · exact session.valid key r hr }
  | err message => err message
  | .panic => .panic

def get (session : SessionGrants) (source : GithubSource) (capability : CapabilityId) :
    Option GrantRecord :=
  session.records.get (toLex (source, capability))

end SessionGrants

/-- A persistent store of records, by source and capability. -/
abbrev PersistentGrants : Type := GithubSource → CapabilityId → Option GrantRecord

/-! ## Trust -/

def commandIsInterpreter (command : CommandRule) : Bool :=
  match Path.fileName command.executable with
  | none => true
  | some name =>
    ["sh", "bash", "zsh", "fish", "dash", "env", "python", "python3", "node", "ruby",
      "perl"].contains name

def contextFactIsPublic (fact : String) : Bool :=
  ["application.id", "workspace.id", "monitor.id", "recording.active", "media.playback-status",
    "power.profile", "power.on-battery"].contains fact

def CapabilityScope.risk (scope : CapabilityScope) : CapabilityId → RiskClass
  | .contextReadV1 =>
    match scope with
    | contextRead scope =>
      if scope.facts.toList.all contextFactIsPublic then .limited else .sensitive
    | _ => .sensitive
  | .dbusSubscribeV1 => .sensitive
  | .httpRequestV1 => .connected
  | .filesystemReadV1 => .sensitive
  | .clipboardReadV1 => .sensitive
  | .secretReadV1 => .sensitive
  | .filesystemWriteV1 => .controlling
  | .dbusCallV1 => .controlling
  | .clipboardWriteV1 => .controlling
  | .notificationSendV1 => .controlling
  | .uriOpenV1 => .controlling
  | .appearanceProvideV1 => .controlling
  | .commandRunV1 =>
    match scope with
    | commandRun scope =>
      if scope.commands.toList.any commandIsInterpreter then .effectivelyTrusted else .controlling
    | _ => .controlling
  | .localConnectV1 => .effectivelyTrusted
  | .unknown _ => .effectivelyTrusted

def isSensitiveRead : CapabilityId → Bool
  | .filesystemReadV1 => true
  | .clipboardReadV1 => true
  | .secretReadV1 => true
  | _ => false

def summarizeTrust (runtime : RuntimeKind) (grants : List CapabilityRequest) : TrustSummary :=
  if runtime = .native then
    ⟨.unrestrictedNative, .ofList ["native permission declarations are disclosure only"]⟩
  else
    let class_ := grants.foldl (fun c grant => max c (grant.scope.risk grant.capability)) .isolated
    if grants.any (fun grant => grant.capability = .httpRequestV1) &&
        grants.any (fun grant => isSensitiveRead grant.capability) then
      ⟨max class_ .sensitive,
        .ofList ["network egress can expose data from sensitive read capabilities"]⟩
    else
      ⟨class_, .empty⟩

/-! ## The effective policy -/

structure EffectiveGrant where
  request : CapabilityRequest
  status : CapabilityStatus
  approvedScope : Option CapabilityScope
  bindings : GrantBindings
  fromSession : Bool

def EffectiveGrant.allows (grant : EffectiveGrant) : Bool := grant.status = .granted

structure EffectivePolicy where
  grants : List EffectiveGrant
  blocked : Bool
  trust : TrustSummary

/-- Whether a record may be used for a package: a release that is verified to come from
the same source, or the very artifact that was approved. -/
def provenanceAllows (package : PackageInstance) (record : GrantRecord) : Bool :=
  match record.reuse with
  | .verifiedSameSource => package.provenance = .verifiedRelease
  | .exactDigest => package.digest = record.approvedDigest

def statusForRecord (package : PackageInstance) (request : CapabilityRequest)
    (record : GrantRecord) : CapabilityStatus :=
  if record.decision = .deny then .denied
  else if provenanceAllows package record && request.scope.isSubsetOf record.approvedScope then
    .granted
  else
    .needsConsent

/-- The record that decides about a capability, and whether it is one of the session. -/
def lookupRecord (persistent : PersistentGrants) (session : SessionGrants) (source : GithubSource)
    (capability : CapabilityId) : Option GrantRecord × Bool :=
  match session.get source capability with
  | some record => (some record, true)
  | none => (persistent source capability, false)

/-- The body of the loop of `calculate_effective_policy`. -/
def effectiveGrant (package : PackageInstance) (persistent : PersistentGrants)
    (session : SessionGrants) (registry : CapabilityRegistry) (request : CapabilityRequest) :
    EffectiveGrant :=
  let (record, fromSession) := lookupRecord persistent session package.source request.capability
  let status :=
    if package.runtime = .native then .disclosureOnly
    else if !registry.supports request.capability then .unsupported
    else
      match record with
      | none => .needsConsent
      | some record => statusForRecord package request record
  { request := request
    status := status
    approvedScope := record.map GrantRecord.approvedScope
    bindings := (record.map GrantRecord.bindings).getD .default
    fromSession := fromSession }

def calculateEffectivePolicy (package : PackageInstance) (requests : List CapabilityRequest)
    (persistent : PersistentGrants) (session : SessionGrants) (registry : CapabilityRegistry) :
    EffectivePolicy :=
  let effective := requests.map (effectiveGrant package persistent session registry)
  { grants := effective
    blocked := package.runtime = .component &&
      effective.any fun grant => grant.request.required && !grant.allows
    trust := summarizeTrust package.runtime
      ((effective.filter EffectiveGrant.allows).map EffectiveGrant.request) }

/-! ## When a request is granted -/

variable {package : PackageInstance} {persistent : PersistentGrants} {session : SessionGrants}
  {registry : CapabilityRegistry} {request : CapabilityRequest} {requests : List CapabilityRequest}

lemma statusForRecord_eq_granted {record : GrantRecord} :
    statusForRecord package request record = .granted ↔
      record.decision = .allow ∧ provenanceAllows package record = true ∧
        request.scope.isSubsetOf record.approvedScope = true := by
  rw [statusForRecord]
  cases record.decision <;> simp

/-- A request is granted exactly if a component asks for a supported capability and the
deciding record allows it, may be used for the package and covers the scope. -/
lemma effectiveGrant_status_eq_granted :
    (effectiveGrant package persistent session registry request).status = .granted ↔
      package.runtime = .component ∧ registry.supports request.capability = true ∧
        ∃ record, (lookupRecord persistent session package.source request.capability).1 =
            some record ∧
          record.decision = .allow ∧ provenanceAllows package record = true ∧
          request.scope.isSubsetOf record.approvedScope = true := by
  simp only [effectiveGrant]
  cases hruntime : package.runtime with
  | native => simp
  | component =>
    cases hsupports : registry.supports request.capability with
    | false => simp
    | true =>
      cases hrecord : (lookupRecord persistent session package.source request.capability).1 with
      | none => simp
      | some record => simp [statusForRecord_eq_granted]

lemma forall_grants_iff {P : EffectiveGrant → Prop} :
    (∀ grant ∈ (calculateEffectivePolicy package requests persistent session registry).grants,
      P grant) ↔
    ∀ request ∈ requests, P (effectiveGrant package persistent session registry request) := by
  simp [calculateEffectivePolicy]

/-- A policy that grants every request is not blocked. -/
lemma blocked_eq_false
    (h : ∀ grant ∈ (calculateEffectivePolicy package requests persistent session registry).grants,
      grant.status = .granted) :
    (calculateEffectivePolicy package requests persistent session registry).blocked = false := by
  have hany : (requests.map (effectiveGrant package persistent session registry)).any
      (fun grant => grant.request.required && !grant.allows) = false := by
    rw [List.any_eq_false]
    intro grant hgrant
    simp [EffectiveGrant.allows, h grant hgrant]
  simp [calculateEffectivePolicy, hany]

end TouchBar.Policy
