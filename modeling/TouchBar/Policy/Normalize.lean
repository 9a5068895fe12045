import TouchBar.Lib.Lists
import TouchBar.Policy.Validate

/-!
# Normalization of manifest permissions

The permissions of a manifest are decoded, checked and sorted by capability.  The
TOML library is a parameter: an encoder of scope tables and a decoder for each kind
of scope.  Whatever the library does, the requests that come out are distinct in
their capability and have valid scopes.
-/

namespace TouchBar.Policy

open TouchBar.Rust

/-- A `[[permission]]` table; `τ` is the type of scope tables. -/
structure PermissionRequest (τ : Type) where
  capability : String
  required : Bool
  reason : String
  scope : τ

structure AppearanceProvider where
  id : String
  mounts : List String

/-- The parts of a manifest that normalization reads. -/
structure PluginManifest (τ : Type) where
  permissions : List (PermissionRequest τ)
  appearanceProviders : List AppearanceProvider

/-- What the TOML library does with a scope table: `toml::to_string`, and `try_into` for
each type of scope. -/
structure ScopeCodec (τ : Type) where
  encode : τ → Except String String
  contextRead : τ → Except String ContextReadScope
  filesystemRead : τ → Except String FilesystemReadScope
  filesystemWrite : τ → Except String FilesystemWriteScope
  httpRequest : τ → Except String HttpRequestScope
  dbusCall : τ → Except String DbusCallScope
  dbusSubscribe : τ → Except String DbusSubscribeScope
  commandRun : τ → Except String CommandRunScope
  clipboard : τ → Except String ClipboardScope
  secretRead : τ → Except String SecretReadScope
  notificationSend : τ → Except String NotificationScope
  uriOpen : τ → Except String UriOpenScope
  localConnect : τ → Except String LocalConnectScope
  appearanceProvide : τ → Except String AppearanceProvideScope

/-- `from_str`. -/
def CapabilityId.ofString (value : String) : Except String CapabilityId :=
  match value with
  | "context.read.v1" => .ok contextReadV1
  | "filesystem.read.v1" => .ok filesystemReadV1
  | "filesystem.write.v1" => .ok filesystemWriteV1
  | "http.request.v1" => .ok httpRequestV1
  | "dbus.call.v1" => .ok dbusCallV1
  | "dbus.subscribe.v1" => .ok dbusSubscribeV1
  | "command.run.v1" => .ok commandRunV1
  | "clipboard.read.v1" => .ok clipboardReadV1
  | "clipboard.write.v1" => .ok clipboardWriteV1
  | "secret.read.v1" => .ok secretReadV1
  | "notification.send.v1" => .ok notificationSendV1
  | "uri.open.v1" => .ok uriOpenV1
  | "local.connect.v1" => .ok localConnectV1
  | "appearance.provide.v1" => .ok appearanceProvideV1
  | _ =>
    if validDottedId value then .ok (unknown value)
    else .error "capability must be a lowercase dotted identifier"

variable {τ : Type} (codec : ScopeCodec τ)

/-- `permission[index]` with a field of it. -/
def permissionField (index : ℕ) (name : String) : String :=
  "permission[" ++ toString index ++ "]." ++ name

/-- The decoder that goes with a capability. -/
def decodeScope (capability : CapabilityId) (encoded : String) (table : τ) :
    Except String CapabilityScope :=
  match capability with
  | .contextReadV1 => .contextRead <$> codec.contextRead table
  | .filesystemReadV1 => .filesystemRead <$> codec.filesystemRead table
  | .filesystemWriteV1 => .filesystemWrite <$> codec.filesystemWrite table
  | .httpRequestV1 => .httpRequest <$> codec.httpRequest table
  | .dbusCallV1 => .dbusCall <$> codec.dbusCall table
  | .dbusSubscribeV1 => .dbusSubscribe <$> codec.dbusSubscribe table
  | .commandRunV1 => .commandRun <$> codec.commandRun table
  | .clipboardReadV1 => .clipboard <$> codec.clipboard table
  | .clipboardWriteV1 => .clipboard <$> codec.clipboard table
  | .secretReadV1 => .secretRead <$> codec.secretRead table
  | .notificationSendV1 => .notificationSend <$> codec.notificationSend table
  | .uriOpenV1 => .uriOpen <$> codec.uriOpen table
  | .localConnectV1 => .localConnect <$> codec.localConnect table
  | .appearanceProvideV1 => .appearanceProvide <$> codec.appearanceProvide table
  | .unknown _ => .ok (.unknown encoded)

def normalizePermission (permission : PermissionRequest τ) (index : ℕ) :
    Except (List NormalizationError) CapabilityRequest :=
  let field := permissionField index "scope"
  match codec.encode permission.scope with
  | .error message => .error [⟨field, message⟩]
  | .ok encoded =>
    if 64 * 1024 < Text.len encoded then
      .error [⟨field, "encoded scope exceeds 64 KiB"⟩]
    else
      match CapabilityId.ofString permission.capability with
      | .error message => .error [⟨permissionField index "capability", message⟩]
      | .ok capability =>
        match decodeScope codec capability encoded permission.scope with
        | .error message => .error [⟨field, "invalid " ++ field ++ ": " ++ message⟩]
        | .ok scope =>
          let errors := validateScope capability scope field ++
            (issueIf (1024 < Text.len permission.reason) "reason exceeds 1024 bytes").map
              (fun message => ⟨permissionField index "reason", message⟩)
          if errors.isEmpty then
            .ok ⟨capability, permission.required, Text.trim permission.reason, scope⟩
          else
            .error errors

/-- The first loop: the requests, and the errors of the permissions that were not accepted;
`seen` holds the capabilities so far. -/
def normalizeLoop :
    ℕ → BTreeSet CapabilityId → List (PermissionRequest τ) →
      List CapabilityRequest × List NormalizationError
  | _, _, [] => ([], [])
  | index, seen, permission :: permissions =>
    match normalizePermission codec permission index with
    | .ok request =>
      let rest := normalizeLoop (index + 1) (seen.insert request.capability) permissions
      if seen.contains request.capability then
        (rest.1, ⟨permissionField index "capability", "duplicate capability request"⟩ :: rest.2)
      else
        (request :: rest.1, rest.2)
    | .error errors =>
      let rest := normalizeLoop (index + 1) seen permissions
      (rest.1, errors ++ rest.2)

def appearanceScope (requests : List CapabilityRequest) : Option AppearanceProvideScope :=
  requests.findSome? fun request =>
    match request.scope with
    | .appearanceProvide scope => some scope
    | _ => none

/-- The errors of one appearance provider. -/
def providerErrors (scope : Option AppearanceProvideScope) (provider : AppearanceProvider)
    (index : ℕ) : List NormalizationError :=
  let field := "appearance-provider[" ++ toString index ++ "]"
  (issueIf (!scope.any fun scope => scope.providers.contains provider.id)
      ("provider `" ++ provider.id ++ "` must be listed by appearance.provide.v1")).map
      (fun message => ⟨field ++ ".id", message⟩) ++
    provider.mounts.flatMap fun mount =>
      (issueIf (!scope.any fun scope => scope.mounts.toList.any fun request =>
          request.label = mount)
        ("mount `" ++ mount ++ "` must be listed by appearance.provide.v1")).map
        fun message => ⟨field ++ ".mounts", message⟩

/-- The comparison of an appearance scope with the declared providers. -/
def scopeErrors (scope : AppearanceProvideScope) (providers : List AppearanceProvider) :
    List NormalizationError :=
  (issueIf (scope.providers ≠ BTreeSet.ofList (providers.map AppearanceProvider.id))
      "appearance provider IDs must exactly match declared workers").map
      (fun message => ⟨"permission.scope.providers", message⟩) ++
    (issueIf (BTreeSet.ofList (scope.mounts.toList.map FilesystemMountRequest.label) ≠
        BTreeSet.ofList (providers.flatMap AppearanceProvider.mounts))
      "appearance mounts must exactly match worker mount declarations").map
      fun message => ⟨"permission.scope.mounts", message⟩

def appearanceErrors (providers : List AppearanceProvider) (requests : List CapabilityRequest) :
    List NormalizationError :=
  providers.zipIdx.flatMap
      (fun provider => providerErrors (appearanceScope requests) provider.1 provider.2) ++
    match appearanceScope requests with
    | some scope => scopeErrors scope providers
    | none => []

def normalizeManifestPermissions (manifest : PluginManifest τ) :
    Except (List NormalizationError) (List CapabilityRequest) :=
  if 64 < manifest.permissions.length then
    .error [⟨"permission", "a package may request at most 64 capabilities"⟩]
  else
    let (requests, errors) := normalizeLoop codec 0 .empty manifest.permissions
    let errors :=
      if errors.isEmpty then appearanceErrors manifest.appearanceProviders requests else errors
    if errors.isEmpty then
      .ok (requests.insertionSort fun left right => left.capability ≤ right.capability)
    else
      .error errors

/-! ## What comes out -/

/-- Requests in strictly increasing order of their capabilities, with valid scopes. -/
structure Normalized (requests : List CapabilityRequest) : Prop where
  sorted : requests.Pairwise fun left right => left.capability < right.capability
  valid : ∀ request ∈ requests, scopeIssues request.scope = [] ∧
    request.scope.matchesCapability request.capability = true

variable {codec}

lemma valid_of_normalizePermission {permission : PermissionRequest τ} {index : ℕ}
    {request : CapabilityRequest} (h : normalizePermission codec permission index = .ok request) :
    scopeIssues request.scope = [] ∧
      request.scope.matchesCapability request.capability = true := by
  rw [normalizePermission] at h
  split at h
  · cases h
  split_ifs at h
  split at h
  · cases h
  split at h
  · cases h
  simp only [List.isEmpty_iff] at h
  split_ifs at h with hnil
  obtain rfl := Except.ok.inj h
  simp only [validateScope, List.append_eq_nil_iff, List.map_eq_nil_iff, issueIf_eq_nil,
    Bool.not_eq_false'] at hnil
  exact hnil.1

lemma ne_nil_of_normalizePermission {permission : PermissionRequest τ} {index : ℕ}
    {errors : List NormalizationError}
    (h : normalizePermission codec permission index = .error errors) : errors ≠ [] := by
  rintro rfl
  rw [normalizePermission] at h
  split at h
  · cases h
  split_ifs at h with hlong
  · cases h
  split at h
  · cases h
  split at h
  · cases h
  simp only [List.isEmpty_iff] at h
  split_ifs at h with hnil
  exact hnil (Except.error.inj h)

/-- The loop reports nothing exactly if it keeps a request for every permission. -/
lemma normalizeLoop_eq_iff {permissions : List (PermissionRequest τ)} {index : ℕ}
    {seen : BTreeSet CapabilityId} {requests : List CapabilityRequest} :
    normalizeLoop codec index seen permissions = (requests, []) ↔
      List.Forall₂ (fun p request => normalizePermission codec p.1 p.2 = .ok request)
          (permissions.zipIdx index) requests ∧
        (requests.map CapabilityRequest.capability).Nodup ∧
        ∀ request ∈ requests, request.capability ∉ seen := by
  induction permissions generalizing index seen requests with
  | nil =>
    rw [normalizeLoop, List.zipIdx_nil, List.forall₂_nil_left_iff, Prod.mk.injEq]
    constructor
    · rintro ⟨rfl, -⟩
      simp
    · rintro ⟨rfl, -⟩
      exact ⟨rfl, rfl⟩
  | cons permission permissions ih =>
    rw [normalizeLoop, List.zipIdx_cons, List.forall₂_cons_left_iff]
    cases hp : normalizePermission codec permission index with
    | error errors =>
      refine iff_of_false (fun h => ?_) ?_
      · exact ne_nil_of_normalizePermission hp (List.append_eq_nil_iff.mp (Prod.mk.inj h).2).1
      · rintro ⟨⟨request, rest, hrequest, -⟩, -⟩
        cases hrequest
    | ok request =>
      simp only
      split_ifs with hseen
      · -- a duplicate is reported
        refine iff_of_false (fun h => List.cons_ne_nil _ _ (Prod.mk.inj h).2) ?_
        rintro ⟨⟨request', rest, hrequest, -, rfl⟩, -, hfresh⟩
        cases hrequest
        exact hfresh request List.mem_cons_self (BTreeSet.contains_iff.mp hseen)
      · rw [BTreeSet.contains_iff] at hseen
        constructor
        · intro h
          obtain ⟨rfl, hrest⟩ := Prod.mk.inj h
          obtain ⟨hall, hnodup, hfresh⟩ := ih.mp (Prod.ext rfl hrest)
          simp only [BTreeSet.mem_insert, not_or] at hfresh
          refine ⟨⟨_, _, rfl, hall, rfl⟩, ?_, ?_⟩
          · rw [List.map_cons, List.nodup_cons, List.mem_map]
            refine ⟨?_, hnodup⟩
            rintro ⟨r, hr, heq⟩
            exact (hfresh r hr).1 heq
          · rw [List.forall_mem_cons]
            exact ⟨hseen, fun r hr => (hfresh r hr).2⟩
        · rintro ⟨⟨request', rest, hrequest, hall, rfl⟩, hnodup, hfresh⟩
          cases hrequest
          rw [List.map_cons, List.nodup_cons, List.mem_map] at hnodup
          rw [List.forall_mem_cons] at hfresh
          have hrest := (@ih (index + 1) (seen.insert request.capability) rest).mpr
            ⟨hall, hnodup.2, fun r hr hmem => ?_⟩
          · rw [hrest]
          · rcases BTreeSet.mem_insert.mp hmem with heq | hmem
            · exact hnodup.1 ⟨r, hr, heq⟩
            · exact hfresh.2 r hr hmem

/-- The appearance scope lists the providers and the mounts that are declared. -/
def AppearanceMatches (providers : List AppearanceProvider) :
    Option AppearanceProvideScope → Prop
  | some scope =>
    scope.providers = .ofList (providers.map AppearanceProvider.id) ∧
      BTreeSet.ofList (scope.mounts.toList.map FilesystemMountRequest.label) =
        .ofList (providers.flatMap AppearanceProvider.mounts)
  | none => providers = []

/-- Where the sets agree, each provider is listed too. -/
lemma appearanceErrors_eq_nil {providers : List AppearanceProvider}
    {requests : List CapabilityRequest} :
    appearanceErrors providers requests = [] ↔
      AppearanceMatches providers (appearanceScope requests) := by
  rw [appearanceErrors]
  cases appearanceScope requests with
  | none =>
    cases providers with
    | nil => exact iff_of_true rfl rfl
    | cons provider providers =>
      refine iff_of_false ?_ (List.cons_ne_nil _ _)
      simp [providerErrors, issueIf, List.zipIdx_cons]
  | some scope =>
    simp only [scopeErrors, List.append_eq_nil_iff, List.map_eq_nil_iff, issueIf_eq_nil,
      decide_eq_false_iff_not, not_not, AppearanceMatches, and_iff_right_iff_imp,
      List.flatMap_eq_nil_iff, Prod.forall]
    rintro ⟨hproviders, hmounts⟩ provider index hmem
    have hprovider : provider ∈ providers := List.fst_mem_of_mem_zipIdx hmem
    have hid : provider.id ∈ scope.providers := by
      rw [hproviders, BTreeSet.mem_ofList]
      exact List.mem_map_of_mem hprovider
    simp only [providerErrors, List.append_eq_nil_iff, List.map_eq_nil_iff, issueIf_eq_nil,
      List.flatMap_eq_nil_iff, Option.any_some, Bool.not_eq_false', BTreeSet.contains_iff]
    refine ⟨hid, fun mount hmount => ?_⟩
    have hlabel : mount ∈ BTreeSet.ofList
        (scope.mounts.toList.map FilesystemMountRequest.label) := by
      rw [hmounts, BTreeSet.mem_ofList]
      exact List.mem_flatMap.mpr ⟨provider, hprovider, hmount⟩
    rw [BTreeSet.mem_ofList, List.mem_map] at hlabel
    obtain ⟨request, hrequest, hlabel⟩ := hlabel
    exact List.any_eq_true.mpr ⟨request, hrequest, decide_eq_true hlabel⟩

lemma normalize_eq_ok {manifest : PluginManifest τ} {requests : List CapabilityRequest} :
    normalizeManifestPermissions codec manifest = .ok requests ↔
      manifest.permissions.length ≤ 64 ∧ ∃ found,
        List.Forall₂ (fun p request => normalizePermission codec p.1 p.2 = .ok request)
          manifest.permissions.zipIdx found ∧
        (found.map CapabilityRequest.capability).Nodup ∧
        AppearanceMatches manifest.appearanceProviders (appearanceScope found) ∧
        found.insertionSort (fun left right => left.capability ≤ right.capability) =
          requests := by
  rw [normalizeManifestPermissions]
  split_ifs with hmany
  · exact iff_of_false (fun h => by cases h) fun h => absurd h.1 (not_le.mpr hmany)
  · rw [and_iff_right (not_lt.mp hmany)]
    have hloop := fun found => @normalizeLoop_eq_iff τ codec manifest.permissions 0 .empty found
    rcases hvalue : normalizeLoop codec 0 .empty manifest.permissions with ⟨found, errors⟩
    simp only [hvalue, Prod.mk.injEq] at hloop
    simp only [List.isEmpty_iff]
    constructor
    · intro h
      split_ifs at h with hnone happearance
      · obtain ⟨hall, hnodup, -⟩ := (hloop found).mp ⟨rfl, hnone⟩
        exact ⟨found, hall, hnodup, appearanceErrors_eq_nil.mp happearance, Except.ok.inj h⟩
    · rintro ⟨found', hall, hnodup, happearance, rfl⟩
      obtain ⟨rfl, hnone⟩ := (hloop found').mpr ⟨hall, hnodup, fun _ _ => BTreeSet.notMem_empty⟩
      rw [if_pos hnone, if_pos (appearanceErrors_eq_nil.mpr happearance)]

/-- The requests of a manifest are normalized. -/
theorem normalized_of_normalize {manifest : PluginManifest τ} {requests : List CapabilityRequest}
    (h : normalizeManifestPermissions codec manifest = .ok requests) : Normalized requests := by
  obtain ⟨-, found, hall, hnodup, -, rfl⟩ := normalize_eq_ok.mp h
  refine ⟨Lib.pairwise_lt_insertionSort hnodup, fun request hrequest => ?_⟩
  obtain ⟨p, -, hp⟩ := Lib.forall₂_exists_left hall ((List.mem_insertionSort _).mp hrequest)
  exact valid_of_normalizePermission hp

/-- A manifest is accepted exactly if it has at most 64 permissions, each is accepted by
itself, and the appearance scope fits the declared workers; the requests that come out are
those of the permissions, in strictly increasing order of their capabilities, and valid. -/
theorem normalize_iff (codec : ScopeCodec τ) (manifest : PluginManifest τ)
    (requests : List CapabilityRequest) :
    normalizeManifestPermissions codec manifest = .ok requests ↔
      manifest.permissions.length ≤ 64 ∧ Normalized requests ∧ ∃ found,
        List.Forall₂ (fun p request => normalizePermission codec p.1 p.2 = .ok request)
          manifest.permissions.zipIdx found ∧
        AppearanceMatches manifest.appearanceProviders (appearanceScope found) ∧
        found.Perm requests := by
  constructor
  · intro h
    obtain ⟨hlength, found, hall, -, happearance, rfl⟩ := normalize_eq_ok.mp h
    exact ⟨hlength, normalized_of_normalize h, found, hall, happearance,
      (List.perm_insertionSort _ _).symm⟩
  · rintro ⟨hlength, hnormalized, found, hall, happearance, hperm⟩
    have hnodup : (found.map CapabilityRequest.capability).Nodup := by
      rw [(hperm.map _).nodup_iff]
      exact (List.pairwise_map.mpr hnormalized.sorted).imp ne_of_lt
    refine normalize_eq_ok.mpr ⟨hlength, found, hall, hnodup, happearance, ?_⟩
    -- there is one order in which the capabilities increase
    refine List.Perm.eq_of_pairwise (fun _ _ _ _ h h' => absurd h' (lt_asymm h))
      (Lib.pairwise_lt_insertionSort hnodup) hnormalized.sorted ?_
    exact (List.perm_insertionSort _ _).trans hperm

end TouchBar.Policy
