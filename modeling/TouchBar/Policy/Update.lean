import TouchBar.Policy.Grant
import TouchBar.Policy.Normalize

/-!
# Updates of a package

`diff_permissions` compares the requests of two versions of a package and says
which changes need consent.  The policy that is calculated for the new version
agrees with it: if nothing needs consent, what was granted stays granted, as far as
the records may be used for the new artifact; and every request that is new or
reaches further needs consent.
-/

namespace TouchBar.Policy

open TouchBar.Rust

/-! ## The difference of two versions -/

inductive PermissionChangeKind where
  | added
  | removed
  | expanded
  | narrowed
  | requirementChanged
  | unchanged
deriving DecidableEq, Repr

structure PermissionChange where
  capability : CapabilityId
  kind : PermissionChangeKind
  old : Option CapabilityRequest
  new : Option CapabilityRequest
deriving DecidableEq

def PermissionChangeKind.requiresConsent : PermissionChangeKind → Bool
  | added => true
  | expanded => true
  | _ => false

def PermissionChange.requiresConsent (change : PermissionChange) : Bool :=
  change.kind.requiresConsent

/-- The kind of a change; the missing case is unreachable. -/
def changeKind : Option CapabilityRequest → Option CapabilityRequest → Option PermissionChangeKind
  | none, some _ => some .added
  | some _, none => some .removed
  | some old, some new =>
    if !new.scope.isSubsetOf old.scope then some .expanded
    else if !old.scope.isSubsetOf new.scope then some .narrowed
    else if old.required ≠ new.required then some .requirementChanged
    else some .unchanged
  | none, none => none

def byCapability (requests : List CapabilityRequest) : BTreeMap CapabilityId CapabilityRequest :=
  .ofList (requests.map fun request => (request.capability, request))

/-- The changes of some capabilities; `none` is a panic. -/
def diffLoop (old new : BTreeMap CapabilityId CapabilityRequest) :
    List CapabilityId → Option (List PermissionChange)
  | [] => some []
  | capability :: capabilities => do
    let kind ← changeKind (old.get capability) (new.get capability)
    let changes ← diffLoop old new capabilities
    return ⟨capability, kind, old.get capability, new.get capability⟩ :: changes

def diffPermissions (old new : List CapabilityRequest) : Option (List PermissionChange) :=
  let old := byCapability old
  let new := byCapability new
  diffLoop old new (BTreeSet.ofList (old.keys ++ new.keys)).toList

/-! ## What the difference says -/

variable {old new : List CapabilityRequest} {request : CapabilityRequest}

lemma get_byCapability {requests : List CapabilityRequest} (h : Normalized requests)
    {capability : CapabilityId} :
    (byCapability requests).get capability = some request ↔
      request ∈ requests ∧ request.capability = capability := by
  have hnodup : ((requests.map fun r => (r.capability, r)).map Prod.fst).Nodup := by
    rw [List.map_map]
    exact (List.pairwise_map.mpr h.sorted).imp ne_of_lt
  rw [byCapability, BTreeMap.get_ofList hnodup, List.mem_map]
  constructor
  · rintro ⟨r, hr, heq⟩
    obtain ⟨rfl, rfl⟩ := Prod.mk.inj heq
    exact ⟨hr, rfl⟩
  · rintro ⟨hr, rfl⟩
    exact ⟨request, hr, rfl⟩

/-- A capability that one of the versions requests has a kind of change. -/
lemma exists_changeKind {o n : Option CapabilityRequest} (h : o.isSome ∨ n.isSome) :
    ∃ kind, changeKind o n = some kind := by
  cases o <;> cases n
  · simp at h
  · exact ⟨_, rfl⟩
  · exact ⟨_, rfl⟩
  · simp only [changeKind]
    split_ifs <;> exact ⟨_, rfl⟩

/-- The loop ends if every capability is on one side, with one change for each. -/
lemma diffLoop_eq_some {oldMap newMap : BTreeMap CapabilityId CapabilityRequest}
    {capabilities : List CapabilityId}
    (h : ∀ c ∈ capabilities, (oldMap.get c).isSome ∨ (newMap.get c).isSome) :
    ∃ changes, diffLoop oldMap newMap capabilities = some changes ∧
      ∀ change, change ∈ changes ↔ change.capability ∈ capabilities ∧
        changeKind change.old change.new = some change.kind ∧
        change.old = oldMap.get change.capability ∧
        change.new = newMap.get change.capability := by
  induction capabilities with
  | nil => exact ⟨[], rfl, by simp⟩
  | cons capability capabilities ih =>
    obtain ⟨changes, hloop, hmem⟩ := ih fun c hc => h c (List.mem_cons_of_mem _ hc)
    obtain ⟨kind, hkind⟩ := exists_changeKind (h capability List.mem_cons_self)
    refine ⟨⟨capability, kind, oldMap.get capability, newMap.get capability⟩ :: changes, ?_, ?_⟩
    · simp only [diffLoop, hkind, hloop, Option.bind_eq_bind, Option.bind_some, Option.pure_def]
    · intro change
      rw [List.mem_cons, hmem, List.mem_cons]
      constructor
      · rintro (rfl | ⟨hc, hrest⟩)
        · exact ⟨.inl rfl, hkind, rfl, rfl⟩
        · exact ⟨.inr hc, hrest⟩
      · rintro ⟨rfl | hc, hk, ho, hn⟩
        · -- both sides and the kind are determined by the capability
          left
          obtain ⟨c, k, o, n⟩ := change
          obtain rfl : o = oldMap.get c := ho
          obtain rfl : n = newMap.get c := hn
          obtain rfl : kind = k := Option.some.inj (hkind.symm.trans hk)
          rfl
        · exact .inr ⟨hc, hk, ho, hn⟩

/-- An optional value is a lookup exactly if it holds the same requests. -/
lemma eq_get_byCapability {requests : List CapabilityRequest} (h : Normalized requests)
    {capability : CapabilityId} {o : Option CapabilityRequest} :
    o = (byCapability requests).get capability ↔
      ∀ r, o = some r ↔ r ∈ requests ∧ r.capability = capability := by
  constructor
  · rintro rfl r
    exact get_byCapability h
  · intro ho
    ext r
    rw [ho, get_byCapability h]

lemma mem_keys_iff_isSome {requests : List CapabilityRequest} {capability : CapabilityId} :
    capability ∈ (byCapability requests).keys ↔
      ((byCapability requests).get capability).isSome = true := by
  rw [BTreeMap.mem_keys_iff, Option.isSome_iff_exists]

/-- One change for each capability on either side, of the kind that the two requests for it
call for. -/
def IsDifference (old new : List CapabilityRequest) (changes : List PermissionChange) : Prop :=
  ∀ change, change ∈ changes ↔
    (change.old.isSome ∨ change.new.isSome) ∧
    changeKind change.old change.new = some change.kind ∧
    (∀ r, change.old = some r ↔ r ∈ old ∧ r.capability = change.capability) ∧
    ∀ r, change.new = some r ↔ r ∈ new ∧ r.capability = change.capability

lemma diffPermissions_eq_some (hold : Normalized old) (hnew : Normalized new) :
    ∃ changes, diffPermissions old new = some changes ∧ IsDifference old new changes := by
  have hcaps : ∀ c, c ∈ (BTreeSet.ofList
      ((byCapability old).keys ++ (byCapability new).keys)).toList ↔
      ((byCapability old).get c).isSome ∨ ((byCapability new).get c).isSome := fun c => by
    rw [← BTreeSet.mem_def, BTreeSet.mem_ofList, List.mem_append, mem_keys_iff_isSome,
      mem_keys_iff_isSome]
  obtain ⟨changes, hloop, hmem⟩ := diffLoop_eq_some fun c hc => (hcaps c).mp hc
  refine ⟨changes, hloop, fun change => ?_⟩
  rw [hmem, hcaps, ← eq_get_byCapability hold, ← eq_get_byCapability hnew]
  constructor
  · rintro ⟨hside, hkind, ho, hn⟩
    exact ⟨ho ▸ hn ▸ hside, hkind, ho, hn⟩
  · rintro ⟨hside, hkind, ho, hn⟩
    exact ⟨ho ▸ hn ▸ hside, hkind, ho, hn⟩

/-- A change needs consent exactly if the new request stands alone or reaches further than
the old one. -/
lemma requiresConsent_of_changeKind {o n : Option CapabilityRequest} {kind : PermissionChangeKind}
    (h : changeKind o n = some kind) :
    kind.requiresConsent = true ↔ ∃ r, n = some r ∧
      ∀ r', o = some r' → r.scope.isSubsetOf r'.scope = false := by
  cases o with
  | none =>
    cases n with
    | none => cases h
    | some r =>
      obtain rfl := Option.some.inj h
      simp [PermissionChangeKind.requiresConsent]
  | some r' =>
    cases n with
    | none =>
      obtain rfl := Option.some.inj h
      simp [PermissionChangeKind.requiresConsent]
    | some r =>
      simp only [changeKind] at h
      cases hsub : r.scope.isSubsetOf r'.scope with
      | false =>
        simp only [hsub, Bool.not_false, if_true, Option.some.injEq] at h
        obtain rfl := h
        simp [PermissionChangeKind.requiresConsent, hsub]
      | true =>
        simp only [hsub, Bool.not_true, Bool.false_eq_true, if_false] at h
        split_ifs at h <;> obtain rfl := Option.some.inj h <;>
          simp [PermissionChangeKind.requiresConsent, hsub]

/-! ## The main result -/

/-- A request that the old version did not have, or that reaches further than the old one. -/
def NewOrWidened (old : List CapabilityRequest) (request : CapabilityRequest) : Prop :=
  ∀ r ∈ old, r.capability = request.capability → request.scope.isSubsetOf r.scope = false

/-- The changes that need consent are those of the requests that are new or widened. -/
lemma exists_consent_iff {changes : List PermissionChange}
    (hmem : IsDifference old new changes) (hold : Normalized old) (hnew : Normalized new)
    (hr : request ∈ new) :
    (∃ change ∈ changes, change.new = some request ∧ change.requiresConsent = true) ↔
      NewOrWidened old request := by
  constructor
  · rintro ⟨change, hchange, hn, hconsent⟩
    obtain ⟨-, hkind, ho, hn'⟩ := (hmem change).mp hchange
    obtain ⟨r, hr', hwide⟩ := (requiresConsent_of_changeKind hkind).mp hconsent
    obtain rfl : request = r := Option.some.inj (hn.symm.trans hr')
    obtain ⟨-, hcap⟩ := (hn' request).mp hn
    intro r' hr' hcap'
    exact hwide r' ((ho r').mpr ⟨hr', hcap'.trans hcap⟩)
  · intro hwide
    have hget : (byCapability new).get request.capability = some request :=
      (get_byCapability hnew).mpr ⟨hr, rfl⟩
    obtain ⟨kind, hkind⟩ := @exists_changeKind ((byCapability old).get request.capability)
      (some request) (.inr rfl)
    refine ⟨⟨request.capability, kind, (byCapability old).get request.capability, some request⟩,
      (hmem _).mpr ⟨.inr rfl, hkind, fun r => get_byCapability hold, fun r => ?_⟩, rfl, ?_⟩
    · rw [← get_byCapability hnew, hget]
    · refine (requiresConsent_of_changeKind hkind).mpr ⟨request, rfl, fun r' hr' => ?_⟩
      obtain ⟨hmem', hcap⟩ := (get_byCapability hold).mp hr'
      exact hwide r' hmem' hcap

section Policy

variable {oldPackage newPackage : PackageInstance} {persistent : PersistentGrants}
  {session : SessionGrants} {registry : CapabilityRegistry}

/-- Whether a record may be used for an artifact that is a verified release. -/
def Reusable (package : PackageInstance) (record : GrantRecord) : Prop :=
  record.reuse = .verifiedSameSource ∨ record.approvedDigest = package.digest

lemma provenanceAllows_iff {record : GrantRecord}
    (hverified : newPackage.provenance = .verifiedRelease) :
    provenanceAllows newPackage record = true ↔ Reusable newPackage record := by
  rw [provenanceAllows, Reusable]
  cases record.reuse <;> simp [hverified, eq_comm]

/-- An update from the same source to a verified release.  If all old requests are granted
and no change needs consent, the new requests are granted exactly if the new version is a
component and their records may be used for its artifact, and then the policy is not
blocked.  And the changes that need consent are those of the requests that are new or
widened. -/
theorem diff_agrees_with_policy (hold : Normalized old) (hnew : Normalized new)
    (hsource : newPackage.source = oldPackage.source)
    (hverified : newPackage.provenance = .verifiedRelease) :
    ∃ changes, diffPermissions old new = some changes ∧
      ((∀ grant ∈ (calculateEffectivePolicy oldPackage old persistent session registry).grants,
          grant.status = .granted) →
        (∀ change ∈ changes, change.requiresConsent = false) →
        ((∀ grant ∈ (calculateEffectivePolicy newPackage new persistent session registry).grants,
            grant.status = .granted) ↔
          ∀ request ∈ new, newPackage.runtime = .component ∧ ∀ record,
            (lookupRecord persistent session newPackage.source request.capability).1 =
              some record → Reusable newPackage record) ∧
        ((∀ request ∈ new, newPackage.runtime = .component ∧ ∀ record,
            (lookupRecord persistent session newPackage.source request.capability).1 =
              some record → Reusable newPackage record) →
          (calculateEffectivePolicy newPackage new persistent session registry).blocked =
            false)) ∧
      ∀ request ∈ new,
        (∃ change ∈ changes, change.new = some request ∧ change.requiresConsent = true) ↔
          NewOrWidened old request := by
  obtain ⟨changes, hdiff, hmem⟩ := diffPermissions_eq_some hold hnew
  refine ⟨changes, hdiff, fun hgranted hconsent => ?_,
    fun request hr => exists_consent_iff hmem hold hnew hr⟩
  -- every new request lies within a granted old one, hence within the approved scope
  have hcovered : ∀ request ∈ new, registry.supports request.capability = true ∧
      ∃ record, (lookupRecord persistent session newPackage.source request.capability).1 =
          some record ∧ record.decision = .allow ∧
        request.scope.isSubsetOf record.approvedScope = true := by
    intro request hr
    have hnot : ¬NewOrWidened old request := fun hwide => by
      obtain ⟨change, hchange, -, hc⟩ := (exists_consent_iff hmem hold hnew hr).mpr hwide
      rw [hconsent change hchange] at hc
      cases hc
    simp only [NewOrWidened, not_forall, Bool.not_eq_false] at hnot
    obtain ⟨r, hrold, hcap, hsub⟩ := hnot
    obtain ⟨-, hsupports, record, hrecord, hallow, -, hsub'⟩ :=
      effectiveGrant_status_eq_granted.mp (forall_grants_iff.mp hgranted r hrold)
    rw [hcap] at hsupports hrecord
    exact ⟨hsupports, record, hsource ▸ hrecord, hallow, isSubsetOf_trans hsub hsub'⟩
  -- what remains of the status is whether the record may be reused
  have hiff : (∀ grant ∈ (calculateEffectivePolicy newPackage new persistent session
      registry).grants, grant.status = .granted) ↔
      ∀ request ∈ new, newPackage.runtime = .component ∧ ∀ record,
        (lookupRecord persistent session newPackage.source request.capability).1 = some record →
          Reusable newPackage record := by
    rw [forall_grants_iff]
    refine forall₂_congr fun request hr => ?_
    obtain ⟨hsupports, record, hrecord, hallow, hsub⟩ := hcovered request hr
    simp only [effectiveGrant_status_eq_granted, hsupports, hrecord, hallow, hsub,
      Option.some.injEq, exists_eq_left', forall_eq', true_and, and_true,
      provenanceAllows_iff hverified]
  exact ⟨hiff, fun hreusable => blocked_eq_false (hiff.mpr hreusable)⟩

end Policy

/-! ## Updates without a change that needs consent -/

def mediaSource : GithubSource := ⟨"alice", "touchbar-media"⟩

/-- A verified release. -/
def mediaRelease (digest : Char) (runtime : RuntimeKind) : PackageInstance :=
  ⟨mediaSource, "sha256:" ++ .ofList (List.replicate 64 digest), .verifiedRelease, runtime⟩

def tokenRequest (required : Bool) : CapabilityRequest :=
  ⟨.secretReadV1, required, "", .secretRead ⟨.ofList ["token"]⟩⟩

/-- A permission to read the token that holds for the release `a` or for all of them. -/
def tokenRecord (reuse : ReusePolicy) : GrantRecord :=
  ⟨mediaSource, .secretReadV1, .secretRead ⟨.ofList ["token"]⟩,
    ⟨.empty, .ofList [("token", .secretServiceItem "/token")], .empty, none⟩, .allow, reuse,
    "sha256:" ++ .ofList (List.replicate 64 'a')⟩

/-- The store that holds one record. -/
def storeOf (record : GrantRecord) : PersistentGrants := fun source capability =>
  if source = record.source ∧ capability = record.capability then some record else none

lemma normalized_tokenRequest (required : Bool) : Normalized [tokenRequest required] where
  sorted := List.pairwise_singleton _ _
  valid := by
    cases required <;> decide

/-- In none of these updates a change needs consent.  A record for one artifact is not used
for the next release; a native release has no granted requests; and a request that was
optional and never granted becomes required. -/
theorem policy_without_consent_change :
    ((tokenRecord .exactDigest).validate = .ok () ∧
      (∀ grant ∈ (calculateEffectivePolicy (mediaRelease 'a' .component) [tokenRequest true]
        (storeOf (tokenRecord .exactDigest)) .default .v1).grants, grant.status = .granted) ∧
      (∃ changes, diffPermissions [tokenRequest true] [tokenRequest true] = some changes ∧
        ∀ change ∈ changes, change.requiresConsent = false) ∧
      (calculateEffectivePolicy (mediaRelease 'b' .component) [tokenRequest true]
        (storeOf (tokenRecord .exactDigest)) .default .v1).blocked = true) ∧
    (calculateEffectivePolicy (mediaRelease 'b' .native) [tokenRequest true]
      (storeOf (tokenRecord .verifiedSameSource)) .default .v1).grants.map
        EffectiveGrant.status = [.disclosureOnly] ∧
    ((calculateEffectivePolicy (mediaRelease 'b' .component) [tokenRequest true]
        (fun _ _ => none) .default .v1).grants.map EffectiveGrant.status = [.needsConsent] ∧
      ∃ changes, diffPermissions [tokenRequest false] [tokenRequest true] = some changes ∧
        ∀ change ∈ changes, change.requiresConsent = false) := by
  refine ⟨⟨by decide, by decide, ⟨_, rfl, by decide⟩, by decide⟩,
    by decide, by decide, ⟨_, rfl, by decide⟩⟩

/-- A record for all verified releases stays in use. -/
theorem diff_agrees_with_policy_tokenRecord :
    (calculateEffectivePolicy (mediaRelease 'b' .component) [tokenRequest true]
      (storeOf (tokenRecord .verifiedSameSource)) .default .v1).blocked = false := by
  obtain ⟨changes, hdiff, hpolicy, -⟩ :=
    @diff_agrees_with_policy [tokenRequest false] [tokenRequest true] (mediaRelease 'a' .component)
      (mediaRelease 'b' .component) (storeOf (tokenRecord .verifiedSameSource)) .default .v1
      (normalized_tokenRequest false) (normalized_tokenRequest true) rfl rfl
  have hconsent : ∀ change ∈ changes, change.requiresConsent = false := by
    have heval : (diffPermissions [tokenRequest false] [tokenRequest true]).all (fun changes =>
        changes.all fun change => !change.requiresConsent) = true := by decide
    simpa [hdiff] using heval
  refine (hpolicy (by decide) hconsent).2 fun request hr =>
    ⟨rfl, fun record hrecord => .inl ?_⟩
  obtain rfl := List.mem_singleton.mp hr
  have hstored : (lookupRecord (storeOf (tokenRecord .verifiedSameSource)) .default
      (mediaRelease 'b' .component).source (tokenRequest true).capability).1 =
        some (tokenRecord .verifiedSameSource) := by decide
  obtain rfl := Option.some.inj (hstored.symm.trans hrecord)
  rfl

end TouchBar.Policy
