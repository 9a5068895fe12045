import TouchBar.Config.Accepting
import TouchBar.Packages.Manifest

/-!
# Merging the installed packages

`PluginManifest::validate` limits what one package declares, and `ProfileDocument::validate`
limits the whole document that the packages are merged into.  This module says what the
packages of an installation ask of the document (`Fits`), and establishes about what they
contribute whatever does not depend on the other packages: the identifiers that `merge`
makes up are distinct and valid, and so are the items and the predicates.
-/

namespace TouchBar.Session

open TouchBar.Rust TouchBar.Config Outcome
open TouchBar.Packages (PluginManifest LabeledProfile ItemContribution KebabId AcceptedProfile
  validateSource validIdentity)

/-! ## Installed packages -/

/-- A package that the daemon launches, which `inspect_package` has validated. -/
structure InstalledPackage where
  source : GithubSource
  source_valid : validateSource source = ok ()
  manifest : PluginManifest
  manifest_valid : manifest.validate = ok ()
  enabledItems : BTreeSet String
  enabledProfiles : BTreeSet String

/-- The installed packages, which the store keeps under their sources. -/
structure Installation where
  packages : List InstalledPackage
  distinct : (packages.map InstalledPackage.source).Nodup

namespace PackagedProfileCatalog

/-- `default`. -/
def empty : PackagedProfileCatalog := ⟨[], [], false⟩

def addManifest (catalog : PackagedProfileCatalog) (source : GithubSource)
    (manifest : PluginManifest) (enabledItems enabledProfiles : BTreeSet String) :
    PackagedProfileCatalog where
  enabledItems := catalog.enabledItems ++
    (manifest.items.filter fun item =>
      item.showInDefaultProfile && enabledItems.contains item.id).map
        fun item => ⟨source.display, item.id, false⟩
  profiles := catalog.profiles ++
    ((manifest.profiles.map LabeledProfile.definition).filter fun profile =>
      enabledProfiles.contains profile.id && profile.items.all enabledItems.contains).map
        fun definition => ⟨source, definition⟩
  managesDefaultVisibility := catalog.managesDefaultVisibility ||
    (!manifest.profiles.isEmpty || manifest.items.any fun item =>
      enabledItems.contains item.id && !item.showInDefaultProfile)

end PackagedProfileCatalog

/-- The loop of `desired_state` over the installed packages. -/
def Installation.catalog (installation : Installation) : PackagedProfileCatalog :=
  installation.packages.foldl (fun catalog package =>
    catalog.addManifest package.source package.manifest package.enabledItems
      package.enabledProfiles) .empty

/-! ## What has to fit -/

namespace InstalledPackage

variable (package : InstalledPackage)

/-- The enabled items that the default profile shows. -/
def defaultItems : List String :=
  (package.manifest.items.filter fun item =>
    item.showInDefaultProfile && package.enabledItems.contains item.id).map ItemContribution.id

/-- The enabled profiles of which all items are enabled. -/
def keptProfiles : List AutomaticProfile :=
  (package.manifest.profiles.map LabeledProfile.definition).filter fun profile =>
    package.enabledProfiles.contains profile.id &&
      profile.items.all package.enabledItems.contains

/-- The package declares a profile, or an enabled item that the default profile leaves out. -/
def managesVisibility : Bool :=
  !package.manifest.profiles.isEmpty || package.manifest.items.any fun item =>
    package.enabledItems.contains item.id && !item.showInDefaultProfile

end InstalledPackage

/-- The nodes of a predicate for a number of identities: one alone, or one more for `any`. -/
def identityNodes (count : ℕ) : ℕ := if count ≤ 1 then count else count + 1

/-- The nodes in the rules of a packaged profile. -/
def PackagedProfile.ruleNodes (packaged : PackagedProfile) : ℕ :=
  identityNodes packaged.definition.activities.length +
    identityNodes packaged.definition.applications.length

namespace Installation

variable (installation : Installation)

def defaultItems : List (GithubSource × String) :=
  installation.packages.flatMap fun package =>
    package.defaultItems.map fun item => (package.source, item)

def keptProfiles : List PackagedProfile :=
  installation.packages.flatMap fun package =>
    package.keptProfiles.map fun definition => ⟨package.source, definition⟩

/-- The items that the default profile or a kept profile shows. -/
def usedItems : List (GithubSource × String) :=
  installation.defaultItems ++ installation.keptProfiles.flatMap fun packaged =>
    packaged.definition.items.map fun item => (packaged.source, item)

/-- The nodes of all predicates of the document: one for each contribution, and the rules. -/
def predicateNodes : ℕ :=
  (if installation.defaultItems.isEmpty then 0 else 1) + installation.keptProfiles.length +
    (installation.keptProfiles.map PackagedProfile.ruleNodes).sum

/-- The packages leave the default bar as it is without them. -/
def Plain : Prop :=
  installation.keptProfiles = [] ∧
    ∀ package ∈ installation.packages, package.managesVisibility = false

/-- There is nothing to merge, or the default profile, the kept profiles, their items and their
predicates stay within the limits of one document. -/
def Fits : Prop :=
  installation.Plain ∨
    installation.keptProfiles.length + 1 ≤ maxProfiles ∧
      installation.usedItems.toFinset.card ≤ maxItems ∧
      installation.predicateNodes ≤ maxPredicateNodes

end Installation

/-! ## Identifiers -/

lemma isIdChar_of_owner {c : Char} (h : (c.isLower || c.isDigit || c == '-') = true) :
    isIdChar c = true := by
  rw [Bool.or_eq_true, beq_iff_eq] at h
  rcases h with h | rfl
  · rw [isIdChar, isIdStart, h]
    rfl
  · rfl

lemma isIdChar_of_repository {c : Char}
    (h : (c.isLower || c.isDigit || c == '-' || c == '_' || c == '.') = true) :
    isIdChar c = true := by
  simp only [Bool.or_eq_true, beq_iff_eq] at h
  rcases h with (((h | h) | rfl) | rfl) | rfl
  · simp [isIdChar, isIdStart, h]
  · simp [isIdChar, isIdStart, h]
  · rfl
  · rfl
  · rfl

/-- What the names of a valid source consist of. -/
structure SourceNames (source : GithubSource) : Prop where
  owner_len : Text.len source.owner ≤ 39
  owner_chars : Text.all source.owner (fun c => c.isLower || c.isDigit || c == '-') = true
  repository_len : Text.len source.repository ≤ 100
  repository_chars : Text.all source.repository
    (fun c => c.isLower || c.isDigit || c == '-' || c == '_' || c == '.') = true

lemma sourceNames {source : GithubSource} (h : validateSource source = ok ()) :
    SourceNames source := by
  rw [validateSource] at h
  split_ifs at h with howner hrepository
  simp only [Packages.validGithubOwner, Packages.validGithubRepository, Bool.not_eq_true',
    Bool.not_eq_false, Bool.and_eq_true, decide_eq_true_eq] at howner hrepository
  obtain ⟨⟨⟨⟨⟨-, hlen⟩, -⟩, -⟩, -⟩, hchars⟩ := howner
  obtain ⟨⟨⟨⟨⟨-, hlen'⟩, -⟩, -⟩, -⟩, hchars'⟩ := hrepository
  exact ⟨hlen, hchars, hlen', hchars'⟩

lemma validateId_kebab {value : String} (h : KebabId value) (label : String) :
    validateId label value = ok () := by
  have hlen : Text.len value ≤ 64 := h.short
  refine validateId_eq_ok ?_ (hlen.trans (by decide)) ?_ label
  · exact Text.headIs_mono h.head fun c hc => by rw [isIdStart, hc]; rfl
  · exact Text.all_mono h.chars fun c => isIdChar_of_owner

section Packaged

variable {source source' : GithubSource} {localId localId' : String}

/-- The lengths in the identifier tell its parts. -/
theorem packagedDefinitionId_inj
    (h : packagedDefinitionId source localId = packagedDefinitionId source' localId') :
    source = source' ∧ localId = localId' := by
  simp only [packagedDefinitionId, String.append_assoc] at h
  have h := (Text.append_inj_of_len h rfl).2
  obtain ⟨howner, h⟩ := Text.lengthPrefixed_inj h
  have h := (Text.append_inj_of_len h rfl).2
  obtain ⟨hrepository, h⟩ := Text.lengthPrefixed_inj h
  have hlocal := (Text.append_inj_of_len h rfl).2
  obtain ⟨owner, repository⟩ := source
  obtain ⟨owner', repository'⟩ := source'
  obtain rfl : owner = owner' := howner
  obtain rfl : repository = repository' := hrepository
  exact ⟨rfl, hlocal⟩

lemma len_packagedDefinitionId (hsource : SourceNames source)
    (hlocal : Text.len localId ≤ 64) :
    Text.len (packagedDefinitionId source localId) ≤ 220 := by
  have howner := hsource.owner_len
  have hrepository := hsource.repository_len
  have hdigits : Text.len (toString (Text.len source.owner)) ≤ 2 :=
    Text.len_toString_le (by decide) (by omega)
  have hdigits' : Text.len (toString (Text.len source.repository)) ≤ 3 :=
    Text.len_toString_le (by decide) (by omega)
  have hstart : Text.len "package." = 8 := by decide
  have hdot : Text.len "." = 1 := by decide
  simp only [packagedDefinitionId, Text.len_append, hstart, hdot]
  omega

lemma all_packagedDefinitionId (hsource : SourceNames source)
    (hlocal : Text.all localId isIdChar = true) :
    Text.all (packagedDefinitionId source localId) isIdChar = true := by
  have howner := Text.all_mono hsource.owner_chars fun c => isIdChar_of_owner
  have hrepository := Text.all_mono hsource.repository_chars fun c => isIdChar_of_repository
  have hdigits : ∀ n : ℕ, Text.all (toString n) isIdChar = true := fun n =>
    Text.all_mono (Text.all_isDigit_toString n) fun c hc => by simp [isIdChar, isIdStart, hc]
  have hstart : Text.all "package." isIdChar = true := by decide
  have hdot : Text.all "." isIdChar = true := by decide
  simp only [packagedDefinitionId, Text.all_append, howner, hrepository, hdigits, hstart, hdot,
    hlocal, Bool.and_self]

lemma headIs_packagedDefinitionId (localId : String) :
    Text.headIs (packagedDefinitionId source localId) isIdStart = true := by
  simp only [packagedDefinitionId, String.append_assoc]
  exact Text.headIs_append (by decide) _

/-- The identifier of a packaged profile, and of its contribution, is valid. -/
theorem validateId_packaged (hsource : validateSource source = ok ()) (hlocal : KebabId localId)
    (label : String) : validateId label (packagedDefinitionId source localId) = ok () ∧
      validateId label (packagedDefinitionId source localId ++ ".items") = ok () := by
  have hnames := sourceNames hsource
  have hlen := len_packagedDefinitionId hnames hlocal.short
  have hall := all_packagedDefinitionId hnames
    (Text.all_mono hlocal.chars fun c => isIdChar_of_owner)
  have hhead : Text.headIs (packagedDefinitionId source localId) isIdStart = true :=
    headIs_packagedDefinitionId localId
  have hitems : Text.len ".items" = 6 := by decide
  have hmax : maxIdBytes = 256 := rfl
  constructor
  · exact validateId_eq_ok hhead (by omega) hall label
  · refine validateId_eq_ok (Text.headIs_append hhead _) ?_ ?_ label
    · rw [Text.len_append]
      omega
    · rw [Text.all_append, hall]
      decide

end Packaged

/-! ## Items -/

lemma validatePluginId_display {source : GithubSource} (h : validateSource source = ok ())
    (label : String) : validatePluginId label source.display = ok () := by
  have hnames := sourceNames h
  have howner := hnames.owner_len
  have hrepository := hnames.repository_len
  have hstart : Text.len "github:" = 7 := by decide
  have hslash : Text.len "/" = 1 := by decide
  have hlen : Text.len source.display ≤ maxValueBytes := by
    have hmax : maxValueBytes = 256 := rfl
    simp only [GithubSource.display, Text.len_append, hstart, hslash]
    omega
  have hhead : Text.headIs source.display isIdStart = true := by
    simp only [GithubSource.display, String.append_assoc]
    exact Text.headIs_append (by decide) _
  have hall : Text.all source.display (fun c => isIdChar c || c = ':' || c = '/') = true := by
    have howner := @Text.all_mono _ _ (fun c => isIdChar c || c = ':' || c = '/')
      hnames.owner_chars fun c hc => by rw [isIdChar_of_owner hc]; rfl
    have hrepository := @Text.all_mono _ _ (fun c => isIdChar c || c = ':' || c = '/')
      hnames.repository_chars fun c hc => by rw [isIdChar_of_repository hc]; rfl
    simp only [GithubSource.display, Text.all_append, howner, hrepository]
    decide
  simp [validatePluginId, bailIf, Text.isEmpty_eq_false_of_headIs hhead, hhead, hlen, hall]

/-- An item of a package as a contribution lists it. -/
def itemConfig (item : GithubSource × String) : ProfileItemConfig :=
  ⟨item.1.display, item.2, false⟩

/-- The display form of a source and an item tell the two apart. -/
lemma qualified_inj {item item' : GithubSource × String}
    (hsource : validateSource item.1 = ok ()) (hsource' : validateSource item'.1 = ok ())
    (h : (itemConfig item).qualified = (itemConfig item').qualified) : item = item' := by
  have hnames := sourceNames hsource
  have hnames' := sourceNames hsource'
  obtain ⟨⟨owner, repository⟩, item⟩ := item
  obtain ⟨⟨owner', repository'⟩, item'⟩ := item'
  simp only [itemConfig, ProfileItemConfig.qualified, qualifiedItemIdUnchecked,
    GithubSource.display, String.append_assoc] at h
  have h := (Text.append_inj_of_len h rfl).2
  have hslash : "/".toList = ['/'] := by decide
  have hhash : "#".toList = ['#'] := by decide
  obtain ⟨howner, h⟩ := Text.append_inj_of_notMem hslash h
    (Text.notMem_of_all hnames.owner_chars (by decide))
    (Text.notMem_of_all hnames'.owner_chars (by decide))
  obtain ⟨hrepository, hitem⟩ := Text.append_inj_of_notMem hhash h
    (Text.notMem_of_all hnames.repository_chars (by decide))
    (Text.notMem_of_all hnames'.repository_chars (by decide))
  rw [howner, hrepository, hitem]

/-! ## Predicates and rules -/

lemma validatePredicate_any {predicates : List PredicateConfig} (h : ∀ p ∈ predicates, Leaf p)
    (hne : predicates ≠ []) {nodes : ℕ} :
    validatePredicate (anyPredicate predicates) 1 nodes =
      counted nodes (identityNodes predicates.length) := by
  have hdepth : decide (maxPredicateDepth < 1) = false := by decide
  rcases predicates with _ | ⟨first, _ | ⟨second, rest⟩⟩
  · exact absurd rfl hne
  · exact h first (List.mem_cons_self ..) 1 nodes (by decide)
  · have hcount : identityNodes (first :: second :: rest).length =
        (first :: second :: rest).length + 1 := by
      rw [identityNodes, if_neg (by simp)]
    show validatePredicate (.any (first :: second :: rest)) 1 nodes = _
    rw [hcount, validatePredicate, hdepth, Bool.false_or]
    by_cases hnext : nodes + 1 ≤ maxPredicateNodes
    · rw [decide_eq_false (by omega), bailIf_false, ok_bind]
      show validatePredicates (first :: second :: rest) 2 (nodes + 1) = _
      rw [validatePredicates_leaves h (by decide) hnext, counted, counted, Nat.add_assoc,
        Nat.add_comm 1]
    · rw [decide_eq_true (by omega), counted, if_neg (by omega)]
      rfl

/-- What the manifest promises of an identity. -/
lemma validIdentity_iff {value : String} (h : validIdentity value = true) :
    Text.isEmpty value = false ∧ Text.len value ≤ 112 ∧
      Text.all value (fun c => c.isLower || c.isDigit || c == '-' || c == '_' || c == '.' ||
        c == ':') = true := by
  simp only [validIdentity, Bool.and_eq_true, Bool.not_eq_true', decide_eq_true_eq] at h
  obtain ⟨⟨⟨hempty, hlen⟩, -⟩, hall⟩ := h
  exact ⟨hempty, hlen, hall⟩

section Identities

variable {values : List String} (h : ∀ value ∈ values, validIdentity value = true)
  (hne : values ≠ []) (nodes : ℕ)

include h hne

lemma validatePredicate_applications :
    validatePredicate (exactTextMatches "application.id" values) 1 nodes =
      counted nodes (identityNodes values.length) := by
  have hleaves : ∀ p ∈ values.map (PredicateConfig.textEquals "application.id"), Leaf p := by
    intro p hp
    obtain ⟨value, hvalue, rfl⟩ := List.mem_map.mp hp
    obtain ⟨hempty, hlen, hall⟩ := validIdentity_iff (h value hvalue)
    exact leaf_textEquals (by decide)
      (validateFact_eq_ok hempty (hlen.trans (by decide)) hall)
  rw [exactTextMatches, validatePredicate_any hleaves (by simpa using hne), List.length_map]

lemma validatePredicate_activities :
    validatePredicate (exactActivityMatches values) 1 nodes =
      counted nodes (identityNodes values.length) := by
  have hleaves : ∀ p ∈ values.map fun value =>
      PredicateConfig.booleanEquals ("activity." ++ value) true, Leaf p := by
    intro p hp
    obtain ⟨value, hvalue, rfl⟩ := List.mem_map.mp hp
    obtain ⟨hempty, hlen, hall⟩ := validIdentity_iff (h value hvalue)
    have hstart : Text.len "activity." = 9 := by decide
    have hmax : maxContextKeyBytes = 128 := rfl
    have hhead : Text.headIs ("activity." ++ value) Char.isLower = true :=
      Text.headIs_append (by decide) value
    refine leaf_booleanEquals (validateFact_eq_ok (Text.isEmpty_eq_false_of_headIs hhead) ?_ ?_)
    · rw [Text.len_append]
      omega
    · rw [Text.all_append, hall]
      decide
  rw [exactActivityMatches, validatePredicate_any hleaves (by simpa using hne), List.length_map]

end Identities

section Rules

variable {profileIds : BTreeSet String} {activity application : ℤ}

/-- A profile of which the document knows the identifier, with identities that are valid. -/
structure KnownProfile (profileIds : BTreeSet String) (packaged : PackagedProfile) : Prop where
  known : profileIds.contains packaged.profileId = true
  activities : ∀ value ∈ packaged.definition.activities, validIdentity value = true
  applications : ∀ value ∈ packaged.definition.applications, validIdentity value = true

/-- The rule for some identities, which is left out if there are none. -/
lemma validateRules_optional {values : List String} {rule : ProfileRuleConfig}
    {rest : List ProfileRuleConfig} {nodes : ℕ} (hnodes : nodes ≤ maxPredicateNodes)
    (hknown : profileIds.contains rule.profile = true)
    (hcount : values ≠ [] →
      validatePredicate rule.when 1 nodes = counted nodes (identityNodes values.length)) :
    validateRules profileIds ((if values.isEmpty then [] else [rule]) ++ rest) nodes =
      if nodes + identityNodes values.length ≤ maxPredicateNodes then
        validateRules profileIds rest (nodes + identityNodes values.length)
      else err budgetExceeded := by
  cases values with
  | nil =>
    show validateRules profileIds rest nodes =
      if nodes ≤ maxPredicateNodes then validateRules profileIds rest nodes else _
    rw [if_pos hnodes]
  | cons value values => exact validateRules_cons hknown (hcount (List.cons_ne_nil _ _))

lemma validateRules_packaged {packaged : PackagedProfile} (h : KnownProfile profileIds packaged)
    {rest : List ProfileRuleConfig} {nodes : ℕ} (hnodes : nodes ≤ maxPredicateNodes) :
    validateRules profileIds (packaged.rules activity application ++ rest) nodes =
      if nodes + packaged.ruleNodes ≤ maxPredicateNodes then
        validateRules profileIds rest (nodes + packaged.ruleNodes)
      else err budgetExceeded := by
  rw [PackagedProfile.rules, List.append_assoc, PackagedProfile.ruleNodes, ← Nat.add_assoc,
    validateRules_optional hnodes h.known
      fun hne => validatePredicate_activities h.activities hne nodes]
  by_cases hnext : nodes + identityNodes packaged.definition.activities.length ≤
      maxPredicateNodes
  · rw [if_pos hnext, validateRules_optional hnext h.known
      fun hne => validatePredicate_applications h.applications hne _]
  · -- the activities alone exceed the budget
    rw [if_neg hnext, if_neg (by omega)]

lemma validateRules_flatMap {profiles : List PackagedProfile}
    (h : ∀ packaged ∈ profiles, KnownProfile profileIds packaged) {nodes : ℕ}
    (hnodes : nodes ≤ maxPredicateNodes) :
    validateRules profileIds (profiles.flatMap (·.rules activity application)) nodes =
      if nodes + (profiles.map PackagedProfile.ruleNodes).sum ≤ maxPredicateNodes then ok ()
      else err budgetExceeded := by
  induction profiles generalizing nodes with
  | nil => simp [validateRules, hnodes]
  | cons packaged rest ih =>
    rw [List.flatMap_cons, validateRules_packaged (h packaged (List.mem_cons_self ..)) hnodes,
      List.map_cons, List.sum_cons]
    by_cases hnext : nodes + packaged.ruleNodes ≤ maxPredicateNodes
    · rw [if_pos hnext, ih (fun p hp => h p (List.mem_cons_of_mem _ hp)) hnext, Nat.add_assoc]
    · rw [if_neg hnext, if_neg (by omega)]

end Rules

/-! ## The packages in the catalog -/

namespace Installation

variable {installation : Installation}

lemma foldl_addManifest (packages : List InstalledPackage) (catalog : PackagedProfileCatalog) :
    packages.foldl (fun catalog package => catalog.addManifest package.source package.manifest
        package.enabledItems package.enabledProfiles) catalog =
      ⟨catalog.enabledItems ++ (packages.flatMap fun package =>
          package.defaultItems.map fun item => (package.source, item)).map itemConfig,
        catalog.profiles ++ packages.flatMap fun package =>
          package.keptProfiles.map fun definition => ⟨package.source, definition⟩,
        catalog.managesDefaultVisibility || packages.any InstalledPackage.managesVisibility⟩ := by
  induction packages generalizing catalog with
  | nil => simp
  | cons package packages ih =>
    rw [List.foldl_cons, ih]
    simp only [PackagedProfileCatalog.addManifest, InstalledPackage.defaultItems,
      InstalledPackage.keptProfiles, InstalledPackage.managesVisibility, List.flatMap_cons,
      List.map_append, List.map_map, List.append_assoc, List.any_cons, Bool.or_assoc]
    rfl

lemma catalog_eq : installation.catalog =
    ⟨installation.defaultItems.map itemConfig, installation.keptProfiles,
      installation.packages.any InstalledPackage.managesVisibility⟩ := by
  rw [catalog, foldl_addManifest]
  rfl

/-- A kept profile is one that the validation of its package accepted. -/
lemma accepted_of_mem {packaged : PackagedProfile} (h : packaged ∈ installation.keptProfiles) :
    validateSource packaged.source = ok () ∧
      ∃ itemIds, AcceptedProfile itemIds packaged.definition := by
  obtain ⟨package, -, hmem⟩ := List.mem_flatMap.mp h
  obtain ⟨definition, hdefinition, rfl⟩ := List.mem_map.mp hmem
  obtain ⟨profile, hprofile, rfl⟩ := List.mem_map.mp (List.mem_filter.mp hdefinition).1
  exact ⟨package.source_valid, _,
    (Packages.validate_profiles package.manifest_valid).1 profile hprofile⟩

lemma valid_of_mem_defaultItems {item : GithubSource × String}
    (h : item ∈ installation.defaultItems) :
    validateSource item.1 = ok () ∧ KebabId item.2 := by
  obtain ⟨package, -, hmem⟩ := List.mem_flatMap.mp h
  obtain ⟨id, hid, rfl⟩ := List.mem_map.mp hmem
  obtain ⟨contribution, hcontribution, rfl⟩ := List.mem_map.mp hid
  exact ⟨package.source_valid, (Packages.validate_items package.manifest_valid).1 contribution
    (List.mem_filter.mp hcontribution).1⟩

lemma valid_of_mem_usedItems {item : GithubSource × String}
    (h : item ∈ installation.usedItems) : validateSource item.1 = ok () := by
  rcases List.mem_append.mp h with h | h
  · exact (valid_of_mem_defaultItems h).1
  · obtain ⟨packaged, hpackaged, hmem⟩ := List.mem_flatMap.mp h
    obtain ⟨id, -, rfl⟩ := List.mem_map.mp hmem
    exact (accepted_of_mem hpackaged).1

/-- Lists of local names, one for each package, have no name twice if no list has. -/
lemma nodup_flatMap {f : InstalledPackage → List String}
    (h : ∀ package, (f package).Nodup) :
    (installation.packages.flatMap fun package =>
      (f package).map fun name => (package.source, name)).Nodup := by
  rw [List.nodup_flatMap]
  constructor
  · intro package _
    refine (h package).map ?_
    intro name name' heq
    exact (Prod.mk.inj heq).2
  · refine (List.pairwise_map.mp installation.distinct).imp ?_
    intro package package' hne
    rw [Function.onFun, List.disjoint_left]
    intro item hitem hitem'
    obtain ⟨name, -, rfl⟩ := List.mem_map.mp hitem
    obtain ⟨name', -, heq⟩ := List.mem_map.mp hitem'
    exact hne (Prod.mk.inj heq).1.symm

lemma defaultItems_nodup : installation.defaultItems.Nodup := by
  refine nodup_flatMap fun package => ?_
  have hsublist : (package.defaultItems).Sublist
      (package.manifest.items.map ItemContribution.id) := List.filter_sublist.map _
  exact (Packages.validate_items package.manifest_valid).2.sublist hsublist

lemma profileIds_nodup :
    (installation.keptProfiles.map PackagedProfile.profileId).Nodup := by
  have hnames : (installation.packages.flatMap fun package =>
      (package.keptProfiles.map AutomaticProfile.id).map fun name =>
        (package.source, name)).Nodup := by
    refine nodup_flatMap fun package => ?_
    have hsublist : (package.keptProfiles.map AutomaticProfile.id).Sublist
        ((package.manifest.profiles.map LabeledProfile.definition).map AutomaticProfile.id) :=
      List.filter_sublist.map _
    rw [List.map_map] at hsublist
    exact (Packages.validate_profiles package.manifest_valid).2.sublist hsublist
  have hids : installation.keptProfiles.map PackagedProfile.profileId =
      (installation.packages.flatMap fun package =>
        (package.keptProfiles.map AutomaticProfile.id).map fun name =>
          (package.source, name)).map fun name => packagedDefinitionId name.1 name.2 := by
    simp only [keptProfiles, List.map_flatMap, List.map_map]
    rfl
  rw [hids]
  refine hnames.map ?_
  intro name name' heq
  obtain ⟨hsource, hlocal⟩ := packagedDefinitionId_inj heq
  exact Prod.ext hsource hlocal

end Installation

end TouchBar.Session
