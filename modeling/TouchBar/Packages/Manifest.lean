import TouchBar.Packages.Catalog
import TouchBar.Session.PackagedProfiles

/-!
# Package manifests

A manifest lists what a package contributes: its items, and automatic profiles that
arrange them.  `validate` collects an issue for everything that is wrong.  The limits
are those of one package: how many profiles it declares, and how many items and exact
identities one profile names.
-/

namespace TouchBar.Packages

open TouchBar.Rust TouchBar.Session Outcome

def supportedManifestVersion : ℕ := 1
def maxTouchbarWidth : ℕ := 8192
def maxAutomaticProfiles : ℕ := 64
def maxAutomaticProfileItems : ℕ := 64
def maxAutomaticProfileContexts : ℕ := 64
def maxLocalIdBytes : ℕ := 64

/-! ## Sources -/

def validGithubOwner (value : String) : Bool :=
  !Text.isEmpty value && decide (Text.len value ≤ 39) && !Text.startsWith value "-" &&
    !Text.endsWith value "-" && !Text.containsStr value "--" &&
    Text.all value (fun c => c.isLower || c.isDigit || c == '-')

def validGithubRepository (value : String) : Bool :=
  !Text.isEmpty value && decide (Text.len value ≤ 100) && !Text.endsWith value ".git" &&
    !Text.containsChar value '/' && !Text.containsStr value ".." &&
    Text.all value (fun c => c.isLower || c.isDigit || c == '-' || c == '_' || c == '.')

/-- `GithubSource::validate`; `new` and `from_str` return no source that fails it. -/
def validateSource (source : GithubSource) : Outcome String Unit :=
  if !validGithubOwner source.owner then
    err "GitHub owner must be lowercase ASCII letters, digits, or single hyphens"
  else if !validGithubRepository source.repository then
    err ("GitHub repository must be a lowercase name without a .git suffix or path " ++
      "separators")
  else ok ()

/-! ## Manifests -/

structure PluginMetadata where
  name : String
  description : String
  license : String
deriving DecidableEq, Repr

structure ItemContribution where
  id : String
  label : String
  defaultWidth : ℕ
  showInDefaultProfile : Bool
deriving DecidableEq, Repr

/-- An `AutomaticProfile` with the label, which only the validation reads. -/
structure LabeledProfile where
  label : String
  definition : AutomaticProfile
deriving DecidableEq, Repr

structure PluginManifest where
  manifestVersion : ℕ
  plugin : PluginMetadata
  items : List ItemContribution
  profiles : List LabeledProfile
  /-- What `validate` reports of the appearance providers, the presentation bars, the
  runtime, the assets and the permissions. -/
  otherIssues : List ValidationIssue
deriving DecidableEq, Repr

/-! ## Validation -/

def validateNonempty (field value : String) : List ValidationIssue :=
  issueIf (Text.trimIsEmpty value) field "must not be empty"

def validateKebabId (field value : String) : List ValidationIssue :=
  issueIf
    (Text.isEmpty value || maxLocalIdBytes < Text.len value || Text.startsWith value "-" ||
      Text.endsWith value "-" || Text.containsStr value "--" ||
      !Text.all value (fun c => c.isLower || c.isDigit || c == '-') ||
      !Text.headIs value Char.isLower)
    field
    ("must be a lowercase kebab-case identifier beginning with a letter and at most " ++
      toString maxLocalIdBytes ++ " bytes")

/-- The test of one value in `validate_context_identities`. -/
def validIdentity (value : String) : Bool :=
  !Text.isEmpty value && decide (Text.len value ≤ 112) && value == Text.trim value &&
    Text.all value
      (fun c => c.isLower || c.isDigit || c == '-' || c == '_' || c == '.' || c == ':')

/-- The loop of `validate_context_identities`. -/
def validateContextIdentities (field : String) :
    ℕ → BTreeSet String → List String → List ValidationIssue
  | _, _, [] => []
  | index, unique, value :: rest =>
    let place := field ++ "[" ++ toString index ++ "]"
    issueIf (!validIdentity value) place
        "must be an exact lowercase application or activity identity" ++
      issueIf (unique.contains value) place ("repeats context identity `" ++ value ++ "`") ++
      validateContextIdentities field (index + 1) (unique.insert value) rest

/-- The loop over the items. -/
def validateItems : ℕ → BTreeSet String → List ItemContribution → List ValidationIssue
  | _, _, [] => []
  | index, itemIds, item :: rest =>
    let start := "items[" ++ toString index ++ "]"
    validateKebabId (start ++ ".id") item.id ++
      validateNonempty (start ++ ".label") item.label ++
      issueIf (itemIds.contains item.id) (start ++ ".id") "duplicate item id" ++
      issueIf (!(1 ≤ item.defaultWidth && item.defaultWidth ≤ maxTouchbarWidth))
        (start ++ ".default_width") ("must be between 1 and " ++ toString maxTouchbarWidth) ++
      validateItems (index + 1) (itemIds.insert item.id) rest

/-- The loop over the items of a profile. -/
def validateProfileItems (start : String) (itemIds : BTreeSet String) :
    ℕ → BTreeSet String → List String → List ValidationIssue
  | _, _, [] => []
  | index, profileItems, item :: rest =>
    let field := start ++ ".items[" ++ toString index ++ "]"
    validateKebabId field item ++
      issueIf (!itemIds.contains item) field
        ("references unknown package item `" ++ item ++ "`") ++
      issueIf (profileItems.contains item) field ("repeats package item `" ++ item ++ "`") ++
      validateProfileItems start itemIds (index + 1) (profileItems.insert item) rest

/-- The turn of the loop over the profiles, after the check for a duplicate. -/
def validateProfileContent (start : String) (itemIds : BTreeSet String)
    (profile : AutomaticProfile) : List ValidationIssue :=
  let contextCount := profile.applications.length + profile.activities.length
  issueIf (profile.items.isEmpty || maxAutomaticProfileItems < profile.items.length)
      (start ++ ".items")
      ("must contain 1..=" ++ toString maxAutomaticProfileItems ++
        " package-local item IDs") ++
    validateProfileItems start itemIds 0 .empty profile.items ++
    (match profile.principalItem with
      | none => []
      | some principal =>
        validateKebabId (start ++ ".principal_item") principal ++
          issueIf (!(BTreeSet.ofList profile.items).contains principal)
            (start ++ ".principal_item") "must reference an item in this automatic profile") ++
    issueIf (contextCount = 0 || maxAutomaticProfileContexts < contextCount)
      (start ++ ".applications")
      ("applications and activities must contain 1..=" ++
        toString maxAutomaticProfileContexts ++ " exact identities in total") ++
    validateContextIdentities (start ++ ".applications") 0 .empty profile.applications ++
    validateContextIdentities (start ++ ".activities") 0 .empty profile.activities

/-- The loop over the profiles. -/
def validateProfiles (itemIds : BTreeSet String) :
    ℕ → BTreeSet String → List LabeledProfile → List ValidationIssue
  | _, _, [] => []
  | index, profileIds, profile :: rest =>
    let start := "profile[" ++ toString index ++ "]"
    validateKebabId (start ++ ".id") profile.definition.id ++
      validateNonempty (start ++ ".label") profile.label ++
      issueIf (profileIds.contains profile.definition.id) (start ++ ".id")
        "duplicate automatic profile id" ++
      validateProfileContent start itemIds profile.definition ++
      validateProfiles itemIds (index + 1) (profileIds.insert profile.definition.id) rest

def PluginManifest.itemIds (manifest : PluginManifest) : BTreeSet String :=
  .ofList (manifest.items.map ItemContribution.id)

def PluginManifest.validate (manifest : PluginManifest) :
    Outcome (List ValidationIssue) Unit :=
  report <|
    issueIf (manifest.manifestVersion != supportedManifestVersion) "manifest_version"
        ("unsupported manifest version " ++ toString manifest.manifestVersion ++
          "; this host supports " ++ toString supportedManifestVersion) ++
      validateNonempty "plugin.name" manifest.plugin.name ++
      validateNonempty "plugin.description" manifest.plugin.description ++
      validateNonempty "plugin.license" manifest.plugin.license ++
      issueIf manifest.items.isEmpty "items"
        "a plugin pack must contribute at least one stable item" ++
      validateItems 0 .empty manifest.items ++
      issueIf (maxAutomaticProfiles < manifest.profiles.length) "profile"
        ("a package may declare at most " ++ toString maxAutomaticProfiles ++
          " automatic profiles") ++
      validateProfiles manifest.itemIds 0 .empty manifest.profiles ++
      manifest.otherIssues

/-! ## What the checks establish -/

/-- A lowercase identifier of the package: letters, digits and single hyphens. -/
structure KebabId (value : String) : Prop where
  nonempty : Text.isEmpty value = false
  short : Text.len value ≤ maxLocalIdBytes
  chars : Text.all value (fun c => c.isLower || c.isDigit || c == '-') = true
  head : Text.headIs value Char.isLower = true

lemma validateKebabId_eq_nil {field value : String} (h : validateKebabId field value = []) :
    KebabId value := by
  simp only [validateKebabId, issueIf_eq_nil, Bool.or_eq_false_iff, Bool.not_eq_false',
    decide_eq_false_iff_not, not_lt] at h
  obtain ⟨⟨⟨⟨⟨⟨hempty, hshort⟩, -⟩, -⟩, -⟩, hchars⟩, hhead⟩ := h
  exact ⟨hempty, hshort, hchars, hhead⟩

lemma validateContextIdentities_eq_nil {field : String} {index : ℕ} {unique : BTreeSet String}
    {values : List String} (h : validateContextIdentities field index unique values = []) :
    ∀ value ∈ values, validIdentity value = true := by
  induction values generalizing index unique with
  | nil => simp
  | cons value rest ih =>
    simp only [validateContextIdentities, List.append_eq_nil_iff, issueIf_eq_nil,
      Bool.not_eq_false'] at h
    obtain ⟨⟨hvalid, -⟩, hrest⟩ := h
    intro other hother
    rcases List.mem_cons.mp hother with rfl | hother
    · exact hvalid
    · exact ih hrest other hother

/-- Distinct identities pass. -/
lemma validateContextIdentities_of_nodup {field : String} {index : ℕ} {unique : BTreeSet String}
    {values : List String} (hvalid : ∀ value ∈ values, validIdentity value = true)
    (hnodup : values.Nodup) (hnew : ∀ value ∈ values, value ∉ unique) :
    validateContextIdentities field index unique values = [] := by
  induction values generalizing index unique with
  | nil => rfl
  | cons value rest ih =>
    obtain ⟨hnotMem, hnodup⟩ := List.nodup_cons.mp hnodup
    have hfresh : unique.contains value = false := by
      rw [Bool.eq_false_iff]
      exact fun h => hnew value (List.mem_cons_self ..) (BTreeSet.contains_iff.mp h)
    have hrest := @ih (index + 1) (unique.insert value)
      (fun other hother => hvalid other (List.mem_cons_of_mem _ hother)) hnodup
      fun other hother hmem => by
        rcases BTreeSet.mem_insert.mp hmem with rfl | hold
        · exact hnotMem hother
        · exact hnew other (List.mem_cons_of_mem _ hother) hold
    simp only [validateContextIdentities, hvalid value (List.mem_cons_self ..), hfresh, hrest,
      issueIf, Bool.not_true, Bool.false_eq_true, if_false, List.append_nil]

lemma validateItems_eq_nil {index : ℕ} {itemIds : BTreeSet String}
    {items : List ItemContribution} (h : validateItems index itemIds items = []) :
    (∀ item ∈ items, KebabId item.id ∧ item.id ∉ itemIds) ∧
      (items.map ItemContribution.id).Nodup := by
  induction items generalizing index itemIds with
  | nil => simp
  | cons item rest ih =>
    simp only [validateItems, List.append_eq_nil_iff, issueIf_eq_nil] at h
    obtain ⟨⟨⟨⟨hid, -⟩, hnew⟩, -⟩, hrest⟩ := h
    obtain ⟨hall, hnodup⟩ := ih hrest
    have hnew : item.id ∉ itemIds := by
      intro hmem
      rw [BTreeSet.contains_iff.mpr hmem] at hnew
      cases hnew
    constructor
    · intro other hother
      rcases List.mem_cons.mp hother with rfl | hother
      · exact ⟨validateKebabId_eq_nil hid, hnew⟩
      · exact ⟨(hall other hother).1, fun hmem =>
          (hall other hother).2 (BTreeSet.mem_insert.mpr (.inr hmem))⟩
    · rw [List.map_cons]
      refine List.nodup_cons.mpr ⟨?_, hnodup⟩
      intro hmem
      obtain ⟨other, hother, heq⟩ := List.mem_map.mp hmem
      -- the later items are compared with this one
      exact (hall other hother).2 (BTreeSet.mem_insert.mpr (.inl heq))

lemma validateProfileItems_eq_nil {start : String} {itemIds : BTreeSet String} {index : ℕ}
    {profileItems : BTreeSet String} {items : List String}
    (h : validateProfileItems start itemIds index profileItems items = []) :
    (∀ item ∈ items, KebabId item ∧ item ∈ itemIds ∧ item ∉ profileItems) ∧ items.Nodup := by
  induction items generalizing index profileItems with
  | nil => simp
  | cons item rest ih =>
    simp only [validateProfileItems, List.append_eq_nil_iff, issueIf_eq_nil,
      Bool.not_eq_false'] at h
    obtain ⟨⟨⟨hid, hknown⟩, hnew⟩, hrest⟩ := h
    obtain ⟨hall, hnodup⟩ := ih hrest
    have hnew : item ∉ profileItems := by
      intro hmem
      rw [BTreeSet.contains_iff.mpr hmem] at hnew
      cases hnew
    constructor
    · intro other hother
      rcases List.mem_cons.mp hother with rfl | hother
      · exact ⟨validateKebabId_eq_nil hid, BTreeSet.contains_iff.mp hknown, hnew⟩
      · obtain ⟨hkebab, hmem, hfresh⟩ := hall other hother
        exact ⟨hkebab, hmem, fun hold => hfresh (BTreeSet.mem_insert.mpr (.inr hold))⟩
    · refine List.nodup_cons.mpr ⟨?_, hnodup⟩
      intro hmem
      exact (hall item hmem).2.2 (BTreeSet.mem_insert.mpr (.inl rfl))

/-- A profile that the validation accepts in a package with the given items. -/
structure AcceptedProfile (itemIds : BTreeSet String) (profile : AutomaticProfile) : Prop where
  id : KebabId profile.id
  nonempty : profile.items ≠ []
  items : ∀ item ∈ profile.items, KebabId item
  known : ∀ item ∈ profile.items, item ∈ itemIds
  nodup : profile.items.Nodup
  principal : ∀ principal ∈ profile.principalItem, principal ∈ profile.items
  applications : ∀ value ∈ profile.applications, validIdentity value = true
  activities : ∀ value ∈ profile.activities, validIdentity value = true

lemma validateProfiles_eq_nil {itemIds : BTreeSet String} {index : ℕ}
    {profileIds : BTreeSet String} {profiles : List LabeledProfile}
    (h : validateProfiles itemIds index profileIds profiles = []) :
    (∀ profile ∈ profiles, AcceptedProfile itemIds profile.definition ∧
      profile.definition.id ∉ profileIds) ∧
      (profiles.map fun profile => profile.definition.id).Nodup := by
  induction profiles generalizing index profileIds with
  | nil => simp
  | cons profile rest ih =>
    simp only [validateProfiles, validateProfileContent, List.append_eq_nil_iff,
      issueIf_eq_nil] at h
    obtain ⟨⟨⟨⟨hid, -⟩, hnew⟩, ⟨⟨⟨⟨hcount, hitems⟩, hprincipal⟩, -⟩, happlications⟩,
      hactivities⟩, hrest⟩ := h
    obtain ⟨hall, hnodup⟩ := ih hrest
    obtain ⟨hkebab, hdistinct⟩ := validateProfileItems_eq_nil hitems
    have hnew : profile.definition.id ∉ profileIds := by
      intro hmem
      rw [BTreeSet.contains_iff.mpr hmem] at hnew
      cases hnew
    have haccepted : AcceptedProfile itemIds profile.definition := by
      refine ⟨validateKebabId_eq_nil hid, ?_, fun item hitem => (hkebab item hitem).1,
        fun item hitem => (hkebab item hitem).2.1, hdistinct, ?_,
        validateContextIdentities_eq_nil happlications,
        validateContextIdentities_eq_nil hactivities⟩
      · intro hempty
        rw [hempty] at hcount
        simp at hcount
      · intro principal hsome
        rw [Option.mem_def.mp hsome] at hprincipal
        simp only [List.append_eq_nil_iff, issueIf_eq_nil, Bool.not_eq_false',
          BTreeSet.contains_iff, BTreeSet.mem_ofList] at hprincipal
        exact hprincipal.2
    constructor
    · intro other hother
      rcases List.mem_cons.mp hother with rfl | hother
      · exact ⟨haccepted, hnew⟩
      · exact ⟨(hall other hother).1, fun hmem =>
          (hall other hother).2 (BTreeSet.mem_insert.mpr (.inr hmem))⟩
    · rw [List.map_cons]
      refine List.nodup_cons.mpr ⟨?_, hnodup⟩
      intro hmem
      obtain ⟨other, hother, heq⟩ := List.mem_map.mp hmem
      exact (hall other hother).2 (BTreeSet.mem_insert.mpr (.inl heq))

section Manifest

variable {manifest : PluginManifest} (h : manifest.validate = ok ())

include h

lemma validate_items :
    (∀ item ∈ manifest.items, KebabId item.id) ∧
      (manifest.items.map ItemContribution.id).Nodup := by
  simp only [PluginManifest.validate, report_eq_ok, List.append_eq_nil_iff] at h
  obtain ⟨⟨⟨⟨-, hitems⟩, -⟩, -⟩, -⟩ := h
  obtain ⟨hall, hnodup⟩ := validateItems_eq_nil hitems
  exact ⟨fun item hitem => (hall item hitem).1, hnodup⟩

lemma validate_profiles :
    (∀ profile ∈ manifest.profiles, AcceptedProfile manifest.itemIds profile.definition) ∧
      (manifest.profiles.map fun profile => profile.definition.id).Nodup := by
  simp only [PluginManifest.validate, report_eq_ok, List.append_eq_nil_iff] at h
  obtain ⟨⟨-, hprofiles⟩, -⟩ := h
  obtain ⟨hall, hnodup⟩ := validateProfiles_eq_nil hprofiles
  exact ⟨fun profile hprofile => (hall profile hprofile).1, hnodup⟩

end Manifest

end TouchBar.Packages
