import TouchBar.Session.PackageMerge

/-!
# Whether the merged document is valid

For a user without a document, `merge` adds the packages to the automatic document and
validates the whole.  What each package contributes is right by itself.  The merge succeeds
exactly when the packages together fit into the limits of one document.
-/

namespace TouchBar.Session

open TouchBar.Rust TouchBar.Config Outcome
open TouchBar.Packages (PluginManifest ItemContribution KebabId AcceptedProfile validateSource)

/-! ## The merged document -/

lemma foldl_addPackaged (activity application : ℤ) (profiles : List PackagedProfile)
    (document : ProfileDocument) :
    profiles.foldl (addPackaged activity application) document =
      { document with
        contributions := document.contributions ++ profiles.map PackagedProfile.contribution
        profiles := document.profiles ++ profiles.map PackagedProfile.profile
        rules := document.rules ++ profiles.flatMap (·.rules activity application) } := by
  induction profiles generalizing document with
  | nil => simp
  | cons packaged profiles ih => simp [ih, addPackaged]

lemma goodItems {items : List (GithubSource × String)} (hnodup : items.Nodup)
    (h : ∀ item ∈ items, validateSource item.1 = ok () ∧ KebabId item.2) :
    GoodItems (items.map itemConfig) := by
  refine ⟨?_, ?_, ?_⟩
  · intro config hconfig
    obtain ⟨item, hitem, rfl⟩ := List.mem_map.mp hconfig
    exact validatePluginId_display (h item hitem).1 _
  · intro config hconfig
    obtain ⟨item, hitem, rfl⟩ := List.mem_map.mp hconfig
    exact validateId_kebab (h item hitem).2 _
  · rw [List.map_map]
    refine hnodup.map_on ?_
    intro item hitem item' hitem' heq
    exact qualified_inj (h item hitem).1 (h item' hitem').1 heq

section Packaged

variable {packaged : PackagedProfile} {itemIds : BTreeSet String}
  (hsource : validateSource packaged.source = ok ())
  (haccepted : AcceptedProfile itemIds packaged.definition)

include hsource haccepted

lemma goodContribution : GoodContribution packaged.contribution := by
  have hitems : packaged.contribution.items =
      (packaged.definition.items.map fun item => (packaged.source, item)).map itemConfig := by
    rw [List.map_map]
    rfl
  refine ⟨(validateId_packaged hsource haccepted.id _).2, ?_, ?_, rfl⟩
  · rw [hitems]
    simpa using haccepted.nonempty
  · rw [hitems]
    refine goodItems (haccepted.nodup.map ?_) ?_
    · intro item item' heq
      exact (Prod.mk.inj heq).2
    · intro item hitem
      obtain ⟨id, hid, rfl⟩ := List.mem_map.mp hitem
      exact ⟨hsource, haccepted.items id hid⟩

lemma goodProfile {contributionIds allItems : BTreeSet String}
    (hcontribution : contributionIds.contains packaged.contributionId = true)
    (hitems : ∀ item ∈ packaged.definition.items,
      (itemConfig (packaged.source, item)).qualified ∈ allItems) :
    GoodProfile contributionIds allItems packaged.profile := by
  have hid : validateId "bound contribution" packaged.contributionId = ok () :=
    (validateId_packaged hsource haccepted.id _).2
  refine ⟨(validateId_packaged hsource haccepted.id _).1, List.cons_ne_nil _ _, ?_, ?_⟩
  · intro count
    have hslot : validateId "slot id" "package-items" = ok () := by decide +kernel
    refine ⟨⟨BTreeSet.empty.insert "package-items", .empty, count + 1⟩, ?_, rfl⟩
    show validateProfileElements packaged.profileId contributionIds
      [.slot "package-items" .fixed [packaged.contributionId]] ⟨.empty, .empty, count⟩ = _
    simp only [validateProfileElements, validateProfileElement, validateSlotConfig,
      validateBindings, hslot, hid, hcontribution]
    rfl
  · intro principal hprincipal
    obtain ⟨item, hsome, rfl⟩ := Option.map_eq_some_iff.mp hprincipal
    have hmem := haccepted.principal item hsome
    exact ⟨validatePluginId_display hsource _, validateId_kebab (haccepted.items item hmem) _,
      BTreeSet.contains_iff.mpr (hitems item hmem)⟩

end Packaged

/-- The identifiers of packages begin differently from those of the automatic document. -/
lemma headIs_p {source : GithubSource} (localId rest : String) :
    Text.headIs (packagedDefinitionId source localId ++ rest) (fun c => c == 'p') = true := by
  simp only [packagedDefinitionId, String.append_assoc]
  exact Text.headIs_append (by decide) _

lemma profileId_ne_default (packaged : PackagedProfile) :
    packaged.profileId ≠ "automatic.default" := by
  intro heq
  have hhead : Text.headIs (packaged.profileId ++ "") (fun c => c == 'p') = true :=
    headIs_p packaged.definition.id ""
  rw [heq] at hhead
  revert hhead
  decide +kernel

lemma contributionId_ne_installed (packaged : PackagedProfile) :
    packaged.contributionId ≠ "automatic.installed-items" := by
  intro heq
  have hhead : Text.headIs packaged.contributionId (fun c => c == 'p') = true :=
    headIs_p packaged.definition.id ".items"
  rw [heq] at hhead
  revert hhead
  decide +kernel

/-- What the automatic document has before the packages are added. -/
structure AutomaticParts (items : List ProfileItemConfig) (document : ProfileDocument) : Prop where
  contribution : ∀ c ∈ document.contributions,
    c.id = "automatic.installed-items" ∧ (GoodItems items → GoodContribution c)
  nodup : (document.contributions.map ContributionConfig.id).Nodup
  length : document.contributions.length = if items.isEmpty then 0 else 1
  items : (document.contributions.flatMap fun c => c.items.map ProfileItemConfig.qualified) =
    items.map ProfileItemConfig.qualified
  profile : ∃ profile, document.profiles = [profile] ∧ profile.id = "automatic.default" ∧
    ∀ contributionIds : BTreeSet String, ∀ allItems,
      (∀ c ∈ document.contributions, c.id ∈ contributionIds) →
      GoodProfile contributionIds allItems profile

lemma automaticParts (items : List ProfileItemConfig) :
    AutomaticParts items (automaticDocument items) := by
  have hprofile : validateId "profile id" "automatic.default" = ok () := by decide +kernel
  cases items with
  | nil =>
    refine ⟨?_, List.nodup_nil, rfl, rfl, _, rfl, rfl, ?_⟩
    · intro c hc
      cases hc
    · intro contributionIds allItems _
      refine ⟨hprofile, List.cons_ne_nil _ _, ?_, ?_⟩
      · exact fun count => ⟨⟨.empty, .empty, count + 1⟩, rfl, rfl⟩
      · intro principal hprincipal
        cases hprincipal
  | cons item items =>
    have hid : validateId "contribution id" "automatic.installed-items" = ok () := by
      decide +kernel
    refine ⟨?_, List.nodup_singleton _, rfl, List.append_nil _, _, rfl, rfl, ?_⟩
    · intro c hc
      obtain rfl := List.mem_singleton.mp hc
      exact ⟨rfl, fun hgood => ⟨hid, List.cons_ne_nil _ _, hgood, rfl⟩⟩
    · intro contributionIds allItems hknown
      have hcontains : contributionIds.contains "automatic.installed-items" = true :=
        BTreeSet.contains_iff.mpr (hknown _ (List.mem_singleton.mpr rfl))
      have hslot : validateId "slot id" "installed-items" = ok () := by decide +kernel
      have hbound : validateId "bound contribution" "automatic.installed-items" = ok () := by
        decide +kernel
      refine ⟨hprofile, List.cons_ne_nil _ _, ?_, ?_⟩
      · intro count
        refine ⟨⟨BTreeSet.empty.insert "installed-items", .empty, count + 1⟩, ?_, rfl⟩
        show validateProfileElements "automatic.default" contributionIds
          [.slot "installed-items" .fixed ["automatic.installed-items"]]
          ⟨.empty, .empty, count⟩ = _
        simp only [validateProfileElements, validateProfileElement, validateSlotConfig,
          validateBindings, hslot, hbound, hcontains]
        rfl
      · intro principal hprincipal
        cases hprincipal

namespace Installation

variable (installation : Installation) (activity application : ℤ)

/-- The document that `merge` validates. -/
def document : ProfileDocument :=
  installation.keptProfiles.foldl (addPackaged activity application)
    (automaticDocument (installation.defaultItems.map itemConfig))

/-- The contributions collect the items that are used. -/
lemma document_items :
    ((installation.document activity application).contributions.flatMap fun c =>
        c.items.map ProfileItemConfig.qualified) =
      installation.usedItems.map fun item => (itemConfig item).qualified := by
  have hparts := automaticParts (installation.defaultItems.map itemConfig)
  rw [document, foldl_addPackaged, List.flatMap_append, hparts.items, usedItems, List.map_append,
    List.map_map, List.map_flatMap, List.flatMap_map]
  simp only [PackagedProfile.contribution, List.map_map]
  rfl

lemma document_contributions :
    ∀ c ∈ (installation.document activity application).contributions, GoodContribution c := by
  have hparts := automaticParts (installation.defaultItems.map itemConfig)
  intro c hc
  rw [document, foldl_addPackaged, List.mem_append] at hc
  rcases hc with hc | hc
  · refine (hparts.contribution c hc).2 (goodItems installation.defaultItems_nodup ?_)
    exact fun item hitem => valid_of_mem_defaultItems hitem
  · obtain ⟨packaged, hpackaged, rfl⟩ := List.mem_map.mp hc
    obtain ⟨hsource, itemIds, haccepted⟩ := accepted_of_mem hpackaged
    exact goodContribution hsource haccepted

lemma document_contributions_nodup :
    ((installation.document activity application).contributions.map
      ContributionConfig.id).Nodup := by
  have hparts := automaticParts (installation.defaultItems.map itemConfig)
  rw [document, foldl_addPackaged, List.map_append, List.map_map]
  refine List.Nodup.append hparts.nodup ?_ ?_
  · have hids := (installation.profileIds_nodup).map
      (f := fun id => id ++ ".items") fun id id' heq => Text.append_right_cancel heq
    rw [List.map_map] at hids
    exact hids
  · rw [List.disjoint_left]
    intro id hid hid'
    obtain ⟨c, hc, rfl⟩ := List.mem_map.mp hid
    obtain ⟨packaged, -, heq⟩ := List.mem_map.mp hid'
    exact contributionId_ne_installed packaged (heq.trans (hparts.contribution c hc).1)

lemma document_contributions_length :
    (installation.document activity application).contributions.length =
      (if installation.defaultItems.isEmpty then 0 else 1) + installation.keptProfiles.length := by
  have hparts := automaticParts (installation.defaultItems.map itemConfig)
  rw [document, foldl_addPackaged, List.length_append, hparts.length, List.length_map,
    List.isEmpty_map]

lemma document_rules :
    (installation.document activity application).rules =
      installation.keptProfiles.flatMap (·.rules activity application) := by
  rw [document, foldl_addPackaged]
  rfl

lemma document_profileIds :
    (installation.document activity application).profiles.map ProfileConfig.id =
      "automatic.default" :: installation.keptProfiles.map PackagedProfile.profileId := by
  obtain ⟨profile, hprofile, hid, -⟩ :=
    (automaticParts (installation.defaultItems.map itemConfig)).profile
  rw [document, foldl_addPackaged, List.map_append, List.map_map, hprofile, List.map_singleton,
    hid, List.singleton_append]
  rfl

lemma document_profiles_nodup :
    ((installation.document activity application).profiles.map ProfileConfig.id).Nodup := by
  rw [document_profileIds]
  refine List.nodup_cons.mpr ⟨?_, installation.profileIds_nodup⟩
  intro hmem
  obtain ⟨packaged, -, heq⟩ := List.mem_map.mp hmem
  exact profileId_ne_default packaged heq

lemma document_profiles {contributionIds allItems : BTreeSet String}
    (hids : ∀ c ∈ (installation.document activity application).contributions,
      c.id ∈ contributionIds)
    (hitems : ∀ item ∈ installation.usedItems, (itemConfig item).qualified ∈ allItems) :
    ∀ p ∈ (installation.document activity application).profiles,
      GoodProfile contributionIds allItems p := by
  obtain ⟨profile, hprofile, -, hgood⟩ :=
    (automaticParts (installation.defaultItems.map itemConfig)).profile
  rw [document, foldl_addPackaged] at hids
  intro p hp
  rw [document, foldl_addPackaged, hprofile, List.singleton_append, List.mem_cons] at hp
  rcases hp with rfl | hp
  · exact hgood _ _ fun c hc => hids c (List.mem_append_left _ hc)
  · obtain ⟨packaged, hpackaged, rfl⟩ := List.mem_map.mp hp
    obtain ⟨hsource, itemIds, haccepted⟩ := accepted_of_mem hpackaged
    refine goodProfile hsource haccepted ?_ ?_
    · exact BTreeSet.contains_iff.mpr
        (hids packaged.contribution (List.mem_append_right _ (List.mem_map_of_mem hpackaged)))
    · intro item hitem
      refine hitems _ (List.mem_append_right _ (List.mem_flatMap.mpr ⟨packaged, hpackaged, ?_⟩))
      exact List.mem_map_of_mem hitem

end Installation

/-! ## When the merge succeeds -/

lemma len_foldl_insert {l : List String} :
    (l.foldl BTreeSet.insert BTreeSet.empty).len = l.toFinset.card := by
  have hset : (l.foldl BTreeSet.insert BTreeSet.empty).toList.toFinset = l.toFinset := by
    ext a
    rw [List.mem_toFinset, List.mem_toFinset, ← BTreeSet.mem_def, BTreeSet.mem_foldl_insert]
    simp
  rw [← hset, List.toFinset_card_of_nodup]
  · rfl
  · exact (l.foldl BTreeSet.insert BTreeSet.empty).sorted.imp fun hlt => hlt.ne

namespace Installation

variable (installation : Installation) (activity application : ℤ)

lemma card_qualified :
    (installation.usedItems.map fun item => (itemConfig item).qualified).toFinset.card =
      installation.usedItems.toFinset.card := by
  have himage : (installation.usedItems.map fun item => (itemConfig item).qualified).toFinset =
      installation.usedItems.toFinset.image fun item => (itemConfig item).qualified := by
    ext name
    simp
  rw [himage]
  refine Finset.card_image_of_injOn ?_
  intro item hitem item' hitem' heq
  rw [Finset.mem_coe, List.mem_toFinset] at hitem hitem'
  exact qualified_inj (valid_of_mem_usedItems hitem) (valid_of_mem_usedItems hitem') heq

lemma document_profiles_length :
    (installation.document activity application).profiles.length =
      installation.keptProfiles.length + 1 := by
  have hids := congrArg List.length (installation.document_profileIds activity application)
  rwa [List.length_map, List.length_cons, List.length_map] at hids

lemma document_rules_length :
    (installation.document activity application).rules.length ≤
      2 * installation.keptProfiles.length := by
  rw [document_rules]
  induction installation.keptProfiles with
  | nil => exact Nat.zero_le _
  | cons packaged rest ih =>
    have hrules : (packaged.rules activity application).length ≤ 2 := by
      rw [PackagedProfile.rules, List.length_append]
      split_ifs <;> simp
    rw [List.flatMap_cons, List.length_append, List.length_cons]
    omega

/-- The head of the validation, before the loops. -/
lemma validate_head :
    (installation.document activity application).validate =
      if installation.keptProfiles.length + 1 ≤ maxProfiles then do
        let seen ← Config.validateContributions
          (installation.document activity application).contributions ⟨.empty, .empty, 0⟩
        bailIf (maxItems < seen.allItems.len)
          ("profile configuration references more than " ++ toString maxItems ++ " items")
        let (profileIds, elementCount) ← Config.validateProfiles seen.contributionIds
          seen.allItems (installation.document activity application).profiles .empty 0
        bailIf (maxElements < elementCount)
          ("profile elements exceed the " ++ toString maxElements ++ " entry limit")
        bailIf (!profileIds.contains "automatic.default")
          ("fallback profile `automatic.default` does not exist")
        validateRules profileIds (installation.document activity application).rules
          seen.predicateNodes
      else err (.invalid ("profiles must contain 1..=" ++ toString maxProfiles ++ " entries")) := by
  have hversion : (installation.document activity application).version = 1 := by
    rw [document, foldl_addPackaged]
    rfl
  have hfallback : (installation.document activity application).fallback =
      "automatic.default" := by
    rw [document, foldl_addPackaged]
    rfl
  have hregions : (installation.document activity application).regions = [] := by
    rw [document, foldl_addPackaged]
    rfl
  have hid : validateId "fallback" "automatic.default" = ok () := by decide +kernel
  have hprofiles := installation.document_profiles_length activity application
  have hcontributions := installation.document_contributions_length activity application
  have hrules := installation.document_rules_length activity application
  have hnonempty : (installation.document activity application).profiles.isEmpty = false := by
    rw [Bool.eq_false_iff, ne_eq, List.isEmpty_iff, ← List.length_eq_zero_iff]
    omega
  rw [ProfileDocument.validate, hversion, hfallback, hid, hregions, hnonempty, hprofiles]
  have hmax : maxProfiles = 64 := rfl
  have hmax' : maxContributions = 256 := rfl
  have hmax'' : maxRules = 256 := rfl
  by_cases hfew : installation.keptProfiles.length + 1 ≤ maxProfiles
  · -- the other limits on the numbers follow from that on the profiles
    have hfew' : (if installation.defaultItems.isEmpty then 0 else 1) +
        installation.keptProfiles.length ≤ 64 := by
      split_ifs <;> omega
    rw [if_pos hfew, decide_eq_false (p := maxProfiles < _) (by omega),
      decide_eq_false (p := maxContributions < _) (by omega),
      decide_eq_false (p := maxRules < _) (by omega)]
    rfl
  · rw [if_neg hfew, decide_eq_true (p := maxProfiles < _) (by omega)]
    rfl

theorem validate_document_iff :
    (installation.document activity application).validate = ok () ↔
      installation.keptProfiles.length + 1 ≤ maxProfiles ∧
        installation.usedItems.toFinset.card ≤ maxItems ∧
        installation.predicateNodes ≤ maxPredicateNodes := by
  rw [validate_head]
  by_cases hfew : installation.keptProfiles.length + 1 ≤ maxProfiles
  swap
  · rw [if_neg hfew]
    exact iff_of_false (fun h => by cases h) fun h => hfew h.1
  have hmax : maxProfiles = 64 := rfl
  have hnodes : maxPredicateNodes = 128 := rfl
  have hlength := installation.document_contributions_length activity application
  have hshort : (installation.document activity application).contributions.length ≤ 64 := by
    rw [hlength]
    split_ifs <;> omega
  have hcontributions := @validateContributions_eq_ok _ .empty .empty 0
    (installation.document_contributions activity application)
    (installation.document_contributions_nodup activity application) (fun _ _ => rfl) (by omega)
  rw [if_pos hfew, hcontributions, ok_bind, document_items, len_foldl_insert, card_qualified]
  by_cases hitems : installation.usedItems.toFinset.card ≤ maxItems
  swap
  · rw [decide_eq_true (by omega)]
    exact iff_of_false (fun h => by cases h) fun h => hitems h.2.1
  have hused : ∀ item ∈ installation.usedItems, (itemConfig item).qualified ∈
      (installation.usedItems.map fun item => (itemConfig item).qualified).foldl
        BTreeSet.insert .empty := fun item hitem =>
    BTreeSet.mem_foldl_insert.mpr (.inl (List.mem_map.mpr ⟨item, hitem, rfl⟩))
  have hknown : ∀ c ∈ (installation.document activity application).contributions, c.id ∈
      ((installation.document activity application).contributions.map
        ContributionConfig.id).foldl BTreeSet.insert .empty := fun c hc =>
    BTreeSet.mem_foldl_insert.mpr (.inl (List.mem_map_of_mem hc))
  have hprofiles := @validateProfiles_eq_ok _ _ _ .empty 0
    (installation.document_profiles activity application hknown hused)
    (installation.document_profiles_nodup activity application) fun _ _ => rfl
  rw [decide_eq_false (by omega), bailIf_false, ok_bind, hprofiles, ok_bind, document_profileIds,
    document_profiles_length]
  -- the fallback is the default profile, and the rules are for the kept ones
  have hdefault : (("automatic.default" :: installation.keptProfiles.map
      PackagedProfile.profileId).foldl BTreeSet.insert BTreeSet.empty).contains
        "automatic.default" = true :=
    BTreeSet.contains_iff.mpr (BTreeSet.mem_foldl_insert.mpr (.inl (List.mem_cons_self ..)))
  have hrules : ∀ packaged ∈ installation.keptProfiles, KnownProfile
      (("automatic.default" :: installation.keptProfiles.map PackagedProfile.profileId).foldl
        BTreeSet.insert BTreeSet.empty) packaged := by
    intro packaged hpackaged
    obtain ⟨-, itemIds, haccepted⟩ := accepted_of_mem hpackaged
    exact ⟨BTreeSet.contains_iff.mpr (BTreeSet.mem_foldl_insert.mpr
      (.inl (List.mem_cons_of_mem _ (List.mem_map_of_mem hpackaged)))),
      haccepted.activities, haccepted.applications⟩
  have helements : maxElements = 512 := rfl
  simp only [hdefault, Bool.not_true, bailIf_false, ok_bind, document_rules]
  rw [decide_eq_false (by omega), bailIf_false, ok_bind,
    validateRules_flatMap hrules (by omega), hlength, Nat.zero_add]
  show (if installation.predicateNodes ≤ maxPredicateNodes then ok () else _) = _ ↔ _
  by_cases hbudget : installation.predicateNodes ≤ maxPredicateNodes
  · rw [if_pos hbudget]
    exact iff_of_true rfl ⟨hfew, hitems, hbudget⟩
  · rw [if_neg hbudget]
    exact iff_of_false (fun h => by cases h) fun h => hbudget h.2.2

end Installation

lemma plain_iff {installation : Installation} :
    (installation.keptProfiles.isEmpty &&
      !installation.packages.any InstalledPackage.managesVisibility) = true ↔
      installation.Plain := by
  rw [Installation.Plain, Bool.and_eq_true, List.isEmpty_iff, Bool.not_eq_true',
    List.any_eq_false]
  simp only [Bool.not_eq_true]

/-- Without a document of the user, the merge validates the automatic document with the packages
added, unless there is nothing to merge. -/
lemma merge_none (installation : Installation) : ∃ activity application,
    installation.catalog.merge none =
      if installation.keptProfiles.isEmpty &&
          !installation.packages.any InstalledPackage.managesVisibility then ok none
      else do
        (installation.document activity application).validate
        return some (installation.document activity application) := by
  refine ⟨i32SaturatingSub (userPriorityFloor (automaticDocument
    (installation.defaultItems.map itemConfig))) 1, i32SaturatingSub (userPriorityFloor
      (automaticDocument (installation.defaultItems.map itemConfig))) 2, ?_⟩
  rw [Installation.catalog_eq]
  rfl

/-- The merge succeeds exactly when the packages fit into one document. -/
lemma merge_isOk_iff {installation : Installation} :
    (∃ merged, installation.catalog.merge none = ok merged) ↔ installation.Fits := by
  obtain ⟨activity, application, hmerge⟩ := merge_none installation
  rw [hmerge]
  by_cases hplain : installation.Plain
  · rw [if_pos (plain_iff.mpr hplain)]
    exact iff_of_true ⟨_, rfl⟩ (.inl hplain)
  · rw [if_neg fun h => hplain (plain_iff.mp h)]
    simp only [bind_eq_ok, pure_eq, Installation.Fits, hplain, false_or]
    rw [← installation.validate_document_iff activity application]
    constructor
    · rintro ⟨merged, _, hvalid, -⟩
      exact hvalid
    · exact fun hvalid => ⟨_, (), hvalid, rfl⟩

/-- The packages fit exactly when the merge succeeds, and the identifiers that it makes up tell the
source and the local name and are valid. -/
theorem merge_isOk_iff_fits (installation : Installation) :
    ((∃ merged, installation.catalog.merge none = ok merged) ↔ installation.Fits) ∧
      (∀ source source' localId localId',
        packagedDefinitionId source localId = packagedDefinitionId source' localId' ∨
          packagedDefinitionId source localId ++ ".items" =
            packagedDefinitionId source' localId' ++ ".items" →
        source = source' ∧ localId = localId') ∧
      ∀ package ∈ installation.packages, ∀ profile ∈ package.manifest.profiles, ∀ label,
        validateId label (packagedDefinitionId package.source profile.definition.id) = ok () ∧
          validateId label
            (packagedDefinitionId package.source profile.definition.id ++ ".items") = ok () := by
  refine ⟨merge_isOk_iff, ?_, ?_⟩
  · rintro source source' localId localId' (h | h)
    · exact packagedDefinitionId_inj h
    · exact packagedDefinitionId_inj (Text.append_right_cancel h)
  · intro package _ profile hprofile label
    exact validateId_packaged package.source_valid
      ((Packages.validate_profiles package.manifest_valid).1 profile hprofile).id label

/-- Sixty-four applications. -/
def applicationNames (start : String) : List String :=
  (List.range 64).map fun n => start ++ toString n

lemma validate_applicationNames {start : String} (field : String)
    (hvalid : (applicationNames start).all Packages.validIdentity = true) :
    Packages.validateContextIdentities field 0 .empty (applicationNames start) = [] := by
  apply Packages.validateContextIdentities_of_nodup
  · exact List.all_eq_true.mp hvalid
  · refine List.Nodup.map ?_ List.nodup_range
    intro n m heq
    exact Nat.repr_injective (Text.append_left_cancel heq)
  · intro value _
    exact BTreeSet.notMem_empty

/-- A package with a profile for editors and one for browsers. -/
def launcherManifest : PluginManifest where
  manifestVersion := 1
  plugin := ⟨"Launcher", "Starts things", "MIT"⟩
  items := [⟨"start", "Start", 160, true⟩]
  profiles := [⟨"Editors", "editors", ["start"], none, applicationNames "editor", []⟩,
    ⟨"Browsers", "browsers", ["start"], none, applicationNames "browser", []⟩]
  otherIssues := []

lemma launcherManifest_valid : launcherManifest.validate = ok () := by
  have heditors := fun field => @validate_applicationNames "editor" field (by decide +kernel)
  have hbrowsers := fun field => @validate_applicationNames "browser" field (by decide +kernel)
  simp only [Packages.PluginManifest.validate, launcherManifest, Packages.validateProfiles,
    Packages.validateProfileContent, heditors, hbrowsers]
  decide +kernel

def launcher : InstalledPackage where
  source := ⟨"a", "launcher"⟩
  source_valid := by decide +kernel
  manifest := launcherManifest
  manifest_valid := launcherManifest_valid
  enabledItems := .ofList ["start"]
  enabledProfiles := .ofList ["editors", "browsers"]

def launcherInstallation : Installation where
  packages := [launcher]
  distinct := List.nodup_singleton _

/-- Two profiles with as many identities as a manifest may name exceed the predicate nodes of a
document. -/
theorem launcher_not_merged :
    ¬ ∀ installation : Installation, ∃ merged, installation.catalog.merge none = ok merged := by
  intro h
  have hmany : maxPredicateNodes < launcherInstallation.predicateNodes := by decide +kernel
  rcases merge_isOk_iff.mp (h launcherInstallation) with ⟨hplain, -⟩ | ⟨-, -, hfew⟩
  · have hnone : launcherInstallation.keptProfiles.length = 2 := by decide +kernel
    rw [hplain] at hnone
    cases hnone
  · exact absurd hfew (by omega)

end TouchBar.Session
