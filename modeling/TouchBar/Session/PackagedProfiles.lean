import TouchBar.Config.Build
import TouchBar.Lib.Ranking

/-!
# Profiles from packages

Packages bring profiles of their own, which are selected by the activities and the
applications they name.  `merge` adds them to the document of the user with rules whose
priorities lie below the lowest priority of a user rule: an activity one below it, an
application two below it.  The subtraction saturates, so that at the lowest priorities
of an `i32` the three levels fall together, and the order of the rules decides.
-/

namespace TouchBar.Session

open TouchBar.Rust TouchBar.Lib TouchBar.Model TouchBar.Config Outcome

/-! ## Merging -/

structure GithubSource where
  owner : String
  repository : String
deriving DecidableEq, Repr

/-- `Display`. -/
def GithubSource.display (source : GithubSource) : String :=
  "github:" ++ source.owner ++ "/" ++ source.repository

/-- A profile of a manifest. -/
structure AutomaticProfile where
  id : String
  items : List String
  principalItem : Option String
  applications : List String
  activities : List String
deriving DecidableEq, Repr

structure PackagedProfile where
  source : GithubSource
  definition : AutomaticProfile
deriving DecidableEq, Repr

structure PackagedProfileCatalog where
  enabledItems : List ProfileItemConfig
  profiles : List PackagedProfile
  managesDefaultVisibility : Bool

/-- `i32::MIN`. -/
def i32Min : ℤ := -2 ^ 31

/-- `saturating_sub` of an `i32` for an amount that is not negative. -/
def i32SaturatingSub (a b : ℤ) : ℤ := max (a - b) i32Min

def packagedDefinitionId (source : GithubSource) (localId : String) : String :=
  "package." ++ toString (Text.len source.owner) ++ "." ++ source.owner ++ "." ++
    toString (Text.len source.repository) ++ "." ++ source.repository ++ "." ++ localId

/-- One predicate alone, or any of several. -/
def anyPredicate (predicates : List PredicateConfig) : PredicateConfig :=
  match predicates with
  | [predicate] => predicate
  | predicates => .any predicates

def exactTextMatches (key : String) (values : List String) : PredicateConfig :=
  anyPredicate (values.map fun value => .textEquals key value)

def exactActivityMatches (values : List String) : PredicateConfig :=
  anyPredicate (values.map fun value => .booleanEquals ("activity." ++ value) true)

/-- The document of a user who has none. -/
def automaticDocument (enabledItems : List ProfileItemConfig) : ProfileDocument :=
  let (contributions, elements) :=
    if enabledItems.isEmpty then ([], [.flexibleSpace 0 1])
    else
      ([⟨"automatic.installed-items", enabledItems, .global, 0, .always⟩],
        [.slot "installed-items" .fixed ["automatic.installed-items"]])
  { version := profileConfigVersion
    fallback := "automatic.default"
    contributions := contributions
    profiles := [⟨"automatic.default", elements, none⟩]
    rules := []
    regions := [] }

namespace PackagedProfile

variable (packaged : PackagedProfile)

def profileId : String := packagedDefinitionId packaged.source packaged.definition.id

def contributionId : String := packaged.profileId ++ ".items"

def contribution : ContributionConfig where
  id := packaged.contributionId
  items := packaged.definition.items.map fun item => ⟨packaged.source.display, item, false⟩
  scope := .global
  priority := 0
  when := .always

def profile : ProfileConfig where
  id := packaged.profileId
  elements := [.slot "package-items" .fixed [packaged.contributionId]]
  principalItem := packaged.definition.principalItem.map fun item =>
    ⟨packaged.source.display, item⟩

/-- The rules that select the profile: by activity first, then by application. -/
def rules (activityPriority applicationPriority : ℤ) : List ProfileRuleConfig :=
  (if packaged.definition.activities.isEmpty then []
    else [⟨packaged.profileId, activityPriority,
      exactActivityMatches packaged.definition.activities⟩]) ++
  (if packaged.definition.applications.isEmpty then []
    else [⟨packaged.profileId, applicationPriority,
      exactTextMatches "application.id" packaged.definition.applications⟩])

end PackagedProfile

/-- One turn of the loop over the packaged profiles. -/
def addPackaged (activityPriority applicationPriority : ℤ) (document : ProfileDocument)
    (packaged : PackagedProfile) : ProfileDocument :=
  { document with
    contributions := document.contributions ++ [packaged.contribution]
    profiles := document.profiles ++ [packaged.profile]
    rules := document.rules ++ packaged.rules activityPriority applicationPriority }

/-- The lowest priority of a rule, zero without rules. -/
def userPriorityFloor (document : ProfileDocument) : ℤ :=
  (document.rules.map ProfileRuleConfig.priority).min?.getD 0

namespace PackagedProfileCatalog

variable (catalog : PackagedProfileCatalog)

def merge (user : Option ProfileDocument) : Outcome ConfigError (Option ProfileDocument) :=
  if catalog.profiles.isEmpty && (user.isSome || !catalog.managesDefaultVisibility) then ok user
  else do
    let document := user.getD (automaticDocument catalog.enabledItems)
    let floor := userPriorityFloor document
    let applicationPriority := i32SaturatingSub floor 2
    let activityPriority := i32SaturatingSub floor 1
    let document :=
      catalog.profiles.foldl (addPackaged activityPriority applicationPriority) document
    document.validate
    return some document

end PackagedProfileCatalog

section Loop

variable (activityPriority applicationPriority : ℤ) (profiles : List PackagedProfile)
  (document : ProfileDocument)

lemma foldl_addPackaged_rules :
    (profiles.foldl (addPackaged activityPriority applicationPriority) document).rules =
      document.rules ++ profiles.flatMap (·.rules activityPriority applicationPriority) := by
  induction profiles generalizing document with
  | nil => simp
  | cons packaged profiles ih => simp [ih, addPackaged]

lemma foldl_addPackaged_profiles :
    (profiles.foldl (addPackaged activityPriority applicationPriority) document).profiles =
      document.profiles ++ profiles.map PackagedProfile.profile := by
  induction profiles generalizing document with
  | nil => simp
  | cons packaged profiles ih => simp [ih, addPackaged]

lemma foldl_addPackaged_fallback :
    (profiles.foldl (addPackaged activityPriority applicationPriority) document).fallback =
      document.fallback := by
  induction profiles generalizing document with
  | nil => rfl
  | cons packaged profiles ih => simp [ih, addPackaged]

end Loop

/-! ## What the selection should be -/

namespace PackagedProfile

/-- One of the activities of the package is going on. -/
def activityMatches (context : ContextSnapshot) (packaged : PackagedProfile) : Bool :=
  packaged.definition.activities.any fun activity =>
    context.facts.get ("activity." ++ activity) = some (.boolean true)

/-- The application in front is one of the package. -/
def applicationMatches (context : ContextSnapshot) (packaged : PackagedProfile) : Bool :=
  packaged.definition.applications.any fun application =>
    context.facts.get "application.id" = some (.text application)

end PackagedProfile

/-- Some rule of the user matches. -/
def userMatches (user : ProfileDocument) (context : ContextSnapshot) : Bool :=
  user.rules.any fun rule => rule.when.toModel.matchesContext context

/-- The order of precedence: the rules of the user, then activities, then applications, then
the fallback of the user. -/
def PackagedProfileCatalog.preferred (catalog : PackagedProfileCatalog) (user : ProfileDocument)
    (context : ContextSnapshot) : ProfileId :=
  if userMatches user context then user.selector.select context
  else
    match catalog.profiles.find? (·.activityMatches context) with
    | some packaged => ⟨packaged.profileId⟩
    | none =>
      match catalog.profiles.find? (·.applicationMatches context) with
      | some packaged => ⟨packaged.profileId⟩
      | none => ⟨user.fallback⟩

/-! ## Selection among rules -/

lemma candidates_map_fst {rules : List ProfileRule} {p : ProfileRule → Bool} :
    (rules.zipIdx.filter fun rule => p rule.1).map Prod.fst = rules.filter p := by
  have hfilter : (rules.zipIdx.map Prod.fst).filter p = _ := List.filter_map
  rw [List.zipIdx_map_fst] at hfilter
  exact hfilter.symm

lemma candidates_sorted {rules : List ProfileRule} {p : ProfileRule × ℕ → Bool} :
    (rules.zipIdx.filter p).Pairwise fun x y => x.2 < y.2 := by
  have hindices : (rules.zipIdx.map Prod.snd).Pairwise (· < ·) := by
    rw [List.zipIdx_map_snd]
    exact List.pairwise_lt_range'
  exact (List.pairwise_map.mp hindices).sublist List.filter_sublist

section Select

variable {selector : ProfileSelector} {context : ContextSnapshot} {rule : ProfileRule}

/-- The rule with the first of the highest priorities decides. -/
lemma select_eq_of_firstBest (h : FirstBest ProfileRule.priority
      (selector.rules.filter fun rule => rule.predicate.matchesContext context) rule) :
    selector.select context = rule.profile := by
  rw [← candidates_map_fst] at h
  obtain ⟨i, hmax⟩ := maxByKey_eq_of_firstBest candidates_sorted h
  simp only [ProfileSelector.select, hmax]

lemma select_eq_fallback
    (h : (selector.rules.filter fun rule => rule.predicate.matchesContext context) = []) :
    selector.select context = selector.fallback := by
  rw [← candidates_map_fst, List.map_eq_nil_iff] at h
  simp only [ProfileSelector.select, h, maxByKey_nil]

end Select

/-! ## The rules that match -/

variable {context : ContextSnapshot}

lemma listToModel_eq_map (predicates : List PredicateConfig) :
    PredicateConfig.listToModel predicates = predicates.map PredicateConfig.toModel := by
  induction predicates with
  | nil => rfl
  | cons predicate predicates ih => rw [PredicateConfig.listToModel, ih, List.map_cons]

lemma anyMatch_eq_any (predicates : List ContextPredicate) :
    ContextPredicate.anyMatch predicates context = predicates.any (·.matchesContext context) := by
  induction predicates with
  | nil => rfl
  | cons predicate predicates ih => rw [ContextPredicate.anyMatch, ih, List.any_cons]

lemma anyPredicate_matches (predicates : List PredicateConfig) :
    (anyPredicate predicates).toModel.matchesContext context =
      predicates.any (·.toModel.matchesContext context) := by
  have hany : (PredicateConfig.any predicates).toModel.matchesContext context =
      predicates.any (·.toModel.matchesContext context) := by
    rw [PredicateConfig.toModel, ContextPredicate.matchesContext, anyMatch_eq_any,
      listToModel_eq_map, List.any_map]
    rfl
  cases predicates with
  | nil => exact hany
  | cons predicate predicates =>
    cases predicates with
    | nil => simp [anyPredicate]
    | cons predicate' predicates => exact hany

def ruleToModel (rule : ProfileRuleConfig) : ProfileRule :=
  ⟨⟨rule.profile⟩, rule.priority, rule.when.toModel⟩

/-- The rules that match, in order. -/
def matching (context : ContextSnapshot) (rules : List ProfileRuleConfig) : List ProfileRule :=
  (rules.map ruleToModel).filter fun rule => rule.predicate.matchesContext context

lemma matching_append (rules rules' : List ProfileRuleConfig) :
    matching context (rules ++ rules') = matching context rules ++ matching context rules' := by
  rw [matching, List.map_append, List.filter_append]
  rfl

lemma matching_flatMap {α : Type} (f : α → List ProfileRuleConfig) (l : List α) :
    matching context (l.flatMap f) = l.flatMap fun a => matching context (f a) := by
  induction l with
  | nil => rfl
  | cons a l ih => rw [List.flatMap_cons, matching_append, ih, List.flatMap_cons]

lemma matching_eq_nil_iff {user : ProfileDocument} :
    matching context user.rules = [] ↔ userMatches user context = false := by
  simp [matching, userMatches, ruleToModel]

lemma mem_matching {rules : List ProfileRuleConfig} {rule : ProfileRule}
    (h : rule ∈ matching context rules) : ∃ r ∈ rules, ruleToModel r = rule := by
  obtain ⟨r, hr, heq⟩ := List.mem_map.mp (List.mem_filter.mp h).1
  exact ⟨r, hr, heq⟩

section Packaged

variable {activity application : ℤ} {packaged : PackagedProfile}

/-- Of a package, the rules that match are those for its activities and applications. -/
lemma matching_packaged :
    matching context (packaged.rules activity application) =
      (if packaged.activityMatches context then [ruleToModel ⟨packaged.profileId, activity,
          exactActivityMatches packaged.definition.activities⟩] else []) ++
      (if packaged.applicationMatches context then [ruleToModel ⟨packaged.profileId, application,
          exactTextMatches "application.id" packaged.definition.applications⟩] else []) := by
  have hactivity : (exactActivityMatches packaged.definition.activities).toModel.matchesContext
      context = packaged.activityMatches context := by
    rw [exactActivityMatches, anyPredicate_matches, List.any_map]
    rfl
  have happlication : (exactTextMatches "application.id"
      packaged.definition.applications).toModel.matchesContext context =
      packaged.applicationMatches context := by
    rw [exactTextMatches, anyPredicate_matches, List.any_map]
    rfl
  rw [PackagedProfile.rules, matching_append]
  congr 1
  · split_ifs with hempty hmatches hmatches
    · rw [PackagedProfile.activityMatches, List.isEmpty_iff.mp hempty] at hmatches
      cases hmatches
    · rfl
    · simp [matching, ruleToModel, hactivity, hmatches]
    · simp [matching, ruleToModel, hactivity, hmatches]
  · split_ifs with hempty hmatches hmatches
    · rw [PackagedProfile.applicationMatches, List.isEmpty_iff.mp hempty] at hmatches
      cases hmatches
    · rfl
    · simp [matching, ruleToModel, happlication, hmatches]
    · simp [matching, ruleToModel, happlication, hmatches]

/-- A package without a match adds no rule. -/
lemma matching_packaged_eq_nil (h : ¬ (packaged.activityMatches context ||
    packaged.applicationMatches context) = true) :
    matching context (packaged.rules activity application) = [] := by
  rw [Bool.or_eq_true, not_or] at h
  rw [matching_packaged, if_neg h.1, if_neg h.2]
  rfl

lemma priority_of_mem_packaged {rule : ProfileRule}
    (h : rule ∈ matching context (packaged.rules activity application)) :
    rule.priority = activity ∧ packaged.activityMatches context = true ∨
      rule.priority = application := by
  rw [matching_packaged, List.mem_append] at h
  rcases h with h | h
  · split_ifs at h with hmatches
    · rw [List.mem_singleton.mp h]
      exact .inl ⟨rfl, hmatches⟩
    · simp at h
  · split_ifs at h with hmatches
    · rw [List.mem_singleton.mp h]
      exact .inr rfl
    · simp at h

end Packaged

/-! ## The best rule of the packages -/

section Packages

variable {activity application : ℤ} {profiles : List PackagedProfile} {packaged : PackagedProfile}

lemma priority_le_of_mem {rule : ProfileRule} (hle : application ≤ activity)
    (h : rule ∈ profiles.flatMap fun p => matching context (p.rules activity application)) :
    rule.priority ≤ activity := by
  obtain ⟨p, -, hmem⟩ := List.mem_flatMap.mp h
  rcases priority_of_mem_packaged hmem with ⟨heq, -⟩ | heq
  · exact heq.le
  · exact heq.trans_le hle

/-- An activity is preferred to the applications of the packages before it. -/
lemma firstBest_activity (hlt : application < activity)
    (h : profiles.find? (·.activityMatches context) = some packaged) :
    ∃ rule, rule.profile = ⟨packaged.profileId⟩ ∧ FirstBest ProfileRule.priority
      (profiles.flatMap fun p => matching context (p.rules activity application)) rule := by
  obtain ⟨hmatches, front, back, rfl, hfront⟩ := List.find?_eq_some_iff_append.mp h
  refine ⟨ruleToModel ⟨packaged.profileId, activity,
    exactActivityMatches packaged.definition.activities⟩, rfl, ?_⟩
  rw [List.flatMap_append, List.flatMap_cons, matching_packaged, if_pos hmatches,
    List.append_assoc, List.singleton_append]
  refine (firstBest_cons fun rule hrule => ?_).append_left fun rule hrule => ?_
  · rcases List.mem_append.mp hrule with hrule | hrule
    · split_ifs at hrule
      · rw [List.mem_singleton.mp hrule]
        exact hlt.le
      · simp at hrule
    · exact priority_le_of_mem hlt.le hrule
  · obtain ⟨p, hp, hmem⟩ := List.mem_flatMap.mp hrule
    rcases priority_of_mem_packaged hmem with ⟨-, hactivity⟩ | heq
    · have hnot := hfront p hp
      rw [hactivity] at hnot
      cases hnot
    · exact heq.trans_lt hlt

/-- The packages before the first one with a match add no rule. -/
lemma flatMap_matching_eq (h : profiles.find? (fun p => p.activityMatches context ||
    p.applicationMatches context) = some packaged) :
    ∃ back : List PackagedProfile,
      (profiles.flatMap fun p => matching context (p.rules activity application)) =
        matching context (packaged.rules activity application) ++
          back.flatMap fun p => matching context (p.rules activity application) := by
  obtain ⟨-, front, back, rfl, hfront⟩ := List.find?_eq_some_iff_append.mp h
  refine ⟨back, ?_⟩
  have hnil : (front.flatMap fun p => matching context (p.rules activity application)) = [] := by
    refine List.flatMap_eq_nil_iff.mpr fun p hp => matching_packaged_eq_nil ?_
    simpa using hfront p hp
  rw [List.flatMap_append, List.flatMap_cons, hnil, List.nil_append]

/-- The first package with a match is selected unless a later rule has a higher priority. -/
lemma firstBest_first {bound : ℤ}
    (h : profiles.find? (fun p => p.activityMatches context || p.applicationMatches context) =
      some packaged)
    (hbound : ∀ rule ∈ profiles.flatMap fun p => matching context (p.rules activity application),
      rule.priority ≤ bound)
    (hhead : bound = if packaged.activityMatches context then activity else application) :
    ∃ rule, rule.profile = ⟨packaged.profileId⟩ ∧ FirstBest ProfileRule.priority
      (profiles.flatMap fun p => matching context (p.rules activity application)) rule := by
  obtain ⟨back, heq⟩ := @flatMap_matching_eq context activity application profiles packaged h
  have hmatches := List.find?_some h
  rw [heq] at hbound ⊢
  by_cases hactivity : packaged.activityMatches context = true
  · rw [if_pos hactivity] at hhead
    rw [matching_packaged, if_pos hactivity, List.append_assoc, List.singleton_append] at hbound ⊢
    refine ⟨_, rfl, firstBest_cons fun rule hrule => ?_⟩
    exact (hbound rule (List.mem_cons_of_mem _ hrule)).trans hhead.le
  · have happlication : packaged.applicationMatches context = true := by
      simpa [hactivity] using hmatches
    rw [if_neg hactivity] at hhead
    rw [matching_packaged, if_neg hactivity, if_pos happlication, List.nil_append,
      List.singleton_append] at hbound ⊢
    refine ⟨_, rfl, firstBest_cons fun rule hrule => ?_⟩
    exact (hbound rule (List.mem_cons_of_mem _ hrule)).trans hhead.le

/-- Without activities, the first package with a match is the first whose application matches. -/
lemma find?_either_of_no_activity
    (hno : ∀ p ∈ profiles, ¬ p.activityMatches context = true) :
    profiles.find? (fun p => p.activityMatches context || p.applicationMatches context) =
      profiles.find? (·.applicationMatches context) :=
  List.find?_congr fun p hp => by simp [Bool.eq_false_iff.mpr (hno p hp)]

/-- When only applications match, all rules have the same priority. -/
lemma firstBest_application (hno : ∀ p ∈ profiles, ¬ p.activityMatches context = true)
    (h : profiles.find? (·.applicationMatches context) = some packaged) :
    ∃ rule, rule.profile = ⟨packaged.profileId⟩ ∧ FirstBest ProfileRule.priority
      (profiles.flatMap fun p => matching context (p.rules activity application)) rule := by
  have hbound : ∀ rule ∈ profiles.flatMap fun p =>
      matching context (p.rules activity application), rule.priority ≤ application := by
    intro rule hrule
    obtain ⟨p, hp, hmem⟩ := List.mem_flatMap.mp hrule
    rcases priority_of_mem_packaged hmem with ⟨-, hactivity⟩ | heq
    · exact absurd hactivity (hno p hp)
    · exact heq.le
  refine firstBest_first ((find?_either_of_no_activity hno).trans h) hbound ?_
  rw [if_neg (hno packaged (List.mem_of_find?_eq_some h))]

/-- No package matches. -/
lemma flatMap_matching_eq_nil
    (h : profiles.find? (fun p => p.activityMatches context || p.applicationMatches context) =
      none) :
    (profiles.flatMap fun p => matching context (p.rules activity application)) = [] :=
  List.flatMap_eq_nil_iff.mpr fun p hp =>
    matching_packaged_eq_nil (List.find?_eq_none.mp h p hp)

end Packages

/-! ## The merged document -/

lemma validateProfiles_nodup {contributionIds allItems profileIds : BTreeSet String}
    {profiles : List ProfileConfig} {count : ℕ} {r : BTreeSet String × ℕ}
    (h : Config.validateProfiles contributionIds allItems profiles profileIds count = ok r) :
    (profiles.map ProfileConfig.id).Nodup ∧
      ∀ id ∈ profiles.map ProfileConfig.id, profileIds.contains id = false := by
  induction profiles generalizing profileIds count with
  | nil => simp
  | cons profile profiles ih =>
    simp only [Config.validateProfiles, bind_eq_ok] at h
    obtain ⟨_, -, _, hfresh, _, -, h⟩ := h
    obtain ⟨count, hrest⟩ : ∃ count, Config.validateProfiles contributionIds allItems profiles
        (profileIds.insert profile.id) count = ok r := by
      cases hprincipal : profile.principalItem with
      | none =>
        rw [hprincipal] at h
        simp only [bind_eq_ok] at h
        obtain ⟨_, -, seen, -, hrest⟩ := h
        exact ⟨_, hrest⟩
      | some principal =>
        rw [hprincipal] at h
        simp only [bind_eq_ok] at h
        obtain ⟨_, -, _, -, _, -, seen, -, hrest⟩ := h
        exact ⟨_, hrest⟩
    obtain ⟨hnodup, hnew⟩ := ih hrest
    have hcontains : profileIds.contains profile.id = false := by
      rw [bailIf] at hfresh
      split_ifs at hfresh with hcontains
      exact Bool.eq_false_iff.mpr hcontains
    rw [List.map_cons]
    refine ⟨List.nodup_cons.mpr ⟨fun hmem => ?_, hnodup⟩, fun id hid => ?_⟩
    · have hno := hnew _ hmem
      rw [BTreeSet.contains_iff.mpr (BTreeSet.mem_insert.mpr (.inl rfl))] at hno
      cases hno
    · rcases List.mem_cons.mp hid with rfl | hid
      · exact hcontains
      · have hno := hnew id hid
        simp only [Bool.eq_false_iff, ne_eq, BTreeSet.contains_iff, BTreeSet.mem_insert, not_or]
          at hno ⊢
        exact hno.2

lemma nodup_of_validate {document : ProfileDocument} (h : document.validate = ok ()) :
    (document.profiles.map ProfileConfig.id).Nodup := by
  simp only [ProfileDocument.validate, bind_eq_ok, Prod.exists] at h
  obtain ⟨_, -, _, -, _, -, _, -, _, -, _, -, _, -, seen, -, _, -, ids, count, hprofiles, -⟩ := h
  exact (validateProfiles_nodup hprofiles).1

section Merged

variable {catalog : PackagedProfileCatalog} {user merged : ProfileDocument}

/-- What the merged document consists of: the rules of the user, then those of the packages. -/
lemma merge_some (hmerge : catalog.merge (some user) = ok (some merged)) :
    merged.rules = user.rules ++ catalog.profiles.flatMap
        (·.rules (i32SaturatingSub (userPriorityFloor user) 1)
          (i32SaturatingSub (userPriorityFloor user) 2)) ∧
      merged.fallback = user.fallback ∧
      (catalog.profiles.map PackagedProfile.profileId).Nodup := by
  rw [PackagedProfileCatalog.merge] at hmerge
  split_ifs at hmerge with hempty
  · -- nothing is merged
    obtain rfl : user = merged := Option.some.inj (Outcome.ok.inj hmerge)
    rw [Option.isSome_some, Bool.true_or, Bool.and_true, List.isEmpty_iff] at hempty
    rw [hempty]
    simp
  · simp only [bind_eq_ok, Option.getD_some, pure_eq, ok.injEq, Option.some.injEq] at hmerge
    obtain ⟨_, hvalid, rfl⟩ := hmerge
    have hnodup := nodup_of_validate hvalid
    rw [foldl_addPackaged_profiles, List.map_append, List.map_map] at hnodup
    exact ⟨foldl_addPackaged_rules .., foldl_addPackaged_fallback .., hnodup.of_append_right⟩

/-- The priorities of the user leave room for two levels below them, or the order of the rules
decides rightly. -/
def Separated (catalog : PackagedProfileCatalog) (user : ProfileDocument)
    (context : ContextSnapshot) : Prop :=
  i32Min + 2 ≤ userPriorityFloor user ∨ userMatches user context = true ∨
    ∀ packaged, catalog.profiles.find? (fun p => p.activityMatches context ||
        p.applicationMatches context) = some packaged →
      (∃ p ∈ catalog.profiles, p.activityMatches context = true) →
      packaged.activityMatches context = true

lemma floor_le {rule : ProfileRuleConfig} (h : rule ∈ user.rules) :
    userPriorityFloor user ≤ rule.priority := by
  have hmem : rule.priority ∈ user.rules.map ProfileRuleConfig.priority :=
    List.mem_map_of_mem h
  rw [userPriorityFloor]
  cases hmin : (user.rules.map ProfileRuleConfig.priority).min? with
  | none =>
    rw [List.min?_eq_none_iff] at hmin
    rw [hmin] at hmem
    simp at hmem
  | some least => exact (List.min?_eq_some_iff.mp hmin).2 _ hmem

lemma i32Min_le_floor (h : ∀ rule ∈ user.rules, i32Min ≤ rule.priority) :
    i32Min ≤ userPriorityFloor user := by
  rw [userPriorityFloor]
  cases hmin : (user.rules.map ProfileRuleConfig.priority).min? with
  | none => decide
  | some least =>
    obtain ⟨rule, hrule, rfl⟩ := List.mem_map.mp (List.min?_eq_some_iff.mp hmin).1
    exact h rule hrule

/-- If a rule of the user matches, the packages change nothing. -/
lemma select_merged_of_userMatches (hmerge : catalog.merge (some user) = ok (some merged))
    (hpriorities : ∀ rule ∈ user.rules, i32Min ≤ rule.priority)
    (hmatches : userMatches user context = true) :
    merged.selector.select context = user.selector.select context := by
  obtain ⟨hrules, -, -⟩ := merge_some hmerge
  have hne : matching context user.rules ≠ [] := by
    rw [ne_eq, matching_eq_nil_iff, hmatches]
    decide
  obtain ⟨rule, hrule⟩ : ∃ rule, FirstBest ProfileRule.priority _ rule := exists_firstBest hne
  rw [@select_eq_of_firstBest user.selector context rule hrule]
  refine select_eq_of_firstBest ?_
  change FirstBest ProfileRule.priority (matching context merged.rules) rule
  rw [hrules, matching_append, matching_flatMap]
  refine hrule.append fun other hother => ?_
  obtain ⟨userRule, huser, rfl⟩ := mem_matching hrule.mem
  have hfloor : userPriorityFloor user ≤ userRule.priority := floor_le huser
  have hleast := i32Min_le_floor hpriorities
  have hother' : other.priority ≤ i32SaturatingSub (userPriorityFloor user) 1 :=
    priority_le_of_mem (by simp only [i32SaturatingSub]; omega) hother
  show other.priority ≤ userRule.priority
  rw [i32SaturatingSub] at hother'
  omega

/-- Without a match among the rules of the user, the packages decide. -/
lemma select_merged_of_firstBest (hmerge : catalog.merge (some user) = ok (some merged))
    (hmatches : userMatches user context = false) {rule : ProfileRule}
    (h : FirstBest ProfileRule.priority (catalog.profiles.flatMap fun p => matching context
      (p.rules (i32SaturatingSub (userPriorityFloor user) 1)
        (i32SaturatingSub (userPriorityFloor user) 2))) rule) :
    merged.selector.select context = rule.profile := by
  obtain ⟨hrules, -, -⟩ := merge_some hmerge
  refine select_eq_of_firstBest ?_
  change FirstBest ProfileRule.priority (matching context merged.rules) rule
  rwa [hrules, matching_append, matching_flatMap, matching_eq_nil_iff.mpr hmatches,
    List.nil_append]

lemma select_merged_fallback (hmerge : catalog.merge (some user) = ok (some merged))
    (hmatches : userMatches user context = false)
    (h : catalog.profiles.find? (fun p => p.activityMatches context ||
      p.applicationMatches context) = none) :
    merged.selector.select context = ⟨user.fallback⟩ := by
  obtain ⟨hrules, hfallback, -⟩ := merge_some hmerge
  have hnil : matching context merged.rules = [] := by
    rw [hrules, matching_append, matching_flatMap, matching_eq_nil_iff.mpr hmatches,
      flatMap_matching_eq_nil h]
    rfl
  rw [@select_eq_fallback merged.selector context hnil]
  exact congrArg ProfileId.mk hfallback

/-- The selection of the merged document follows the order of precedence exactly when the
priorities keep the levels apart or the order of the rules does. -/
theorem merge_select_eq_preferred_iff (hmerge : catalog.merge (some user) = ok (some merged))
    (hpriorities : ∀ rule ∈ user.rules, i32Min ≤ rule.priority) (context : ContextSnapshot) :
    merged.selector.select context = catalog.preferred user context ↔
      Separated catalog user context := by
  obtain ⟨-, -, hnodup⟩ := merge_some hmerge
  cases hmatches : userMatches user context with
  | true =>
    rw [select_merged_of_userMatches hmerge hpriorities hmatches,
      PackagedProfileCatalog.preferred, if_pos hmatches]
    exact iff_of_true rfl (.inr (.inl hmatches))
  | false =>
    rw [PackagedProfileCatalog.preferred, if_neg (by simp [hmatches])]
    have hleast := i32Min_le_floor hpriorities
    have hle : i32SaturatingSub (userPriorityFloor user) 2 ≤
        i32SaturatingSub (userPriorityFloor user) 1 := by
      simp only [i32SaturatingSub]
      omega
    cases hactive : catalog.profiles.find? (·.activityMatches context) with
    | none =>
      have hno := List.find?_eq_none.mp hactive
      have hseparated : Separated catalog user context := by
        refine .inr (.inr fun packaged _ hexists => ?_)
        obtain ⟨p, hp, hactivity⟩ := hexists
        exact absurd hactivity (hno p hp)
      refine iff_of_true ?_ hseparated
      cases happlication : catalog.profiles.find? (·.applicationMatches context) with
      | none =>
        exact select_merged_fallback hmerge hmatches
          ((find?_either_of_no_activity hno).trans happlication)
      | some packaged =>
        obtain ⟨rule, hprofile, hrule⟩ := firstBest_application hno happlication
        exact (select_merged_of_firstBest hmerge hmatches hrule).trans hprofile
    | some preferred =>
      have hpreferred := List.find?_some hactive
      by_cases hroom : i32Min + 2 ≤ userPriorityFloor user
      · -- the levels are apart
        have hlt : i32SaturatingSub (userPriorityFloor user) 2 <
            i32SaturatingSub (userPriorityFloor user) 1 := by
          simp only [i32SaturatingSub]
          omega
        obtain ⟨rule, hprofile, hrule⟩ := firstBest_activity hlt hactive
        refine iff_of_true ?_ (.inl hroom)
        exact (select_merged_of_firstBest hmerge hmatches hrule).trans hprofile
      · -- the levels fall together: the first package with a match is selected
        obtain ⟨packaged, heither⟩ : ∃ packaged, catalog.profiles.find? (fun p =>
            p.activityMatches context || p.applicationMatches context) = some packaged := by
          refine Option.isSome_iff_exists.mp (List.find?_isSome.mpr ?_)
          exact ⟨preferred, List.mem_of_find?_eq_some hactive, by simp [hpreferred]⟩
        have hequal : i32SaturatingSub (userPriorityFloor user) 2 =
            i32SaturatingSub (userPriorityFloor user) 1 := by
          simp only [i32SaturatingSub]
          omega
        obtain ⟨rule, hprofile, hrule⟩ := firstBest_first heither
          (fun rule hrule => priority_le_of_mem hle hrule) (by rw [hequal, ite_self])
        rw [select_merged_of_firstBest hmerge hmatches hrule, hprofile]
        constructor
        · intro heq
          refine .inr (.inr fun other hother _ => ?_)
          obtain rfl := Option.some.inj (heither.symm.trans hother)
          have hsame : packaged = preferred :=
            List.inj_on_of_nodup_map hnodup (List.mem_of_find?_eq_some heither)
              (List.mem_of_find?_eq_some hactive) (congrArg ProfileId.value heq)
          rw [hsame]
          exact hpreferred
        · intro hseparated
          have hactivity : packaged.activityMatches context = true := by
            rcases hseparated with hfar | huser | hordered
            · exact absurd hfar hroom
            · rw [hmatches] at huser
              cases huser
            · exact hordered packaged heither
                ⟨preferred, List.mem_of_find?_eq_some hactive, hpreferred⟩
          -- nothing before it matches, so it is the first with an activity
          obtain ⟨-, front, back, hprofiles, hfront⟩ := List.find?_eq_some_iff_append.mp heither
          have hfirst : catalog.profiles.find? (·.activityMatches context) = some packaged := by
            refine List.find?_eq_some_iff_append.mpr
              ⟨hactivity, front, back, hprofiles, fun p hp => ?_⟩
            have hnot := hfront p hp
            rw [Bool.not_eq_true', Bool.or_eq_false_iff] at hnot
            rw [hnot.1]
            rfl
          rw [Option.some.inj (hactive.symm.trans hfirst)]

end Merged

/-- A document with one rule, for an editor. -/
def editorDocument (priority : ℤ) : ProfileDocument where
  version := 1
  fallback := "main"
  contributions := []
  profiles := [⟨"main", [.flexibleSpace 0 1], none⟩]
  rules := [⟨"main", priority, .textEquals "application.id" "editor"⟩]
  regions := []

/-- A browser in front, and a picker that opens over any application. -/
def pickerCatalog : PackagedProfileCatalog where
  enabledItems := []
  profiles := [⟨⟨"a", "browser"⟩, ⟨"tabs", ["tab"], none, ["browser"], []⟩⟩,
    ⟨⟨"b", "picker"⟩, ⟨"menu", ["choice"], none, [], ["picker"]⟩⟩]
  managesDefaultVisibility := true

/-- The picker is open over the browser. -/
def pickerOpen : ContextSnapshot where
  generation := 1
  facts := (BTreeMap.empty.insert "activity.picker" (.boolean true)).insert "application.id"
    (.text "browser")

theorem merge_select_eq_preferred_iff_zero :
    ∃ merged, pickerCatalog.merge (some (editorDocument 0)) = ok (some merged) ∧
      merged.selector.select pickerOpen = ⟨"package.1.b.6.picker.menu"⟩ := by
  have hvalid : (pickerCatalog.profiles.foldl (addPackaged (i32SaturatingSub 0 1)
      (i32SaturatingSub 0 2)) (editorDocument 0)).validate = ok () := by decide
  have hmerge : pickerCatalog.merge (some (editorDocument 0)) = ok (some _) :=
    congrArg (· >>= fun _ => ok (some _)) hvalid
  refine ⟨_, hmerge, ?_⟩
  have hpriorities : ∀ rule ∈ (editorDocument 0).rules, i32Min ≤ rule.priority := by decide
  rw [(merge_select_eq_preferred_iff hmerge hpriorities pickerOpen).mpr (.inl (by decide))]
  decide

/-- Below a rule of the lowest priority, the application wins over the picker in front of it. -/
theorem merge_select_lowest :
    ∃ merged, pickerCatalog.merge (some (editorDocument i32Min)) = ok (some merged) ∧
      (editorDocument i32Min).validate = ok () ∧
      userMatches (editorDocument i32Min) pickerOpen = false ∧
      merged.selector.select pickerOpen = ⟨"package.1.a.7.browser.tabs"⟩ ∧
      pickerCatalog.preferred (editorDocument i32Min) pickerOpen =
        ⟨"package.1.b.6.picker.menu"⟩ := by
  have hvalid : (pickerCatalog.profiles.foldl (addPackaged (i32SaturatingSub i32Min 1)
      (i32SaturatingSub i32Min 2)) (editorDocument i32Min)).validate = ok () := by decide
  have hmerge : pickerCatalog.merge (some (editorDocument i32Min)) = ok (some _) :=
    congrArg (· >>= fun _ => ok (some _)) hvalid
  exact ⟨_, hmerge, by decide, by decide, by decide, by decide⟩

end TouchBar.Session
