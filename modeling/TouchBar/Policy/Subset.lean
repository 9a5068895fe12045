import TouchBar.Lib.Covering
import TouchBar.Lib.Lists
import TouchBar.Policy.Validate

/-!
# When a scope lies within another

`is_subset_of` decides whether a new scope needs no further consent.  Every kind of
scope is compared in its own way: sets by inclusion, limits by size, rules by the
existence of an approved rule that covers them.  This file shows that the relation
is transitive and, on valid scopes, reflexive.
-/

namespace TouchBar.Policy

open TouchBar.Rust TouchBar.Lib Outcome

/-! ## The comparison -/

def boolAuthoritySubset (new old : Bool) : Bool := !new || old

def activationRequirementSubset (new old : Bool) : Bool := !old || new

def pathPrefixesSubset (new old : BTreeSet String) : Bool :=
  old.isEmpty || (!new.isEmpty && coveredBy Text.startsWith new.toList old.toList)

def originSubset (new old : HttpOriginRule) : Bool :=
  new.scheme = old.scheme && new.host = old.host && new.port = old.port &&
    pathPrefixesSubset new.pathPrefixes old.pathPrefixes

def originsSubset (new old : BTreeSet HttpOriginRule) : Bool :=
  coveredBy originSubset new.toList old.toList

def mountLabelsSubset (new old : BTreeSet FilesystemMountRequest) : Bool :=
  coveredBy (fun mount approved => decide (approved.label = mount.label)) new.toList old.toList

def endpointLabelsSubset (new old : BTreeSet LocalEndpointRequest) : Bool :=
  coveredBy
    (fun endpoint approved =>
      approved.label = endpoint.label && approved.protocol = endpoint.protocol)
    new.toList old.toList

/-- A name, or the names below a prefix: `org.example.*` covers `org.example.Player` and
`org.example.Player.*`. -/
def dottedNameSubset (new old : String) : Bool :=
  match Text.stripSuffix old ".*" with
  | some base =>
    new = old || (Text.stripPrefix new base).any fun suffix => Text.startsWith suffix "."
  | none => new = old

/-- The comparison of two constraints in `dbus_arguments_subset`. -/
def dbusArgumentSubset (requested approved : DbusArgumentConstraint) : Bool :=
  requested.index = approved.index &&
    match requested.equalsString, requested.oneOfStrings, approved.equalsString,
      approved.oneOfStrings with
    | some new, none, some old, none => new = old
    | some new, none, none, some old => old.contains new
    | none, some new, none, some old => new.isSubset old
    | _, _, _, _ => false

/-- Every approved constraint is still imposed. -/
def dbusArgumentsSubset (new old : List DbusArgumentConstraint) : Bool :=
  coveredBy (fun approved requested => dbusArgumentSubset requested approved) old new

def dbusCallRuleSubset (new old : DbusCallRule) : Bool :=
  new.bus = old.bus && dottedNameSubset new.destination old.destination && new.path = old.path &&
    new.interface = old.interface && new.member = old.member && new.signature = old.signature &&
    dbusArgumentsSubset new.arguments old.arguments &&
    boolAuthoritySubset new.allowServiceActivation old.allowServiceActivation &&
    activationRequirementSubset new.requiresUserActivation old.requiresUserActivation

def commandArgumentSubset : CommandArgument → CommandArgument → Bool
  | .literal new, .literal old => new = old
  | .boundedInteger newName newMinimum newMaximum, .boundedInteger oldName oldMinimum oldMaximum =>
    newName = oldName && oldMinimum ≤ newMinimum && newMaximum ≤ oldMaximum
  | .fixedEnum newName newValues, .fixedEnum oldName oldValues =>
    newName = oldName && newValues.isSubset oldValues
  | .boundedText newName newMaximum, .boundedText oldName oldMaximum =>
    newName = oldName && newMaximum ≤ oldMaximum
  | .approvedFile newName newMount, .approvedFile oldName oldMount =>
    newName = oldName && newMount = oldMount
  | .url newName newSchemes, .url oldName oldSchemes =>
    newName = oldName && newSchemes.isSubset oldSchemes
  | _, _ => false

def commandRuleSubset (new old : CommandRule) : Bool :=
  new.id = old.id && new.executable = old.executable &&
    new.arguments.length = old.arguments.length &&
    (new.arguments.zip old.arguments).all (fun pair => commandArgumentSubset pair.1 pair.2) &&
    new.environment = old.environment && new.workingDirectory = old.workingDirectory &&
    new.maximumOutputBytes ≤ old.maximumOutputBytes &&
    new.timeoutMilliseconds ≤ old.timeoutMilliseconds

/-- `is_subset_of`. -/
def CapabilityScope.isSubsetOf : CapabilityScope → CapabilityScope → Bool
  | contextRead new, contextRead old =>
    new.facts.isSubset old.facts && new.maximumUpdatesPerSecond ≤ old.maximumUpdatesPerSecond
  | filesystemRead new, filesystemRead old =>
    mountLabelsSubset new.mounts old.mounts && new.kinds.isSubset old.kinds &&
      new.maximumFileBytes ≤ old.maximumFileBytes && boolAuthoritySubset new.enumerate old.enumerate
  | filesystemWrite new, filesystemWrite old =>
    mountLabelsSubset new.mounts old.mounts && new.operations.isSubset old.operations &&
      new.maximumFileBytes ≤ old.maximumFileBytes &&
      new.maximumTotalBytesPerHour ≤ old.maximumTotalBytesPerHour
  | httpRequest new, httpRequest old =>
    new.methods.isSubset old.methods && boolAuthoritySubset new.privateNetwork old.privateNetwork &&
      new.maximumRequestBytes ≤ old.maximumRequestBytes &&
      new.maximumResponseBytes ≤ old.maximumResponseBytes &&
      new.maximumRequestsPerMinute ≤ old.maximumRequestsPerMinute &&
      originsSubset new.origins old.origins
  | dbusCall new, dbusCall old => coveredBy dbusCallRuleSubset new.rules.toList old.rules.toList
  | dbusSubscribe new, dbusSubscribe old =>
    new.rules.isSubset old.rules && new.maximumEventsPerSecond ≤ old.maximumEventsPerSecond
  | commandRun new, commandRun old =>
    new.maximumParallelProcesses ≤ old.maximumParallelProcesses &&
      coveredBy commandRuleSubset new.commands.toList old.commands.toList
  | clipboard new, clipboard old =>
    new.mimeTypes.isSubset old.mimeTypes && new.maximumBytes ≤ old.maximumBytes &&
      new.maximumOperationsPerMinute ≤ old.maximumOperationsPerMinute
  | secretRead new, secretRead old => new.logicalNames.isSubset old.logicalNames
  | notificationSend new, notificationSend old =>
    new.categories.isSubset old.categories && new.urgency.isSubset old.urgency &&
      boolAuthoritySubset new.actions old.actions && new.maximumPerMinute ≤ old.maximumPerMinute
  | uriOpen new, uriOpen old =>
    new.schemes.isSubset old.schemes && originsSubset new.origins old.origins
  | localConnect new, localConnect old =>
    endpointLabelsSubset new.endpoints old.endpoints &&
      new.maximumFrameBytes ≤ old.maximumFrameBytes &&
      new.maximumBytesPerMinute ≤ old.maximumBytesPerMinute
  | appearanceProvide new, appearanceProvide old =>
    new.providers.isSubset old.providers && mountLabelsSubset new.mounts old.mounts &&
      new.maximumFileBytes ≤ old.maximumFileBytes &&
      new.maximumUpdatesPerSecond ≤ old.maximumUpdatesPerSecond
  | unknown new, unknown old => new = old
  | _, _ => false

/-! ## Names and prefixes -/

lemma dottedNameSubset_iff {new old : String} :
    dottedNameSubset new old = true ↔
      new = old ∨ ∃ base suffix, old = base ++ ".*" ∧ new = base ++ ("." ++ suffix) := by
  rw [dottedNameSubset]
  cases hold : Text.stripSuffix old ".*" with
  | none =>
    simp only [decide_eq_true_eq, iff_self_or]
    rintro ⟨base, -, h, -⟩
    rw [Text.stripSuffix_eq_some.mpr h] at hold
    cases hold
  | some base =>
    have hbase : ∀ base', old = base' ++ ".*" ↔ base' = base := fun base' => by
      rw [← Text.stripSuffix_eq_some, hold, Option.some.injEq, eq_comm]
    simp only [Bool.or_eq_true, decide_eq_true_eq, Option.any_eq_true, Text.stripPrefix_eq_some,
      Text.startsWith_iff, hbase]
    constructor
    · rintro (h | ⟨_, hnew, suffix, rfl⟩)
      · exact .inl h
      · exact .inr ⟨base, suffix, rfl, hnew⟩
    · rintro (h | ⟨_, suffix, rfl, hnew⟩)
      · exact .inl h
      · exact .inr ⟨"." ++ suffix, hnew, suffix, rfl⟩

lemma dottedNameSubset_refl (name : String) : dottedNameSubset name name = true :=
  dottedNameSubset_iff.mpr (.inl rfl)

/-- If `base.*` starts with `base'.`, so does `base.`: the prefix does not end in the star. -/
lemma exists_rest_of_wildcard {base base' suffix : String}
    (h : base ++ ".*" = base' ++ ("." ++ suffix)) :
    ∃ rest, base ++ "." = base' ++ ("." ++ rest) := by
  have hlist : base.toList ++ ['.', '*'] = base'.toList ++ '.' :: suffix.toList := by
    simpa using congrArg String.toList h
  rcases List.eq_nil_or_concat suffix.toList with hnil | ⟨rest, x, hx⟩
  · have hdot : (base.toList ++ ['.']) ++ ['*'] = base'.toList ++ ['.'] := by
      simpa [hnil] using hlist
    exact absurd (List.append_inj_right' hdot rfl) (by decide)
  · have hstar : (base.toList ++ ['.']) ++ ['*'] = (base'.toList ++ '.' :: rest) ++ [x] := by
      simpa [hx] using hlist
    refine ⟨.ofList rest, String.toList_inj.mp ?_⟩
    simpa using List.append_inj_left' hstar rfl

lemma dottedNameSubset_trans {a b c : String} (h₁ : dottedNameSubset a b = true)
    (h₂ : dottedNameSubset b c = true) : dottedNameSubset a c = true := by
  rw [dottedNameSubset_iff] at h₁ h₂ ⊢
  rcases h₁ with rfl | ⟨base₁, suffix₁, rfl, rfl⟩
  · exact h₂
  rcases h₂ with rfl | ⟨base₂, suffix₂, rfl, h⟩
  · exact .inr ⟨base₁, suffix₁, rfl, rfl⟩
  obtain ⟨rest, hrest⟩ := exists_rest_of_wildcard h
  refine .inr ⟨base₂, rest ++ suffix₁, rfl, ?_⟩
  rw [← String.append_assoc, hrest]
  simp only [String.append_assoc]

lemma pathPrefixesSubset_refl (paths : BTreeSet String) :
    pathPrefixesSubset paths paths = true := by
  rw [pathPrefixesSubset, coveredBy_refl fun path _ => Text.startsWith_refl path]
  cases paths.isEmpty <;> rfl

lemma pathPrefixesSubset_trans {a b c : BTreeSet String} (h₁ : pathPrefixesSubset a b = true)
    (h₂ : pathPrefixesSubset b c = true) : pathPrefixesSubset a c = true := by
  simp only [pathPrefixesSubset, Bool.or_eq_true, Bool.and_eq_true, Bool.not_eq_true'] at h₁ h₂ ⊢
  rcases h₂ with h₂ | ⟨hb, hbc⟩
  · exact .inl h₂
  rcases h₁ with h₁ | ⟨ha, hab⟩
  · rw [h₁] at hb
    cases hb
  · exact .inr ⟨ha, coveredBy_trans (fun _ _ _ => Text.startsWith_trans) hab hbc⟩

/-! ## Rules -/

/-- An authority may be given up. -/
lemma boolAuthoritySubset_iff {new old : Bool} :
    boolAuthoritySubset new old = true ↔ (new = true → old = true) := by
  cases new <;> simp [boolAuthoritySubset]

/-- A requirement may be added. -/
lemma activationRequirementSubset_iff {new old : Bool} :
    activationRequirementSubset new old = true ↔ (old = true → new = true) := by
  cases old <;> simp [activationRequirementSubset]

lemma boolAuthoritySubset_refl (b : Bool) : boolAuthoritySubset b b = true :=
  boolAuthoritySubset_iff.mpr id

lemma boolAuthoritySubset_trans {a b c : Bool} (h₁ : boolAuthoritySubset a b = true)
    (h₂ : boolAuthoritySubset b c = true) : boolAuthoritySubset a c = true := by
  rw [boolAuthoritySubset_iff] at h₁ h₂ ⊢
  exact fun ha => h₂ (h₁ ha)

lemma activationRequirementSubset_refl (b : Bool) : activationRequirementSubset b b = true :=
  activationRequirementSubset_iff.mpr id

lemma activationRequirementSubset_trans {a b c : Bool}
    (h₁ : activationRequirementSubset a b = true) (h₂ : activationRequirementSubset b c = true) :
    activationRequirementSubset a c = true := by
  rw [activationRequirementSubset_iff] at h₁ h₂ ⊢
  exact fun hc => h₁ (h₂ hc)

section Sets

variable {α : Type} [LinearOrder α] {s t u : BTreeSet α}

lemma isSubset_refl (s : BTreeSet α) : s.isSubset s = true :=
  BTreeSet.isSubset_iff.mpr fun _ ha => ha

lemma isSubset_trans (h₁ : s.isSubset t = true) (h₂ : t.isSubset u = true) :
    s.isSubset u = true :=
  BTreeSet.isSubset_iff.mpr fun a ha =>
    BTreeSet.isSubset_iff.mp h₂ a (BTreeSet.isSubset_iff.mp h₁ a ha)

end Sets

lemma originsSubset_refl (origins : BTreeSet HttpOriginRule) :
    originsSubset origins origins = true :=
  coveredBy_refl fun _ _ => by simp [originSubset, pathPrefixesSubset_refl]

lemma originSubset_trans {a b c : HttpOriginRule} (h₁ : originSubset a b = true)
    (h₂ : originSubset b c = true) : originSubset a c = true := by
  simp only [originSubset, Bool.and_eq_true, decide_eq_true_eq] at h₁ h₂ ⊢
  obtain ⟨⟨⟨hs₁, hh₁⟩, hp₁⟩, hpaths₁⟩ := h₁
  obtain ⟨⟨⟨hs₂, hh₂⟩, hp₂⟩, hpaths₂⟩ := h₂
  exact ⟨⟨⟨hs₁.trans hs₂, hh₁.trans hh₂⟩, hp₁.trans hp₂⟩,
    pathPrefixesSubset_trans hpaths₁ hpaths₂⟩

lemma originsSubset_trans {a b c : BTreeSet HttpOriginRule} (h₁ : originsSubset a b = true)
    (h₂ : originsSubset b c = true) : originsSubset a c = true :=
  coveredBy_trans (fun _ _ _ => originSubset_trans) h₁ h₂

lemma mountLabelsSubset_refl (mounts : BTreeSet FilesystemMountRequest) :
    mountLabelsSubset mounts mounts = true :=
  coveredBy_refl fun _ _ => by simp

lemma mountLabelsSubset_trans {a b c : BTreeSet FilesystemMountRequest}
    (h₁ : mountLabelsSubset a b = true) (h₂ : mountLabelsSubset b c = true) :
    mountLabelsSubset a c = true := by
  refine coveredBy_trans (fun x y z hxy hyz => ?_) h₁ h₂
  rw [decide_eq_true_eq] at hxy hyz ⊢
  exact hyz.trans hxy

lemma endpointLabelsSubset_refl (endpoints : BTreeSet LocalEndpointRequest) :
    endpointLabelsSubset endpoints endpoints = true :=
  coveredBy_refl fun _ _ => by simp

lemma endpointLabelsSubset_trans {a b c : BTreeSet LocalEndpointRequest}
    (h₁ : endpointLabelsSubset a b = true) (h₂ : endpointLabelsSubset b c = true) :
    endpointLabelsSubset a c = true := by
  refine coveredBy_trans (fun x y z hxy hyz => ?_) h₁ h₂
  simp only [Bool.and_eq_true, decide_eq_true_eq] at hxy hyz ⊢
  exact ⟨hyz.1.trans hxy.1, hyz.2.trans hxy.2⟩

/-! ## Arguments of calls -/

/-- The three ways in which a constraint can be at least as strict as another. -/
lemma dbusArgumentSubset_iff {new old : DbusArgumentConstraint} :
    dbusArgumentSubset new old = true ↔ new.index = old.index ∧
      ((∃ s, new.equalsString = some s ∧ new.oneOfStrings = none ∧
        old.equalsString = some s ∧ old.oneOfStrings = none) ∨
      (∃ s t, new.equalsString = some s ∧ new.oneOfStrings = none ∧
        old.equalsString = none ∧ old.oneOfStrings = some t ∧ s ∈ t) ∨
      ∃ s t, new.equalsString = none ∧ new.oneOfStrings = some s ∧
        old.equalsString = none ∧ old.oneOfStrings = some t ∧ ∀ a ∈ s, a ∈ t) := by
  obtain ⟨i, e, o⟩ := new
  obtain ⟨i', e', o'⟩ := old
  cases e <;> cases o <;> cases e' <;> cases o' <;> simp [dbusArgumentSubset]
  exact fun _ => eq_comm

lemma dbusArgumentSubset_refl {a : DbusArgumentConstraint}
    (h : a.equalsString.isSome = !a.oneOfStrings.isSome) : dbusArgumentSubset a a = true := by
  obtain ⟨i, e, o⟩ := a
  cases e <;> cases o <;> simp [dbusArgumentSubset] at h ⊢

lemma dbusArgumentSubset_trans {a b c : DbusArgumentConstraint}
    (h₁ : dbusArgumentSubset a b = true) (h₂ : dbusArgumentSubset b c = true) :
    dbusArgumentSubset a c = true := by
  rw [dbusArgumentSubset_iff] at h₁ h₂ ⊢
  obtain ⟨hi₁, h₁⟩ := h₁
  obtain ⟨hi₂, h₂⟩ := h₂
  refine ⟨hi₁.trans hi₂, ?_⟩
  rcases h₁ with ⟨s, ha, ha', hb, hb'⟩ | ⟨s, t, ha, ha', hb, hb', hst⟩ |
    ⟨s, t, ha, ha', hb, hb', hst⟩
  · rw [hb, hb'] at h₂
    rcases h₂ with ⟨_, ⟨rfl⟩, -, hc, hc'⟩ | ⟨_, u, ⟨rfl⟩, -, hc, hc', hu⟩ | ⟨_, _, h, -⟩
    · exact .inl ⟨s, ha, ha', hc, hc'⟩
    · exact .inr (.inl ⟨s, u, ha, ha', hc, hc', hu⟩)
    · cases h
  · rw [hb, hb'] at h₂
    rcases h₂ with ⟨_, h, -⟩ | ⟨_, _, h, -⟩ | ⟨_, u, -, ⟨rfl⟩, hc, hc', hu⟩
    · cases h
    · cases h
    · exact .inr (.inl ⟨s, u, ha, ha', hc, hc', hu s hst⟩)
  · rw [hb, hb'] at h₂
    rcases h₂ with ⟨_, h, -⟩ | ⟨_, _, h, -⟩ | ⟨_, u, -, ⟨rfl⟩, hc, hc', hu⟩
    · cases h
    · cases h
    · exact .inr (.inr ⟨s, u, ha, ha', hc, hc', fun a h => hu a (hst a h)⟩)

lemma dbusCallRuleSubset_refl {rule : DbusCallRule}
    (h : ∀ a ∈ rule.arguments, a.equalsString.isSome = !a.oneOfStrings.isSome) :
    dbusCallRuleSubset rule rule = true := by
  have harguments : dbusArgumentsSubset rule.arguments rule.arguments = true :=
    coveredBy_refl fun a ha => dbusArgumentSubset_refl (h a ha)
  simp [dbusCallRuleSubset, dottedNameSubset_refl, harguments, boolAuthoritySubset_refl,
    activationRequirementSubset_refl]

lemma dbusCallRuleSubset_trans {a b c : DbusCallRule} (h₁ : dbusCallRuleSubset a b = true)
    (h₂ : dbusCallRuleSubset b c = true) : dbusCallRuleSubset a c = true := by
  simp only [dbusCallRuleSubset, Bool.and_eq_true, decide_eq_true_eq] at h₁ h₂ ⊢
  obtain ⟨⟨⟨⟨⟨⟨⟨⟨hb₁, hd₁⟩, hp₁⟩, hi₁⟩, hm₁⟩, hs₁⟩, ha₁⟩, hf₁⟩, hr₁⟩ := h₁
  obtain ⟨⟨⟨⟨⟨⟨⟨⟨hb₂, hd₂⟩, hp₂⟩, hi₂⟩, hm₂⟩, hs₂⟩, ha₂⟩, hf₂⟩, hr₂⟩ := h₂
  -- constraints are compared from the approved rule to the requested one
  have ha : dbusArgumentsSubset a.arguments c.arguments = true :=
    coveredBy_trans (fun _ _ _ hyx hzy => dbusArgumentSubset_trans hzy hyx) ha₂ ha₁
  exact ⟨⟨⟨⟨⟨⟨⟨⟨hb₁.trans hb₂, dottedNameSubset_trans hd₁ hd₂⟩, hp₁.trans hp₂⟩, hi₁.trans hi₂⟩,
    hm₁.trans hm₂⟩, hs₁.trans hs₂⟩, ha⟩, boolAuthoritySubset_trans hf₁ hf₂⟩,
    activationRequirementSubset_trans hr₁ hr₂⟩

/-! ## Commands -/

lemma commandArgumentSubset_refl (a : CommandArgument) : commandArgumentSubset a a = true := by
  cases a <;> simp [commandArgumentSubset, isSubset_refl]

lemma commandArgumentSubset_trans {a b c : CommandArgument}
    (h₁ : commandArgumentSubset a b = true) (h₂ : commandArgumentSubset b c = true) :
    commandArgumentSubset a c = true := by
  cases a <;> cases b <;> simp only [commandArgumentSubset, Bool.false_eq_true] at h₁ <;>
    cases c <;> simp only [commandArgumentSubset, Bool.false_eq_true] at h₂ <;>
    simp only [commandArgumentSubset, Bool.and_eq_true, decide_eq_true_eq] at h₁ h₂ ⊢
  · exact h₁.trans h₂
  · exact ⟨⟨h₁.1.1.trans h₂.1.1, h₂.1.2.trans h₁.1.2⟩, h₁.2.trans h₂.2⟩
  · exact ⟨h₁.1.trans h₂.1, isSubset_trans h₁.2 h₂.2⟩
  · exact ⟨h₁.1.trans h₂.1, h₁.2.trans h₂.2⟩
  · exact ⟨h₁.1.trans h₂.1, h₁.2.trans h₂.2⟩
  · exact ⟨h₁.1.trans h₂.1, isSubset_trans h₁.2 h₂.2⟩

/-- Templates are compared position by position. -/
lemma commandArguments_iff {new old : List CommandArgument} :
    (new.length = old.length ∧
      (new.zip old).all (fun pair => commandArgumentSubset pair.1 pair.2) = true) ↔
    List.Forall₂ (fun a b => commandArgumentSubset a b = true) new old := by
  rw [List.forall₂_iff_zip, List.all_eq_true]
  refine and_congr_right fun _ => ?_
  constructor
  · intro h a b hab
    exact h (a, b) hab
  · rintro h ⟨a, b⟩ hab
    exact h hab

lemma commandRuleSubset_iff {new old : CommandRule} :
    commandRuleSubset new old = true ↔
      new.id = old.id ∧ new.executable = old.executable ∧
      List.Forall₂ (fun a b => commandArgumentSubset a b = true) new.arguments old.arguments ∧
      new.environment = old.environment ∧ new.workingDirectory = old.workingDirectory ∧
      new.maximumOutputBytes ≤ old.maximumOutputBytes ∧
      new.timeoutMilliseconds ≤ old.timeoutMilliseconds := by
  rw [← commandArguments_iff]
  simp only [commandRuleSubset, Bool.and_eq_true, decide_eq_true_eq]
  tauto

lemma commandRuleSubset_refl (rule : CommandRule) : commandRuleSubset rule rule = true := by
  refine commandRuleSubset_iff.mpr ⟨rfl, rfl, ?_, rfl, rfl, le_rfl, le_rfl⟩
  exact List.forall₂_same.mpr fun a _ => commandArgumentSubset_refl a

lemma commandRuleSubset_trans {a b c : CommandRule} (h₁ : commandRuleSubset a b = true)
    (h₂ : commandRuleSubset b c = true) : commandRuleSubset a c = true := by
  obtain ⟨hid₁, hex₁, hargs₁, henv₁, hdir₁, hout₁, htime₁⟩ := commandRuleSubset_iff.mp h₁
  obtain ⟨hid₂, hex₂, hargs₂, henv₂, hdir₂, hout₂, htime₂⟩ := commandRuleSubset_iff.mp h₂
  exact commandRuleSubset_iff.mpr ⟨hid₁.trans hid₂, hex₁.trans hex₂,
    forall₂_trans (S := fun a b => commandArgumentSubset a b = true)
      (fun _ _ _ => commandArgumentSubset_trans) hargs₁ hargs₂,
    henv₁.trans henv₂, hdir₁.trans hdir₂, hout₁.trans hout₂, htime₁.trans htime₂⟩

/-! ## Scopes -/

/-- A valid scope lies within itself.  Only the constraints on the arguments of calls
need the validity: one without a matcher is never met. -/
lemma isSubsetOf_refl {capability : CapabilityId} {scope : CapabilityScope}
    (h : validateCapabilityScope capability scope = ok ()) : scope.isSubsetOf scope = true := by
  cases scope with
  | dbusCall scope =>
    exact coveredBy_refl fun rule hrule =>
      dbusCallRuleSubset_refl (one_matcher_of_validate h rule hrule)
  | commandRun scope =>
    simp [CapabilityScope.isSubsetOf, coveredBy_refl fun rule _ => commandRuleSubset_refl rule]
  | _ =>
    simp [CapabilityScope.isSubsetOf, isSubset_refl, mountLabelsSubset_refl,
      boolAuthoritySubset_refl, originsSubset_refl, endpointLabelsSubset_refl]

lemma isSubsetOf_trans {a b c : CapabilityScope} (h₁ : a.isSubsetOf b = true)
    (h₂ : b.isSubsetOf c = true) : a.isSubsetOf c = true := by
  cases a <;> cases b <;> simp only [CapabilityScope.isSubsetOf, Bool.false_eq_true] at h₁ <;>
    cases c <;> simp only [CapabilityScope.isSubsetOf, Bool.false_eq_true] at h₂ <;>
    simp only [CapabilityScope.isSubsetOf, Bool.and_eq_true, decide_eq_true_eq] at h₁ h₂ ⊢
  case contextRead => exact ⟨isSubset_trans h₁.1 h₂.1, h₁.2.trans h₂.2⟩
  case filesystemRead =>
    exact ⟨⟨⟨mountLabelsSubset_trans h₁.1.1.1 h₂.1.1.1, isSubset_trans h₁.1.1.2 h₂.1.1.2⟩,
      h₁.1.2.trans h₂.1.2⟩, boolAuthoritySubset_trans h₁.2 h₂.2⟩
  case filesystemWrite =>
    exact ⟨⟨⟨mountLabelsSubset_trans h₁.1.1.1 h₂.1.1.1, isSubset_trans h₁.1.1.2 h₂.1.1.2⟩,
      h₁.1.2.trans h₂.1.2⟩, h₁.2.trans h₂.2⟩
  case httpRequest =>
    obtain ⟨⟨⟨⟨⟨hm₁, hn₁⟩, hq₁⟩, hr₁⟩, hl₁⟩, ho₁⟩ := h₁
    obtain ⟨⟨⟨⟨⟨hm₂, hn₂⟩, hq₂⟩, hr₂⟩, hl₂⟩, ho₂⟩ := h₂
    exact ⟨⟨⟨⟨⟨isSubset_trans hm₁ hm₂, boolAuthoritySubset_trans hn₁ hn₂⟩, hq₁.trans hq₂⟩,
      hr₁.trans hr₂⟩, hl₁.trans hl₂⟩, originsSubset_trans ho₁ ho₂⟩
  case dbusCall => exact coveredBy_trans (fun _ _ _ => dbusCallRuleSubset_trans) h₁ h₂
  case dbusSubscribe => exact ⟨isSubset_trans h₁.1 h₂.1, h₁.2.trans h₂.2⟩
  case commandRun =>
    exact ⟨h₁.1.trans h₂.1, coveredBy_trans (fun _ _ _ => commandRuleSubset_trans) h₁.2 h₂.2⟩
  case clipboard =>
    exact ⟨⟨isSubset_trans h₁.1.1 h₂.1.1, h₁.1.2.trans h₂.1.2⟩, h₁.2.trans h₂.2⟩
  case secretRead => exact isSubset_trans h₁ h₂
  case notificationSend =>
    exact ⟨⟨⟨isSubset_trans h₁.1.1.1 h₂.1.1.1, isSubset_trans h₁.1.1.2 h₂.1.1.2⟩,
      boolAuthoritySubset_trans h₁.1.2 h₂.1.2⟩, h₁.2.trans h₂.2⟩
  case uriOpen => exact ⟨isSubset_trans h₁.1 h₂.1, originsSubset_trans h₁.2 h₂.2⟩
  case localConnect =>
    exact ⟨⟨endpointLabelsSubset_trans h₁.1.1 h₂.1.1, h₁.1.2.trans h₂.1.2⟩, h₁.2.trans h₂.2⟩
  case appearanceProvide =>
    exact ⟨⟨⟨isSubset_trans h₁.1.1.1 h₂.1.1.1, mountLabelsSubset_trans h₁.1.1.2 h₂.1.1.2⟩,
      h₁.1.2.trans h₂.1.2⟩, h₁.2.trans h₂.2⟩
  case unknown => exact h₁.trans h₂

/-- Each update lies within the one before it. -/
def Narrowing (scopes : List CapabilityScope) : Prop :=
  scopes.IsChain fun previous next => next.isSubsetOf previous = true

/-- The relation is reflexive on valid scopes and transitive, so that a sequence of updates
of which none needs consent stays within the scope that was approved first. -/
theorem isSubsetOf_preorder :
    (∀ capability scope, validateCapabilityScope capability scope = ok () →
      scope.isSubsetOf scope = true) ∧
    (∀ a b c : CapabilityScope, a.isSubsetOf b = true → b.isSubsetOf c = true →
      a.isSubsetOf c = true) ∧
    ∀ capability approved updates, validateCapabilityScope capability approved = ok () →
      Narrowing (approved :: updates) →
      ∀ scope ∈ approved :: updates, scope.isSubsetOf approved = true := by
  refine ⟨fun _ _ => isSubsetOf_refl, fun _ _ _ => isSubsetOf_trans, ?_⟩
  intro capability approved updates hvalid hchain scope hscope
  have : IsTrans CapabilityScope fun previous next => next.isSubsetOf previous = true :=
    ⟨fun _ _ _ h₁ h₂ => isSubsetOf_trans h₂ h₁⟩
  rcases List.mem_cons.mp hscope with rfl | hscope
  · exact isSubsetOf_refl hvalid
  · exact (List.pairwise_cons.mp hchain.pairwise).1 scope hscope

/-- Calls of the player on the session bus, to a name or to the names below a prefix. -/
def playerCalls (destination : String) : CapabilityScope :=
  .dbusCall ⟨.ofList [⟨.session, destination, "/player", "org.example.Player", "Play", "",
    [⟨0, none, some (.ofList ["next", "previous"])⟩], false, true⟩]⟩

theorem isSubsetOf_preorder_playerCalls :
    validateCapabilityScope .dbusCallV1 (playerCalls "org.example.*") = ok () ∧
      (playerCalls "org.example.player.main").isSubsetOf (playerCalls "org.example.*") = true := by
  have hvalid : validateCapabilityScope .dbusCallV1 (playerCalls "org.example.*") = ok () := by
    decide
  refine ⟨hvalid, ?_⟩
  have hchain : Narrowing [playerCalls "org.example.*", playerCalls "org.example.player.*",
      playerCalls "org.example.player.main"] :=
    .cons_cons (by decide) (.cons_cons (by decide) (.singleton _))
  exact isSubsetOf_preorder.2.2 _ _ _ hvalid hchain _ (by simp)

end TouchBar.Policy
