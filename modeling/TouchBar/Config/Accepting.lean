import TouchBar.Config.Document

/-!
# What the validation of a document accepts

Each loop of `ProfileDocument::validate` on values that are right by themselves: it ends
without an error and collects their identifiers.  Only the nodes of the predicates have a
budget that all parts of a document share, so the loops that count them either end or
exceed it.
-/

namespace TouchBar.Config

open TouchBar.Rust Outcome

/-! ## Identifiers and facts -/

lemma validateId_eq_ok {value : String} (hhead : Text.headIs value isIdStart = true)
    (hlen : Text.len value ≤ maxIdBytes) (hall : Text.all value isIdChar = true)
    (label : String) : validateId label value = ok () := by
  simp [validateId, bailIf, Text.isEmpty_eq_false_of_headIs hhead, hhead, hlen, hall]

/-- The characters of an identity are neither white space nor control characters. -/
lemma identity_char {c : Char} (h : (c.isLower || c.isDigit || c == '-' || c == '_' || c == '.' ||
    c == ':') = true) : (Text.isControl c || Text.isWhitespace c) = false := by
  have hrange : 45 ≤ c.toNat ∧ c.toNat ≤ 122 := by
    simp only [Bool.or_eq_true, beq_iff_eq, Char.isLower, Char.isDigit, Bool.and_eq_true,
      decide_eq_true_eq] at h
    rcases h with ((((⟨hlow, hhigh⟩ | ⟨hlow, hhigh⟩) | rfl) | rfl) | rfl) | rfl
    · have hlow : (97 : UInt32).toNat ≤ c.val.toNat := UInt32.le_iff_toNat_le.mp hlow
      have hhigh : c.val.toNat ≤ (122 : UInt32).toNat := UInt32.le_iff_toNat_le.mp hhigh
      exact ⟨le_trans (by decide) hlow, hhigh⟩
    · have hlow : (48 : UInt32).toNat ≤ c.val.toNat := UInt32.le_iff_toNat_le.mp hlow
      have hhigh : c.val.toNat ≤ (57 : UInt32).toNat := UInt32.le_iff_toNat_le.mp hhigh
      exact ⟨le_trans (by decide) hlow, hhigh.trans (by decide)⟩
    · decide
    · decide
    · decide
    · decide
  obtain ⟨hlow, hhigh⟩ := hrange
  simp only [Text.isControl, Text.isWhitespace, Bool.or_eq_false_iff, Bool.and_eq_false_iff,
    decide_eq_false_iff_not, beq_eq_false_iff_ne]
  omega

lemma validateFact_eq_ok {label value : String} {maximum : ℕ} (hempty : Text.isEmpty value = false)
    (hlen : Text.len value ≤ maximum)
    (hall : Text.all value (fun c => c.isLower || c.isDigit || c == '-' || c == '_' || c == '.' ||
      c == ':') = true) : validateFact label value maximum = ok () := by
  have hplain : (value.toList.any fun c => Text.isControl c || Text.isWhitespace c) = false := by
    rw [List.any_eq_false]
    intro c hc
    rw [identity_char (List.all_eq_true.mp hall c hc)]
    decide
  rw [validateFact, hempty, hplain, decide_eq_false (by omega)]
  rfl

/-! ## The loops of the validation -/

lemma bailIf_false (message : String) : bailIf false message = ok () := rfl

lemma contains_insert_eq_false {set : BTreeSet String} {a b : String} (hne : b ≠ a)
    (h : set.contains b = false) : (set.insert a).contains b = false := by
  rw [Bool.eq_false_iff, ne_eq, BTreeSet.contains_iff] at h ⊢
  rw [BTreeSet.mem_insert, not_or]
  exact ⟨hne, h⟩

section Items

variable {contribution : String} {items : List ProfileItemConfig}

/-- The items of a contribution are valid and differ. -/
structure GoodItems (items : List ProfileItemConfig) : Prop where
  plugin : ∀ item ∈ items, validatePluginId "plugin id" item.plugin = ok ()
  item : ∀ item ∈ items, validateId "item id" item.item = ok ()
  nodup : (items.map ProfileItemConfig.qualified).Nodup

lemma validateItems_eq_ok {localItems allItems : BTreeSet String} (h : GoodItems items)
    (hnew : ∀ item ∈ items, localItems.contains item.qualified = false) :
    Config.validateItems contribution items localItems allItems =
      ok ((items.map ProfileItemConfig.qualified).foldl BTreeSet.insert allItems) := by
  induction items generalizing localItems allItems with
  | nil => rfl
  | cons item rest ih =>
    obtain ⟨hplugin, hitem, hnodup⟩ := h
    rw [List.map_cons, List.nodup_cons] at hnodup
    have hrest : GoodItems rest :=
      ⟨fun other hother => hplugin other (List.mem_cons_of_mem _ hother),
        fun other hother => hitem other (List.mem_cons_of_mem _ hother), hnodup.2⟩
    have hnext : ∀ other ∈ rest,
        (localItems.insert item.qualified).contains other.qualified = false := by
      intro other hother
      refine contains_insert_eq_false ?_ (hnew other (List.mem_cons_of_mem _ hother))
      exact fun heq => hnodup.1 (heq ▸ List.mem_map_of_mem hother)
    rw [Config.validateItems, hplugin item (List.mem_cons_self ..),
      hitem item (List.mem_cons_self ..), hnew item (List.mem_cons_self ..), bailIf_false]
    exact ih hrest hnext

end Items

/-- A contribution as `merge` writes it. -/
structure GoodContribution (contribution : ContributionConfig) : Prop where
  id : validateId "contribution id" contribution.id = ok ()
  nonempty : contribution.items ≠ []
  items : GoodItems contribution.items
  always : contribution.when = .always

lemma validatePredicate_always {nodes : ℕ} (h : nodes + 1 ≤ maxPredicateNodes) :
    validatePredicate .always 1 nodes = ok (nodes + 1) := by
  have hbudget : (decide (maxPredicateDepth < 1) || decide (maxPredicateNodes < nodes + 1)) =
      false := by
    rw [Bool.or_eq_false_iff, decide_eq_false_iff_not, decide_eq_false_iff_not]
    exact ⟨by decide, by omega⟩
  simp only [validatePredicate, hbudget, bailIf_false, ok_bind, pure_eq]

lemma validateContributions_eq_ok {contributions : List ContributionConfig}
    {ids allItems : BTreeSet String} {nodes : ℕ}
    (h : ∀ c ∈ contributions, GoodContribution c)
    (hnodup : (contributions.map ContributionConfig.id).Nodup)
    (hnew : ∀ c ∈ contributions, ids.contains c.id = false)
    (hnodes : nodes + contributions.length ≤ maxPredicateNodes) :
    Config.validateContributions contributions ⟨ids, allItems, nodes⟩ =
      ok ⟨(contributions.map ContributionConfig.id).foldl BTreeSet.insert ids,
        (contributions.flatMap fun c => c.items.map ProfileItemConfig.qualified).foldl
          BTreeSet.insert allItems, nodes + contributions.length⟩ := by
  induction contributions generalizing ids allItems nodes with
  | nil => rfl
  | cons contribution rest ih =>
    obtain ⟨hid, hnonempty, hitems, halways⟩ := h contribution (List.mem_cons_self ..)
    rw [List.map_cons, List.nodup_cons] at hnodup
    rw [List.length_cons] at hnodes
    have hempty : contribution.items.isEmpty = false := by
      rw [Bool.eq_false_iff, ne_eq, List.isEmpty_iff]
      exact hnonempty
    have hnext : ∀ c ∈ rest, (ids.insert contribution.id).contains c.id = false := by
      intro c hc
      refine contains_insert_eq_false ?_ (hnew c (List.mem_cons_of_mem _ hc))
      exact fun heq => hnodup.1 (heq ▸ List.mem_map_of_mem hc)
    have hvalid : Config.validateItems contribution.id contribution.items .empty allItems = _ :=
      validateItems_eq_ok hitems fun item _ => rfl
    have hpredicate : validatePredicate contribution.when 1 nodes = ok (nodes + 1) := by
      rw [halways]
      exact validatePredicate_always (by omega)
    rw [Config.validateContributions, hid, hnew contribution (List.mem_cons_self ..), hempty,
      bailIf_false, bailIf_false, ok_bind, ok_bind, ok_bind, hvalid, ok_bind, hpredicate,
      ok_bind, ih (fun c hc => h c (List.mem_cons_of_mem _ hc)) hnodup.2 hnext (by omega)]
    rw [List.flatMap_cons, List.foldl_append, List.length_cons, Nat.add_assoc,
      Nat.add_comm 1]
    rfl

/-- A profile as `merge` writes it: one element, which passes its checks. -/
structure GoodProfile (contributionIds allItems : BTreeSet String) (profile : ProfileConfig) :
    Prop where
  id : validateId "profile id" profile.id = ok ()
  nonempty : profile.elements ≠ []
  elements : ∀ count, ∃ seen, validateProfileElements profile.id contributionIds
    profile.elements ⟨.empty, .empty, count⟩ = ok seen ∧ seen.elementCount = count + 1
  principal : ∀ principal ∈ profile.principalItem,
    validatePluginId "principal plugin id" principal.plugin = ok () ∧
      validateId "principal item id" principal.item = ok () ∧
      allItems.contains principal.qualified = true

lemma validateProfiles_eq_ok {contributionIds allItems : BTreeSet String}
    {profiles : List ProfileConfig} {profileIds : BTreeSet String} {count : ℕ}
    (h : ∀ p ∈ profiles, GoodProfile contributionIds allItems p)
    (hnodup : (profiles.map ProfileConfig.id).Nodup)
    (hnew : ∀ p ∈ profiles, profileIds.contains p.id = false) :
    Config.validateProfiles contributionIds allItems profiles profileIds count =
      ok ((profiles.map ProfileConfig.id).foldl BTreeSet.insert profileIds,
        count + profiles.length) := by
  induction profiles generalizing profileIds count with
  | nil => rfl
  | cons profile rest ih =>
    obtain ⟨hid, hnonempty, helements, hprincipal⟩ := h profile (List.mem_cons_self ..)
    rw [List.map_cons, List.nodup_cons] at hnodup
    have hempty : profile.elements.isEmpty = false := by
      rw [Bool.eq_false_iff, ne_eq, List.isEmpty_iff]
      exact hnonempty
    have hnext : ∀ p ∈ rest, (profileIds.insert profile.id).contains p.id = false := by
      intro p hp
      refine contains_insert_eq_false ?_ (hnew p (List.mem_cons_of_mem _ hp))
      exact fun heq => hnodup.1 (heq ▸ List.mem_map_of_mem hp)
    obtain ⟨seen, hseen, hcount⟩ := helements count
    have hrest := @ih (profileIds.insert profile.id) seen.elementCount
      (fun p hp => h p (List.mem_cons_of_mem _ hp)) hnodup.2 hnext
    have hlength : seen.elementCount + rest.length = count + (profile :: rest).length := by
      rw [List.length_cons]
      omega
    rw [hlength] at hrest
    rw [Config.validateProfiles, hid, hnew profile (List.mem_cons_self ..), hempty,
      bailIf_false, bailIf_false, ok_bind, ok_bind, ok_bind]
    cases hsome : profile.principalItem with
    | none =>
      simp only [ok_bind, hseen]
      exact hrest
    | some principal =>
      obtain ⟨hplugin, hitem, hallowed⟩ := hprincipal principal hsome
      simp only [hplugin, hitem, hallowed, Bool.not_true, bailIf_false, ok_bind, hseen]
      exact hrest

/-! ## Predicates -/

/-- The error of a document whose predicates have too many nodes. -/
def budgetExceeded : ConfigError := .invalid "context predicates exceed their depth or node budget"

/-- The outcome of counting `count` nodes on top of `nodes`. -/
def counted (nodes count : ℕ) : Outcome ConfigError ℕ :=
  if nodes + count ≤ maxPredicateNodes then ok (nodes + count) else err budgetExceeded

lemma counted_bind {α : Type} {nodes count : ℕ} {f : ℕ → Outcome ConfigError α} :
    (counted nodes count >>= f) =
      if nodes + count ≤ maxPredicateNodes then f (nodes + count) else err budgetExceeded := by
  rw [counted]
  split_ifs <;> rfl

/-- A predicate of one node, with a valid key and value. -/
def Leaf (predicate : PredicateConfig) : Prop :=
  ∀ depth nodes, depth ≤ maxPredicateDepth →
    validatePredicate predicate depth nodes = counted nodes 1

lemma validatePredicates_leaves {predicates : List PredicateConfig}
    (h : ∀ p ∈ predicates, Leaf p) {depth nodes : ℕ} (hdepth : depth ≤ maxPredicateDepth)
    (hnodes : nodes ≤ maxPredicateNodes) :
    validatePredicates predicates depth nodes = counted nodes predicates.length := by
  induction predicates generalizing nodes with
  | nil =>
    rw [validatePredicates, counted, List.length_nil, Nat.add_zero, if_pos hnodes]
  | cons predicate rest ih =>
    rw [validatePredicates, h predicate (List.mem_cons_self ..) depth nodes hdepth,
      counted_bind]
    by_cases hnext : nodes + 1 ≤ maxPredicateNodes
    · rw [if_pos hnext, ih (fun p hp => h p (List.mem_cons_of_mem _ hp)) hnext, counted, counted,
        List.length_cons, Nat.add_assoc, Nat.add_comm 1]
    · -- the budget is spent before the rest is looked at
      rw [if_neg hnext, counted, if_neg (by rw [List.length_cons]; omega)]

lemma leaf_textEquals {key value : String}
    (hkey : validateFact "context key" key maxContextKeyBytes = ok ())
    (hvalue : validateFact "context value" value maxValueBytes = ok ()) :
    Leaf (.textEquals key value) := by
  intro depth nodes hdepth
  rw [validatePredicate, hkey, hvalue, counted, decide_eq_false (by omega), Bool.false_or]
  by_cases hnext : nodes + 1 ≤ maxPredicateNodes
  · rw [if_pos hnext, decide_eq_false (by omega)]
    rfl
  · rw [if_neg hnext, decide_eq_true (by omega)]
    rfl

lemma leaf_booleanEquals {key : String} {value : Bool}
    (hkey : validateFact "context key" key maxContextKeyBytes = ok ()) :
    Leaf (.booleanEquals key value) := by
  intro depth nodes hdepth
  rw [validatePredicate, hkey, counted, decide_eq_false (by omega), Bool.false_or]
  by_cases hnext : nodes + 1 ≤ maxPredicateNodes
  · rw [if_pos hnext, decide_eq_false (by omega)]
    rfl
  · rw [if_neg hnext, decide_eq_true (by omega)]
    rfl

lemma validateRules_cons {profileIds : BTreeSet String} {rule : ProfileRuleConfig}
    {rest : List ProfileRuleConfig} {nodes count : ℕ}
    (hknown : profileIds.contains rule.profile = true)
    (hcount : validatePredicate rule.when 1 nodes = counted nodes count) :
    validateRules profileIds (rule :: rest) nodes =
      if nodes + count ≤ maxPredicateNodes then validateRules profileIds rest (nodes + count)
      else err budgetExceeded := by
  rw [validateRules, hknown, Bool.not_true, bailIf_false, ok_bind, hcount, counted_bind]

end TouchBar.Config
