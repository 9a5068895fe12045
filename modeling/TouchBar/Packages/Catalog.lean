import TouchBar.Policy.Grant
import TouchBar.Rust.Slice
import TouchBar.Rust.Text

/-!
# The catalog

The catalog lists packages under aliases.  `validate` looks at one catalog alone and
`validate_transition` at a catalog beside the one before it.  Over a history of catalogs
the two together make an alias permanent: it stays, it keeps its source, and once it is
retired it does not come back.
-/

namespace TouchBar.Packages

open TouchBar.Rust TouchBar.Policy Outcome

/-! ## Catalogs -/

def catalogVersion : ℕ := 1

def maxCatalogEntries : ℕ := 4096

inductive CatalogTier where
  | listed
  | curated
  | firstParty
deriving DecidableEq, Repr

inductive CatalogState where
  | active
  | retired
deriving DecidableEq, Repr

structure CatalogEntry where
  «alias» : String
  source : GithubSource
  name : String
  description : String
  categories : List String
  tier : CatalogTier
  state : CatalogState
deriving DecidableEq, Repr

structure Catalog where
  catalogVersion : ℕ
  plugins : List CatalogEntry
deriving DecidableEq, Repr

structure ValidationIssue where
  field : String
  message : String
deriving DecidableEq, Repr

/-- `issue`, when a condition holds. -/
def issueIf (condition : Bool) (field message : String) : List ValidationIssue :=
  if condition then [⟨field, message⟩] else []

/-! ## Validation of one catalog -/

def validateIdentifier (field value : String) (maximum : ℕ) : List ValidationIssue :=
  issueIf
    (Text.isEmpty value || maximum < Text.len value || Text.startsWith value "-" ||
      Text.endsWith value "-" || Text.containsStr value "--" ||
      !Text.all value (fun c => c.isLower || c.isDigit || c == '-') ||
      !Text.headIs value Char.isLower)
    field
    ("must be a lowercase kebab-case identifier of at most " ++ toString maximum ++ " bytes")

def unsafeCatalogTextCharacter (value : Char) : Bool :=
  let code := value.toNat
  Text.isControl value || code == 0x200b || code == 0x200e || code == 0x200f ||
    (0x202a ≤ code && code ≤ 0x202e) || (0x2066 ≤ code && code ≤ 0x2069) || code == 0xfeff

def validateText (field value : String) (maximum : ℕ) : List ValidationIssue :=
  issueIf
    (Text.isEmpty value || Text.trim value != value || maximum < value.toList.length ||
      Text.any value unsafeCatalogTextCharacter)
    field
    ("must be trimmed, nonempty text of at most " ++ toString maximum ++ " characters")

/-- The loop over the categories of an entry. -/
def validateCategories (start : String) :
    ℕ → BTreeSet String → Option String → List String → List ValidationIssue
  | _, _, _, [] => []
  | index, categories, previous, category :: rest =>
    let field := start ++ ".categories[" ++ toString index ++ "]"
    validateIdentifier field category 32 ++
      issueIf (categories.contains category) field "duplicate category" ++
      issueIf (previous.any fun p => category ≤ p) (start ++ ".categories")
        "categories must be uniquely sorted" ++
      validateCategories start (index + 1) (categories.insert category) (some category) rest

/-- The part of the loop over the entries that looks at one entry alone. -/
def validateEntry (start : String) (plugin : CatalogEntry) : List ValidationIssue :=
  validateIdentifier (start ++ ".alias") plugin.alias 64 ++
    validateText (start ++ ".name") plugin.name 80 ++
    validateText (start ++ ".description") plugin.description 280 ++
    issueIf (plugin.source.owner == "local") (start ++ ".source")
      "catalog entries require a public GitHub repository identity" ++
    issueIf (plugin.categories.isEmpty || 8 < plugin.categories.length)
      (start ++ ".categories") "must contain between one and eight categories" ++
    validateCategories start 0 .empty none plugin.categories

/-- The loop over the entries. -/
def validatePlugins :
    ℕ → BTreeSet String → BTreeSet GithubSource → Option String → List CatalogEntry →
      List ValidationIssue
  | _, _, _, _, [] => []
  | index, aliases, sources, previous, plugin :: rest =>
    let start := "plugin[" ++ toString index ++ "]"
    validateEntry start plugin ++
      issueIf (aliases.contains plugin.alias) (start ++ ".alias") "duplicate catalog alias" ++
      issueIf (sources.contains plugin.source) (start ++ ".source")
        "a GitHub source may have only one catalog alias" ++
      issueIf (previous.any fun p => plugin.alias ≤ p) "plugin"
        "entries must be uniquely sorted by alias" ++
      issueIf (plugin.tier == .firstParty && plugin.source.owner != "cameroncooper")
        (start ++ ".tier") "first-party entries must be owned by github:cameroncooper" ++
      validatePlugins (index + 1) (aliases.insert plugin.alias)
        (sources.insert plugin.source) (some plugin.alias) rest

/-- The issues that `validate` and `validate_transition` return, if there are any. -/
def report (issues : List ValidationIssue) : Outcome (List ValidationIssue) Unit :=
  if issues.isEmpty then ok () else err issues

def Catalog.validate (catalog : Catalog) : Outcome (List ValidationIssue) Unit :=
  report <|
    issueIf (catalog.catalogVersion != TouchBar.Packages.catalogVersion) "catalog_version"
        ("unsupported catalog version " ++ toString catalog.catalogVersion ++
          "; this build supports " ++ toString TouchBar.Packages.catalogVersion) ++
      issueIf (maxCatalogEntries < catalog.plugins.length) "plugin"
        ("catalog exceeds " ++ toString maxCatalogEntries ++ " entries") ++
      validatePlugins 0 .empty .empty none catalog.plugins

/-! ## Lookups and transitions -/

def Catalog.find (catalog : Catalog) (query : String) : Option CatalogEntry :=
  (binarySearchBy (fun entry => compare entry.alias query) catalog.plugins).toOption.bind
    fun index => catalog.plugins[index]?

def Catalog.resolve (catalog : Catalog) (query : String) : Option CatalogEntry :=
  (catalog.find query).filter fun entry => entry.state == .active

/-- The round of the loop of `validate_transition` for one entry of the previous catalog. -/
def transitionIssues (catalog : Catalog) (old : CatalogEntry) : List ValidationIssue :=
  match catalog.find old.alias with
  | none =>
    [⟨"plugin." ++ old.alias,
      "an accepted alias must remain as an active entry or retired tombstone"⟩]
  | some new =>
    issueIf (new.source != old.source) ("plugin." ++ old.alias ++ ".source")
        "an accepted alias may never change GitHub identity" ++
      issueIf (old.state == .retired && new.state != .retired)
        ("plugin." ++ old.alias ++ ".state") "a retired alias may never be reactivated"

def Catalog.validateTransition (catalog previous : Catalog) :
    Outcome (List ValidationIssue) Unit :=
  report (previous.plugins.flatMap (transitionIssues catalog))

/-! ## What the checks establish -/

variable {catalog previous : Catalog}

@[simp] lemma report_eq_ok {issues : List ValidationIssue} :
    report issues = ok () ↔ issues = [] := by
  unfold report
  split_ifs with h <;> simp_all

@[simp] lemma issueIf_eq_nil {condition : Bool} {field message : String} :
    issueIf condition field message = [] ↔ condition = false := by
  cases condition <;> simp [issueIf]

/-- Entries without issues are sorted by their aliases, beyond the previous one, and their
sources are new and distinct. -/
lemma validatePlugins_eq_nil {index : ℕ} {aliases : BTreeSet String}
    {sources : BTreeSet GithubSource} {last : Option String} {plugins : List CatalogEntry}
    (h : validatePlugins index aliases sources last plugins = []) :
    (∀ p ∈ last, ∀ e ∈ plugins, p < e.alias) ∧
      plugins.Pairwise (fun e e' => e.alias < e'.alias) ∧
      (∀ e ∈ plugins, e.source ∉ sources) ∧
      plugins.Pairwise (fun e e' => e.source ≠ e'.source) := by
  induction plugins generalizing index aliases sources last with
  | nil => simp
  | cons plugin rest ih =>
    simp only [validatePlugins, List.append_eq_nil_iff, issueIf_eq_nil] at h
    obtain ⟨⟨⟨⟨⟨-, -⟩, hsource⟩, hprevious⟩, -⟩, hrest⟩ := h
    obtain ⟨hbeyond, hsorted, hnew, hdistinct⟩ := ih hrest
    have hafter : ∀ e ∈ rest, plugin.alias < e.alias := hbeyond _ rfl
    have hfirst : ∀ p ∈ last, p < plugin.alias := by
      rintro p rfl
      simpa using hprevious
    refine ⟨?_, List.pairwise_cons.mpr ⟨hafter, hsorted⟩, ?_,
      List.pairwise_cons.mpr ⟨?_, hdistinct⟩⟩
    · intro p hp e he
      rcases List.mem_cons.mp he with rfl | he
      · exact hfirst p hp
      · exact (hfirst p hp).trans (hafter e he)
    · intro e he
      rcases List.mem_cons.mp he with rfl | he
      · exact fun hmem => by simp [BTreeSet.contains_iff.mpr hmem] at hsource
      · exact fun hmem => hnew e he (BTreeSet.mem_insert.mpr (Or.inr hmem))
    · -- the source of this entry is among the sources that the later ones are compared with
      intro e he heq
      exact hnew e he (BTreeSet.mem_insert.mpr (Or.inl heq.symm))

lemma validate_sorted (h : catalog.validate = ok ()) :
    catalog.plugins.Pairwise fun e e' => e.alias < e'.alias := by
  simp only [Catalog.validate, report_eq_ok, List.append_eq_nil_iff] at h
  exact (validatePlugins_eq_nil h.2).2.1

lemma validate_sources (h : catalog.validate = ok ()) :
    catalog.plugins.Pairwise fun e e' => e.source ≠ e'.source := by
  simp only [Catalog.validate, report_eq_ok, List.append_eq_nil_iff] at h
  exact (validatePlugins_eq_nil h.2).2.2.2

/-- In a valid catalog the binary search is a search from the left. -/
lemma find_eq_find? (h : catalog.validate = ok ()) (query : String) :
    catalog.find query = catalog.plugins.find? fun entry => entry.alias = query :=
  binarySearchBy_find? (validate_sorted h) query

lemma mem_of_find (h : catalog.validate = ok ()) {query : String} {entry : CatalogEntry}
    (hfind : catalog.find query = some entry) : entry ∈ catalog.plugins ∧ entry.alias = query := by
  rw [find_eq_find? h] at hfind
  exact ⟨List.mem_of_find?_eq_some hfind, by simpa using List.find?_some hfind⟩

/-- An entry of a valid catalog is found under its alias. -/
lemma find_of_mem (h : catalog.validate = ok ()) {entry : CatalogEntry}
    (hmem : entry ∈ catalog.plugins) : catalog.find entry.alias = some entry := by
  have hsome : (catalog.plugins.find? fun e => e.alias = entry.alias).isSome := by
    rw [List.find?_isSome]
    exact ⟨entry, hmem, by simp⟩
  obtain ⟨found, hfound⟩ := Option.isSome_iff_exists.mp hsome
  rw [← find_eq_find? h] at hfound
  obtain ⟨hfoundMem, halias⟩ := mem_of_find h hfound
  -- two entries of a sorted list have different aliases
  have hnodup : (catalog.plugins.map CatalogEntry.alias).Nodup :=
    List.pairwise_map.mpr ((validate_sorted h).imp fun hlt => hlt.ne)
  rw [hfound, List.inj_on_of_nodup_map hnodup hfoundMem hmem halias]

lemma eq_of_source_eq (h : catalog.validate = ok ()) {e e' : CatalogEntry}
    (he : e ∈ catalog.plugins) (he' : e' ∈ catalog.plugins) (hsource : e.source = e'.source) :
    e = e' :=
  List.inj_on_of_nodup_map (List.pairwise_map.mpr (validate_sources h)) he he' hsource

/-- `new` is what became of `old`: the same alias and the same source, and retired if `old`
is. -/
def Succeeds (old new : CatalogEntry) : Prop :=
  new.alias = old.alias ∧ new.source = old.source ∧ (old.state = .retired → new.state = .retired)

lemma Succeeds.trans {a b c : CatalogEntry} (h : Succeeds a b) (h' : Succeeds b c) :
    Succeeds a c :=
  ⟨h'.1.trans h.1, h'.2.1.trans h.2.1, fun ha => h'.2.2 (h.2.2 ha)⟩

/-- Each entry of the previous catalog has a successor. -/
lemma exists_successor_of_transition (h : catalog.validate = ok ())
    (htransition : catalog.validateTransition previous = ok ()) {old : CatalogEntry}
    (hold : old ∈ previous.plugins) : ∃ new ∈ catalog.plugins, Succeeds old new := by
  simp only [Catalog.validateTransition, report_eq_ok, List.flatMap_eq_nil_iff] at htransition
  have hissues := htransition old hold
  cases hfind : catalog.find old.alias with
  | none => simp [transitionIssues, hfind] at hissues
  | some new =>
    simp only [transitionIssues, hfind, List.append_eq_nil_iff, issueIf_eq_nil] at hissues
    obtain ⟨hmem, halias⟩ := mem_of_find h hfind
    refine ⟨new, hmem, halias, by simpa using hissues.1, fun hretired => ?_⟩
    simpa [hretired] using hissues.2

/-! ## Histories -/

/-- Catalogs of which each is valid and a valid successor of the one before it. -/
structure History (history : List Catalog) : Prop where
  valid : ∀ catalog ∈ history, catalog.validate = ok ()
  transition : history.IsChain fun previous catalog => catalog.validateTransition previous = ok ()

variable {history : List Catalog}

/-- An entry has a successor in every later catalog. -/
lemma History.exists_successor (h : History history) {i j : ℕ} (hij : i ≤ j)
    {early late : Catalog} (hi : history[i]? = some early) (hj : history[j]? = some late)
    {old : CatalogEntry} (hold : old ∈ early.plugins) :
    ∃ new ∈ late.plugins, Succeeds old new := by
  obtain ⟨n, rfl⟩ := Nat.exists_eq_add_of_le hij
  induction n generalizing late with
  | zero =>
    obtain rfl : early = late := Option.some.inj (hi.symm.trans hj)
    exact ⟨old, hold, rfl, rfl, id⟩
  | succ n ih =>
    have hlt : i + n + 1 < history.length := (List.getElem?_eq_some_iff.mp hj).1
    obtain ⟨mid, hmid, hmidSucceeds⟩ :=
      ih (by omega) (List.getElem?_eq_getElem (show i + n < history.length by omega))
    have hstep := List.isChain_iff_getElem.mp h.transition (i + n) hlt
    have hlate : history[i + n + 1] = late := (List.getElem?_eq_some_iff.mp hj).2
    rw [hlate] at hstep
    obtain ⟨new, hnew, hsucceeds⟩ :=
      exists_successor_of_transition (h.valid late (List.mem_of_getElem? hj)) hstep hmid
    exact ⟨new, hnew, hmidSucceeds.trans hsucceeds⟩

/-- Two entries with one source have one alias, in whatever catalogs of the history they
are. -/
lemma History.alias_eq (h : History history) {i j : ℕ} (hij : i ≤ j) {early late : Catalog}
    (hi : history[i]? = some early) (hj : history[j]? = some late) {e e' : CatalogEntry}
    (he : e ∈ early.plugins) (he' : e' ∈ late.plugins) (hsource : e.source = e'.source) :
    e.alias = e'.alias := by
  obtain ⟨new, hnew, halias, hnewSource, -⟩ := h.exists_successor hij hi hj he
  have hvalid := h.valid late (List.mem_of_getElem? hj)
  rw [← halias, eq_of_source_eq hvalid hnew he' (hnewSource.trans hsource)]

/-- Aliases are permanent.  Through a history of catalogs an alias stays with its source,
an alias that was retired is not resolved any more, and no source is found under two
aliases; and a lookup is a search from the left for every query. -/
theorem aliases_permanent (history : List Catalog)
    (hvalid : ∀ catalog ∈ history, catalog.validate = ok ())
    (htransition : history.IsChain fun previous catalog =>
      catalog.validateTransition previous = ok ()) :
    (∀ (i j : ℕ) (early late : Catalog), i ≤ j → history[i]? = some early →
      history[j]? = some late → ∀ old ∈ early.plugins,
        (∃ new ∈ late.plugins, new.alias = old.alias ∧ new.source = old.source) ∧
        (∃ new, late.find old.alias = some new ∧ new.source = old.source) ∧
        (old.state = .retired → late.resolve old.alias = none)) ∧
    (∀ early ∈ history, ∀ late ∈ history, ∀ (a a' : String) (e e' : CatalogEntry),
      early.find a = some e → late.find a' = some e' → e.source = e'.source → a = a') ∧
    (∀ catalog ∈ history, ∀ query : String,
      catalog.find query = catalog.plugins.find? fun entry => entry.alias = query) := by
  have h : History history := ⟨hvalid, htransition⟩
  refine ⟨?_, ?_, fun catalog hcatalog => find_eq_find? (hvalid catalog hcatalog)⟩
  · intro i j early late hij hi hj old hold
    obtain ⟨new, hnew, halias, hsource, hretired⟩ := h.exists_successor hij hi hj hold
    have hfind : late.find old.alias = some new := by
      rw [← halias]
      exact find_of_mem (hvalid late (List.mem_of_getElem? hj)) hnew
    refine ⟨⟨new, hnew, halias, hsource⟩, ⟨new, hfind, hsource⟩, fun hold => ?_⟩
    simp [Catalog.resolve, hfind, hretired hold]
  · intro early hearly late hlate a a' e e' hfind hfind' hsource
    obtain ⟨he, rfl⟩ := mem_of_find (hvalid early hearly) hfind
    obtain ⟨he', rfl⟩ := mem_of_find (hvalid late hlate) hfind'
    obtain ⟨i, hi⟩ := List.mem_iff_getElem?.mp hearly
    obtain ⟨j, hj⟩ := List.mem_iff_getElem?.mp hlate
    rcases Nat.le_total i j with hij | hji
    · exact h.alias_eq hij hi hj he he' hsource
    · exact (h.alias_eq hji hj hi he' he hsource.symm).symm

/-! ## A retirement -/

/-- The entry of the media controls in one of its states. -/
def mediaEntry (state : CatalogState) : CatalogEntry where
  «alias» := "media-controls"
  source := ⟨"alice", "touchbar-media"⟩
  name := "Media Controls"
  description := "Playback controls and timeline scrubbing"
  categories := ["audio", "media"]
  tier := .curated
  state := state

def systemEntry : CatalogEntry where
  «alias» := "system-controls"
  source := ⟨"cameroncooper", "touchbar-controls"⟩
  name := "System Controls"
  description := "Volume, brightness, microphone, and power controls"
  categories := ["audio", "system"]
  tier := .firstParty
  state := .active

/-- An entry that sorts before the media controls. -/
def clockEntry : CatalogEntry where
  «alias» := "clock"
  source := ⟨"bob", "clock"⟩
  name := "Clock"
  description := "The time of day"
  categories := ["time"]
  tier := .listed
  state := .active

/-- The media controls are retired in the second catalog, and the third one has a clock. -/
def mediaCatalogs : List Catalog :=
  [⟨1, [mediaEntry .active, systemEntry]⟩, ⟨1, [mediaEntry .retired, systemEntry]⟩,
    ⟨1, [clockEntry, mediaEntry .retired, systemEntry]⟩]

theorem aliases_permanent_media :
    (∃ new, (Catalog.mk 1 [clockEntry, mediaEntry .retired, systemEntry]).find "media-controls" =
        some new ∧ new.source = ⟨"alice", "touchbar-media"⟩) ∧
      (Catalog.mk 1 [clockEntry, mediaEntry .retired, systemEntry]).resolve "media-controls" =
        none := by
  have h := (aliases_permanent mediaCatalogs (by decide) (by decide)).1 1 2 _ _
    (by decide) rfl rfl (mediaEntry .retired) (by decide)
  exact ⟨h.2.1, h.2.2 rfl⟩

end TouchBar.Packages
