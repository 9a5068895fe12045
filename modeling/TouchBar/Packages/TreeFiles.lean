import TouchBar.Packages.PackageTree

/-!
# Files of a tree

The files below a directory, by the names that lead to them.  What `inspect_package` collects
of a directory are its files, if it holds nothing but files and directories.  A file is created
in a tree together with the directories on its way, and leaves all others as they are.
-/

namespace TouchBar.Packages

open TouchBar.Rust TouchBar.Rust.BytePath Outcome

/-! ## Lookups -/

section Lookup

variable {node root : Node} {entries : Entries} {name : List UInt8} {q r : List (List UInt8)}

lemma lookup_nil : node.lookup [] = some node := rfl

lemma lookup_directory_cons : (Node.directory entries).lookup (name :: q) =
    (entries.get name).bind (Node.lookup q) := rfl

lemma lookup_append : node.lookup (q ++ r) = (node.lookup q).bind (Node.lookup r) := by
  induction q generalizing node with
  | nil => rfl
  | cons name q ih =>
    rw [List.cons_append, Node.lookup, Node.lookup]
    cases node.entry name with
    | none => rfl
    | some child => exact ih

/-- Nothing is below a file. -/
lemma lookup_file_cons {links : ℕ} {content : List UInt8} :
    (Node.file links content).lookup (name :: q) = none := rfl

/-- What is above a node is a directory, or a link to one. -/
lemma resolve_of_lookup_append (h : (node.lookup (q ++ r)).isSome) (hr : r ≠ []) :
    ∃ above entries, node.lookup q = some above ∧ above.resolve = some (.directory entries) := by
  rw [lookup_append] at h
  cases habove : node.lookup q with
  | none => simp [habove] at h
  | some above =>
    cases r with
    | nil => exact absurd rfl hr
    | cons name r =>
      rw [habove, Option.bind_some, Node.lookup, Node.entry] at h
      split at h
      · rename_i entries hresolve
        exact ⟨above, entries, rfl, hresolve⟩
      · simp at h

/-- Two files are not one below the other. -/
lemma eq_of_prefix_of_files {links links' : ℕ} {content content' : List UInt8}
    (hq : node.lookup q = some (.file links content))
    (hr : node.lookup r = some (.file links' content')) (habove : q <+: r) : q = r := by
  obtain ⟨rest, rfl⟩ := habove
  rw [lookup_append, hq, Option.bind_some] at hr
  cases rest with
  | nil => rw [List.append_nil]
  | cons name rest => cases hr

end Lookup

/-! ## Plain trees -/

mutual

/-- Only files and directories. -/
def Node.Plain : Node → Prop
  | .file _ _ => True
  | .directory entries => entries.Plain
  | .symlink _ => False
  | .dangling => False
  | .special => False

def Entries.Plain : Entries → Prop
  | .nil => True
  | .cons _ node rest => node.Plain ∧ rest.Plain

end

mutual

/-- The names that lead to the files of a node, in the order of the entries. -/
def Node.files : Node → List (List (List UInt8))
  | .file _ _ => [[]]
  | .directory entries => entries.files
  | .symlink _ => []
  | .dangling => []
  | .special => []

def Entries.files : Entries → List (List (List UInt8))
  | .nil => []
  | .cons name node rest => node.files.map (name :: ·) ++ rest.files

end

/-- Induction on the entries of one directory. -/
@[elab_as_elim]
theorem Entries.list_induction {P : Entries → Prop} (nil : P .nil)
    (cons : ∀ name node rest, P rest → P (.cons name node rest)) : ∀ entries, P entries
  | .nil => nil
  | .cons name node rest => cons name node rest (Entries.list_induction nil cons rest)

section Plain

variable {node : Node} {entries : Entries} {name : List UInt8} {q : List (List UInt8)}

lemma Entries.Plain.get (h : entries.Plain) (hget : entries.get name = some node) :
    node.Plain := by
  induction entries using Entries.list_induction with
  | nil => cases hget
  | cons n child rest ih =>
    rw [Entries.Plain] at h
    rw [Entries.get] at hget
    split_ifs at hget
    · exact Option.some.inj hget ▸ h.1
    · exact ih h.2 hget

lemma Entries.WF.get (h : entries.WF) (hget : entries.get name = some node) :
    IsName name ∧ node.WF := by
  induction entries using Entries.list_induction with
  | nil => cases hget
  | cons n child rest ih =>
    rw [Entries.WF] at h
    rw [Entries.get] at hget
    split_ifs at hget with hname
    · rw [hname]
      exact ⟨h.1, Option.some.inj hget ▸ h.2.1⟩
    · exact ih h.2.2.2 hget

/-- The files of a directory are those of its entries. -/
lemma mem_files_entries (hwf : entries.WF) : q ∈ entries.files ↔
    ∃ name rest node, q = name :: rest ∧ entries.get name = some node ∧ rest ∈ node.files := by
  induction entries using Entries.list_induction with
  | nil => simp [Entries.files, Entries.get]
  | cons n child others ih =>
    obtain ⟨-, -, hfirst, hothers⟩ := hwf
    rw [Entries.files, List.mem_append, List.mem_map, ih hothers]
    simp only [Entries.get]
    constructor
    · rintro (⟨rest, hrest, rfl⟩ | ⟨name, rest, node, rfl, hget, hrest⟩)
      · exact ⟨n, rest, child, rfl, if_pos rfl, hrest⟩
      · refine ⟨name, rest, node, rfl, ?_, hrest⟩
        rw [if_neg, hget]
        rintro rfl
        exact lt_irrefl _ (hfirst _ _ hget)
    · rintro ⟨name, rest, node, rfl, hget, hrest⟩
      split_ifs at hget with hname
      · obtain rfl := Option.some.inj hget
        exact .inl ⟨rest, hrest, by rw [hname]⟩
      · exact .inr ⟨name, rest, node, rfl, hget, hrest⟩

/-- The files of a plain tree are the names that lead to a file. -/
lemma mem_files_iff (hwf : node.WF) (hplain : node.Plain) :
    q ∈ node.files ↔ ∃ links content, node.lookup q = some (.file links content) := by
  induction q generalizing node with
  | nil =>
    cases node with
    | file links content => simp [Node.files, Node.lookup]
    | directory entries =>
      rw [Node.files, mem_files_entries hwf]
      simp [Node.lookup]
    | symlink target => exact hplain.elim
    | dangling => exact hplain.elim
    | special => exact hplain.elim
  | cons name q ih =>
    cases node with
    | file links content =>
      simp only [lookup_file_cons]
      simp [Node.files]
    | directory entries =>
      rw [Node.files, mem_files_entries hwf]
      simp only [lookup_directory_cons, List.cons.injEq]
      constructor
      · rintro ⟨_, _, child, ⟨rfl, rfl⟩, hget, hq⟩
        obtain ⟨links, content, hlookup⟩ :=
          (ih (Entries.WF.get hwf hget).2 (Entries.Plain.get hplain hget)).mp hq
        exact ⟨links, content, by rw [hget]; exact hlookup⟩
      · rintro ⟨links, content, hlookup⟩
        obtain ⟨child, hget, hlookup⟩ := Option.bind_eq_some_iff.mp hlookup
        exact ⟨name, q, child, ⟨rfl, rfl⟩, hget,
          (ih (Entries.WF.get hwf hget).2 (Entries.Plain.get hplain hget)).mpr
            ⟨links, content, hlookup⟩⟩
    | symlink target => exact hplain.elim
    | dangling => exact hplain.elim
    | special => exact hplain.elim

lemma Node.Plain.lookup {found : Node} (h : node.Plain) (hlookup : node.lookup q = some found) :
    found.Plain := by
  induction q generalizing node with
  | nil => exact Option.some.inj hlookup ▸ h
  | cons name q ih =>
    rw [Node.lookup, Node.entry] at hlookup
    obtain ⟨child, hchild, hfound⟩ := Option.bind_eq_some_iff.mp hlookup
    cases node with
    | file links content => cases hchild
    | directory entries => exact ih (Entries.Plain.get h hchild) hfound
    | symlink target => exact h.elim
    | dangling => exact h.elim
    | special => exact h.elim

/-- In a plain tree a node is a file or a directory itself. -/
lemma Node.Plain.cases (h : node.Plain) : (∃ links content, node = .file links content) ∨
    ∃ entries, node = .directory entries := by
  cases node with
  | file links content => exact .inl ⟨links, content, rfl⟩
  | directory entries => exact .inr ⟨entries, rfl⟩
  | symlink target => exact h.elim
  | dangling => exact h.elim
  | special => exact h.elim

end Plain

/-! ## Sets of paths -/

section PathSets

variable {paths : PathSet} {key : List Part} {path : List UInt8} {ns : List (List UInt8)}
  {l : List (List (List UInt8))}

/-- The spelling that collected paths have. -/
def canonical (key : List Part) : List UInt8 := ofNames (key.filterMap Part.name?)

lemma canonical_map_normal : canonical (ns.map .normal) = ofNames ns := by
  rw [canonical, List.filterMap_map]
  congr 1
  exact List.filterMap_some

/-- Paths under names, put into a set. -/
def insertNames (paths : PathSet) (l : List (List (List UInt8))) : PathSet :=
  (l.map ofNames).foldl insertPath paths

lemma get_insertPath : (insertPath paths path).get key =
    (paths.get key).or (if key = parts path then some path else none) := by
  rw [insertPath]
  split_ifs with hcontains hkey
  · obtain ⟨v, hv⟩ := BTreeMap.containsKey_iff.mp hcontains
    rw [hkey, hv, Option.some_or]
  · rw [Option.or_none]
  · rw [BTreeMap.get_insert, if_pos (by assumption)]
    rw [Bool.not_eq_true, BTreeMap.containsKey_eq_false_iff] at hcontains
    rename_i hkey
    rw [hkey, hcontains, Option.none_or]
  · rw [BTreeMap.get_insert, if_neg (by assumption), Option.or_none]

lemma get_insertNames (h : ∀ ns ∈ l, ∀ name ∈ ns, IsName name) :
    (insertNames paths l).get key = (paths.get key).or
      (if key ∈ l.map (List.map Part.normal) then some (canonical key) else none) := by
  induction l generalizing paths with
  | nil => simp [insertNames]
  | cons ns l ih =>
    show (insertNames (insertPath paths (ofNames ns)) l).get key = _
    rw [ih (fun n hn => h n (List.mem_cons_of_mem _ hn)), get_insertPath,
      parts_ofNames (h ns List.mem_cons_self), List.map_cons, Option.or_assoc]
    congr 1
    by_cases hkey : key = ns.map .normal
    · rw [if_pos hkey, Option.some_or, hkey, canonical_map_normal, if_pos List.mem_cons_self]
    · rw [if_neg hkey, Option.none_or]
      congr 1
      rw [List.mem_cons, or_iff_right hkey]

lemma len_insertPath_le : paths.len ≤ (insertPath paths path).len := by
  rw [insertPath]
  split_ifs with hcontains
  · exact le_rfl
  · rw [Bool.not_eq_true, BTreeMap.containsKey_eq_false_iff] at hcontains
    rw [BTreeMap.len_insert hcontains]
    omega

lemma len_insertNames_le : paths.len ≤ (insertNames paths l).len := by
  induction l generalizing paths with
  | nil => exact le_rfl
  | cons ns l ih => exact len_insertPath_le.trans ih

lemma insertNames_append {m : List (List (List UInt8))} :
    insertNames paths (l ++ m) = insertNames (insertNames paths l) m := by
  rw [insertNames, List.map_append, List.foldl_append]
  rfl

/-- A set in which every path stands under its components. -/
def Keyed (paths : PathSet) : Prop := ∀ key path, paths.get key = some path → key = parts path

lemma keyed_empty_paths : Keyed .empty := fun _ _ h => by cases h

lemma Keyed.insertPath (h : Keyed paths) : Keyed (insertPath paths path) := by
  intro key found hget
  rw [get_insertPath, Option.or_eq_some_iff] at hget
  rcases hget with hold | ⟨-, hnew⟩
  · exact h key found hold
  · split_ifs at hnew with hkey
    rw [hkey, Option.some.inj hnew]

lemma Keyed.foldl {l : List (List UInt8)} (h : Keyed paths) :
    Keyed (l.foldl Packages.insertPath paths) := by
  induction l generalizing paths with
  | nil => exact h
  | cons path l ih => exact ih h.insertPath

end PathSets

/-! ## Collecting -/

mutual

/-- Where the collection of a member succeeds, the node is plain, and its files are collected. -/
theorem collectMember_eq_ok (path : List (List UInt8)) (node : Node) (output collected : PathSet)
    (h : collectMember path node output = ok collected) :
    node.Plain ∧ collected = insertNames output (node.files.map (path ++ ·)) := by
  cases node with
  | file links content =>
    rw [collectMember] at h
    refine ⟨trivial, (ok.inj h).symm.trans ?_⟩
    simp [insertNames, Node.files]
  | directory entries =>
    rw [collectMember] at h
    exact collectEntries_eq_ok path entries output collected h
  | symlink target => cases h
  | dangling => cases h
  | special => cases h

theorem collectEntries_eq_ok (path : List (List UInt8)) (entries : Entries)
    (output collected : PathSet) (h : collectEntries path entries output = ok collected) :
    entries.Plain ∧ collected = insertNames output (entries.files.map (path ++ ·)) := by
  cases entries with
  | nil =>
    rw [collectEntries] at h
    exact ⟨trivial, (ok.inj h).symm⟩
  | cons name node rest =>
    rw [collectEntries] at h
    split at h
    · rename_i first hfirst
      split_ifs at h
      obtain ⟨hnode, rfl⟩ := collectMember_eq_ok (path ++ [name]) node output first hfirst
      obtain ⟨hrest, rfl⟩ := collectEntries_eq_ok path rest _ collected h
      refine ⟨⟨hnode, hrest⟩, ?_⟩
      rw [Entries.files, List.map_append, insertNames_append, List.map_map]
      congr 3
      funext q
      simp
    · cases h
    · cases h

end

mutual

/-- The files of a plain tree are collected if there are not too many. -/
theorem collectMember_returns (path : List (List UInt8)) (node : Node) (output : PathSet)
    (hplain : node.Plain)
    (hlen : (insertNames output (node.files.map (path ++ ·))).len ≤ maxPackageFiles) :
    collectMember path node output = ok (insertNames output (node.files.map (path ++ ·))) := by
  cases node with
  | file links content =>
    rw [collectMember]
    simp [insertNames, Node.files]
  | directory entries =>
    rw [collectMember]
    exact collectEntries_returns path entries output hplain hlen
  | symlink target => exact hplain.elim
  | dangling => exact hplain.elim
  | special => exact hplain.elim

theorem collectEntries_returns (path : List (List UInt8)) (entries : Entries) (output : PathSet)
    (hplain : entries.Plain)
    (hlen : (insertNames output (entries.files.map (path ++ ·))).len ≤ maxPackageFiles) :
    collectEntries path entries output =
      ok (insertNames output (entries.files.map (path ++ ·))) := by
  cases entries with
  | nil =>
    rw [collectEntries]
    rfl
  | cons name node rest =>
    have hsplit : insertNames output ((Entries.cons name node rest).files.map (path ++ ·)) =
        insertNames (insertNames output (node.files.map (path ++ [name] ++ ·)))
          (rest.files.map (path ++ ·)) := by
      rw [Entries.files, List.map_append, insertNames_append, List.map_map]
      congr 3
      funext q
      simp
    rw [hsplit] at hlen ⊢
    have hfirst : (insertNames output (node.files.map (path ++ [name] ++ ·))).len ≤
        maxPackageFiles := len_insertNames_le.trans hlen
    rw [collectEntries, collectMember_returns (path ++ [name]) node output hplain.1 hfirst]
    dsimp only
    rw [if_neg (Nat.not_lt.mpr hfirst)]
    exact collectEntries_returns path rest _ hplain.2 hlen

end

/-! ## Creating -/

/-- The entries with a name put, after the entries with smaller names. -/
def Entries.insert (name : List UInt8) (node : Node) : Entries → Entries
  | .nil => .cons name node .nil
  | .cons other child rest =>
    if name = other then .cons name node rest
    else if nameKey name < nameKey other then .cons name node (.cons other child rest)
    else .cons other child (rest.insert name node)

/-- The directory that `fs::create_dir_all` finds or makes under a name. -/
def childEntries : Option Node → Option Entries
  | none => some .nil
  | some (.directory entries) => some entries
  | some _ => none

/-- `fs::create_dir_all` on the parent of a path, and a new file there with a content.  It
fails if something else than a directory is on the way, or anything is at the end. -/
def createFile (content : List UInt8) : List (List UInt8) → Entries → Option Entries
  | [], _ => none
  | [name], entries =>
    match entries.get name with
    | none => some (entries.insert name (.file 1 content))
    | some _ => none
  | name :: next :: names, entries => do
    let children ← childEntries (entries.get name)
    let changed ← createFile content (next :: names) children
    return entries.insert name (.directory changed)

section Create

variable {node : Node} {entries created : Entries} {name other : List UInt8}
  {content : List UInt8} {ns q : List (List UInt8)}

lemma get_insert : (entries.insert name node).get other =
    if other = name then some node else entries.get other := by
  induction entries using Entries.list_induction with
  | nil => rfl
  | cons n child rest ih =>
    rw [Entries.insert]
    by_cases hname : name = n
    · subst hname
      rw [if_pos rfl]
      simp only [Entries.get]
      by_cases hother : other = name
      · rw [if_pos hother, if_pos hother]
      · rw [if_neg hother, if_neg hother, if_neg hother]
    rw [if_neg hname]
    by_cases hlt : nameKey name < nameKey n
    · rw [if_pos hlt, Entries.get]
    · rw [if_neg hlt, Entries.get, Entries.get, ih]
      by_cases hother : other = name
      · have hne : other ≠ n := by rwa [hother]
        rw [if_neg hne, if_pos hother, if_pos hother]
      · rw [if_neg hother]
        split_ifs <;> rfl

lemma Entries.Plain.insert (h : entries.Plain) (hnode : node.Plain) :
    (entries.insert name node).Plain := by
  induction entries using Entries.list_induction with
  | nil => exact ⟨hnode, trivial⟩
  | cons n child rest ih =>
    rw [Entries.insert]
    split_ifs
    · exact ⟨hnode, h.2⟩
    · exact ⟨hnode, h⟩
    · exact ⟨h.1, ih h.2⟩

lemma Entries.WF.insert (h : entries.WF) (hname : IsName name) (hnode : node.WF) :
    (entries.insert name node).WF := by
  induction entries using Entries.list_induction with
  | nil => exact ⟨hname, hnode, fun _ _ hget => (by cases hget), trivial⟩
  | cons n child rest ih =>
    obtain ⟨hn, hchild, hfirst, hrest⟩ := h
    rw [Entries.insert]
    split_ifs with hsame hlt
    · subst hsame
      exact ⟨hname, hnode, hfirst, hrest⟩
    · refine ⟨hname, hnode, fun other found hget => ?_, hn, hchild, hfirst, hrest⟩
      rw [Entries.get] at hget
      split_ifs at hget with hother
      · rw [hother]
        exact hlt
      · exact hlt.trans (hfirst other found hget)
    · refine ⟨hn, hchild, fun other found hget => ?_, ih hrest⟩
      rw [get_insert] at hget
      split_ifs at hget with hother
      · rw [hother]
        have hne : nameKey name ≠ nameKey n := fun heq => hsame (nameKey_injective heq)
        exact lt_of_le_of_ne (not_lt.mp hlt) hne.symm
      · exact hfirst other found hget

/-- What a file is created in: a new place at the end, or a directory on the way. -/
lemma createFile_cons_eq_some : createFile content (name :: ns) entries = some created ↔
    (ns = [] ∧ entries.get name = none ∧ created = entries.insert name (.file 1 content)) ∨
    ns ≠ [] ∧ ∃ children changed, childEntries (entries.get name) = some children ∧
      createFile content ns children = some changed ∧
      created = entries.insert name (.directory changed) := by
  cases ns with
  | nil =>
    rw [createFile]
    cases entries.get name with
    | none => simp [eq_comm]
    | some node => simp
  | cons next ns =>
    simp only [createFile, bind, Option.bind_eq_some_iff, pure, Option.some.injEq]
    constructor
    · rintro ⟨children, hchildren, changed, hchanged, rfl⟩
      exact .inr ⟨by simp, children, changed, hchildren, hchanged, rfl⟩
    · rintro (⟨h, -⟩ | ⟨-, children, changed, hchildren, hchanged, rfl⟩)
      · cases h
      · exact ⟨children, hchildren, changed, hchanged, rfl⟩

/-- The lookup below the directory that is found or made. -/
lemma lookup_of_childEntries {children : Entries} {found : Node} (hq : q ≠ [])
    (hchildren : childEntries (entries.get name) = some children) :
    (Node.directory entries).lookup (name :: q) = some found ↔
      (Node.directory children).lookup q = some found := by
  rw [lookup_directory_cons]
  cases hget : entries.get name with
  | none =>
    rw [hget] at hchildren
    obtain rfl := Option.some.inj hchildren
    cases q with
    | nil => exact absurd rfl hq
    | cons other q => simp [lookup_directory_cons, Entries.get]
  | some child =>
    rw [hget] at hchildren
    cases child with
    | directory found => 
      obtain rfl := Option.some.inj hchildren
      rfl
    | file links content => cases hchildren
    | symlink target => cases hchildren
    | dangling => cases hchildren
    | special => cases hchildren

/-- The file is there. -/
lemma lookup_createFile (h : createFile content ns entries = some created) :
    (Node.directory created).lookup ns = some (.file 1 content) := by
  induction ns generalizing entries created with
  | nil => cases h
  | cons name ns ih =>
    rcases createFile_cons_eq_some.mp h with
      ⟨rfl, -, rfl⟩ | ⟨-, children, changed, -, hchanged, rfl⟩
    · rw [lookup_directory_cons, get_insert, if_pos rfl]
      rfl
    · rw [lookup_directory_cons, get_insert, if_pos rfl]
      exact ih hchanged

/-- All other files are what they were before. -/
lemma lookup_createFile_file {links : ℕ} {found : List UInt8}
    (h : createFile content ns entries = some created) (hq : q ≠ ns) :
    (Node.directory created).lookup q = some (.file links found) ↔
      (Node.directory entries).lookup q = some (.file links found) := by
  induction ns generalizing entries created q with
  | nil => cases h
  | cons name ns ih =>
    cases q with
    | nil => simp [lookup_nil]
    | cons other q =>
      rcases createFile_cons_eq_some.mp h with
        ⟨rfl, hget, rfl⟩ | ⟨hns, children, changed, hchildren, hchanged, rfl⟩
      · rw [lookup_directory_cons, lookup_directory_cons, get_insert]
        split_ifs with hother
        · -- below the new file there is nothing, as below a name without entry
          subst hother
          rw [hget, Option.bind_none, Option.bind_some]
          cases q with
          | nil => exact absurd rfl hq
          | cons next q => simp [lookup_file_cons]
        · rfl
      · by_cases hother : other = name
        · subst hother
          have hne : q ≠ ns := fun heq => hq (by rw [heq])
          rw [lookup_directory_cons, get_insert, if_pos rfl, Option.bind_some, ih hchanged hne]
          rcases eq_or_ne q [] with rfl | hempty
          · -- neither the directory before nor the one after is a file
            rw [lookup_nil, lookup_directory_cons]
            cases hget : entries.get other with
            | none => simp
            | some child =>
              rw [hget] at hchildren
              cases child <;> simp_all [childEntries, Node.lookup]
          · exact (lookup_of_childEntries hempty hchildren).symm
        · rw [lookup_directory_cons, lookup_directory_cons, get_insert, if_neg hother]

/-- The directories are those that were there and those on the way. -/
lemma lookup_createFile_directory {found : Entries}
    (h : createFile content ns entries = some created)
    (hfound : (Node.directory created).lookup q = some (.directory found)) :
    (q <+: ns ∧ q ≠ ns) ∨ ∃ before, (Node.directory entries).lookup q = some (.directory before) := by
  induction ns generalizing entries created q with
  | nil => cases h
  | cons name ns ih =>
    cases q with
    | nil => exact .inr ⟨entries, rfl⟩
    | cons other q =>
      rcases createFile_cons_eq_some.mp h with
        ⟨rfl, hget, rfl⟩ | ⟨hns, children, changed, hchildren, hchanged, rfl⟩
      · rw [lookup_directory_cons, get_insert] at hfound
        split_ifs at hfound with hother
        · cases q <;> cases hfound
        · exact .inr ⟨found, hfound⟩
      · rw [lookup_directory_cons, get_insert] at hfound
        split_ifs at hfound with hother
        · subst hother
          rcases eq_or_ne q [] with rfl | hempty
          · exact .inl ⟨⟨ns, rfl⟩, fun heq => hns (List.cons.inj heq).2.symm⟩
          rcases ih hchanged hfound with ⟨habove, hne⟩ | ⟨before, hbefore⟩
          · refine .inl ⟨?_, fun heq => hne (List.cons.inj heq).2⟩
            obtain ⟨rest, rfl⟩ := habove
            exact ⟨rest, rfl⟩
          · exact .inr ⟨before, (lookup_of_childEntries hempty hchildren).mpr hbefore⟩
        · exact .inr ⟨found, hfound⟩

lemma Entries.Plain.createFile (h : entries.Plain)
    (hcreate : createFile content ns entries = some created) : created.Plain := by
  induction ns generalizing entries created with
  | nil => cases hcreate
  | cons name ns ih =>
    rcases createFile_cons_eq_some.mp hcreate with
      ⟨-, -, rfl⟩ | ⟨-, children, changed, hchildren, hchanged, rfl⟩
    · exact h.insert trivial
    · refine h.insert (ih ?_ hchanged)
      cases hget : entries.get name with
      | none =>
        rw [hget] at hchildren
        obtain rfl := Option.some.inj hchildren
        trivial
      | some child =>
        have hchild := h.get hget
        rw [hget] at hchildren
        cases child <;> simp_all [childEntries, Node.Plain]

lemma Entries.WF.createFile (h : entries.WF) (hns : ∀ name ∈ ns, IsName name)
    (hcreate : createFile content ns entries = some created) : created.WF := by
  induction ns generalizing entries created with
  | nil => cases hcreate
  | cons name ns ih =>
    have hname := hns name List.mem_cons_self
    rcases createFile_cons_eq_some.mp hcreate with
      ⟨-, -, rfl⟩ | ⟨-, children, changed, hchildren, hchanged, rfl⟩
    · exact h.insert hname trivial
    · refine h.insert hname (ih ?_ (fun n hn => hns n (List.mem_cons_of_mem _ hn)) hchanged)
      cases hget : entries.get name with
      | none =>
        rw [hget] at hchildren
        obtain rfl := Option.some.inj hchildren
        trivial
      | some child =>
        have hchild := (h.get hget).2
        rw [hget] at hchildren
        cases child <;> simp_all [childEntries, Node.WF]

/-- A file can be created where nothing is, if no file is on the way. -/
lemma createFile_returns (hplain : entries.Plain) (hne : ns ≠ [])
    (hway : ∀ r links found, r <+: ns →
      (Node.directory entries).lookup r ≠ some (.file links found))
    (hfree : (Node.directory entries).lookup ns = none) :
    ∃ created, createFile content ns entries = some created := by
  induction ns generalizing entries with
  | nil => exact absurd rfl hne
  | cons name ns ih =>
    rw [lookup_directory_cons] at hfree
    cases ns with
    | nil =>
      have hget : entries.get name = none := by
        cases hget : entries.get name with
        | none => rfl
        | some child => rw [hget] at hfree; cases hfree
      exact ⟨_, createFile_cons_eq_some.mpr (.inl ⟨rfl, hget, rfl⟩)⟩
    | cons next ns =>
      have hchildren : ∃ children, childEntries (entries.get name) = some children ∧
          children.Plain := by
        cases hget : entries.get name with
        | none => exact ⟨.nil, rfl, trivial⟩
        | some child =>
          rcases (hplain.get hget).cases with ⟨links, found, rfl⟩ | ⟨children, rfl⟩
          · refine absurd ?_ (hway [name] links found ⟨next :: ns, rfl⟩)
            rw [lookup_directory_cons, hget]
            rfl
          · exact ⟨children, rfl, hplain.get hget⟩
      obtain ⟨children, hchildren, hchildrenPlain⟩ := hchildren
      have hsame : ∀ r, r ≠ [] → ∀ found,
          (Node.directory entries).lookup (name :: r) = some found ↔
            (Node.directory children).lookup r = some found :=
        fun r hr found => lookup_of_childEntries hr hchildren
      have hfree' : (Node.directory children).lookup (next :: ns) = none := by
        rw [Option.eq_none_iff_forall_ne_some]
        intro found hfound
        rw [← hsame (next :: ns) (by simp), lookup_directory_cons, hfree] at hfound
        cases hfound
      obtain ⟨changed, hchanged⟩ := ih hchildrenPlain (by simp) (fun r links found hr hfound => by
        rcases eq_or_ne r [] with rfl | hempty
        · cases hfound
        · obtain ⟨rest, hrest⟩ := hr
          exact hway (name :: r) links found ⟨rest, by rw [List.cons_append, hrest]⟩
            ((hsame r hempty _).mpr hfound)) hfree'
      exact ⟨_, createFile_cons_eq_some.mpr
        (.inr ⟨by simp, children, changed, hchildren, hchanged, rfl⟩)⟩

end Create

end TouchBar.Packages
