import Mathlib.Data.List.Lex
import Mathlib.Data.Prod.Lex
import Mathlib.Data.UInt

/-!
# Paths as bytes

`std::path::Path` on Unix, where a path is any string of bytes: the components that the
standard library sees in a path, its order on them, and the path that joins names.  Repeated
separators and inner `.` components do not count, so that one file has many spellings.
-/

namespace TouchBar.Rust.BytePath

/-- The separator. -/
def slash : UInt8 := 47

/-- The `.` that names the directory itself. -/
def dot : List UInt8 := [46]

def dotDot : List UInt8 := [46, 46]

/-! ## Components -/

/-- `std::path::Component`. -/
inductive Part where
  | rootDir
  | curDir
  | parentDir
  | normal (name : List UInt8)
deriving DecidableEq, Repr

/-- Names are ordered by their bytes. -/
def nameKey (name : List UInt8) : List ℕ := name.map UInt8.toNat

lemma nameKey_injective : Function.Injective nameKey :=
  List.map_injective_iff.mpr fun _ _ h => UInt8.toNat_inj.mp h

namespace Part

def key : Part → ℕ ×ₗ List ℕ
  | rootDir => toLex (0, [])
  | curDir => toLex (1, [])
  | parentDir => toLex (2, [])
  | normal name => toLex (3, nameKey name)

lemma key_injective : Function.Injective key := by
  intro p q h
  cases p <;> cases q <;> simp only [key, EmbeddingLike.apply_eq_iff_eq, Prod.mk.injEq] at h <;>
    first | rfl | omega | exact congrArg normal (nameKey_injective h.2)

instance : LinearOrder Part := LinearOrder.lift' key key_injective

def isNormal : Part → Bool
  | normal _ => true
  | _ => false

def name? : Part → Option (List UInt8)
  | normal name => some name
  | _ => none

/-- The component of one piece between separators. -/
def ofPiece (piece : List UInt8) : Option Part :=
  if piece = [] ∨ piece = dot then none
  else if piece = dotDot then some parentDir
  else some (normal piece)

end Part

/-- What stands between the separators. -/
def pieces : List UInt8 → List (List UInt8)
  | [] => [[]]
  | b :: path =>
    if b = slash then [] :: pieces path
    else (b :: (pieces path).headD []) :: (pieces path).tail

def isAbsolute (path : List UInt8) : Bool := path.head? = some slash

/-- `components`. -/
def parts (path : List UInt8) : List Part :=
  let rest := (pieces path).filterMap Part.ofPiece
  if isAbsolute path then .rootDir :: rest
  else if (pieces path).head? = some dot then .curDir :: rest
  else rest

/-- The names of the normal components. -/
def names (path : List UInt8) : List (List UInt8) := (parts path).filterMap Part.name?

/-- The path ends in a separator or in `/.`, and so can only be that of a directory. -/
def endsAsDirectory (path : List UInt8) : Bool :=
  (pieces path).getLast? = some [] || (pieces path).getLast? = some dot

/-- `join`. -/
def join (base path : List UInt8) : List UInt8 :=
  if isAbsolute path then path
  else if base = [] || base.getLast? = some slash then base ++ path
  else base ++ slash :: path

/-- Names with separators between them. -/
def ofNames : List (List UInt8) → List UInt8
  | [] => []
  | [name] => name
  | name :: names => name ++ slash :: ofNames names

/-- A name that an entry of a directory can have. -/
structure IsName (name : List UInt8) : Prop where
  nonempty : name ≠ []
  slash_notMem : slash ∉ name
  ne_dot : name ≠ dot
  ne_dotDot : name ≠ dotDot

instance {name : List UInt8} : Decidable (IsName name) :=
  decidable_of_iff (name ≠ [] ∧ slash ∉ name ∧ name ≠ dot ∧ name ≠ dotDot)
    ⟨fun h => ⟨h.1, h.2.1, h.2.2.1, h.2.2.2⟩,
      fun h => ⟨h.nonempty, h.slash_notMem, h.ne_dot, h.ne_dotDot⟩⟩

/-! ## Pieces -/

section Pieces

variable {path base name : List UInt8} {ns : List (List UInt8)}

lemma pieces_ne_nil : pieces path ≠ [] := by
  cases path with
  | nil => simp [pieces]
  | cons b path =>
    rw [pieces]
    split_ifs <;> simp

lemma headD_cons_tail {α : Type} {l : List α} (h : l ≠ []) (a : α) : l.headD a :: l.tail = l := by
  cases l with
  | nil => exact absurd rfl h
  | cons b l => rfl

/-- A separator ends the pieces before it. -/
lemma pieces_append_slash (a b : List UInt8) :
    pieces (a ++ slash :: b) = pieces a ++ pieces b := by
  induction a with
  | nil => simp [pieces]
  | cons c a ih =>
    rw [List.cons_append, pieces, pieces]
    split_ifs with hc
    · rw [ih, List.cons_append]
    · rw [ih]
      have hne : pieces a ≠ [] := pieces_ne_nil
      cases hpieces : pieces a with
      | nil => exact absurd hpieces hne
      | cons p ps => rfl

lemma pieces_of_notMem (h : slash ∉ name) : pieces name = [name] := by
  induction name with
  | nil => rfl
  | cons b name ih =>
    rw [List.mem_cons, not_or] at h
    rw [pieces, if_neg (Ne.symm h.1), ih h.2]
    rfl

lemma slash_notMem_of_mem_pieces (h : name ∈ pieces path) : slash ∉ name := by
  induction path generalizing name with
  | nil =>
    rw [pieces, List.mem_singleton] at h
    simp [h]
  | cons b path ih =>
    rw [pieces] at h
    split_ifs at h with hb
    · rcases List.mem_cons.mp h with rfl | h
      · simp
      · exact ih h
    · have hhead : (pieces path).headD [] ∈ (pieces path).headD [] :: (pieces path).tail :=
        List.mem_cons_self
      rw [headD_cons_tail pieces_ne_nil] at hhead
      rcases List.mem_cons.mp h with rfl | h
      · rw [List.mem_cons, not_or]
        exact ⟨Ne.symm hb, ih hhead⟩
      · exact ih (List.mem_of_mem_tail h)

lemma pieces_ofNames (h : ∀ name ∈ ns, slash ∉ name) (hne : ns ≠ []) :
    pieces (ofNames ns) = ns := by
  induction ns with
  | nil => exact absurd rfl hne
  | cons name ns ih =>
    have hname := h name List.mem_cons_self
    cases ns with
    | nil => exact pieces_of_notMem hname
    | cons next ns =>
      rw [ofNames, pieces_append_slash, pieces_of_notMem hname,
        ih (fun n hn => h n (List.mem_cons_of_mem _ hn)) (by simp)]
      · rfl
      · simp

end Pieces

/-! ## Components of joined names -/

section Parts

variable {path base name : List UInt8} {ns : List (List UInt8)}

lemma IsName.ofPiece (h : IsName name) : Part.ofPiece name = some (.normal name) := by
  rw [Part.ofPiece, if_neg (by rw [not_or]; exact ⟨h.nonempty, h.ne_dot⟩), if_neg h.ne_dotDot]

lemma head?_eq_slash_iff : isAbsolute path = true ↔ ∃ rest, path = slash :: rest := by
  cases path with
  | nil => simp [isAbsolute]
  | cons b path => simp [isAbsolute]

/-- The components before a name are none but normal ones exactly if there is neither a root
nor a leading `.`. -/
lemma parts_of_relative (habsolute : isAbsolute path = false)
    (hdot : (pieces path).head? ≠ some dot) :
    parts path = (pieces path).filterMap Part.ofPiece := by
  rw [parts, habsolute, if_neg Bool.false_ne_true, if_neg hdot]

lemma isAbsolute_of_pieces (h : (pieces path).head? ≠ some []) : isAbsolute path = false := by
  rw [← Bool.not_eq_true, head?_eq_slash_iff]
  rintro ⟨rest, rfl⟩
  rw [pieces, if_pos rfl] at h
  exact h rfl

/-- The components of joined names are the names. -/
lemma parts_ofNames (h : ∀ name ∈ ns, IsName name) : parts (ofNames ns) = ns.map .normal := by
  cases ns with
  | nil => rfl
  | cons name ns =>
    have hpieces : pieces (ofNames (name :: ns)) = name :: ns :=
      pieces_ofNames (fun n hn => (h n hn).slash_notMem) (by simp)
    have hname := h name List.mem_cons_self
    rw [parts_of_relative, hpieces]
    · rw [← List.filterMap_eq_map]
      exact List.filterMap_congr fun n hn => (h n hn).ofPiece
    · refine isAbsolute_of_pieces ?_
      rw [hpieces, List.head?_cons, Ne, Option.some.injEq]
      exact hname.nonempty
    · rw [hpieces, List.head?_cons, Ne, Option.some.injEq]
      exact hname.ne_dot

/-- The names of a path are names of directory entries. -/
lemma isName_of_mem_parts (h : .normal name ∈ parts path) : IsName name := by
  have hmem : .normal name ∈ (pieces path).filterMap Part.ofPiece := by
    rw [parts] at h
    split_ifs at h
    · exact (List.mem_cons.mp h).resolve_left (by simp)
    · exact (List.mem_cons.mp h).resolve_left (by simp)
    · exact h
  obtain ⟨piece, hpiece, hpart⟩ := List.mem_filterMap.mp hmem
  rw [Part.ofPiece] at hpart
  split_ifs at hpart with hskip hparent
  · cases hpart
  obtain rfl := Part.normal.inj (Option.some.inj hpart)
  rw [not_or] at hskip
  exact ⟨hskip.1, slash_notMem_of_mem_pieces hpiece, hskip.2, hparent⟩

/-- A path with normal components only is that of its names. -/
lemma parts_eq_map_names (h : (parts path).all Part.isNormal = true) :
    parts path = (names path).map .normal := by
  rw [names]
  generalize parts path = ps at h
  induction ps with
  | nil => rfl
  | cons p ps ih =>
    rw [List.all_cons, Bool.and_eq_true] at h
    cases p with
    | normal name =>
      have hname : Part.name? (.normal name) = some name := rfl
      rw [List.filterMap_cons_some hname, List.map_cons, ← ih h.2]
    | rootDir => cases h.1
    | curDir => cases h.1
    | parentDir => cases h.1

lemma isName_of_mem_names (h : (parts path).all Part.isNormal = true) (hname : name ∈ names path) :
    IsName name := by
  refine @isName_of_mem_parts path name ?_
  rw [parts_eq_map_names h]
  exact List.mem_map_of_mem hname

/-- A path that is not empty has a component. -/
lemma parts_ne_nil (hne : path ≠ []) : parts path ≠ [] := by
  rw [parts]
  split_ifs with habsolute hdot
  · simp
  · simp
  · rw [head?_eq_slash_iff] at habsolute
    cases path with
    | nil => exact absurd rfl hne
    | cons b path =>
      have hb : b ≠ slash := fun hb => habsolute (by rw [hb]; exact ⟨_, rfl⟩)
      rw [pieces, if_neg hb] at hdot ⊢
      rw [List.head?_cons, Option.some.injEq] at hdot
      rw [Ne, List.filterMap_eq_nil_iff]
      intro hnone
      have hfirst := hnone _ List.mem_cons_self
      have hskip : ¬ (b :: (pieces path).headD [] = [] ∨ b :: (pieces path).headD [] = dot) := by
        rw [not_or]
        exact ⟨by simp, hdot⟩
      rw [Part.ofPiece, if_neg hskip] at hfirst
      split_ifs at hfirst

/-- Joining a relative path of normal components adds these to the components of the base. -/
lemma parts_join (h : (parts path).all Part.isNormal = true) :
    parts (join base path) = parts base ++ parts path := by
  have habsolute : isAbsolute path = false := by
    rw [← Bool.not_eq_true]
    intro habsolute
    rw [parts, if_pos habsolute, List.all_cons, Bool.and_eq_true] at h
    cases h.1
  have hdot : (pieces path).head? ≠ some dot := by
    intro hdot
    rw [parts, habsolute, if_neg Bool.false_ne_true, if_pos hdot, List.all_cons,
      Bool.and_eq_true] at h
    cases h.1
  -- a separator between the base and the path keeps the pieces of both
  have hjoin : ∀ a, a ≠ [] → parts (a ++ slash :: path) = parts a ++ parts path := by
    intro a ha
    have habs : isAbsolute (a ++ slash :: path) = isAbsolute a := by
      cases a with
      | nil => exact absurd rfl ha
      | cons b a => rfl
    have hhead : (pieces a ++ pieces path).head? = (pieces a).head? :=
      List.head?_append_of_ne_nil _ pieces_ne_nil
    rw [parts_of_relative habsolute hdot, parts, parts, pieces_append_slash, habs, hhead,
      List.filterMap_append]
    split_ifs <;> rfl
  rw [join, habsolute, if_neg Bool.false_ne_true]
  split_ifs with hbase
  · rw [Bool.or_eq_true, decide_eq_true_eq, decide_eq_true_eq] at hbase
    rcases hbase with rfl | hlast
    · rfl
    · obtain ⟨front, rfl⟩ := List.getLast?_eq_some_iff.mp hlast
      rw [List.append_assoc, List.singleton_append]
      cases front with
      | nil =>
        show parts (slash :: path) = parts [slash] ++ parts path
        rw [parts_of_relative habsolute hdot]
        rfl
      | cons b front =>
        rw [hjoin _ (by simp)]
        congr 1
        -- a separator at the end adds an empty piece
        have hpieces : pieces (b :: front ++ [slash]) = pieces (b :: front) ++ [[]] :=
          pieces_append_slash _ []
        have hhead : (pieces (b :: front) ++ [[]]).head? = (pieces (b :: front)).head? :=
          List.head?_append_of_ne_nil _ pieces_ne_nil
        have hempty : [([] : List UInt8)].filterMap Part.ofPiece = [] := rfl
        rw [parts, parts, hpieces, hhead, List.filterMap_append, hempty, List.append_nil]
        rfl
  · rw [Bool.or_eq_true, not_or, decide_eq_true_eq] at hbase
    exact hjoin base hbase.1

end Parts

end TouchBar.Rust.BytePath
