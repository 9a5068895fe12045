import TouchBar.Rust.Text

/-!
# Paths

`std::path::Path` on Unix: the components of a path, where repeated separators and
inner `.` components are skipped.
-/

namespace TouchBar.Rust.Path

inductive Component where
  | rootDir
  | curDir
  | parentDir
  | normal (name : String)
deriving DecidableEq, Repr

/-- The component of one part between separators. -/
def Component.ofPart (part : String) : Option Component :=
  if part = "" ∨ part = "." then none
  else if part = ".." then some .parentDir
  else some (.normal part)

/-- `is_absolute`. -/
def isAbsolute (path : String) : Bool := Text.startsWith path "/"

/-- `components`. -/
def components (path : String) : List Component :=
  let rest := (Text.split path '/').filterMap Component.ofPart
  if isAbsolute path then .rootDir :: rest
  else if (Text.split path '/').head? = some "." then .curDir :: rest
  else rest

/-- `file_name`: the last component, if it is a normal one. -/
def fileName (path : String) : Option String :=
  match (components path).getLast? with
  | some (.normal name) => some name
  | _ => none

def Component.isNormal : Component → Bool
  | normal _ => true
  | _ => false

def Component.isRootOrNormal : Component → Bool
  | rootDir => true
  | normal _ => true
  | _ => false

/-- An absolute path without `.` and `..` components. -/
def isNormalizedAbsolute (path : String) : Bool :=
  isAbsolute path && (components path).all Component.isRootOrNormal

/-- A relative path without `.` and `..` components. -/
def isNormalizedRelative (path : String) : Bool :=
  !isAbsolute path && (components path).all Component.isNormal

end TouchBar.Rust.Path
