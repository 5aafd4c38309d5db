import ForgeCore.Library.Text

/-!
# Paths as text

`Path::components` on Unix: repeated separators and inner `.` names vanish,
a leading `.` does not.
-/

namespace ForgeCore.PathText

open Text

inductive Component where
  | rootDir
  | curDir
  | parentDir
  | normal (name : String)
deriving DecidableEq, Repr

def innerComponent (part : String) : Option Component :=
  if part = "" ∨ part = "." then none
  else if part = ".." then some .parentDir
  else some (.normal part)

def components (text : String) : List Component :=
  match split (· = '/') text with
  | [] => []
  | head :: rest =>
    if head = "" then
      if text = "" then [] else .rootDir :: rest.filterMap innerComponent
    else if head = "." then
      .curDir :: rest.filterMap innerComponent
    else
      (head :: rest).filterMap innerComponent

def isAbsolute (text : String) : Bool :=
  (components text).head? = some .rootDir

/-- `Path::display` of a child of `root`. -/
def join (root : String) (names : List String) : String :=
  "/".intercalate (root :: names)

end ForgeCore.PathText
