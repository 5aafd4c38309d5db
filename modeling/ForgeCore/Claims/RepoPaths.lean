import ForgeCore.Library.Text
import ForgeCore.Claims.Contract

/-!
# Repository paths

Lexical normalization and the segment-aware containment of
`conflict_detection`.  The Unicode lower-casing of the standard library is
the parameter `toLowercase`; nothing below depends on which letters it maps.
-/

namespace ForgeCore.Claims

open Text

/-- Both separators are accepted, whatever the platform. -/
def isPathSeparator (char : Char) : Bool :=
  char = '/' || char = '\\'

/-- An explicit spelling of the repository root: only empty and `.` parts. -/
def isExplicitRepoRootPath (raw : String) : Bool :=
  (split isPathSeparator raw).all fun part => part = "" || part = "."

/-- The normalized path climbs above the repository root. -/
def escapesRepoRoot (segments : List String) : Bool :=
  segments.head? = some ".."

def pathCovers (claimSegments targetSegments : List String) : Bool :=
  if claimSegments.isEmpty || targetSegments.isEmpty then
    false
  else if claimSegments = targetSegments then
    true
  else if targetSegments.length ≤ claimSegments.length then
    false
  else
    (claimSegments.zip targetSegments).all fun pair => pair.1 = pair.2

section Normalization

variable (toLowercase : String → String)

/-- One part of the path read into the segments collected so far. -/
def normalizePart (out : List String) (part : String) : List String :=
  if part = "" || part = "." then
    out
  else if part = ".." then
    -- Only a real segment is popped; a leading `..` stays visible.
    if out.getLast?.any (· ≠ "..") then out.dropLast else out ++ [".."]
  else
    out ++ [toLowercase part]

def normalizeSegments (raw : String) : List String :=
  (split isPathSeparator raw).foldl (normalizePart toLowercase) []

def claimPathCovers (rawClaimPath : String) (targetSegments : List String) : Bool :=
  if targetSegments.isEmpty then
    false
  else if isExplicitRepoRootPath rawClaimPath then
    true
  else
    pathCovers (normalizeSegments toLowercase rawClaimPath) targetSegments

def repoPathsOverlap (left right : RepoPath) : Bool :=
  let leftIsRoot := isExplicitRepoRootPath left.value
  let rightIsRoot := isExplicitRepoRootPath right.value
  if leftIsRoot && rightIsRoot then
    true
  else
    let leftSegments := normalizeSegments toLowercase left.value
    let rightSegments := normalizeSegments toLowercase right.value
    if escapesRepoRoot leftSegments || escapesRepoRoot rightSegments then
      false
    else if leftIsRoot then
      !rightSegments.isEmpty
    else if rightIsRoot then
      !leftSegments.isEmpty
    else
      pathCovers leftSegments rightSegments || pathCovers rightSegments leftSegments

theorem repoPathsOverlap_comm (left right : RepoPath) :
    repoPathsOverlap toLowercase left right = repoPathsOverlap toLowercase right left := by
  unfold repoPathsOverlap
  cases leftRoot : isExplicitRepoRootPath left.value <;>
    cases rightRoot : isExplicitRepoRootPath right.value <;> simp [Bool.or_comm]

def pathsOverlap (left right : List RepoPath) : Bool :=
  left.any fun leftPath =>
    right.any fun rightPath => repoPathsOverlap toLowercase leftPath rightPath

end Normalization

end ForgeCore.Claims
