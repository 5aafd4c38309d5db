import ForgeCore.Claims.RepoPaths

/-!
# Overlap of repository paths

Two claimed paths overlap exactly when some target is covered by both.
-/

namespace ForgeCore.Claims

open List Text

variable {claim target : List String}

theorem zip_all_eq_iff (shorter : claim.length ≤ target.length) :
    (claim.zip target).all (fun pair => pair.1 = pair.2) = true ↔ claim <+: target := by
  induction claim generalizing target with
  | nil => simp
  | cons head tail ih =>
    cases target with
    | nil => simp at shorter
    | cons targetHead targetTail =>
      have shorterTail : tail.length ≤ targetTail.length := by
        simpa using shorter
      simp only [zip_cons_cons, all_cons, Bool.and_eq_true, decide_eq_true_eq, cons_prefix_cons]
      rw [ih shorterTail]

theorem pathCovers_iff : pathCovers claim target = true ↔ claim ≠ [] ∧ claim <+: target := by
  by_cases claimEmpty : claim = []
  · simp [pathCovers, claimEmpty]
  by_cases targetEmpty : target = []
  · simp [pathCovers, claimEmpty, targetEmpty]
  by_cases same : claim = target
  · simp [pathCovers, targetEmpty, same]
  by_cases longer : target.length ≤ claim.length
  · have notPrefix : ¬ claim <+: target := by
      intro isPrefix
      exact same (isPrefix.eq_of_length_le longer)
    simp [pathCovers, claimEmpty, targetEmpty, same, longer, notPrefix]
  · have shorter : claim.length ≤ target.length := by omega
    rw [← zip_all_eq_iff shorter]
    simp [pathCovers, claimEmpty, targetEmpty, same, longer]

theorem escapesRepoRoot_of_startsWith (present : claim ≠ []) (isPrefix : claim <+: target) :
    escapesRepoRoot claim = escapesRepoRoot target := by
  cases claim with
  | nil => exact absurd rfl present
  | cons head tail =>
    obtain ⟨rest, rfl⟩ := isPrefix
    simp [escapesRepoRoot]

section Coverage

variable {toLowercase : String → String}

theorem claimPathCovers_iff : claimPathCovers toLowercase rawClaimPath target = true ↔ target ≠ [] ∧
      (isExplicitRepoRootPath rawClaimPath = true ∨
      pathCovers (normalizeSegments toLowercase rawClaimPath) target = true) := by
  by_cases targetEmpty : target = []
  · simp [claimPathCovers, targetEmpty]
  cases isRoot : isExplicitRepoRootPath rawClaimPath <;> simp [claimPathCovers, targetEmpty, isRoot]

theorem normalizeSegments_of_root (isRoot : isExplicitRepoRootPath raw = true) :
    normalizeSegments toLowercase raw = [] := by
  unfold isExplicitRepoRootPath at isRoot
  unfold normalizeSegments
  generalize split isPathSeparator raw = parts at isRoot
  induction parts with
  | nil => rfl
  | cons part rest ih =>
    rw [all_cons, Bool.and_eq_true] at isRoot
    rw [foldl_cons, normalizePart, if_pos isRoot.1]
    exact ih isRoot.2

/-- A target that two claim paths cover: neither empty nor outside of the
repository. -/
structure SharedTarget (toLowercase : String → String) (left right target : RepoPath) : Prop where
  present : normalizeSegments toLowercase target.value ≠ []
  inside : escapesRepoRoot (normalizeSegments toLowercase target.value) = false
  left : claimPathCovers toLowercase left.value
    (normalizeSegments toLowercase target.value) = true
  right : claimPathCovers toLowercase right.value
    (normalizeSegments toLowercase target.value) = true

variable {left right : RepoPath}

variable {target : RepoPath}

theorem SharedTarget.swap (shared : SharedTarget toLowercase left right target) :
    SharedTarget toLowercase right left target :=
  ⟨shared.present, shared.inside, shared.right, shared.left⟩

section

variable (inside : escapesRepoRoot (normalizeSegments toLowercase right.value) = false)

include inside

theorem sharedTarget_of_covered
    (present : normalizeSegments toLowercase right.value ≠ [])
    (covered : claimPathCovers toLowercase left.value
      (normalizeSegments toLowercase right.value) = true) :
    SharedTarget toLowercase left right right := by
  refine ⟨present, inside, covered, claimPathCovers_iff.mpr
    ⟨present, Or.inr (pathCovers_iff.mpr ⟨present, prefix_refl _⟩)⟩⟩

theorem sharedTarget_of_pathCovers
    (covers : pathCovers (normalizeSegments toLowercase left.value)
      (normalizeSegments toLowercase right.value) = true) :
    SharedTarget toLowercase left right right := by
  obtain ⟨leftPresent, isPrefix⟩ := pathCovers_iff.mp covers
  have present : normalizeSegments toLowercase right.value ≠ [] := by
    intro empty
    rw [empty] at isPrefix
    exact leftPresent (List.prefix_nil.mp isPrefix)
  exact sharedTarget_of_covered inside present (claimPathCovers_iff.mpr ⟨present, Or.inr covers⟩)

end

/-- Two paths with a common target are comparable and inside. -/
theorem repoPathsOverlap_of_shared (shared : SharedTarget toLowercase left right target) :
    repoPathsOverlap toLowercase left right = true := by
  obtain ⟨-, leftCovers⟩ := claimPathCovers_iff.mp shared.left
  obtain ⟨-, rightCovers⟩ := claimPathCovers_iff.mp shared.right
  have kept {path : RepoPath} (covers : pathCovers (normalizeSegments toLowercase path.value)
        (normalizeSegments toLowercase target.value) = true) :
      normalizeSegments toLowercase path.value ≠ [] ∧
        escapesRepoRoot (normalizeSegments toLowercase path.value) = false := by
    obtain ⟨present, isPrefix⟩ := pathCovers_iff.mp covers
    exact ⟨present, (escapesRepoRoot_of_startsWith present isPrefix).trans shared.inside⟩
  have rootStays {path : RepoPath} (isRoot : isExplicitRepoRootPath path.value = true) :
      escapesRepoRoot (normalizeSegments toLowercase path.value) = false := by
    rw [normalizeSegments_of_root isRoot]
    rfl
  cases leftRoot : isExplicitRepoRootPath left.value with
  | true =>
    cases rightRoot : isExplicitRepoRootPath right.value with
    | true => simp [repoPathsOverlap, leftRoot, rightRoot]
    | false =>
      obtain ⟨present, inside⟩ := kept (rightCovers.resolve_left (by simp [rightRoot]))
      simp [repoPathsOverlap, leftRoot, rightRoot, inside, rootStays leftRoot, present]
  | false =>
    have leftPath := leftCovers.resolve_left (by simp [leftRoot])
    obtain ⟨leftPresent, leftInside⟩ := kept leftPath
    cases rightRoot : isExplicitRepoRootPath right.value with
    | true =>
      simp [repoPathsOverlap, leftRoot, rightRoot, leftInside, rootStays rightRoot, leftPresent]
    | false =>
      have rightPath := rightCovers.resolve_left (by simp [rightRoot])
      obtain ⟨rightPresent, rightInside⟩ := kept rightPath
      have comparable := prefix_or_prefix_of_prefix (pathCovers_iff.mp leftPath).2
          (pathCovers_iff.mp rightPath).2
      have covers : pathCovers (normalizeSegments toLowercase left.value)
            (normalizeSegments toLowercase right.value) = true ∨
          pathCovers (normalizeSegments toLowercase right.value)
            (normalizeSegments toLowercase left.value) = true := comparable.imp
          (fun isPrefix => pathCovers_iff.mpr ⟨leftPresent, isPrefix⟩)
          (fun isPrefix => pathCovers_iff.mpr ⟨rightPresent, isPrefix⟩)
      simpa [repoPathsOverlap, leftRoot, rightRoot, leftInside, rightInside] using covers

theorem sharedTarget_of_overlap (plainLetter : toLowercase "a" = "a")
    (overlap : repoPathsOverlap toLowercase left right = true) :
    ∃ target, SharedTarget toLowercase left right target := by
  have rootCovers {path : RepoPath} {segments : List String}
      (isRoot : isExplicitRepoRootPath path.value = true) (present : segments ≠ []) :
      claimPathCovers toLowercase path.value segments = true :=
    claimPathCovers_iff.mpr ⟨present, Or.inl isRoot⟩
  cases leftRoot : isExplicitRepoRootPath left.value with
  | true =>
    cases rightRoot : isExplicitRepoRootPath right.value with
    | true =>
      -- Two claims of the whole repository share any file at all.
      have segments : normalizeSegments toLowercase "a" = ["a"] := by
        simp [normalizeSegments, normalizePart, plainLetter, split, splitChars, isPathSeparator]
      refine ⟨⟨"a"⟩, ?_, ?_, rootCovers leftRoot ?_,
        rootCovers rightRoot ?_⟩ <;> simp [segments, escapesRepoRoot]
    | false =>
      simp [repoPathsOverlap, leftRoot, rightRoot] at overlap
      exact ⟨right, sharedTarget_of_covered overlap.1.2 overlap.2 (rootCovers leftRoot overlap.2)⟩
  | false =>
    cases rightRoot : isExplicitRepoRootPath right.value with
    | true =>
      simp [repoPathsOverlap, leftRoot, rightRoot] at overlap
      exact ⟨left, (sharedTarget_of_covered overlap.1.1 overlap.2
          (rootCovers rightRoot overlap.2)).swap⟩
    | false =>
      simp [repoPathsOverlap, leftRoot, rightRoot] at overlap
      obtain ⟨⟨leftInside, rightInside⟩, covers | covers⟩ := overlap
      · exact ⟨right, sharedTarget_of_pathCovers rightInside covers⟩
      · exact ⟨left, (sharedTarget_of_pathCovers leftInside covers).swap⟩

/-- Two claim paths overlap exactly when they share a target.  Of the
lower-casing only one letter that it leaves alone is used. -/
theorem repo_paths_overlap_iff_shared_target
    (plainLetter : toLowercase "a" = "a") (left right : RepoPath) :
    repoPathsOverlap toLowercase left right = true ↔
      ∃ target, SharedTarget toLowercase left right target := by
  constructor
  · exact sharedTarget_of_overlap plainLetter
  · rintro ⟨target, shared⟩
    exact repoPathsOverlap_of_shared shared

end Coverage

/-- Case, dots and both separators. -/
theorem repo_paths_overlap_iff_shared_target_core :
    ∃ target, SharedTarget toAsciiLowercase ⟨"Src/./Core/"⟩ ⟨"src\\core\\lib.rs"⟩ target :=
  (repo_paths_overlap_iff_shared_target (by decide +kernel) _ _).mp
    (by decide +kernel)

end ForgeCore.Claims
