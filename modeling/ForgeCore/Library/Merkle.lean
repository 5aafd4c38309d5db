import Mathlib

/-!
# Merkle trees

The tree hash and the audit path of RFC 6962, and a walk from a leaf up to the
root that knows only the index of the leaf and the last index of its level.
What a walk computes depends on the sides on which it meets its hashes; the
sides of a leaf are those on which the tree is split above it.
-/

namespace ForgeCore.Merkle

open List

universe u

variable {α : Type u}

/-- The largest power of two below a number of leaves. -/
def splitAt (size : Nat) : Nat :=
  2 ^ Nat.log2 (size - 1)

variable {size : Nat}

theorem splitAt_lt (several : 2 ≤ size) : splitAt size < size := by
  have := Nat.log2_self_le (n := size - 1) (by omega)
  unfold splitAt
  omega

theorem splitAt_pos (size : Nat) : 0 < splitAt size :=
  Nat.two_pow_pos _

theorem splitAt_halved (large : 3 ≤ size) : splitAt size = 2 * splitAt ((size + 1) / 2) := by
  have halved : (size - 1) / 2 = (size + 1) / 2 - 1 := by omega
  unfold splitAt
  rw [Nat.log2_def, if_pos (by omega), halved, Nat.pow_succ, Nat.mul_comm]

section Tree

variable (node : α → α → α) (empty : α)

/-- The tree hash of a list of leaves. -/
def root (leaves : List α) : α :=
  if several : 2 ≤ leaves.length then
    node (root (leaves.take (splitAt leaves.length))) (root (leaves.drop (splitAt leaves.length)))
  else
    leaves.headD empty
termination_by leaves.length
decreasing_by
  · have := splitAt_lt several
    simp only [length_take]
    omega
  · have := splitAt_pos leaves.length
    simp only [length_drop]
    omega

/-- The hashes beside the way from a leaf to the root, from below. -/
def path (index : Nat) (leaves : List α) : List α :=
  if several : 2 ≤ leaves.length then
    if index < splitAt leaves.length then
      path index (leaves.take (splitAt leaves.length)) ++
        [root node empty (leaves.drop (splitAt leaves.length))]
    else
      path (index - splitAt leaves.length) (leaves.drop (splitAt leaves.length)) ++
        [root node empty (leaves.take (splitAt leaves.length))]
  else
    []
termination_by leaves.length
decreasing_by
  · have := splitAt_lt several
    simp only [length_take]
    omega
  · have := splitAt_pos leaves.length
    simp only [length_drop]
    omega

/-- The pairs that the tree joins. -/
def pairs (leaves : List α) : List (α × α) :=
  if several : 2 ≤ leaves.length then
    (root node empty (leaves.take (splitAt leaves.length)),
      root node empty (leaves.drop (splitAt leaves.length))) ::
      (pairs (leaves.take (splitAt leaves.length)) ++ pairs (leaves.drop (splitAt leaves.length)))
  else
    []
termination_by leaves.length
decreasing_by
  · have := splitAt_lt several
    simp only [length_take]
    omega
  · have := splitAt_pos leaves.length
    simp only [length_drop]
    omega

end Tree

/-- On which side of the way from a leaf to the root the path stands: `true`
is the left one. -/
def pathSides (index size : Nat) : List Bool :=
  if several : 2 ≤ size then
    if index < splitAt size then
      pathSides index (splitAt size) ++ [false]
    else
      pathSides (index - splitAt size) (size - splitAt size) ++ [true]
  else
    []
termination_by size
decreasing_by
  · exact splitAt_lt several
  · have := splitAt_pos size
    omega

/-- Up to the level on which the hash at the index is a right one. -/
def skipLevels (index last : Nat) : Nat × Nat :=
  if index % 2 = 0 ∧ index ≠ 0 then
    skipLevels (index / 2) (last / 2)
  else
    (index, last)
termination_by index
decreasing_by omega

/-- A hash of the path stands left of a right hash and of the last one. -/
def standsLeft (index last : Nat) : Bool :=
  index % 2 = 1 || index = last

/-- Join a hash with those of a path.  The last index of a level tells which
hashes are kept without a partner. -/
def walk (node : α → α → α) : List α → α → Nat → Nat → α
  | [], computed, _, _ => computed
  | hash :: rest, computed, index, last =>
    if standsLeft index last then
      let (index, last) := skipLevels index last
      walk node rest (node hash computed) (index / 2) (last / 2)
    else
      walk node rest (node computed hash) (index / 2) (last / 2)

/-- The sides on which a walk meets its first hashes. -/
def walkSides : Nat → Nat → Nat → List Bool
  | 0, _, _ => []
  | count + 1, index, last =>
    if standsLeft index last then
      let (index, last) := skipLevels index last
      true :: walkSides count (index / 2) (last / 2)
    else
      false :: walkSides count (index / 2) (last / 2)

/-- One round: join with a hash on the given side. -/
def join (node : α → α → α) (computed : α) (step : Bool × α) : α :=
  if step.1 then node step.2 computed else node computed step.2

variable {node : α → α → α} {empty : α} {leaves : List α} {leaf : α} {index : Nat}

theorem walk_eq_foldl (hashes : List α) (computed : α) (index last : Nat) :
    walk node hashes computed index last =
      ((walkSides hashes.length index last).zip hashes).foldl (join node) computed := by
  induction hashes generalizing computed index last with
  | nil => rfl
  | cons hash rest ih =>
    rw [walk, length_cons, walkSides]
    split
    · exact ih _ _ _
    · exact ih _ _ _

/-- The last round of a walk. -/
theorem walk_concat (front : List α) (hash computed : α) (index last : Nat) :
    ∃ side, walk node (front ++ [hash]) computed index last =
      join node (walk node front computed index last) (side, hash) := by
  induction front generalizing computed index last with
  | nil =>
    refine ⟨standsLeft index last, ?_⟩
    simp only [nil_append, walk, join]
  | cons first rest ih =>
    rw [cons_append, walk, walk]
    split
    · exact ih _ _ _
    · exact ih _ _ _

theorem root_split (several : 2 ≤ leaves.length) :
    root node empty leaves = node (root node empty (leaves.take (splitAt leaves.length)))
      (root node empty (leaves.drop (splitAt leaves.length))) := by
  rw [root, dif_pos several]

theorem root_singleton (leaf : α) : root node empty [leaf] = leaf := by
  rw [root, dif_neg (by simp)]
  rfl

theorem pathSides_left (several : 2 ≤ size) (left : index < splitAt size) :
    pathSides index size = pathSides index (splitAt size) ++ [false] := by
  rw [pathSides, dif_pos several, if_pos left]

theorem pathSides_right (several : 2 ≤ size) (right : splitAt size ≤ index) :
    pathSides index size = pathSides (index - splitAt size) (size - splitAt size) ++ [true] := by
  rw [pathSides, dif_pos several, if_neg (by omega)]

theorem pathSides_of_short (index : Nat) (short : size < 2) : pathSides index size = [] := by
  rw [pathSides, dif_neg (by omega)]

/-- The sides start with that of the sibling, if there is one, and go on one
level up. -/
theorem pathSides_halved (inside : index < size) :
    pathSides index size =
      (if index % 2 = 1 then [true] else if index + 1 < size then [false] else []) ++
        pathSides (index / 2) ((size + 1) / 2) := by
  induction size using Nat.strong_induction_on generalizing index with
  | _ size ih =>
    rcases Nat.lt_or_ge size 3 with small | large
    · rw [pathSides_of_short (index / 2) (by omega), append_nil]
      obtain rfl | rfl : size = 1 ∨ size = 2 := by omega
      · obtain rfl : index = 0 := by omega
        rw [pathSides_of_short _ (by omega)]
        rfl
      · have one : splitAt 2 = 1 := by
          rw [splitAt, Nat.log2_def]
          rfl
        obtain rfl | rfl : index = 0 ∨ index = 1 := by omega
        · rw [pathSides_left (by omega) (by omega), one, pathSides_of_short _ (by omega)]
          rfl
        · rw [pathSides_right (by omega) (by omega), one, pathSides_of_short _ (by omega)]
          rfl
    · have small := splitAt_lt (show 2 ≤ size by omega)
      have positive := splitAt_pos size
      have halved := splitAt_halved large
      -- the split is even, so both sides of it halve on their own
      by_cases left : index < splitAt size
      · have half : (splitAt size + 1) / 2 = splitAt ((size + 1) / 2) := by omega
        rw [pathSides_left (by omega) left, ih _ small left, half,
          pathSides_left (by omega) (show index / 2 < splitAt ((size + 1) / 2) by omega),
          ← append_assoc]
        congr 2
        split
        · rfl
        · rw [if_pos (by omega), if_pos (by omega)]
      · have half : (size - splitAt size + 1) / 2 = (size + 1) / 2 - splitAt ((size + 1) / 2) := by
          omega
        have above : (index - splitAt size) / 2 = index / 2 - splitAt ((size + 1) / 2) := by
          omega
        rw [pathSides_right (by omega) (by omega), ih _ (by omega) (by omega), half, above,
          pathSides_right (by omega) (show splitAt ((size + 1) / 2) ≤ index / 2 by omega),
          ← append_assoc]
        congr 2
        simp only [show (index - splitAt size) % 2 = index % 2 by omega,
          show index - splitAt size + 1 < size - splitAt size ↔ index + 1 < size by omega]

/-- The odd last hash of a level is the last of the next. -/
theorem walkSides_last (count : Nat) (even : index % 2 = 0) (notFirst : index ≠ 0) :
    walkSides count index index = walkSides count (index / 2) (index / 2) := by
  cases count with
  | zero => rfl
  | succ count =>
    have skipped : skipLevels index index = skipLevels (index / 2) (index / 2) := by
      rw [skipLevels, if_pos ⟨even, notFirst⟩]
    simp [walkSides, standsLeft, skipped]

/-- A walk as long as the path of its index meets the hashes on the sides of
the tree. -/
theorem walkSides_path (inside : index < size) :
    walkSides (pathSides index size).length index (size - 1) = pathSides index size := by
  induction size using Nat.strong_induction_on generalizing index with
  | _ size ih =>
    rcases Nat.lt_or_ge size 2 with small | several
    · rw [pathSides_of_short _ small]
      rfl
    · have above := ih ((size + 1) / 2) (by omega) (show index / 2 < (size + 1) / 2 by omega)
      rw [show (size + 1) / 2 - 1 = (size - 1) / 2 by omega] at above
      rw [pathSides_halved inside]
      by_cases odd : index % 2 = 1
      · simp [odd, walkSides, standsLeft, skipLevels, above]
      · rw [if_neg odd]
        by_cases paired : index + 1 < size
        · have order : standsLeft index (size - 1) = false := by
            simp only [standsLeft, Bool.or_eq_false_iff, decide_eq_false_iff_not]
            omega
          simp [paired, walkSides, order, above]
        · have isLast : size - 1 = index := by omega
          rw [isLast] at above ⊢
          rw [if_neg paired, nil_append, walkSides_last _ (by omega) (by omega), above]

theorem path_of_short (index : Nat) (short : leaves.length < 2) :
    path node empty index leaves = [] := by
  rw [path, dif_neg (by omega)]

theorem length_front (several : 2 ≤ leaves.length) :
    (leaves.take (splitAt leaves.length)).length = splitAt leaves.length := by
  rw [length_take, Nat.min_eq_left (splitAt_lt several).le]

theorem length_path (index : Nat) (leaves : List α) :
    (path node empty index leaves).length = (pathSides index leaves.length).length := by
  induction length : leaves.length using Nat.strong_induction_on generalizing leaves index with
  | _ size ih =>
    subst length
    rcases Nat.lt_or_ge leaves.length 2 with small | several
    · rw [path_of_short _ small, pathSides_of_short _ small]
      rfl
    · have small := splitAt_lt several
      have positive := splitAt_pos leaves.length
      rw [path, dif_pos several]
      split
      · next left =>
        rw [pathSides_left several left, length_append, length_append,
          ih _ (by rw [length_front several]; omega) _ _ rfl, length_front several]
        rfl
      · next right =>
        rw [pathSides_right several (by omega), length_append, length_append,
          ih _ (by rw [length_drop]; omega) _ _ rfl, length_drop]
        rfl

/-- Joining a leaf with its path on the sides of the tree gives the root. -/
theorem foldl_path (found : leaves[index]? = some leaf) :
    ((pathSides index leaves.length).zip (path node empty index leaves)).foldl (join node) leaf =
      root node empty leaves := by
  induction length : leaves.length using Nat.strong_induction_on generalizing leaves index with
  | _ size ih =>
    subst length
    obtain ⟨inside, -⟩ := List.getElem?_eq_some_iff.mp found
    rcases Nat.lt_or_ge leaves.length 2 with small | several
    · obtain ⟨only, rfl⟩ := List.length_eq_one_iff.mp (show leaves.length = 1 by omega)
      obtain rfl : index = 0 := by simpa using inside
      cases found
      rw [path_of_short _ small, root_singleton, zip_nil_right]
      rfl
    · have small := splitAt_lt several
      have positive := splitAt_pos leaves.length
      have front := length_front several
      have back := @length_drop _ (splitAt leaves.length) leaves
      rw [path, dif_pos several, root_split several]
      split
      · next left =>
        have below := ih _ (by omega)
          (show (leaves.take (splitAt leaves.length))[index]? = some leaf by
            rw [getElem?_take_of_lt left, found]) rfl
        have counted := @length_path _ node empty index (leaves.take (splitAt leaves.length))
        rw [front] at below counted
        rw [pathSides_left several left, zip_append counted.symm, foldl_append, below]
        rfl
      · next right =>
        have below := ih _ (by omega)
          (show (leaves.drop (splitAt leaves.length))[index - splitAt leaves.length]? =
            some leaf by
            rw [getElem?_drop, ← found]
            congr 1
            omega) rfl
        have counted := @length_path _ node empty (index - splitAt leaves.length)
          (leaves.drop (splitAt leaves.length))
        rw [back] at below counted
        rw [pathSides_right several (by omega), zip_append counted.symm, foldl_append, below]
        rfl

/-- The walk along the path of a leaf ends at the root, at every index whose
walk turns as the tree does. -/
theorem walk_path {other : Nat} (found : leaves[index]? = some leaf)
    (alike : walkSides (pathSides index leaves.length).length other (leaves.length - 1) =
      pathSides index leaves.length) :
    walk node (path node empty index leaves) leaf other (leaves.length - 1) =
      root node empty leaves := by
  rw [walk_eq_foldl, length_path, alike, foldl_path found]

end ForgeCore.Merkle
