import ForgeCore.Effects.Recovery

/-!
# Rolling files back

One file operation, one before-image and a list of them: each moves its files
toward a goal and touches nothing else.
-/

namespace ForgeCore.Effects

open List Durable Durable.Computation
open FileTree (Confined)

variable {content : Content} {path : Path} {records markers : List EffectWalRecord}
  {after : FileTree} {txId : String}

section FileOperations

variable {tree : FileTree} {lost : FileTree → Prop} {post : Except IoError Unit → FileTree → Prop}

theorem atomicReplaceFile_ensures
    (unreserved : reservedNames path = none) (before : lost tree)
    (replaced : ∀ ready, tree.content path = expected →
      post (.ok ()) (tree.replace path content ready))
    (failed : ∀ failure after, Confined {path} tree after → after.file path = tree.file path →
      ¬ (tree.creatable path = true ∧ tree.content path = expected) →
        post (.error failure) after) :
    Ensures (atomicReplaceFile path content expected) tree lost post := by
  unfold atomicReplaceFile
  rw [unreserved]
  apply ensures_step before
  rcases tree.replaceFile_cases path content expected with
    ⟨ready, same, run⟩ | ⟨unmet, failure, after, run, confined, same⟩
  · rw [run]
    exact replaced ready same
  · rw [run]
    exact failed failure after confined same unmet

/-- The file is gone when only the sync has failed. -/
theorem removeAndSyncParent_ensures
    (unreserved : reservedNames path = none) (before : lost tree)
    (removed : ∀ result found, tree.content path = some expected →
      post result (tree.retire path found))
    (failed : ∀ failure, tree.content path ≠ some expected → post (.error failure) tree) :
    Ensures (removeAndSyncParent path expected) tree lost post := by
  unfold removeAndSyncParent removeAuthorityFile
  rw [unreserved]
  have removal : Ensures (.step (FileTree.removeFile path expected)) tree lost
      (fun result after => FileTree.removeFile path expected tree = (after, result)) :=
    ensures_step before rfl
  apply ensures_bind removal
  intro result after run
  rcases tree.removeFile_cases path expected with ⟨found, same, known⟩ | ⟨unmet, failure, known⟩
  · rw [known] at run
    cases run
    intro remaining
    exact removed _ found same
  · rw [known] at run
    cases run
    exact ensures_pure (failed failure unmet)

end FileOperations

/-- Only the given paths are touched, and every file is as it was or as in the
goal. -/
structure Toward (paths : Set Path) (goal : Path → Option Content)
    (before after : FileTree) : Prop where
  confined : Confined paths before after
  content : ∀ path, after.content path = before.content path ∨ after.content path = goal path

section Toward

variable {paths wider : Set Path} {goal : Path → Option Content} {first second third : FileTree}

theorem Toward.refl (paths : Set Path) (tree : FileTree) : Toward paths goal tree tree :=
  ⟨Confined.refl paths tree, fun _ => Or.inl rfl⟩

theorem Toward.trans
    (firstStep : Toward paths goal first second) (secondStep : Toward paths goal second third) :
    Toward paths goal first third := by
  refine ⟨firstStep.confined.trans secondStep.confined, ?_⟩
  intro path
  rcases secondStep.content path with same | reached
  · rw [same]
    exact firstStep.content path
  · exact Or.inr reached

theorem Toward.mono
    (step : Toward paths goal first second) (subset : paths ⊆ wider) :
    Toward wider goal first second :=
  ⟨step.confined.mono subset, step.content⟩

theorem Toward.of_same
    (confined : Confined {path} first second) (same : second.file path = first.file path) :
    Toward {path} goal first second := by
  refine ⟨confined, ?_⟩
  intro other
  by_cases here : other = path
  · left
    rw [here]
    exact congrArg (Option.map Prod.fst) same
  · exact Or.inl (confined.content here)

theorem Toward.keeps
    (step : Toward paths goal first second) (reached : first.content path = goal path) :
    second.content path = goal path := by
  rcases step.content path with same | there
  · rw [same, reached]
  · exact there

theorem Toward.replace (wanted : goal path = some content) :
    Toward {path} goal first (first.replace path content ready) := by
  refine ⟨FileTree.replace_confined ready, ?_⟩
  intro other
  rw [FileTree.content_replace]
  split
  · next same => exact Or.inr (by rw [same, wanted])
  · exact Or.inl rfl

theorem Toward.retire (wanted : goal path = none) :
    Toward {path} goal first (first.retire path found) := by
  refine ⟨FileTree.retire_confined found, ?_⟩
  intro other
  rw [FileTree.content_retire]
  split
  · next same => exact Or.inr (by rw [same, wanted])
  · exact Or.inl rfl

end Toward

theorem reservedStatePath_of_normalized
    (normalized : normalizedEffectRelativePath reference = some path) :
    reservedStatePath reference = none ∧ reservedNames path = none := by
  unfold normalizedEffectRelativePath at normalized
  split at normalized
  · cases normalized
  · next rest normalizedEq =>
    split at normalized
    · cases normalized
    · next unreserved =>
      have plain : reservedStatePath reference = none := by
        simpa using unreserved
      refine ⟨plain, ?_⟩
      obtain ⟨names, named, dropped⟩ := Checked.bind_eq_ok.mp normalizedEq
      rw [named] at normalized
      cases normalized
      rw [reservedNames, dropped]
      rw [reservedStatePath, rejectReservedStateMutation, normalizedEq] at plain
      dsimp only at plain ⊢
      cases classified : classifyReservedStatePath rest with
      | none => rfl
      | some reserved => simp [classified] at plain

/-- The record is a before-image of what the goal has at the path. -/
def ImageOf (store : EffectStore) (goal : Path → Option Content)
    (record : EffectWalRecord) (path : Path) : Prop :=
  ∃ targetRef original, record.targetRef = some targetRef ∧ record.original = some original ∧
      normalizedEffectRelativePath (record.physicalTargetRef.getD targetRef) = some path ∧
        sha256ContentHash store.sha256 original.content = original.contentHash ∧
          capturedContent original.existed original.content = goal path

/-- What the rollback of one before-image comes to.  A file that can be
reached holds what the goal has afterwards, whatever is reported. -/
structure Restoration {failure : Type} (goal : Path → Option Content) (path : Path)
    (before : FileTree) (result : Except failure Unit) (after : FileTree) : Prop where
  toward : Toward {path} goal before after
  done : result = .ok () → after.content path = goal path
  settles : before.creatable path = true → after.content path = goal path
  stands : before.creatable path = true → before.content path = goal path → result = .ok ()

section BeforeImages

variable {store : EffectStore} {paths : Set Path} {goal : Path → Option Content}
  {tree : FileTree} {record : EffectWalRecord}

theorem ImageOf.unique
    (image : ImageOf store goal record path) (otherImage : ImageOf store goal record other) :
    path = other := by
  obtain ⟨targetRef, original, target, -, normalized, -, -⟩ := image
  obtain ⟨otherRef, otherOriginal, otherTarget, -, otherNormalized, -, -⟩ := otherImage
  rw [target] at otherTarget
  cases otherTarget
  rw [normalized] at otherNormalized
  exact Option.some.inj otherNormalized

theorem Restoration.unread {failure : Type} {error : failure}
    (unread : ∀ current, tree.readOptional path ≠ .ok current) :
    Restoration goal path tree (.error error) tree := by
  have blocked : tree.creatable path ≠ true := fun ready =>
    unread _ (FileTree.readOptional_eq_ok.mpr ⟨ready, rfl⟩)
  exact ⟨Toward.refl _ tree, by simp, fun ready => absurd ready blocked,
    fun ready => absurd ready blocked⟩

theorem Restoration.still {failure : Type} (same : tree.content path = goal path) :
    Restoration goal path tree (.ok () : Except failure Unit) tree :=
  ⟨Toward.refl _ tree, fun _ => same, fun _ => same, fun _ _ => rfl⟩

theorem restoreBeforeImage_ensures
    (unreserved : reservedNames path = none)
    (hash : sha256ContentHash store.sha256 original.content = original.contentHash)
    (wanted : capturedContent original.existed original.content = goal path) :
    Ensures (store.restoreBeforeImage path original) tree (Toward {path} goal tree)
      (Restoration goal path tree) := by
  have start : Toward {path} goal tree tree := Toward.refl _ tree
  unfold EffectStore.restoreBeforeImage
  by_cases existed : original.existed = true
  · have wantedContent : goal path = some original.content := by
      rw [← wanted, capturedContent, if_pos existed]
    rw [if_pos existed, if_pos hash]
    apply ensures_inspect_bind
    cases found : tree.readOptional path with
    | error failure => exact ensures_pure (Restoration.unread (by simp [found]))
    | ok current =>
      obtain ⟨ready, rfl⟩ := FileTree.readOptional_eq_ok.mp found
      dsimp only
      split
      · next same => exact ensures_pure (Restoration.still (same.trans wantedContent.symm))
      · next differs =>
        apply atomicReplaceFile_ensures unreserved start
        · intro ready _
          have reached : (tree.replace path original.content ready).content path = goal path := by
            rw [FileTree.content_replace, if_pos rfl, wantedContent]
          exact ⟨Toward.replace wantedContent, fun _ => reached, fun _ => reached, fun _ _ => rfl⟩
        · intro failure after _ _ unmet
          exact absurd ⟨ready, rfl⟩ unmet
  · have wantedNone : goal path = none := by
      rw [← wanted, capturedContent, if_neg existed]
    rw [if_neg existed]
    apply ensures_inspect_bind
    cases found : tree.readOptional path with
    | error failure => exact ensures_pure (Restoration.unread (by simp [found]))
    | ok current =>
      obtain ⟨ready, held⟩ := FileTree.readOptional_eq_ok.mp found
      cases current with
      | none => exact ensures_pure (Restoration.still (held.trans wantedNone.symm))
      | some bytes =>
        apply removeAndSyncParent_ensures unreserved start
        · intro result isFile _
          have reached : (tree.retire path isFile).content path = goal path := by
            rw [FileTree.content_retire, if_pos rfl, wantedNone]
          refine ⟨Toward.retire wantedNone, fun _ => reached, fun _ => reached, ?_⟩
          intro _ already
          rw [held, wantedNone] at already
          cases already
        · intro failure unmet
          exact absurd held unmet

theorem rollbackBeforeImage_ensures (image : ImageOf store goal record path) :
    Ensures (store.rollbackBeforeImage record) tree (Toward {path} goal tree)
      (Restoration goal path tree) := by
  obtain ⟨targetRef, original, target, kept, normalized, hash, wanted⟩ := image
  obtain ⟨unreserved, unreservedPath⟩ := reservedStatePath_of_normalized normalized
  unfold EffectStore.rollbackBeforeImage
  simp only [target, kept, unreserved, normalized]
  apply ensures_bind (restoreBeforeImage_ensures unreservedPath hash wanted)
  rintro (failure | ⟨⟨⟩⟩) after ⟨toward, done, settles, stands⟩
  · exact ensures_pure ⟨toward, by simp, settles, fun ready same => by cases stands ready same⟩
  · exact ensures_pure ⟨toward, fun _ => done rfl, settles, fun _ _ => rfl⟩

/-- Nothing is in the way of a file at any of the paths, and none of them can
get in the way of another. -/
structure Reachable (paths : Set Path) (tree : FileTree) : Prop where
  ready : ∀ path ∈ paths, tree.creatable path = true
  apart : ∀ first ∈ paths, ∀ second ∈ paths, FileTree.Apart first second

theorem Reachable.mono
    (reachable : Reachable paths tree) (fewer : other ⊆ paths) : Reachable other tree :=
  ⟨fun path inside => reachable.ready path (fewer inside), fun first firstInside second
    secondInside => reachable.apart first (fewer firstInside) second (fewer secondInside)⟩

theorem Reachable.confined
    (reachable : Reachable paths tree) (confined : Confined paths tree after) :
    Reachable paths after := by
  refine ⟨?_, reachable.apart⟩
  intro path inside
  exact confined.creatable path (fun other otherInside => reachable.apart other otherInside path
    inside) (reachable.ready path inside)

/-- The files of the before-images are as in the goal. -/
def AtGoal (store : EffectStore) (goal : Path → Option Content)
    (images : List EffectWalRecord) (tree : FileTree) : Prop :=
  ∀ record ∈ images, ∀ path, ImageOf store goal record path → tree.content path = goal path

theorem AtGoal.kept {images : List EffectWalRecord}
    (atGoal : AtGoal store goal images tree)
    (faithful : ∀ record ∈ images, ∃ path ∈ paths, ImageOf store goal record path)
    (kept : ∀ path ∈ paths, tree.content path = goal path → after.content path = goal path) :
    AtGoal store goal images after := by
  intro record member path image
  obtain ⟨named, inside, namedImage⟩ := faithful record member
  cases image.unique namedImage
  exact kept path inside (atGoal record member path image)

/-- What the rollback of a list of before-images comes to. -/
structure RolledBack (store : EffectStore) (paths : Set Path) (goal : Path → Option Content)
    (images : List EffectWalRecord) (before : FileTree) (result : Bool × List String)
    (after : FileTree) : Prop where
  toward : Toward paths goal before after
  done : result.1 = true → AtGoal store goal images after
  settles : Reachable paths before → AtGoal store goal images after
  stands : Reachable paths before → AtGoal store goal images before → result.1 = true

theorem rollbackBeforeImages_ensures
    (images : List EffectWalRecord)
    (faithful : ∀ record ∈ images, ∃ path ∈ paths, ImageOf store goal record path) :
    Ensures (store.rollbackBeforeImages images) tree (Toward paths goal tree)
      (RolledBack store paths goal images tree) := by
  induction images generalizing tree with
  | nil =>
    have empty (tree : FileTree) : AtGoal store goal [] tree := by simp [AtGoal]
    exact ensures_pure ⟨Toward.refl paths tree, fun _ => empty tree, fun _ => empty tree,
      fun _ _ => rfl⟩
  | cons record rest ih =>
    obtain ⟨path, inside, image⟩ := faithful record mem_cons_self
    have widen {after : FileTree} (move : Toward {path} goal tree after) :
        Toward paths goal tree after := move.mono (Set.singleton_subset_iff.mpr inside)
    unfold EffectStore.rollbackBeforeImages
    apply ensures_bind (ensures_lost_mono (rollbackBeforeImage_ensures image) fun _ => widen)
    intro result middle restored
    have firstMove := widen restored.toward
    apply ensures_bind (ensures_lost_mono
      (ih fun other member => faithful other (mem_cons_of_mem _ member))
      fun after => firstMove.trans)
    intro others after rolledBack
    have secondMove := rolledBack.toward
    have both (here : middle.content path = goal path) (there : AtGoal store goal rest after) :
        AtGoal store goal (record :: rest) after := by
      intro other member otherPath otherImage
      rcases List.mem_cons.mp member with rfl | restMember
      · cases image.unique otherImage
        exact secondMove.keeps here
      · exact there other restMember otherPath otherImage
    have settled (reachable : Reachable paths tree) : AtGoal store goal (record :: rest) after :=
      both (restored.settles (reachable.ready path inside))
        (rolledBack.settles (reachable.confined firstMove.confined))
    have stands (reachable : Reachable paths tree)
        (atGoal : AtGoal store goal (record :: rest) tree) : result = .ok () ∧ others.1 = true := by
      refine ⟨restored.stands (reachable.ready path inside)
        (atGoal record mem_cons_self path image), ?_⟩
      apply rolledBack.stands (reachable.confined firstMove.confined)
      intro other member otherPath otherImage
      exact firstMove.keeps (atGoal other (mem_cons_of_mem _ member) otherPath otherImage)
    cases result with
    | error diagnostic =>
      exact ensures_pure ⟨firstMove.trans secondMove, by simp, settled,
        fun reachable atGoal => by cases (stands reachable atGoal).1⟩
    | ok done =>
      exact ensures_pure ⟨firstMove.trans secondMove,
        fun allOk => both (restored.done rfl) (rolledBack.done allOk), settled,
        fun reachable atGoal => (stands reachable atGoal).2⟩

end BeforeImages

end ForgeCore.Effects
