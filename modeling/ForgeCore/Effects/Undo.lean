import ForgeCore.Effects.Preflight
import ForgeCore.Effects.Rollback

/-!
# One write, and its undoing in the same process

The files of `start` are those that the preflight has seen.  A write installs
what was declared over what was captured, or changes no file; it may also
fail after it has removed the file.  The rollback of a transaction brings every
file back.
-/

namespace ForgeCore.Effects

open List Durable Durable.Computation
open FileTree (Confined)

section Writes

variable {store : EffectStore} {payloads : List EffectApplicationPayload}
  {start tree after : FileTree} {write : EffectWrite} {pair : PreparedWrite × OriginalFileState}
  {path : Path} {paths : Set Path}

/-- A write is done over the captured content, or changes no file.  A removal
whose sync fails is done all the same. -/
inductive Applied (path : Path) (original : OriginalFileState)
    (before after : FileTree) : Except String Unit → Prop where
  | done (captured : before.content path = original.captured)
      (installed : after.content path = original.installedContent) :
      Applied path original before after (.ok ())
  | unsynced (failure : String) (captured : before.content path = original.captured)
      (installed : after.content path = original.installedContent) :
      Applied path original before after (.error failure)
  | failed (failure : String)
      (same : after.content path = before.content path) :
      Applied path original before after (.error failure)

variable {lost : FileTree → Prop}

theorem publishPreparedWrite_ensures
    (prepared : Prepared store payloads start write pair)
    (unreserved : reservedNames path = none) (before : lost tree) :
    Ensures (EffectStore.publishPreparedWrite path pair.1 pair.2) tree lost
      (fun result after => Confined {path} tree after ∧
        Applied path pair.2 tree after (Except.mapError IoError.message result)) := by
  have installed := prepared.installed
  have replaced (keeps : pair.1.accessMode.isDelete = false) :
      Ensures (atomicReplaceFile path pair.1.content pair.2.captured) tree lost
        (fun result after => Confined {path} tree after ∧
          Applied path pair.2 tree after (Except.mapError IoError.message result)) := by
    apply atomicReplaceFile_ensures unreserved before
    · intro ready same
      refine ⟨FileTree.replace_confined ready, Applied.done same ?_⟩
      rw [FileTree.content_replace, if_pos rfl, installed, keeps]
      rfl
    · intro failure after confined same _
      exact ⟨confined, Applied.failed _ (congrArg (Option.map Prod.fst) same)⟩
  unfold EffectStore.publishPreparedWrite
  cases mode : pair.1.accessMode with
  | create | write => exact replaced (by rw [mode]; rfl)
  | append => exact replaced (by rw [mode]; rfl)
  | delete =>
    rw [mode] at installed
    cases known : pair.2.captured with
    | none => exact absurd known (prepared.present (by rw [mode]; rfl))
    | some expected =>
      apply removeAndSyncParent_ensures unreserved before
      · intro result found same
        have captures : tree.content path = pair.2.captured := by rw [same, known]
        have gone : (tree.retire path found).content path = pair.2.installedContent := by
          rw [FileTree.content_retire, if_pos rfl, installed]
          rfl
        refine ⟨FileTree.retire_confined found, ?_⟩
        cases result with
        | ok done => exact Applied.done captures gone
        | error failure => exact Applied.unsynced _ captures gone
      · intro failure _
        exact ⟨Confined.refl _ tree, Applied.failed _ rfl⟩

/-- A captured write passes the checks that come before its publication. -/
theorem applyPreparedWrite_published (prepared : Prepared store payloads start write pair) :
    store.applyPreparedWrite pair.1 pair.2 =
      (EffectStore.publishPreparedWrite (store.pathOf pair) pair.1 pair.2 >>= fun
        | .ok () => pure (.ok ())
        | .error failure => pure (EffectStore.applyError "descriptor-relative publication" pair.1
          failure.message)) := by
  unfold EffectStore.applyPreparedWrite
  rw [(reservedStatePath_of_normalized prepared.bound.normalized).1]
  dsimp only
  rw [if_neg, if_neg, prepared.bound.retained]
  · rfl
  · rintro ⟨isDelete, missing⟩
    exact prepared.present isDelete missing
  · simp [prepared.sameReference, prepared.sameTarget, prepared.installed]

theorem applyPreparedWrite_ensures
    (prepared : Prepared store payloads start write pair) (before : lost tree) :
    Ensures (store.applyPreparedWrite pair.1 pair.2) tree lost (fun result after =>
      Confined {store.pathOf pair} tree after ∧
        Applied (store.pathOf pair) pair.2 tree after result) := by
  rw [applyPreparedWrite_published prepared]
  apply ensures_bind (publishPreparedWrite_ensures prepared
    (reservedStatePath_of_normalized prepared.bound.normalized).2 before)
  rintro (failure | ⟨⟨⟩⟩) after ⟨confined, applied⟩
  · cases applied with
    | failed _ same => exact ensures_pure ⟨confined, Applied.failed _ same⟩
    | unsynced _ captured installed =>
      exact ensures_pure ⟨confined, Applied.unsynced _ captured installed⟩
  · cases applied with
    | done captured installed => exact ensures_pure ⟨confined, Applied.done captured installed⟩

/-! ## Rollback -/

/-- What undoing one write comes to: it moves toward the files at the start,
reaches them at its path when it reports success, and also where it finds what
the write installed. -/
structure Undoing {failure : Type} (start : FileTree) (path : Path)
    (installed : Option Content) (before : FileTree) (result : Except failure Unit)
    (after : FileTree) : Prop where
  toward : Toward {path} start.content before after
  done : result = .ok () → after.content path = start.content path
  settles : before.creatable path = true → before.content path = installed →
    after.content path = start.content path

theorem Undoing.refused {failure : Type} {error : failure} {installed : Option Content}
    (unmet : tree.creatable path = true → tree.content path ≠ installed) :
    Undoing start path installed tree (.error error) tree :=
  ⟨Toward.refl _ tree, by simp, fun ready same => absurd same (unmet ready)⟩

section

variable (prepared : Prepared store payloads start write pair)

include prepared

theorem restoreOriginal_ensures :
    Ensures (EffectStore.restoreOriginal (store.pathOf pair) pair.2
        (tree.content (store.pathOf pair))) tree
      (Toward {store.pathOf pair} start.content tree)
      (Undoing start (store.pathOf pair) pair.2.installedContent tree) := by
  have stay : Toward {store.pathOf pair} start.content tree tree := Toward.refl _ tree
  have unreserved : reservedNames (store.pathOf pair) = none :=
    (reservedStatePath_of_normalized prepared.bound.normalized).2
  have captured := prepared.captured
  unfold EffectStore.restoreOriginal
  split_ifs with same other existed
  · rw [captured] at same
    exact ensures_pure ⟨stay, fun _ => same, fun _ _ => same⟩
  · exact ensures_pure (Undoing.refused fun _ => other)
  · have wanted : start.content (store.pathOf pair) = some pair.2.content := by
      rw [← captured, OriginalFileState.captured, capturedContent, if_pos existed]
    apply atomicReplaceFile_ensures unreserved stay
    · intro ready _
      have back : (tree.replace (store.pathOf pair) pair.2.content ready).content
          (store.pathOf pair) = start.content (store.pathOf pair) := by
        rw [FileTree.content_replace, if_pos rfl, wanted]
      exact ⟨Toward.replace wanted, fun _ => back, fun _ _ => back⟩
    · intro failure after confined unchanged unmet
      exact ⟨Toward.of_same confined unchanged, by simp,
        fun ready installed => absurd ⟨ready, installed⟩ unmet⟩
  · have wanted : start.content (store.pathOf pair) = none := by
      rw [← captured, OriginalFileState.captured, capturedContent, if_neg existed]
    cases known : pair.2.installedContent with
    | none =>
      rw [captured, wanted] at same
      exact ensures_pure (Undoing.refused fun _ => same)
    | some bytes =>
      apply removeAndSyncParent_ensures unreserved stay
      · intro result found _
        have back : (tree.retire (store.pathOf pair) found).content (store.pathOf pair) =
            start.content (store.pathOf pair) := by
          rw [FileTree.content_retire, if_pos rfl, wanted]
        exact ⟨Toward.retire wanted, fun _ => back, fun _ _ => back⟩
      · intro failure unmet
        exact Undoing.refused fun _ => unmet

theorem rollbackOriginal_ensures :
    Ensures (store.rollbackOriginal pair.2) tree
      (Toward {store.pathOf pair} start.content tree)
      (Undoing start (store.pathOf pair) pair.2.installedContent tree) := by
  have bound := prepared.bound
  have retained : retainedNames store.root pair.2.physicalReference = .ok (store.pathOf pair) := by
    rw [prepared.sameReference]
    exact bound.retained
  unfold EffectStore.rollbackOriginal
  rw [prepared.sameReference, (reservedStatePath_of_normalized bound.normalized).1]
  dsimp only
  rw [← prepared.sameReference, retained]
  apply ensures_inspect_bind
  cases found : tree.readOptional (store.pathOf pair) with
  | error failure =>
    refine ensures_pure (Undoing.refused fun ready => ?_)
    rw [FileTree.readOptional_eq_ok.mpr ⟨ready, rfl⟩] at found
    cases found
  | ok current =>
    obtain ⟨ready, rfl⟩ := FileTree.readOptional_eq_ok.mp found
    apply ensures_bind (restoreOriginal_ensures prepared)
    rintro (failure | ⟨⟨⟩⟩) after ⟨toward, done, settles⟩
    · exact ensures_pure ⟨toward, by simp, settles⟩
    · exact ensures_pure ⟨toward, fun _ => done rfl, settles⟩

end

/-- Every file of the start could be put back where it was. -/
def Kept (start tree : FileTree) : Prop :=
  ∀ path, start.content path ≠ none → tree.creatable path = true

theorem Kept.confined
    (kept : Kept start tree) (ready : ∀ path ∈ paths, start.creatable path = true)
    (confined : Confined paths tree after) : Kept start after := by
  intro other present
  obtain ⟨bytes, known⟩ := Option.ne_none_iff_exists'.mp present
  apply confined.creatable other _ (kept other present)
  intro path inside
  exact FileTree.apart_of_content known (ready path inside)

/-- The file is as at the start, or as one of the writes has left it. -/
def Explained (store : EffectStore) (start : FileTree)
    (pairs : List (PreparedWrite × OriginalFileState)) (tree : FileTree) (path : Path) : Prop :=
  tree.content path = start.content path ∨
    ∃ pair ∈ pairs, store.pathOf pair = path ∧ tree.content path = pair.2.installedContent

theorem Undoing.back {failure : Type} {result : Except failure Unit} {installed : Option Content}
    (undoing : Undoing start path installed tree result after) (kept : Kept start tree)
    (held : tree.content path = installed) : after.content path = start.content path := by
  by_cases ready : tree.creatable path = true
  · exact undoing.settles ready held
  · -- Nothing is there that could not be put back, so nothing was there.
    have missing : tree.content path = none := by
      by_contra present
      obtain ⟨bytes, known⟩ := Option.ne_none_iff_exists'.mp present
      exact ready (FileTree.creatable_of_content known)
    have neverThere : start.content path = none := by
      by_contra present
      exact ready (kept path present)
    exact undoing.toward.keeps (missing.trans neverThere.symm)

def EffectStore.targetsOf (store : EffectStore)
    (pairs : List (PreparedWrite × OriginalFileState)) : Set Path :=
  {path | path ∈ pairs.map store.pathOf}

theorem EffectStore.pathOf_mem_targetsOf (member : pair ∈ pairs) :
    store.pathOf pair ∈ store.targetsOf pairs :=
  List.mem_map_of_mem member

/-- Rolling back a list of captured writes.  Without a failure every captured
file is back; whatever is reported, every file that one of the writes has
changed is. -/
theorem rollbackEach_ensures
    (tree : FileTree) (pairs : List (PreparedWrite × OriginalFileState))
    (prepared : ∀ pair ∈ pairs, ∃ write, Prepared store payloads start write pair) :
    Ensures (store.rollbackEach (pairs.map Prod.snd)) tree
      (Toward (store.targetsOf pairs) start.content tree)
      (fun result after => Toward (store.targetsOf pairs) start.content tree after ∧
        (result.1 = true → ∀ pair ∈ pairs,
          after.content (store.pathOf pair) = start.content (store.pathOf pair)) ∧
        (Kept start tree → ∀ path, Explained store start pairs tree path →
          after.content path = start.content path)) := by
  induction pairs generalizing tree with
  | nil =>
    refine ensures_pure ⟨Toward.refl _ tree, by simp, ?_⟩
    intro _ path explained
    simpa [Explained] using explained
  | cons pair rest ih =>
    obtain ⟨write, first⟩ := prepared pair mem_cons_self
    have widen {before after : FileTree} (move : Toward {store.pathOf pair} start.content before
        after) : Toward (store.targetsOf (pair :: rest)) start.content before after :=
      move.mono (Set.singleton_subset_iff.mpr (EffectStore.pathOf_mem_targetsOf mem_cons_self))
    have widenRest {before after : FileTree} (move : Toward (store.targetsOf rest) start.content
        before after) : Toward (store.targetsOf (pair :: rest)) start.content before after :=
      move.mono fun _ inside => mem_cons_of_mem _ inside
    unfold EffectStore.rollbackEach
    apply ensures_bind (ensures_lost_mono (rollbackOriginal_ensures first) fun _ => widen)
    intro result middle undoing
    apply ensures_bind (ensures_lost_mono
      (ih middle fun other member => prepared other (mem_cons_of_mem _ member))
      fun after later => (widen undoing.toward).trans (widenRest later))
    rintro others after ⟨later, restored, back⟩
    have both := (widen undoing.toward).trans (widenRest later)
    have backAll : Kept start tree → ∀ path, Explained store start (pair :: rest) tree path →
        after.content path = start.content path := by
      intro kept path explained
      apply back (kept.confined (by rintro _ rfl; exact first.ready) undoing.toward.confined)
      rcases undoing.toward.content path with same | there
      · rcases explained with still | ⟨other, member, place, installed⟩
        · exact Or.inl (same.trans still)
        · rcases List.mem_cons.mp member with rfl | inRest
          · subst place
            exact Or.inl (undoing.back kept installed)
          · exact Or.inr ⟨other, inRest, place, same.trans installed⟩
      · exact Or.inl there
    cases result with
    | error diagnostic => exact ensures_pure ⟨both, by simp, backAll⟩
    | ok done =>
      refine ensures_pure ⟨both, fun allOk => ?_, backAll⟩
      exact List.forall_mem_cons.mpr ⟨later.keeps (undoing.done rfl), restored allOk⟩

end Writes

end ForgeCore.Effects
