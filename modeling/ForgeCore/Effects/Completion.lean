import ForgeCore.Effects.RecoveryCourse

/-!
# Recovery completes

A recovery that is not cut comes to an end.  Where nothing keeps it from its
files it restores them all.  It may still report a failure, since it cannot sync
the directory of a file that it has removed at the top of the project.  The
recovery after it finds the files restored, and closes what is open.
-/

namespace ForgeCore.Effects

open List Durable Durable.Computation

variable {store : EffectStore} {log : Path} {paths : Set Path} {goal : Path → Option Content}
  {base tree after : FileTree} {records markers : List EffectWalRecord}

section Halts

variable (store)

theorem atomicReplaceFile_halts
    (path : Path) (content : Content) (expected : Option Content) (tree : FileTree) :
    Halts (atomicReplaceFile path content expected) tree := by
  unfold atomicReplaceFile
  split
  · exact halts_pure
  · exact halts_step

theorem removeAndSyncParent_halts (path : Path) (expected : Content) (tree : FileTree) :
    Halts (removeAndSyncParent path expected) tree := by
  unfold removeAndSyncParent
  apply halts_bind
  · unfold removeAuthorityFile
    split
    · exact halts_pure
    · exact halts_step
  · rintro (failure | done) middle
    · exact halts_pure
    · exact halts_inspect_bind halts_pure

theorem restoreBeforeImage_halts (path : Path) (original : EffectWalOriginal) (tree : FileTree) :
    Halts (store.restoreBeforeImage path original) tree := by
  unfold EffectStore.restoreBeforeImage
  split
  · split
    · apply halts_inspect_bind
      split
      · exact halts_pure
      · split
        · exact halts_pure
        · exact atomicReplaceFile_halts ..
    · exact halts_pure
  · apply halts_inspect_bind
    split
    · exact halts_pure
    · exact halts_pure
    · exact removeAndSyncParent_halts ..

theorem rollbackBeforeImage_halts (record : EffectWalRecord) (tree : FileTree) :
    Halts (store.rollbackBeforeImage record) tree := by
  unfold EffectStore.rollbackBeforeImage
  split
  · dsimp only
    split
    · exact halts_pure
    · split
      · exact halts_pure
      · apply halts_bind (restoreBeforeImage_halts ..)
        rintro (failure | done) middle
        · exact halts_pure
        · exact halts_pure
  · exact halts_pure

theorem rollbackBeforeImages_halts (images : List EffectWalRecord) (tree : FileTree) :
    Halts (store.rollbackBeforeImages images) tree := by
  induction images generalizing tree with
  | nil => exact halts_pure
  | cons record rest ih =>
    apply halts_bind (rollbackBeforeImage_halts store record tree)
    intro result middle
    apply halts_bind (ih middle)
    intro others after
    cases result with
    | ok | error => exact halts_pure

theorem recoverTransactions_halts
    (records : List EffectWalRecord) (pending : List String) (tree : FileTree) :
    Halts (store.recoverTransactions records pending) tree := by
  induction pending generalizing tree with
  | nil => exact halts_pure
  | cons txId rest ih =>
    unfold EffectStore.recoverTransactions EffectStore.recoverTransaction
    apply halts_bind
    · apply halts_bind (rollbackBeforeImages_halts ..)
      intro rollback middle
      split
      · apply halts_bind
        · unfold EffectStore.appendEffectWalRecord
          split
          · exact halts_pure
          · split
            · exact halts_pure
            · exact halts_step
        · rintro (failure | done) after
          · exact halts_pure
          · exact halts_pure
      · exact halts_pure
    · intro first middle
      exact halts_bind (ih middle) fun others after => halts_pure

theorem recoverEffectWal_halts (tree : FileTree) : Halts store.recoverEffectWal tree := by
  unfold EffectStore.recoverEffectWal EffectStore.recoverText EffectStore.recoverRecords
  split
  · exact halts_pure
  · split
    · exact halts_pure
    · apply halts_inspect_bind
      split
      · exact halts_pure
      · exact halts_pure
      · split
        · exact halts_pure
        · split
          · exact halts_pure
          · split
            · exact halts_pure
            · split
              · exact halts_pure
              · dsimp only
                split
                · exact halts_pure
                · exact halts_bind (recoverTransactions_halts ..) fun summary after => halts_pure

end Halts

/-- Two recoveries that are not cut both end, and the second one reports no
failure. -/
def Completes (store : EffectStore) (tree : FileTree) : Prop :=
  ∃ steps middle first, Runs store.recoverEffectWal tree steps middle first ∧
    ∃ more after second, Runs store.recoverEffectWal middle more after second ∧
      second.status ≠ .recoveryFailed

theorem Course.completes
    (course : Course store log paths goal base records markers tree)
    (lawful : store.codec.Lawful) (place : store.walPath = some log) (outside : log ∉ paths)
    (restorable : Restorable log paths base records) :
    Completes store tree := by
  obtain ⟨steps, middle, first, firstRuns⟩ := recoverEffectWal_halts store tree
  obtain ⟨marked, recovered⟩ :=
    (recoverEffectWal_ensures lawful place outside course).runs firstRuns
  obtain ⟨more, after, second, secondRuns⟩ := recoverEffectWal_halts store middle
  obtain ⟨final, again⟩ :=
    (recoverEffectWal_ensures lawful place outside recovered.course).runs secondRuns
  refine ⟨steps, middle, first, firstRuns, more, after, second, secondRuns, ?_⟩
  exact again.stands restorable (recovered.settles restorable)

/-! ## Recoveries that are cut -/

section Repeated

variable (lawful : store.codec.Lawful) (place : store.walPath = some log) (outside : log ∉ paths)

include lawful place outside

theorem Recovering.repeated
    (recovering : Recovering store log paths goal base records tree) (cuts : List Nat) :
    Recovering store log paths goal base records (store.recoverEffectWal.repeated cuts tree) := by
  apply repeated_preserves _ cuts recovering
  rintro current ⟨markers, course⟩
  apply ensures_mono (recoverEffectWal_ensures lawful place outside course) (fun _ cut => cut)
  rintro result after ⟨final, recovered⟩
  exact ⟨final, recovered.course⟩

/-- A recovery that reports no failure has reached the goal. -/
theorem Recovering.reaches
    (recovering : Recovering store log paths goal base records tree)
    (run : store.recoverEffectWal remaining tree = .finished after left result)
    (completed : result.status ≠ .recoveryFailed) :
    (∀ path, path ≠ log → after.content path = goal path) ∧
      (∃ records, Logged store log after records ∧ incompleteWalTransactions records = []) ∧
      FileTree.Isolated paths base after := by
  obtain ⟨markers, course⟩ := recovering
  obtain ⟨final, recovered⟩ :=
    (recoverEffectWal_ensures lawful place outside course).finished run
  have closed := recovered.closed completed
  exact ⟨recovered.course.leads.reached closed, ⟨_, recovered.course.logged, closed⟩,
    recovered.course.isolated⟩

end Repeated

/-! ## The files of the open transactions -/

def imagePath (record : EffectWalRecord) : Option Path :=
  record.targetRef.bind fun targetRef =>
    normalizedEffectRelativePath (record.physicalTargetRef.getD targetRef)

theorem ImageOf.imagePath (image : ImageOf store goal record path) :
    imagePath record = some path := by
  obtain ⟨targetRef, original, target, -, normalized, -, -⟩ := image
  simp [Effects.imagePath, target, normalized]

/-- The files that an open transaction has a before-image of. -/
def openTargets (records : List EffectWalRecord) : Set Path :=
  {path | ∃ txId ∈ incompleteWalTransactions records,
    ∃ record ∈ EffectStore.beforeImagesOf records txId, imagePath record = some path}

theorem openTargets_eq_empty (closed : incompleteWalTransactions records = []) :
    openTargets records = ∅ := by
  simp [openTargets, closed]

/-- Recovery needs no other paths than those of the open transactions. -/
theorem LeadsTo.narrow (leads : LeadsTo store log paths goal tree records) :
    LeadsTo store log (openTargets records) goal tree records := by
  refine ⟨?_, leads.covered⟩
  intro txId isOpen record member
  obtain ⟨path, -, image⟩ := leads.faithful txId isOpen record member
  exact ⟨path, ⟨txId, isOpen, record, member, image.imagePath⟩, image⟩

theorem LeadsTo.openTargets_subset (leads : LeadsTo store log paths goal tree records) :
    openTargets records ⊆ paths := by
  rintro path ⟨txId, isOpen, record, member, named⟩
  obtain ⟨found, inside, image⟩ := leads.faithful txId isOpen record member
  cases image.imagePath.symm.trans named
  exact inside

/-! ## From any tree that leads to a goal -/

section Leads

variable (leads : LeadsTo store log {log}ᶜ goal tree records)
  (logged : Logged store log tree records)
  (lawful : store.codec.Lawful) (place : store.walPath = some log)

include leads logged lawful place

theorem LeadsTo.recovering (cuts : List Nat) :
    log ∉ openTargets records ∧
      Recovering store log (openTargets records) goal tree records
        (store.recoverEffectWal.repeated cuts tree) := by
  have outside : log ∉ openTargets records := fun inside => leads.openTargets_subset inside rfl
  have starts : Recovering store log (openTargets records) goal tree records tree :=
    ⟨[], course_starts logged leads.narrow⟩
  exact ⟨outside, starts.repeated lawful place outside cuts⟩

/-- Recovery, cut and started again any number of times, reaches the goal when
it reports no failure. -/
theorem LeadsTo.reaches
    (cuts : List Nat)
    (run : store.recoverEffectWal remaining (store.recoverEffectWal.repeated cuts tree) =
      .finished after left result)
    (completed : result.status ≠ .recoveryFailed) :
    (∀ path, path ≠ log → after.content path = goal path) ∧
      (∃ records, Logged store log after records ∧ incompleteWalTransactions records = []) ∧
      FileTree.Isolated (openTargets records) tree after := by
  obtain ⟨outside, recovering⟩ := leads.recovering logged lawful place cuts
  exact recovering.reaches lawful place outside run completed

theorem LeadsTo.completes
    (restorable : Restorable log (openTargets records) tree records) (cuts : List Nat) :
    Completes store (store.recoverEffectWal.repeated cuts tree) := by
  obtain ⟨outside, markers, course⟩ := leads.recovering logged lawful place cuts
  exact course.completes lawful place outside restorable

theorem LeadsTo.completed (restorable : Restorable log (openTargets records) tree records) :
    ∃ cuts remaining left after result,
      store.recoverEffectWal remaining (store.recoverEffectWal.repeated cuts tree) =
        .finished after left result ∧
      result.status ≠ .recoveryFailed ∧ FileTree.Isolated (openTargets records) tree after := by
  obtain ⟨steps, middle, first, firstRuns, more, after, second, secondRuns, completed⟩ :=
    leads.completes logged lawful place restorable []
  have firstLeaves : store.recoverEffectWal.repeated [0 + steps] tree = middle := by
    have firstRun : store.recoverEffectWal (0 + steps) tree = .finished middle 0 first :=
      firstRuns 0
    rw [Computation.repeated, Computation.repeated, Computation.leaves, firstRun]
    rfl
  have finished := secondRuns 0
  rw [← firstLeaves] at finished
  obtain ⟨-, -, isolated⟩ := leads.reaches logged lawful place _ finished completed
  exact ⟨_, _, _, _, _, finished, completed, isolated⟩

end Leads

end ForgeCore.Effects
