import ForgeCore.Effects.Handover
import ForgeCore.Effects.Runs

/-!
# Atomicity of effect transactions

A transaction that is cut anywhere, and any number of cut recoveries after
it, lead to the files before the transaction or to the declared ones.  The
log must not be among the targets: a transaction that writes to its own log
destroys the records it would be recovered from.  What a replaced or removed
file held stays beside it in quarantine.
-/

namespace ForgeCore.Effects

open List Durable Durable.Computation
open FileTree (Isolated)

section Statement

variable (store : EffectStore) (log : Path) (document : ToolEffectContractDocument)
  (payloads : List EffectApplicationPayload) (txId : String)
  (authority : Option EffectStore.PreparedAuthority) (start : FileTree)

/-- What a completed recovery must have made of the files. -/
structure AllOrNothing (committed : Bool) (after : FileTree) : Prop where
  restored : committed = false → ∀ path ∈ store.effectTargets document,
    after.content path = start.content path
  installed : committed = true → ∀ path ∈ store.effectTargets document,
    after.content path = declaredFiles store.root payloads
      document.toolEffectContract.writeSet start.content path
  /-- The log apart, files that are not targets are as they were. -/
  untouched : ∀ path, path ≠ log → path ∉ store.effectTargets document →
    after.content path = start.content path
  /-- Files that were not there before are quarantine files beside a target. -/
  isolated : Isolated (store.effectTargets document) start after
  complete : ∃ records, Logged store log after records ∧ incompleteWalTransactions records = []

/-- The transaction is cut anywhere or not at all, recoveries after it are
cut anywhere, and one more recovery completes. -/
def Atomic : Prop :=
  ∀ (cut : Nat) (cuts : List Nat) (remaining left : Nat) (after : FileTree)
    (result : EffectWalRecoveryResult),
    store.recoverEffectWal remaining (store.recoverEffectWal.repeated cuts
      (crashed store document payloads txId authority start cut)) = .finished after left result →
    result.status ≠ .recoveryFailed →
    AllOrNothing store log document payloads start
      (hasCommitted store log txId (crashed store document payloads txId authority start cut)) after

/-- Wherever the transaction and the recoveries after it are cut, two more
recoveries come to an end and the second reports no failure. -/
def RecoveryCompletes : Prop :=
  ∀ (cut : Nat) (cuts : List Nat), Completes store (store.recoverEffectWal.repeated cuts
    (crashed store document payloads txId authority start cut))

end Statement

section Atomicity

variable {store : EffectStore} {log : Path} {document : ToolEffectContractDocument}
  {payloads : List EffectApplicationPayload} {txId : String}
  {authority : Option EffectStore.PreparedAuthority} {start : FileTree}
  {records : List EffectWalRecord}

/-- A transaction that does not write to its log, started under an unused id
where none is open, is atomic; and recovery completes when no target is in the
way of another one or of the log. -/
theorem effect_transaction_atomic
    (lawful : store.codec.Lawful)
    (place : store.walPath = some log)
    (logged : Logged store log start records)
    (complete : incompleteWalTransactions records = [])
    (fresh : ∀ record ∈ records, record.txId ≠ txId)
    (outside : log ∉ store.effectTargets document) :
    Atomic store log document payloads txId authority start ∧
      (Restorable log ∅ start records →
        Unobstructed log (store.effectTargets document) ∅ →
        EffectStore.externalPublication (EffectStore.beginRecord document txId authority) = false →
        RecoveryCompletes store document payloads txId authority start) := by
  have nothingOpen := openTargets_eq_empty complete
  have left (cut : Nat) := crashed_leaves lawful place logged
    (LeadsTo.of_reached complete fun _ _ => rfl : LeadsTo store log {log}ᶜ start.content start
      records) fresh outside (by simp [nothingOpen]) payloads authority cut
  rw [← nothingOpen]
  obtain ⟨own, -⟩ := beginRecord_begins document txId authority
  refine ⟨?_, ?_⟩
  · intro cut cuts remaining rest after result run completed
    obtain ⟨trace, leaves⟩ := left cut
    have leads := leaves.leads
    have installed := leaves.installed
    rw [own] at leads installed
    obtain ⟨files, closed, isolated⟩ :=
      leads.reaches leaves.logged lawful place cuts run completed
    have targetAway {path : Path} (isTarget : path ∈ store.effectTargets document) :
        path ≠ log := by
      rintro rfl
      exact outside isTarget
    have opens := leaves.opens
    rw [nothingOpen, Set.empty_union] at opens
    refine ⟨?_, ?_, ?_, leaves.isolated.trans (isolated.mono opens), closed⟩
    · intro uncommitted path isTarget
      rw [files path (targetAway isTarget), uncommitted]
      rfl
    · intro committed path isTarget
      rw [files path (targetAway isTarget), committed]
      exact (if_pos isTarget).trans (installed committed path (targetAway isTarget))
    · intro path away other
      rw [files path away]
      split
      · exact if_neg other
      · rfl
  · intro restorable free sameRoot cut cuts
    obtain ⟨trace, leaves⟩ := left cut
    exact leaves.leads.completes leaves.logged lawful place
      (leaves.restorable restorable free sameRoot) cuts

end Atomicity

/-! ## An effect that creates its own log -/

namespace LogTarget

open Sample

def document : ToolEffectContractDocument :=
  effect [delete "d/f", create walRef]

def payloads : List EffectApplicationPayload := [nothing walRef]

def created : PreparedWrite × OriginalFileState :=
  (⟨walRef, walRef, "/p/" ++ walRef, .filePath, .create, false, none, some [], []⟩,
    ⟨"/p/" ++ walRef, walRef, false, [], some []⟩)

theorem accepted : store.preflight document payloads start = .ok [deleted "d/f", created] := by
  rfl

def begin : EffectWalRecord := .begin "tx" ⟨"effect"⟩

def image (pair : PreparedWrite × OriginalFileState) : EffectWalRecord :=
  .beforeImage sha256 "tx" ⟨"effect"⟩ pair.1 pair.2

noncomputable def records : List EffectWalRecord :=
  [begin] ++ writeRecords store document "tx" (deleted "d/f") ++ [image created]

/-- The process is lost with the before-image of the log as its last record. -/
theorem cut_state :
    ∃ tree, crashed store document payloads "tx" none start 5 = tree ∧
      HasLog store log tree records ∧ tree.content ["d", "f"] = none ∧
      tree.creatable ["d", "f"] = true := by
  obtain ⟨-, rest⟩ := List.forall₂_cons.mp (preflight_ok accepted)
  obtain ⟨createdPrepared, -⟩ := List.forall₂_cons.mp rest
  obtain ⟨after, round, hasAfter, installed, ready, -, -⟩ := applyFileEffectTransaction_round
    lawful place startLogged accepted startReady (by decide) (by decide) (Or.inr (by decide)) "tx"
    none
  refine ⟨store.withRecord log (image created) after hasAfter.opened.ready, ?_,
    HasLog.withRecord lawful hasAfter.logged _ hasAfter.opened.ready,
    (content_withRecord (by decide)).trans installed,
    FileTree.creatable_install hasAfter.opened.ready ready (by decide)⟩
  have lostRun : store.applyFileEffectTransaction document payloads "tx" none 5 start =
      .lost (store.withRecord log (image created) after hasAfter.opened.ready) := by
    refine (round 1).trans ?_
    rw [EffectStore.applyWrites]
    exact (bind_finished (append_runs place _ hasAfter.opened.appendable 0)).trans
      (bind_lost (applyPreparedWrite_lost createdPrepared))
  rw [crashed, Computation.leaves, lostRun]
  rfl

variable {tree : FileTree}

/-- A recovery that survives one step removes the log and is lost before it
restores the deleted file. -/
theorem recovery_lost
    (has : HasLog store log tree records) (gone : tree.content ["d", "f"] = none)
    (ready : tree.creatable ["d", "f"] = true) :
    ∃ after, store.recoverEffectWal 1 tree = .lost after ∧ after.creatable log = true ∧
      after.content log = none ∧ after.content ["d", "f"] = none := by
  obtain ⟨bytes, known⟩ := has.opened
  have found : tree.content log = some bytes := congrArg (Option.map Prod.fst) known
  obtain ⟨notes, run⟩ := recoverEffectWal_logged place has.logged found
  obtain ⟨isFile, removes⟩ := FileTree.removeFile_ok found
  have goneStill : (tree.retire log isFile).content ["d", "f"] = none := by
    rw [FileTree.content_retire, if_neg (by decide), gone]
  have removedLog : store.rollbackBeforeImage (image created) 1 tree =
      .finished (tree.retire log isFile) 0 (.ok ()) := by
    have read : tree.readOptional log = .ok (some bytes) :=
      FileTree.readOptional_eq_ok.mpr ⟨has.opened.ready, found⟩
    have removal : removeAuthorityFile log bytes 1 tree =
        .finished (tree.retire log isFile) 0 (.ok ()) := by
      change Computation.step (FileTree.removeFile log bytes) 1 tree = _
      rw [step_run_succ, removes]
    have restored : store.restoreBeforeImage log
        ⟨false, [], sha256ContentHash store.sha256 []⟩ 1 tree =
          .finished (tree.retire log isFile) 0 (.ok ()) := by
      unfold EffectStore.restoreBeforeImage
      rw [if_neg (by decide), bind_run, inspect_run, read]
      refine (bind_finished removal).trans ?_
      dsimp only
      rw [inspect_run, FileTree.syncDirectory_retire isFile (by decide)]
    exact bind_finished restored
  have lostFile : store.rollbackBeforeImage (image (deleted "d/f")) 0 (tree.retire log isFile) =
      .lost (tree.retire log isFile) := by
    have read : (tree.retire log isFile).readOptional ["d", "f"] = .ok none :=
      FileTree.readOptional_eq_ok.mpr ⟨FileTree.creatable_retire isFile ready, goneStill⟩
    have restored : store.restoreBeforeImage ["d", "f"]
        ⟨true, [120], sha256ContentHash store.sha256 [120]⟩ 0 (tree.retire log isFile) =
          .lost (tree.retire log isFile) := by
      unfold EffectStore.restoreBeforeImage
      rw [if_pos rfl, if_pos rfl, bind_run, inspect_run, read]
      rfl
    exact bind_lost restored
  refine ⟨tree.retire log isFile, ?_, FileTree.creatable_retire isFile has.opened.ready, ?_,
    goneStill⟩
  · rw [run]
    have rolledBack : store.rollbackBeforeImages [image created, image (deleted "d/f")] 1 tree =
        .lost (tree.retire log isFile) :=
      (bind_finished removedLog).trans (bind_lost (bind_lost lostFile))
    have recovered : store.recoverTransactions records ["tx"] 1 tree =
        .lost (tree.retire log isFile) := bind_lost (bind_lost rolledBack)
    exact bind_lost recovered
  · rw [FileTree.content_retire, if_pos rfl]

theorem not_atomic : ¬ Atomic store log document payloads "tx" none start := by
  intro atomic
  obtain ⟨tree, cutEq, has, gone, ready⟩ := cut_state
  obtain ⟨after, lostRun, logReady, noLog, stillGone⟩ := recovery_lost has gone ready
  have uncommitted : hasCommitted store log "tx"
      (crashed store document payloads "tx" none start 5) = false := by
    rw [cutEq]
    exact hasCommitted_append (by exact has.logged : Logged store log tree ([] ++ records))
      (by simp) (by decide)
  have finished : store.recoverEffectWal 0 (store.recoverEffectWal.repeated [1]
      (crashed store document payloads "tx" none start 5)) =
      .finished after 0
        { status := .noop
          recoveredTransactions := []
          reasons := [.noWalFile]
          diagnostics := [] } := by
    have missing : after.read log = .error .notFound :=
      FileTree.read_eq_notFound.mpr ⟨logReady, noLog⟩
    have left : store.recoverEffectWal.repeated [1] tree = after := by
      rw [Computation.repeated, Computation.repeated, Computation.leaves, lostRun]
      rfl
    rw [cutEq, left]
    unfold EffectStore.recoverEffectWal
    simp only [(reservedStatePath_of_normalized place).1, place]
    rw [bind_run, inspect_run, missing]
    rfl
  have outcome := atomic 5 [1] 0 0 after _ finished (by decide)
  have restored := outcome.restored uncommitted ["d", "f"] ⟨_, mem_cons_self, by rfl⟩
  rw [stillGone] at restored
  cases restored

end LogTarget

/-! ## An effect that deletes a file -/

namespace Deletion

open Sample

def document : ToolEffectContractDocument := effect [delete "d/f"]

theorem kept : (crashed store document [] "tx" none start 5).quarantine ≠ [] := by
  obtain ⟨after, result, run, -, isKept⟩ := deletion_runs
  rw [crashed, Computation.leaves, document, run]
  exact isKept

theorem outside : log ∉ store.effectTargets document := by
  intro isTarget
  exact absurd (target_eq deletion_target isTarget) (by decide)

theorem unobstructed : Unobstructed log (store.effectTargets document) ∅ := by
  intro path isTarget other isOther
  rw [target_eq deletion_target isTarget]
  rcases isOther with rfl | isTarget | ⟨⟨⟩⟩
  · decide
  · rw [target_eq deletion_target isTarget]
    decide

end Deletion

/-- An accepted effect deletes a file and creates the log.  Lost after its
fifth step, and once more in recovery, it leaves the file deleted under a log
without a commit.  And an effect that only deletes a file leaves a quarantine
file that recovery does not remove. -/
theorem effect_transaction_not_atomic :
    ¬ Atomic Sample.store Sample.log LogTarget.document LogTarget.payloads "tx" none
        Sample.start ∧
      ∃ cuts remaining left after result,
        Sample.store.recoverEffectWal remaining (Sample.store.recoverEffectWal.repeated cuts
          (crashed Sample.store Deletion.document [] "tx" none Sample.start 5)) =
            .finished after left result ∧
        result.status ≠ .recoveryFailed ∧ after.quarantine ≠ Sample.start.quarantine := by
  refine ⟨LogTarget.not_atomic, ?_⟩
  have nothingOpen : openTargets [] = ∅ := openTargets_eq_empty rfl
  obtain ⟨trace, leaves⟩ := crashed_leaves Sample.lawful Sample.place Sample.startLogged
    (LeadsTo.of_reached rfl fun _ _ => rfl : LeadsTo Sample.store Sample.log {Sample.log}ᶜ
      Sample.start.content Sample.start []) (by simp) Deletion.outside (by simp [nothingOpen]) []
    none 5
  have restorable := leaves.restorable (nothingOpen ▸ Sample.startRestorable)
    (nothingOpen ▸ Deletion.unobstructed) rfl
  obtain ⟨cuts, remaining, left, after, result, run, completed, added, grows, -⟩ :=
    leaves.leads.completed leaves.logged Sample.lawful Sample.place restorable
  refine ⟨cuts, remaining, left, after, result, run, completed, ?_⟩
  rw [grows]
  intro same
  exact Deletion.kept (List.append_eq_nil_iff.mp same).1

/-- A deletion, and the recoveries after it complete. -/
theorem effect_transaction_atomic_deletion :
    Atomic Sample.store Sample.log Deletion.document [] "tx" none Sample.start ∧
      RecoveryCompletes Sample.store Deletion.document [] "tx" none Sample.start := by
  obtain ⟨atomic, completes⟩ := effect_transaction_atomic Sample.lawful Sample.place
    Sample.startLogged rfl (by simp) Deletion.outside
  exact ⟨atomic, completes Sample.startRestorable Deletion.unobstructed rfl⟩

end ForgeCore.Effects
