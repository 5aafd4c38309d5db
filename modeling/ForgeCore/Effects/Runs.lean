import ForgeCore.Effects.Execution
import ForgeCore.Effects.WalJson

/-!
# Runs that are not cut

The steps of a transaction over a log that can be opened, one after the
other, and the sample project that the counterexamples run on.
-/

namespace ForgeCore.Effects

open Durable Durable.Computation
open FileTree (Confined)

section Runs

variable {store : EffectStore} {log : Path} {document : ToolEffectContractDocument}
  {payloads : List EffectApplicationPayload} {txId : String} {path : Path}
  {start tree : FileTree} {records : List EffectWalRecord}
  {write : EffectWrite} {pair : PreparedWrite × OriginalFileState}
  {captured : List (PreparedWrite × OriginalFileState)}

/-- The log holds exactly these records. -/
structure HasLog (store : EffectStore) (log : Path) (tree : FileTree)
    (records : List EffectWalRecord) : Prop where
  opened : Opened log tree
  logged : Logged store log tree records

theorem HasLog.withRecord
    (lawful : store.codec.Lawful) (logged : Logged store log tree records)
    (record : EffectWalRecord) (ready : tree.creatable log = true) :
    HasLog store log (store.withRecord log record tree ready) (records ++ [record]) :=
  ⟨withRecord_opened, logged.withRecord lawful record⟩

theorem HasLog.confined
    (has : HasLog store log tree records) (confined : Confined {path} tree after)
    (away : path ≠ log) : HasLog store log after records := by
  have sameFile : after.file log = tree.file log := confined.file log (Ne.symm away)
  refine ⟨?_, has.logged.congr (confined.content (Ne.symm away))⟩
  unfold Opened
  rw [sameFile]
  exact has.opened

theorem append_runs
    (place : store.walPath = some log) (record : EffectWalRecord)
    (appendable : tree.appendable log = true) :
    Runs (store.appendEffectWalRecord record) tree 1
      (store.withRecord log record tree (FileTree.appendable_iff.mp appendable).1) (.ok ()) := by
  intro left
  unfold EffectStore.appendEffectWalRecord
  simp only [(reservedStatePath_of_normalized place).1, place]
  rw [step_run_succ]
  rcases tree.appendFile_cases log (Text.asBytes (store.recordLine record)) with
    ⟨found, -, run⟩ | ⟨blocked, failure, run⟩
  · rw [run]
    rfl
  · rw [appendable] at blocked
    cases blocked

/-- A write has gone through, and something is kept beside its path. -/
structure Wrote (path : Path) (original : OriginalFileState) (before after : FileTree) : Prop where
  installed : after.content path = original.installedContent
  ready : after.creatable path = true
  confined : Confined {path} before after
  kept : after.quarantine ≠ []

theorem publishPreparedWrite_runs
    (prepared : Prepared store payloads start write pair)
    (unreserved : reservedNames path = none) (captures : tree.content path = pair.2.captured)
    (ready : tree.creatable path = true) :
    ∃ after result, Runs (EffectStore.publishPreparedWrite path pair.1 pair.2) tree 1 after result ∧
      Wrote path pair.2 tree after ∧
        (pair.1.accessMode.isDelete = false ∨ path.dropLast ≠ [] → result = .ok ()) := by
  have installed := prepared.installed
  have replaced (keeps : pair.1.accessMode.isDelete = false) :
      ∃ after, Runs (atomicReplaceFile path pair.1.content pair.2.captured) tree 1 after (.ok ()) ∧
        Wrote path pair.2 tree after := by
    have content : (tree.replace path pair.1.content ready).content path = some pair.1.content := by
      rw [FileTree.content_replace, if_pos rfl]
    refine ⟨tree.replace path pair.1.content ready, ?_, ?_⟩
    · intro left
      unfold atomicReplaceFile
      rw [unreserved]
      dsimp only
      rw [step_run_succ, FileTree.replaceFile_ok _ ready captures]
    · refine ⟨?_, FileTree.creatable_of_content content, FileTree.replace_confined ready, ?_⟩
      · rw [content, installed, keeps]
        rfl
      · unfold FileTree.replace
        split
        · simp [FileTree.isolate]
        · simp [FileTree.isolate]
  unfold EffectStore.publishPreparedWrite
  cases mode : pair.1.accessMode with
  | create | write | append =>
    obtain ⟨after, runs, wrote⟩ := replaced (by rw [mode]; rfl)
    exact ⟨after, .ok (), runs, wrote, fun _ => rfl⟩
  | delete =>
    rw [mode] at installed
    cases known : pair.2.captured with
    | none => exact absurd known (prepared.present (by rw [mode]; rfl))
    | some expected =>
      rw [known] at captures
      obtain ⟨found, run⟩ := FileTree.removeFile_ok captures
      refine ⟨tree.retire path found, (tree.retire path found).syncDirectory path.dropLast,
        ?_, ⟨?_, FileTree.creatable_retire found ready, FileTree.retire_confined found, ?_⟩, ?_⟩
      · have removal : Runs (removeAuthorityFile path expected) tree 1
            (tree.retire path found) (.ok ()) := by
          intro left
          simp only [removeAuthorityFile, unreserved]
          rw [step_run_succ, run]
        exact removal.bind (fun left => rfl)
      · rw [FileTree.content_retire, if_pos rfl, installed]
        rfl
      · simp [FileTree.retire, FileTree.isolate]
      · rintro (keeps | nested)
        · cases keeps
        · exact FileTree.syncDirectory_retire found nested

section Prepared

variable (prepared : Prepared store payloads start write pair)

include prepared

theorem applyPreparedWrite_runs
    (captures : tree.content (store.pathOf pair) = pair.2.captured)
    (ready : tree.creatable (store.pathOf pair) = true) :
    ∃ after result, Runs (store.applyPreparedWrite pair.1 pair.2) tree 1 after result ∧
      Wrote (store.pathOf pair) pair.2 tree after ∧
        (pair.1.accessMode.isDelete = false ∨ (store.pathOf pair).dropLast ≠ [] →
          result = .ok ()) := by
  obtain ⟨after, result, runs, wrote, synced⟩ := publishPreparedWrite_runs prepared
    (reservedStatePath_of_normalized prepared.bound.normalized).2 captures ready
  rw [applyPreparedWrite_published prepared]
  cases result with
  | ok done => exact ⟨after, .ok (), runs.bind runs_pure, wrote, fun _ => rfl⟩
  | error failure =>
    exact ⟨after, _, runs.bind runs_pure, wrote, fun deep => by cases synced deep⟩

theorem applyPreparedWrite_lost :
    store.applyPreparedWrite pair.1 pair.2 0 tree = .lost tree := by
  have unreserved := (reservedStatePath_of_normalized prepared.bound.normalized).2
  have publish : EffectStore.publishPreparedWrite
      (store.fileOf pair.1.physicalReference) pair.1 pair.2 0 tree = .lost tree := by
    unfold EffectStore.publishPreparedWrite
    cases mode : pair.1.accessMode with
    | delete =>
      cases known : pair.2.captured with
      | none => exact absurd known (prepared.present (by rw [mode]; rfl))
      | some expected =>
        simp only [removeAndSyncParent, removeAuthorityFile, unreserved]
        rfl
    | _ =>
      simp only [atomicReplaceFile, unreserved]
      rfl
  rw [applyPreparedWrite_published prepared]
  exact bind_lost publish

end Prepared

def writeRecords (store : EffectStore) (document : ToolEffectContractDocument) (txId : String)
    (pair : PreparedWrite × OriginalFileState) : List EffectWalRecord :=
  [.beforeImage store.sha256 txId document.toolEffectContract.id pair.1 pair.2,
    .writeApplied store.sha256 txId document.toolEffectContract pair.1]

/-- What one round of the loop over the writes leaves. -/
structure Round (store : EffectStore) (log : Path) (pair : PreparedWrite × OriginalFileState)
    (records : List EffectWalRecord) (before after : FileTree) : Prop where
  has : HasLog store log after records
  installed : after.content (store.pathOf pair) = pair.2.installedContent
  ready : after.creatable (store.pathOf pair) = true
  others : ∀ path, path ≠ log → path ≠ store.pathOf pair →
    after.content path = before.content path
  kept : after.quarantine ≠ []

theorem applyWrites_round
    (lawful : store.codec.Lawful) (place : store.walPath = some log)
    (has : HasLog store log tree records) (prepared : Prepared store payloads start write pair)
    (away : store.pathOf pair ≠ log) (captures : tree.content (store.pathOf pair) = pair.2.captured)
    (ready : tree.creatable (store.pathOf pair) = true)
    (synced : pair.1.accessMode.isDelete = false ∨ (store.pathOf pair).dropLast ≠ [])
    (document : ToolEffectContractDocument) (txId : String)
    (captured pending : List (PreparedWrite × OriginalFileState))
    (appliedRefs : List String) :
    ∃ after, (∀ left, store.applyWrites document txId captured appliedRefs (pair :: pending)
        (left + 3) tree = store.applyWrites document txId captured
          (appliedRefs ++ [pair.1.reference]) pending left after) ∧
      Round store log pair (records ++ writeRecords store document txId pair) tree after := by
  obtain ⟨bytes, known⟩ := has.opened
  have apart : FileTree.Apart log (store.pathOf pair) := by
    have found : tree.content log = some bytes := congrArg (Option.map Prod.fst) known
    have other := FileTree.apart_of_content found ready
    exact ⟨other.2, other.1⟩
  let image := EffectWalRecord.beforeImage store.sha256 txId
    document.toolEffectContract.id pair.1 pair.2
  let imaged := store.withRecord log image tree has.opened.ready
  have hasImage : HasLog store log imaged (records ++ [image]) :=
    HasLog.withRecord lawful has.logged image has.opened.ready
  obtain ⟨written, result, runs, wrote, isOk⟩ := applyPreparedWrite_runs prepared
    ((content_withRecord away).trans captures)
    (FileTree.creatable_install has.opened.ready ready apart : imaged.creatable _ = true)
  obtain rfl := isOk synced
  have hasWritten := hasImage.confined wrote.confined away
  let applied := EffectWalRecord.writeApplied store.sha256 txId document.toolEffectContract pair.1
  refine ⟨store.withRecord log applied written hasWritten.opened.ready, ?_, ?_, ?_, ?_, ?_,
    wrote.kept⟩
  · intro left
    rw [EffectStore.applyWrites]
    exact (bind_finished (append_runs place image has.opened.appendable (left + 2))).trans
      ((bind_finished (runs (left + 1))).trans
        (bind_finished (append_runs place applied hasWritten.opened.appendable left)))
  · have hasApplied := HasLog.withRecord lawful hasWritten.logged applied hasWritten.opened.ready
    rwa [List.append_assoc] at hasApplied
  · rw [content_withRecord away, wrote.installed]
  · exact FileTree.creatable_install hasWritten.opened.ready wrote.ready apart
  · intro path awayFromLog other
    rw [content_withRecord awayFromLog, wrote.confined.content other,
      content_withRecord awayFromLog]

/-! ## The ends of a transaction -/

theorem applyFileEffectTransaction_begun
    (place : store.walPath = some log)
    (accepted : store.preflight document payloads tree = .ok captured)
    (appendable : tree.appendable log = true) (txId : String)
    (authority : Option EffectStore.PreparedAuthority) (left : Nat) :
    store.applyFileEffectTransaction document payloads txId authority (left + 1) tree =
      store.applyWrites document txId captured [] captured left (store.withRecord log
        (EffectStore.beginRecord document txId authority) tree
        (FileTree.appendable_iff.mp appendable).1) := by
  unfold EffectStore.applyFileEffectTransaction
  rw [bind_run, inspect_run, accepted]
  exact bind_finished (append_runs place _ appendable left)

/-- The begin record and the first round of a transaction. -/
theorem applyFileEffectTransaction_round
    (lawful : store.codec.Lawful) (place : store.walPath = some log)
    (logged : Logged store log tree records)
    (accepted : store.preflight document payloads tree = .ok (pair :: pending))
    (appendable : tree.appendable log = true) (away : store.pathOf pair ≠ log)
    (apart : FileTree.Apart log (store.pathOf pair))
    (synced : pair.1.accessMode.isDelete = false ∨ (store.pathOf pair).dropLast ≠ [])
    (txId : String) (authority : Option EffectStore.PreparedAuthority) :
    ∃ after, (∀ left, store.applyFileEffectTransaction document payloads txId authority (left + 4)
        tree = store.applyWrites document txId (pair :: pending) [pair.1.reference] pending left
          after) ∧
      Round store log pair (records ++ [EffectStore.beginRecord document txId authority] ++
        writeRecords store document txId pair) tree after := by
  obtain ⟨write, -, prepared⟩ := forall₂_mem (preflight_ok accepted).flip
    List.mem_cons_self
  have logReady := (FileTree.appendable_iff.mp appendable).1
  obtain ⟨after, round, left⟩ := applyWrites_round lawful place
    (HasLog.withRecord lawful logged _ logReady) prepared away
    ((content_withRecord away).trans prepared.captured.symm)
    (FileTree.creatable_install logReady prepared.ready apart) synced document txId
    (pair :: pending) pending []
  refine ⟨after, ?_, { left with others := ?_ }⟩
  · intro remaining
    rw [applyFileEffectTransaction_begun place accepted appendable]
    exact round remaining
  · intro path awayFromLog other
    rw [left.others path awayFromLog other, content_withRecord awayFromLog]

theorem applyWrites_committed
    (place : store.walPath = some log) (opened : Opened log tree)
    (document : ToolEffectContractDocument) (txId : String)
    (captured : List (PreparedWrite × OriginalFileState)) (appliedRefs : List String) :
    ∃ result, result.status = .applied ∧
      Runs (store.applyWrites document txId captured appliedRefs []) tree 1
        (store.withRecord log (.ofStage txId document.toolEffectContract.id .commit) tree
          opened.ready) result := by
  rw [EffectStore.applyWrites, EffectStore.commitTransaction]
  exact ⟨_, rfl, (append_runs place _ opened.appendable).bind runs_pure⟩

theorem applyWrites_uncommitted
    (place : store.walPath = some log) (document : ToolEffectContractDocument) (txId : String)
    (captured : List (PreparedWrite × OriginalFileState)) (appliedRefs : List String) :
    store.applyWrites document txId captured appliedRefs [] 0 tree = .lost tree := by
  rw [EffectStore.applyWrites, EffectStore.commitTransaction, EffectStore.appendEffectWalRecord]
  simp only [(reservedStatePath_of_normalized place).1, place]
  rfl

end Runs

namespace Sample

def emptyDigest : Vector UInt8 32 :=
  #v[227, 176, 196, 66, 152, 252, 28, 20, 154, 251, 244, 200, 153, 111, 185,
    36, 39, 174, 65, 228, 100, 155, 147, 76, 164, 149, 153, 27, 120, 82, 184, 85]

/-- The SHA-256 digest of the letter `x`. -/
def letterDigest : Vector UInt8 32 :=
  #v[45, 113, 22, 66, 183, 38, 176, 68, 1, 98, 124, 169, 251, 172, 50, 245,
    200, 83, 15, 177, 144, 60, 196, 219, 2, 37, 135, 23, 146, 26, 72, 129]

/-- SHA-256 on the two contents that occur. -/
def sha256 (content : List UInt8) : Vector UInt8 32 :=
  if content = [] then emptyDigest else letterDigest

def walRef : String := ".forge-method/wal/effects.ndjson"

noncomputable def store : EffectStore where
  root := "/p"
  walRelativePath := walRef
  sha256 := sha256
  codec := serdeCodec

def log : Path := [".forge-method", "wal", "effects.ndjson"]

theorem place : store.walPath = some log := by decide +kernel

theorem lawful : store.codec.Lawful := serdeCodec_lawful

/-- A project with a file at its top and one in a directory. -/
def start : FileTree :=
  (FileTree.empty.install ["f"] [120] false (by decide)).install ["d", "f"] [120] false (by decide)

theorem startReady : start.appendable log = true := by decide

theorem startLogged : Logged store log start [] := rfl

theorem startRestorable : Restorable log ∅ start [] := by
  refine ⟨⟨?_, ?_⟩, fun isOpen => absurd rfl isOpen, rfl, rfl⟩
  · rintro path (rfl | ⟨⟨⟩⟩)
    exact (FileTree.appendable_iff.mp startReady).1
  · rintro first (rfl | ⟨⟨⟩⟩) second (rfl | ⟨⟨⟩⟩)
    decide

def effect (writes : List EffectWrite) : ToolEffectContractDocument where
  schemaVersion := "0.1"
  toolEffectContract :=
    { id := ⟨"effect"⟩
      contractRef := ⟨"effect.yaml"⟩
      effectKind := .fileEdit
      operationRef := ⟨"operation"⟩
      actor := ⟨⟨"agent"⟩, .worker⟩
      readSet := [⟨.filePath, "f", none, none, true⟩]
      writeSet := writes
      conflictDetection := ⟨⟨"main"⟩, ⟨"file"⟩, [], .block⟩
      notification := ⟨false, [], none⟩
      repair := ⟨.none, false, none, true, ⟨.none, .unavailable, none, [], [], true⟩⟩ }

theorem target_eq
    {write : EffectWrite} {target path : Path} (named : writePath store.root write = some target)
    (isTarget : path ∈ store.effectTargets (effect [write])) :
    path = target := by
  obtain ⟨found, member, resolved⟩ := isTarget
  rw [List.mem_singleton.mp member, named] at resolved
  exact (Option.some.inj resolved).symm

def delete (reference : String) : EffectWrite :=
  ⟨.filePath, reference, .delete, none, none, true⟩

def create (reference : String) : EffectWrite :=
  ⟨.filePath, reference, .create, none, none, false⟩

def nothing (reference : String) : EffectApplicationPayload :=
  ⟨reference, [], "sha256:e3b0c44298fc1c149afbf4c8996fb92427ae41e4649b934ca495991b7852b855"⟩

def deleted (reference : String) : PreparedWrite × OriginalFileState :=
  (⟨reference, reference, "/p/" ++ reference, .filePath, .delete, true, none, none, []⟩,
    ⟨"/p/" ++ reference, reference, true, [120], none⟩)

/-- An effect that deletes the file in the directory is applied, and leaves
what it held in quarantine. -/
theorem deletion_runs :
    ∃ after result, store.applyFileEffectTransaction (effect [delete "d/f"]) [] "tx" none 5 start =
        .finished after 0 result ∧
      result.status = .applied ∧ after.quarantine ≠ [] := by
  have accepted : store.preflight (effect [delete "d/f"]) [] start = .ok [deleted "d/f"] := by
    rfl
  obtain ⟨after, round, hasAfter, -, -, -, kept⟩ := applyFileEffectTransaction_round lawful place
    startLogged accepted startReady (by decide) (by decide) (Or.inr (by decide)) "tx" none
  obtain ⟨result, status, commits⟩ :=
    applyWrites_committed place hasAfter.opened (effect [delete "d/f"]) "tx" [deleted "d/f"] ["d/f"]
  exact ⟨_, result, (round 1).trans (commits 0), status, kept⟩

theorem deletion_target : writePath store.root (delete "d/f") = some ["d", "f"] := by
  rfl

end Sample

end ForgeCore.Effects
