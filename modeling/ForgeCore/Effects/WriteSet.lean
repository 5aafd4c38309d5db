import ForgeCore.Effects.Runs

/-!
# What a transaction reports

The status of a transaction against the files: a blocked one has changed
nothing, a rolled back one nothing but the log, and an applied one only its
targets.  A file that is named twice holds what one of its writes declares.
What a file held may stay beside it in quarantine.
-/

namespace ForgeCore.Effects

open List Durable Durable.Computation
open FileTree (Confined Isolated)

section Reports

variable {store : EffectStore} {log : Path} {start tree after : FileTree} {targets : Set Path}
  {document : ToolEffectContractDocument} {txId : String}
  {payloads : List EffectApplicationPayload} {write : EffectWrite}
  {pair : PreparedWrite × OriginalFileState}
  {captured pending : List (PreparedWrite × OriginalFileState)}

theorem length_withRecord (record : EffectWalRecord) (ready : tree.creatable log = true) :
    ((tree.content log).getD []).length <
      (((store.withRecord log record tree ready).content log).getD []).length := by
  have line : 0 < (Text.asBytes (store.recordLine record)).length := by
    have feed : Text.asBytes "\n" = [10] := by decide
    rw [EffectStore.recordLine, Text.asBytes_append, feed]
    simp
  rw [EffectStore.withRecord, FileTree.content_install, if_pos rfl, Option.getD_some, length_append]
  omega

/-- Files that are neither the log nor a target are as at the start. -/
structure Spared (log : Path) (targets : Set Path) (start tree : FileTree) : Prop where
  elsewhere : ∀ path, path ≠ log → path ∉ targets → tree.content path = start.content path
  isolated : Isolated targets start tree

theorem Spared.withRecord
    (spared : Spared log targets start tree) (record : EffectWalRecord)
    (ready : tree.creatable log = true) :
    Spared log targets start (store.withRecord log record tree ready) := by
  refine ⟨?_, spared.isolated.trans (Isolated.of_eq rfl)⟩
  intro path away outside
  rw [content_withRecord away, spared.elsewhere path away outside]

theorem Spared.confined
    (spared : Spared log targets start tree) (confined : Confined targets tree after) :
    Spared log targets start after := by
  refine ⟨?_, spared.isolated.trans confined.isolated⟩
  intro path away outside
  rw [confined.content outside, spared.elsewhere path away outside]

/-! ## The loop over the writes -/

/-- The files while the writes in `pending` are still to be made. -/
structure Progress (store : EffectStore) (log : Path) (start : FileTree)
    (captured pending : List (PreparedWrite × OriginalFileState)) (tree : FileTree) : Prop where
  spared : Spared log (store.targetsOf captured) start tree
  -- A write to the log finds it longer than it was captured.
  grown : ((start.content log).getD []).length < ((tree.content log).getD []).length
  placed : ∀ pair ∈ captured, pair ∈ pending ∨
    store.pathOf pair ≠ log ∧ ∃ other ∈ captured, store.pathOf other = store.pathOf pair ∧
      tree.content (store.pathOf pair) = other.2.installedContent

/-- What a status says about the files. -/
def Reports (store : EffectStore) (log : Path) (start : FileTree)
    (captured : List (PreparedWrite × OriginalFileState))
    (result : EffectApplicationResult) (after : FileTree) : Prop :=
  match result.status with
  | .blocked => after = start
  | .rolledBack => (∀ path, path ≠ log → after.content path = start.content path) ∧
      Isolated (store.targetsOf captured) start after
  | .applied => Progress store log start captured [] after
  | .rollbackFailed => True

theorem Progress.withRecord
    (progress : Progress store log start captured pending tree)
    (record : EffectWalRecord) (ready : tree.creatable log = true) :
    Progress store log start captured pending (store.withRecord log record tree ready) := by
  refine ⟨progress.spared.withRecord record ready,
    progress.grown.trans (length_withRecord record ready), ?_⟩
  intro pair member
  refine (progress.placed pair member).imp_right ?_
  rintro ⟨away, other, found, same, installed⟩
  exact ⟨away, other, found, same, by rw [content_withRecord away, installed]⟩

theorem Progress.done
    (progress : Progress store log start captured (pair :: pending) tree)
    (prepared : Prepared store payloads start write pair) (member : pair ∈ captured)
    (confined : Confined {store.pathOf pair} tree after)
    (captures : tree.content (store.pathOf pair) = pair.2.captured)
    (installed : after.content (store.pathOf pair) = pair.2.installedContent) :
    Progress store log start captured pending after := by
  have away : store.pathOf pair ≠ log := by
    rintro rfl
    have longer := progress.grown
    rw [captures, prepared.captured] at longer
    exact absurd longer (lt_irrefl _)
  have others {path : Path} (differs : path ≠ store.pathOf pair) :
      after.content path = tree.content path := confined.content differs
  refine ⟨?_, ?_, ?_⟩
  · apply progress.spared.confined
    exact confined.mono (Set.singleton_subset_iff.mpr (EffectStore.pathOf_mem_targetsOf member))
  · rw [others (Ne.symm away)]
    exact progress.grown
  · intro other found
    by_cases here : store.pathOf other = store.pathOf pair
    · exact Or.inr ⟨here ▸ away, pair, member, here.symm, here ▸ installed⟩
    · rcases progress.placed other found with isPending | ⟨notLog, placed⟩
      · rcases List.mem_cons.mp isPending with rfl | later
        · exact absurd rfl here
        · exact Or.inl later
      · rw [← others here] at placed
        exact Or.inr ⟨notLog, placed⟩

variable {appliedRefs : List String}

theorem reports_rolledBackResult
    {rolledBack closed : Bool} {reasons : List EffectApplicationReason} {diagnostics : List String}
    (isolated : Isolated (store.targetsOf captured) start tree)
    (back : rolledBack = true → ∀ path, path ≠ log → tree.content path = start.content path) :
    Reports store log start captured
      (EffectStore.rolledBackResult document appliedRefs rolledBack closed reasons diagnostics)
      tree := by
  unfold Reports EffectStore.rolledBackResult
  cases rolledBack with
  | false => trivial
  | true =>
    cases closed with
    | false => trivial
    | true => exact ⟨back rfl, isolated⟩

section Runs

variable (allPrepared : ∀ pair ∈ captured, ∃ write, Prepared store payloads start write pair)

include allPrepared

theorem rollbackOriginals_reports
    (spared : Spared log (store.targetsOf captured) start tree) :
    Ensures (store.rollbackOriginals (captured.map Prod.snd)) tree (fun _ => True)
      (fun result after => Isolated (store.targetsOf captured) start after ∧
        (result.1 = true → ∀ path, path ≠ log → after.content path = start.content path)) := by
  have sameTargets : store.targetsOf captured.reverse = store.targetsOf captured := by
    ext path
    simp [EffectStore.targetsOf]
  unfold EffectStore.rollbackOriginals
  rw [← map_reverse]
  apply ensures_mono (rollbackEach_ensures tree captured.reverse
      fun pair member => allPrepared pair (List.mem_reverse.mp member)) (fun _ _ => trivial)
  rintro result after ⟨move, restored, -⟩
  rw [sameTargets] at move
  refine ⟨spared.isolated.trans move.confined.isolated, ?_⟩
  intro allOk path away
  by_cases inside : path ∈ store.targetsOf captured
  · obtain ⟨pair, member, rfl⟩ := List.mem_map.mp inside
    exact restored allOk pair (List.mem_reverse.mpr member)
  · rw [move.confined.content inside, spared.elsewhere path away inside]

variable (place : store.walPath = some log)

include place

theorem rollbackWalTransaction_reports
    (spared : Spared log (store.targetsOf captured) start tree)
    (reason : EffectApplicationReason) (diagnostic : String) :
    Ensures (store.rollbackWalTransaction document txId (captured.map Prod.snd)
      appliedRefs reason diagnostic) tree (fun _ => True) (Reports store log start captured) := by
  unfold EffectStore.rollbackWalTransaction
  apply ensures_bind (rollbackOriginals_reports allPrepared spared)
  rintro rollback middle ⟨isolated, back⟩
  apply ensures_bind (appendEffectWalRecord_ensures place _ trivial)
  intro result after appended
  cases appended with
  | written ready =>
    refine ensures_pure (reports_rolledBackResult (isolated.trans (Isolated.of_eq rfl)) ?_)
    intro allOk path away
    rw [content_withRecord away, back allOk path away]
  | refused failure blocked =>
    exact ensures_pure (reports_rolledBackResult isolated back)

theorem applyWrites_reports
    (progress : Progress store log start captured pending tree)
    (pendingCaptured : ∀ pair ∈ pending, pair ∈ captured) (appliedRefs : List String) :
    Ensures (store.applyWrites document txId captured appliedRefs pending) tree
      (fun _ => True) (Reports store log start captured) := by
  induction pending generalizing tree appliedRefs with
  | nil =>
    apply ensures_bind (appendEffectWalRecord_ensures place _ trivial)
    intro result after appended
    cases appended with
    | written ready => exact ensures_pure (progress.withRecord _ ready)
    | refused failure blocked =>
      exact rollbackWalTransaction_reports allPrepared place progress.spared _ _
  | cons pair pending ih =>
    have member := pendingCaptured pair mem_cons_self
    obtain ⟨write, first⟩ := allPrepared pair member
    apply ensures_bind (appendEffectWalRecord_ensures place _ trivial)
    intro result second appended
    cases appended with
    | refused failure blocked =>
      apply ensures_bind (rollbackOriginals_reports allPrepared progress.spared)
      rintro rollback after ⟨isolated, back⟩
      exact ensures_pure (reports_rolledBackResult isolated back)
    | written ready =>
      have imaged := progress.withRecord (.beforeImage store.sha256 txId
        document.toolEffectContract.id pair.1 pair.2) ready
      apply ensures_bind (applyPreparedWrite_ensures first trivial)
      rintro result third ⟨confined, applied⟩
      cases applied with
      | failed failure _ | unsynced failure _ _ =>
        refine rollbackWalTransaction_reports allPrepared place (imaged.spared.confined ?_) _ _
        exact confined.mono
          (Set.singleton_subset_iff.mpr (EffectStore.pathOf_mem_targetsOf member))
      | done captures installs =>
        have written := imaged.done first member confined captures installs
        apply ensures_bind (appendEffectWalRecord_ensures place _ trivial)
        intro result fourth recorded
        cases recorded with
        | refused failure blocked =>
          exact rollbackWalTransaction_reports allPrepared place written.spared _ _
        | written readyAgain =>
          exact ih (written.withRecord _ readyAgain) (fun other later =>
                pendingCaptured other (mem_cons_of_mem _ later)) _

end Runs

theorem preflight_blocks (refused : store.preflight document payloads tree = .error blocked) :
    blocked.status = .blocked := by
  unfold EffectStore.preflight at refused
  dsimp only at refused
  generalize (if errorCount (validateToolEffect document) > 0 then
    [EffectApplicationReason.effectValidationErrors] else []) = invalid at refused
  split at refused
  · cases refused
    rfl
  · split at refused
    · cases refused
      rfl
    · split at refused
      · cases refused
        rfl
      · cases refused

theorem applyFileEffectTransaction_reports (authority : Option EffectStore.PreparedAuthority) :
    Ensures (store.applyFileEffectTransaction document payloads txId authority)
      start (fun _ => True)
      (fun result after => result.status = .blocked ∧ after = start ∨
        ∃ log captured, store.walPath = some log ∧
          store.preflight document payloads start = .ok captured ∧
          Reports store log start captured result after) := by
  unfold EffectStore.applyFileEffectTransaction
  apply ensures_inspect_bind
  cases checked : store.preflight document payloads start with
  | error blocked =>
    exact ensures_pure (Or.inl ⟨preflight_blocks checked, rfl⟩)
  | ok captured =>
    cases place : store.walPath with
    | none =>
      unfold EffectStore.appendEffectWalRecord
      rw [place]
      cases reservedStatePath store.walRelativePath with
      | none | some reserved => exact ensures_pure (Or.inl ⟨rfl, rfl⟩)
    | some log =>
      apply ensures_bind (appendEffectWalRecord_ensures place _ trivial)
      intro result begun appended
      cases appended with
      | refused failure blocked =>
        exact ensures_pure (Or.inl ⟨rfl, rfl⟩)
      | written ready =>
        have first : Progress store log start captured captured (store.withRecord log
              (EffectStore.beginRecord document txId authority) start ready) :=
          ⟨⟨fun _ away _ => content_withRecord away, Isolated.of_eq rfl⟩,
            length_withRecord _ ready, fun _ member => Or.inl member⟩
        have prepared : ∀ pair ∈ captured, ∃ write, Prepared store payloads start write pair := by
          intro pair member
          obtain ⟨write, -, holds⟩ := forall₂_mem (preflight_ok checked).flip member
          exact ⟨write, holds⟩
        apply ensures_mono (applyWrites_reports prepared place first (fun _ member => member) [])
          (fun _ lost => lost)
        intro result after reports
        exact Or.inr ⟨log, captured, rfl, rfl, reports⟩

/-- The file of a write that was to be fresh had the expected hash. -/
theorem preflight_fresh (accepted : store.preflight document payloads tree = .ok captured)
    (member : write ∈ document.toolEffectContract.writeSet) {hash : String}
    (expected : write.expectedHash = some hash) :
    ∃ path bytes, writePath store.root write = some path ∧ tree.content path = some bytes ∧
      sha256ContentHash store.sha256 bytes = hash := by
  obtain ⟨prepared, -, result⟩ := forall₂_mem (checkAll_ok (preflight_checks accepted).1) member
  have bound := prepareFileWrite_bound result
  unfold prepareFileWrite at result
  simp only [Checked.bind_eq_ok] at result
  obtain ⟨_, -, _, -, resolved, -, _, -, _, -, _, -, _, -, _, fresh, _, -, last⟩ := result
  cases last
  unfold checkFreshness readAuthorityFile at fresh
  rw [expected, bound.retained] at fresh
  dsimp only at fresh
  split at fresh
  · next bytes read =>
    split_ifs at fresh with same
    exact ⟨_, bytes, bound.place, FileTree.read_eq_ok.mp read, same⟩
  · cases fresh

/-- A write that is not a deletion has its payload. -/
theorem Prepared.payload_present (prepared : Prepared store payloads start write pair) :
    write.accessMode = .delete ∨ write.accessMode ≠ .read ∧
      (payloadFor payloads write.reference).isSome = true := by
  have mode := prepared.bound.mode
  have declared := prepared.installed.symm.trans prepared.declared
  unfold declaredContent at declared
  cases known : write.accessMode with
  | delete => exact Or.inl rfl
  | read =>
    rw [known] at mode
    cases mode
  | create | write | append =>
    rw [known] at mode declared
    rw [← Option.some.inj mode] at declared
    refine Or.inr ⟨by simp, ?_⟩
    cases found : payloadFor payloads write.reference with
    | none => simp [found, PreparedAccessMode.isDelete] at declared
    | some payload => rfl

/-- What the files of an applied effect are.  Each target holds what its write
declares exactly when no two writes declare different contents for one file. -/
structure AsDeclared (store : EffectStore) (document : ToolEffectContractDocument)
    (payloads : List EffectApplicationPayload) (start after : FileTree) : Prop where
  fresh : ∀ write ∈ document.toolEffectContract.writeSet, ∀ hash,
    write.expectedHash = some hash →
      ∃ path bytes, writePath store.root write = some path ∧ start.content path = some bytes ∧
        sha256ContentHash store.sha256 bytes = hash
  elsewhere : ∀ path, store.walPath ≠ some path → path ∉ store.effectTargets document →
    after.content path = start.content path
  isolated : Isolated (store.effectTargets document) start after
  provided : ∀ write ∈ document.toolEffectContract.writeSet,
    write.accessMode = .delete ∨
      write.accessMode ≠ .read ∧ (payloadFor payloads write.reference).isSome = true
  fulfilled :
    (∀ write ∈ document.toolEffectContract.writeSet,
      ∃ path, writePath store.root write = some path ∧
        after.content path = declaredContent payloads write (start.content path)) ↔
    ∀ first ∈ document.toolEffectContract.writeSet,
      ∀ second ∈ document.toolEffectContract.writeSet, ∀ path,
        writePath store.root first = some path → writePath store.root second = some path →
          declaredContent payloads first (start.content path) =
            declaredContent payloads second (start.content path)

theorem Progress.asDeclared
    (place : store.walPath = some log)
    (accepted : store.preflight document payloads start = .ok captured)
    (progress : Progress store log start captured [] after) :
    AsDeclared store document payloads start after := by
  have prepared := preflight_ok accepted
  have spared := progress.spared
  rw [targetsOf_captured prepared] at spared
  refine ⟨?_, ?_, spared.isolated, ?_, ?_, ?_⟩
  · intro write member hash expected
    exact preflight_fresh accepted member expected
  · intro path away outside
    rw [place] at away
    exact spared.elsewhere path (fun isLog => away (by rw [isLog])) outside
  · intro write member
    obtain ⟨pair, -, first⟩ := forall₂_mem prepared member
    exact first.payload_present
  · intro fulfilled first firstIn second secondIn path firstPath secondPath
    obtain ⟨place, known, holds⟩ := fulfilled first firstIn
    obtain ⟨other, otherKnown, otherHolds⟩ := fulfilled second secondIn
    cases known.symm.trans firstPath
    cases otherKnown.symm.trans secondPath
    exact holds.symm.trans otherHolds
  · intro agree write member
    obtain ⟨pair, inPairs, first⟩ := forall₂_mem prepared member
    obtain ⟨-, other, found, same, installed⟩ :=
      (progress.placed pair inPairs).resolve_left (by simp)
    obtain ⟨last, lastIn, second⟩ := forall₂_mem prepared.flip found
    refine ⟨_, first.bound.place, installed.trans ?_⟩
    have secondPlace := second.bound.place
    have declared := second.declared
    change writePath store.root last = some (store.pathOf other) at secondPlace
    rw [same] at secondPlace declared
    rw [declared]
    exact agree last lastIn write member _ secondPlace first.bound.place

/-- A blocked effect changes nothing, a rolled back one only the log, and an
applied one only its targets; the last two may leave quarantine files beside
the targets. -/
theorem effect_changes_its_write_set
    (authority : Option EffectStore.PreparedAuthority)
    {remaining left : Nat}
    {result : EffectApplicationResult}
    (run : store.applyFileEffectTransaction document payloads txId authority remaining start =
      .finished after left result) :
    (result.status = .blocked → after = start) ∧
      (result.status = .rolledBack →
        (∀ path, store.walPath ≠ some path → after.content path = start.content path) ∧
          Isolated (store.effectTargets document) start after) ∧
      (result.status = .applied → AsDeclared store document payloads start after) := by
  rcases (applyFileEffectTransaction_reports authority).finished run with
    ⟨blocked, same⟩ | ⟨log, captured, place, accepted, reports⟩
  · rw [blocked]
    exact ⟨fun _ => same, by simp, by simp⟩
  unfold Reports at reports
  refine ⟨?_, ?_, ?_⟩
  · intro status
    rw [status] at reports
    exact reports
  · intro status
    rw [status] at reports
    obtain ⟨restored, isolated⟩ := reports
    rw [targetsOf_captured (preflight_ok accepted)] at isolated
    refine ⟨?_, isolated⟩
    intro path away
    rw [place] at away
    exact restored path fun isLog => away (by rw [isLog])
  · intro status
    rw [status] at reports
    exact reports.asDeclared place accepted

end Reports

namespace NamedTwice

open Sample

/-- The hash of the letter `x`, as a contract states it. -/
def letterHash : String :=
  "sha256:2d711642b726b04401627ca9fbac32f5c8530fb1903cc4db02258717921a4881"

def document : ToolEffectContractDocument :=
  effect [⟨.filePath, "f", .append, none, none, false⟩,
    ⟨.filePath, "f", .write, some letterHash, none, false⟩]

def appended : PreparedWrite × OriginalFileState :=
  (⟨"f", "f", "/p/f", .filePath, .append, false, none, some [], [120]⟩,
    ⟨"/p/f", "f", true, [120], some [120]⟩)

def written : PreparedWrite × OriginalFileState :=
  (⟨"f", "f", "/p/f", .filePath, .write, false, some letterHash, some [], []⟩,
    ⟨"/p/f", "f", true, [120], some []⟩)

theorem accepted : store.preflight document [nothing "f"] start = .ok [appended, written] := by
  rfl

theorem applied_run :
    ∃ after result, store.applyFileEffectTransaction document [nothing "f"] "tx" none 8 start =
        .finished after 0 result ∧
      result.status = .applied ∧ after.content ["f"] = some [] ∧ after.quarantine ≠ [] := by
  obtain ⟨-, rest⟩ := List.forall₂_cons.mp (preflight_ok accepted)
  obtain ⟨second, -⟩ := List.forall₂_cons.mp rest
  obtain ⟨middle, firstRound, middleLog, installed, ready, -, -⟩ :=
    applyFileEffectTransaction_round lawful place startLogged accepted startReady (by decide)
      (by decide) (Or.inl rfl) "tx" none
  obtain ⟨final, secondRound, finalLog, emptied, -, -, kept⟩ :=
    applyWrites_round lawful place middleLog second (by decide) installed ready (Or.inl rfl)
      document "tx" [appended, written] [] ["f"]
  obtain ⟨result, status, committed⟩ := applyWrites_committed place finalLog.opened document "tx"
    [appended, written] ["f", "f"]
  refine ⟨_, result, (firstRound 4).trans ((secondRound 1).trans (committed 0)), status, ?_, kept⟩
  exact (content_withRecord (by decide)).trans emptied

end NamedTwice

/-- Nothing is appended to a file that is then emptied.  The effect is applied,
but the append is not fulfilled; and what the file held is left in quarantine. -/
theorem applied_write_not_fulfilled :
    ∃ after result, Sample.store.applyFileEffectTransaction NamedTwice.document
        [Sample.nothing "f"] "tx" none 8 Sample.start = .finished after 0 result ∧
      result.status = .applied ∧
      (∃ write ∈ NamedTwice.document.toolEffectContract.writeSet,
        write.accessMode = .append ∧ writePath Sample.store.root write = some ["f"] ∧
          after.content ["f"] ≠
            declaredContent [Sample.nothing "f"] write (Sample.start.content ["f"])) ∧
      after.quarantine ≠ Sample.start.quarantine := by
  obtain ⟨after, result, run, status, emptied, kept⟩ := NamedTwice.applied_run
  refine ⟨after, result, run, status, ⟨_, mem_cons_self, rfl, rfl, ?_⟩, kept⟩
  rw [emptied]
  decide

/-- A deletion that is applied has removed its file, and nothing is left of a
condition on files that are named twice. -/
theorem effect_changes_its_write_set_deletion :
    ∃ after, AsDeclared Sample.store (Sample.effect [Sample.delete "d/f"]) [] Sample.start after ∧
      after.content ["d", "f"] = none := by
  obtain ⟨after, result, run, status, -⟩ := Sample.deletion_runs
  have declared := (effect_changes_its_write_set none run).2.2 status
  refine ⟨after, declared, ?_⟩
  obtain ⟨path, target, holds⟩ := declared.fulfilled.mpr (by
      intro first firstIn second secondIn path _ _
      rw [List.mem_singleton.mp firstIn, List.mem_singleton.mp secondIn])
    (Sample.delete "d/f") (List.mem_singleton_self _)
  cases Sample.deletion_target.symm.trans target
  exact holds

end ForgeCore.Effects
