import ForgeCore.Effects.Handover
import ForgeCore.Effects.Runs

/-!
# Histories of effect transactions

Transactions run one after the other on one log; each may be cut off, and the
next may start before recovery is called.  The last committed content of
every file survives recovery as long as no transaction starts on a file that
an open one has a before-image of.
-/

namespace ForgeCore.Effects

open List Durable Durable.Computation

/-- One transaction of a history, and where its process is cut. -/
structure EffectRun where
  document : ToolEffectContractDocument
  payloads : List EffectApplicationPayload
  txId : String
  authority : Option EffectStore.PreparedAuthority
  cut : Nat

namespace EffectRun

variable (store : EffectStore) (run : EffectRun)

def leaves (tree : FileTree) : FileTree :=
  crashed store run.document run.payloads run.txId run.authority tree run.cut

def begin : EffectWalRecord :=
  EffectStore.beginRecord run.document run.txId run.authority

end EffectRun

def historyTree (store : EffectStore) : FileTree → List EffectRun → FileTree
  | tree, [] => tree
  | tree, run :: rest => historyTree store (run.leaves store tree) rest

/-- The last committed content of every file, from the content that it has at
the start. -/
def lastCommitted (store : EffectStore) (log : Path) :
    (Path → Option Content) → FileTree → List EffectRun → Path → Option Content
  | files, _, [] => files
  | files, tree, run :: rest =>
    let after := run.leaves store tree
    lastCommitted store log
      (if hasCommitted store log run.txId after then
        overlay (store.effectTargets run.document) after files
      else files)
      after rest

/-- Recovery, cut any number of times, leaves every file with its last
committed content when it completes. -/
def CommittedSurvives (store : EffectStore) (log : Path)
    (start : FileTree) (history : List EffectRun) : Prop :=
  ∀ (cuts : List Nat) (remaining left : Nat) (after : FileTree) (result : EffectWalRecoveryResult),
    store.recoverEffectWal remaining (store.recoverEffectWal.repeated cuts
      (historyTree store start history)) = .finished after left result →
    result.status ≠ .recoveryFailed →
    ∀ path, path ≠ log → after.content path =
      lastCommitted store log start.content start history path

/-! ## Transactions that keep clear of open ones -/

/-- No target of the transaction is the log, or has a before-image of a
transaction that is open in the log. -/
def KeepsClear (store : EffectStore) (log : Path) (tree : FileTree) (run : EffectRun) : Prop :=
  log ∉ store.effectTargets run.document ∧
    ∀ records, Logged store log tree records →
      ∀ path ∈ store.effectTargets run.document, path ∉ openTargets records

/-- The transaction is not a split-root one, and no target of it lies above
or below another one, the log, or a file of an open transaction. -/
def LeavesRoom (store : EffectStore) (log : Path) (tree : FileTree) (run : EffectRun) : Prop :=
  EffectStore.externalPublication run.begin = false ∧
    ∀ records, Logged store log tree records →
      Unobstructed log (store.effectTargets run.document) (openTargets records)

/-- Every transaction of the history starts on a tree as required. -/
def AllStart (store : EffectStore) (requirement : FileTree → EffectRun → Prop) :
    FileTree → List EffectRun → Prop
  | _, [] => True
  | tree, run :: rest =>
    requirement tree run ∧ AllStart store requirement (run.leaves store tree) rest

section History

variable {store : EffectStore} {log : Path} {start tree : FileTree}
  {records : List EffectWalRecord} {goal : Path → Option Content} {run : EffectRun}
  {known : List String}

/-- Recovery leads to the goal, and the log names only known transactions. -/
structure Headed (store : EffectStore) (log : Path) (known : List String)
    (goal : Path → Option Content) (tree : FileTree) (records : List EffectWalRecord) : Prop where
  logged : Logged store log tree records
  leads : LeadsTo store log {log}ᶜ goal tree records
  named : ∀ record ∈ records, record.txId ∈ known

theorem Headed.leaves
    (headed : Headed store log known goal start records)
    (lawful : store.codec.Lawful) (place : store.walPath = some log)
    (clear : KeepsClear store log start run) (fresh : run.txId ∉ known) :
    ∃ after, Headed store log (run.txId :: known)
        (if hasCommitted store log run.txId (run.leaves store start) then
          overlay (store.effectTargets run.document) (run.leaves store start) goal
        else goal) (run.leaves store start) after ∧
      (Restorable log (openTargets records) start records → LeavesRoom store log start run →
        Restorable log (openTargets after) (run.leaves store start) after) := by
  have unused : ∀ record ∈ records, record.txId ≠ run.txId := by
    rintro record member same
    exact fresh (same ▸ headed.named record member)
  obtain ⟨trace, leaves⟩ := crashed_leaves lawful place headed.logged headed.leads unused clear.1
    (clear.2 records headed.logged) run.payloads run.authority run.cut
  obtain ⟨own, -⟩ := beginRecord_begins run.document run.txId run.authority
  have leads := leaves.leads
  have traceOwn := leaves.own
  rw [own] at leads traceOwn
  refine ⟨records ++ trace, ⟨leaves.logged, leads, ?_⟩, ?_⟩
  · refine List.forall_mem_append.mpr ⟨?_, ?_⟩
    · exact fun record member => mem_cons_of_mem _ (headed.named record member)
    · intro record member
      rw [traceOwn record member]
      exact mem_cons_self
  · intro restorable room
    exact leaves.restorable restorable (room.2 records headed.logged) room.1

theorem Headed.history
    (lawful : store.codec.Lawful) (place : store.walPath = some log) (history : List EffectRun)
    (headed : Headed store log known goal start records)
    (fresh : ∀ run ∈ history, run.txId ∉ known)
    (distinct : (history.map EffectRun.txId).Nodup)
    (clear : AllStart store (KeepsClear store log) start history) :
    ∃ known after, Headed store log known (lastCommitted store log goal start history)
        (historyTree store start history) after ∧
      (Restorable log (openTargets records) start records →
        AllStart store (LeavesRoom store log) start history →
        Restorable log (openTargets after) (historyTree store start history) after) := by
  induction history generalizing start records goal known with
  | nil => exact ⟨known, records, headed, fun restorable _ => restorable⟩
  | cons run rest ih =>
    obtain ⟨notLater, restDistinct⟩ := List.nodup_cons.mp distinct
    obtain ⟨middle, headedMiddle, restorableMiddle⟩ :=
      headed.leaves lawful place clear.1 (fresh run mem_cons_self)
    have restFresh : ∀ later ∈ rest, later.txId ∉ run.txId :: known := by
      intro later member
      rw [mem_cons, not_or]
      refine ⟨?_, fresh later (mem_cons_of_mem _ member)⟩
      intro same
      exact notLater (same ▸ mem_map_of_mem member)
    obtain ⟨allKnown, after, headedAfter, restorableAfter⟩ :=
      ih headedMiddle restFresh restDistinct clear.2
    refine ⟨allKnown, after, headedAfter, ?_⟩
    intro restorable room
    exact restorableAfter (restorableMiddle restorable room.1) room.2

/-- In a history whose transactions have distinct ids and keep clear of the
open ones, no committed content is lost; and recovery completes when no target
of theirs is in the way of another file that recovery has to get at. -/
theorem committed_effects_survive_recovery
    (lawful : store.codec.Lawful)
    (place : store.walPath = some log)
    (logged : Logged store log start records)
    (complete : incompleteWalTransactions records = [])
    (history : List EffectRun)
    (unused : ∀ run ∈ history, ∀ record ∈ records, record.txId ≠ run.txId)
    (distinct : (history.map EffectRun.txId).Nodup)
    (clear : AllStart store (KeepsClear store log) start history) :
    CommittedSurvives store log start history ∧
      (Restorable log ∅ start records →
        AllStart store (LeavesRoom store log) start history →
        ∀ cuts, Completes store (store.recoverEffectWal.repeated cuts
          (historyTree store start history))) := by
  have headed : Headed store log (records.map (·.txId)) start.content start records :=
    ⟨logged, LeadsTo.of_reached complete fun _ _ => rfl, fun record member => mem_map_of_mem member⟩
  have fresh : ∀ run ∈ history, run.txId ∉ records.map (·.txId) := by
    intro run member isUsed
    obtain ⟨record, inRecords, same⟩ := List.mem_map.mp isUsed
    exact unused run member record inRecords same
  obtain ⟨known, after, headedAfter, restorableAfter⟩ :=
    headed.history lawful place history fresh distinct clear
  rw [← openTargets_eq_empty complete]
  refine ⟨?_, ?_⟩
  · intro cuts remaining left final result run completed
    exact (headedAfter.leads.reaches headedAfter.logged lawful place cuts run completed).1
  · intro restorable room cuts
    exact headedAfter.leads.completes headedAfter.logged lawful place
      (restorableAfter restorable room) cuts

end History

/-! ## A transaction on a file of an open one -/

namespace Overlap

open Sample

def first : EffectRun := ⟨effect [delete "d/f"], [], "first", none, 4⟩

def second : EffectRun :=
  ⟨effect [create "d/f"], [nothing "d/f"], "second", none, 5⟩

def created : PreparedWrite × OriginalFileState :=
  (⟨"d/f", "d/f", "/p/d/f", .filePath, .create, false, none, some [], []⟩,
    ⟨"/p/d/f", "d/f", false, [], some []⟩)

def elsewhere : EffectRun :=
  ⟨effect [create "g"], [nothing "g"], "second", none, 5⟩

def image : EffectWalRecord :=
  .beforeImage sha256 "first" ⟨"effect"⟩ (deleted "d/f").1 (deleted "d/f").2

noncomputable def firstRecords : List EffectWalRecord :=
  [.begin "first" ⟨"effect"⟩] ++ writeRecords store first.document "first" (deleted "d/f")

noncomputable def records : List EffectWalRecord :=
  firstRecords ++ [.begin "second" ⟨"effect"⟩] ++
    writeRecords store second.document "second" created ++ [.ofStage "second" ⟨"effect"⟩ .commit]

variable {tree : FileTree}

/-- The file is gone, and the process is lost before it can commit. -/
theorem first_leaves :
    ∃ tree, first.leaves store start = tree ∧ HasLog store log tree firstRecords ∧
      tree.content ["d", "f"] = none ∧ tree.creatable ["d", "f"] = true ∧
      tree.content ["f"] = some [120] := by
  have accepted : store.preflight first.document first.payloads start = .ok [deleted "d/f"] := by
    rfl
  obtain ⟨tree, round, has, installed, ready, others, -⟩ :=
    applyFileEffectTransaction_round lawful place startLogged accepted startReady (by decide)
      (by decide) (Or.inr (by decide)) first.txId none
  refine ⟨tree, ?_, has, installed, ready, others ["f"] (by decide) (by decide)⟩
  rw [EffectRun.leaves, crashed, Computation.leaves]
  exact congrArg Outcome.after ((round 0).trans (applyWrites_uncommitted place _ _ _ _))

theorem open_eq {path : Path} (isOpen : path ∈ openTargets firstRecords) :
    path = ["d", "f"] := by
  have incomplete : incompleteWalTransactions firstRecords = ["first"] := by decide
  have images : EffectStore.beforeImagesOf firstRecords "first" = [image] := by rfl
  have restores : imagePath image = some ["d", "f"] := by rfl
  obtain ⟨txId, member, record, isImage, named⟩ := isOpen
  rw [incomplete, List.mem_singleton] at member
  rw [member, images, List.mem_singleton] at isImage
  rw [isImage, restores] at named
  exact (Option.some.inj named).symm

/-- The file is created anew, and the transaction commits. -/
theorem second_leaves
    (has : HasLog store log tree firstRecords) (gone : tree.content ["d", "f"] = none)
    (ready : tree.creatable ["d", "f"] = true) (kept : tree.content ["f"] = some [120]) :
    ∃ after, second.leaves store tree = after ∧ HasLog store log after records ∧
      after.content ["d", "f"] = some [] ∧ after.creatable ["d", "f"] = true := by
  let other := FileTree.empty.install ["f"] [120] false (by decide)
  have top : readAuthorityFile "/p" tree "f" = readAuthorityFile "/p" other "f" :=
    FileTree.read_eq_ok.mpr kept
  have missing : readAuthorityFile "/p" tree "d/f" = readAuthorityFile "/p" other "d/f" :=
    FileTree.read_eq_notFound.mpr ⟨ready, gone⟩
  have same : SameReads store.root second.document tree other := by
    refine ⟨?_, ?_⟩
    · intro read member physicalRef resolves
      rw [List.mem_singleton.mp member] at resolves
      cases resolves
      exact top
    · intro write member resolved resolves
      rw [List.mem_singleton.mp member] at resolves
      have known : resolved = ("/p/d/f", "d/f") := (Except.ok.inj resolves).symm
      rw [known]
      exact missing
  have accepted : store.preflight second.document second.payloads tree = .ok [created] :=
    (preflight_congr same).trans rfl
  obtain ⟨applied, round, hasApplied, installed, readyApplied, -, -⟩ :=
    applyFileEffectTransaction_round lawful place has.logged accepted has.opened.appendable
      (by decide) (by decide) (Or.inl rfl) second.txId none
  obtain ⟨result, -, committed⟩ := applyWrites_committed place hasApplied.opened second.document
    second.txId [created] ["d/f"]
  refine ⟨store.withRecord log (.ofStage "second" ⟨"effect"⟩ .commit) applied
      hasApplied.opened.ready, ?_,
    HasLog.withRecord lawful hasApplied.logged _ hasApplied.opened.ready,
    (content_withRecord (by decide)).trans installed,
    FileTree.creatable_install hasApplied.opened.ready readyApplied (by decide)⟩
  rw [EffectRun.leaves, crashed, Computation.leaves]
  exact congrArg Outcome.after ((round 1).trans (committed 0))

/-- Recovery restores the file as the first transaction found it. -/
theorem recovered
    (has : HasLog store log tree records) (found : tree.content ["d", "f"] = some [])
    (ready : tree.creatable ["d", "f"] = true) :
    ∃ after result, store.recoverEffectWal 2 tree = .finished after 0 result ∧
      result.status ≠ .recoveryFailed ∧ after.content ["d", "f"] = some [120] := by
  obtain ⟨bytes, known⟩ := has.opened
  obtain ⟨notes, run⟩ := recoverEffectWal_logged place has.logged
    (congrArg (Option.map Prod.fst) known : tree.content log = some bytes)
  let restored := tree.replace ["d", "f"] [120] ready
  have rolledBack : store.rollbackBeforeImage image 2 tree = .finished restored 1 (.ok ()) := by
    have read : tree.readOptional ["d", "f"] = .ok (some []) :=
      FileTree.readOptional_eq_ok.mpr ⟨ready, found⟩
    have replaced : store.restoreBeforeImage ["d", "f"]
        ⟨true, [120], sha256ContentHash store.sha256 [120]⟩ 2 tree =
          .finished restored 1 (.ok ()) := by
      unfold EffectStore.restoreBeforeImage
      rw [if_pos rfl, if_pos rfl, bind_run, inspect_run, read]
      dsimp only
      rw [if_neg (by decide)]
      change Computation.step (FileTree.replaceFile ["d", "f"] [120] (some [])) 2 tree = _
      rw [step_run_succ, FileTree.replaceFile_ok _ ready found]
    exact bind_finished replaced
  have opened : Opened log restored :=
    (has.confined (FileTree.replace_confined ready) (by decide)).opened
  let marker := EffectStore.recoveryMarker records "first"
  refine ⟨store.withRecord log marker restored opened.ready,
    { status := .recovered
      recoveredTransactions := ["first"]
      reasons := [.incompleteTransactionRecovered]
      diagnostics := notes ++ [] }, ?_, by simp, ?_⟩
  · rw [run]
    have images : store.rollbackBeforeImages [image] 2 tree = .finished restored 1 (true, []) :=
      (bind_finished rolledBack).trans rfl
    have transaction : store.recoverTransaction records "first" 2 tree =
        .finished (store.withRecord log marker restored opened.ready) 0 ⟨true, true, []⟩ :=
      (bind_finished images).trans
        ((bind_finished (append_runs place marker opened.appendable 0)).trans rfl)
    have transactions : store.recoverTransactions records ["first"] 2 tree =
        .finished (store.withRecord log marker restored opened.ready) 0 (true, ["first"], []) :=
      (bind_finished transaction).trans rfl
    exact bind_finished transactions
  · rw [content_withRecord (by decide), FileTree.content_replace, if_pos rfl]

theorem first_target {path : Path} (isTarget : path ∈ store.effectTargets first.document) :
    path = ["d", "f"] :=
  target_eq (by rfl) isTarget

theorem elsewhere_target {path : Path}
    (isTarget : path ∈ store.effectTargets elsewhere.document) : path = ["g"] :=
  target_eq (by rfl) isTarget

theorem nothing_open {found : List EffectWalRecord} (logged : Logged store log start found) :
    openTargets found = ∅ := by
  cases Option.some.inj (startLogged.symm.trans logged)
  exact openTargets_eq_empty rfl

theorem open_after_first {found : List EffectWalRecord} {path : Path}
    (logged : Logged store log (first.leaves store start) found)
    (isOpen : path ∈ openTargets found) : path = ["d", "f"] := by
  obtain ⟨tree, leaves, has, -⟩ := first_leaves
  rw [leaves] at logged
  cases Option.some.inj (has.logged.symm.trans logged)
  exact open_eq isOpen

theorem keepsClear : AllStart store (KeepsClear store log) start [first, elsewhere] := by
  refine ⟨⟨?_, ?_⟩, ⟨?_, ?_⟩, trivial⟩
  · exact fun isTarget => absurd (first_target isTarget) (by decide)
  · intro found logged path _
    simp [nothing_open logged]
  · exact fun isTarget => absurd (elsewhere_target isTarget) (by decide)
  · intro found logged path isTarget isOpen
    have same := (elsewhere_target isTarget).symm.trans (open_after_first logged isOpen)
    exact absurd same (by decide)

theorem leavesRoom : AllStart store (LeavesRoom store log) start [first, elsewhere] := by
  refine ⟨⟨rfl, ?_⟩, ⟨rfl, ?_⟩, trivial⟩
  · intro found logged path isTarget other isOther
    rw [nothing_open logged, Set.union_empty] at isOther
    rw [first_target isTarget]
    rcases isOther with rfl | otherTarget
    · decide
    · rw [first_target otherTarget]
      decide
  · intro found logged path isTarget other isOther
    rw [elsewhere_target isTarget]
    rcases isOther with rfl | otherTarget | isOpen
    · decide
    · rw [elsewhere_target otherTarget]
      decide
    · rw [open_after_first logged isOpen]
      decide

end Overlap

/-- A deletion is cut off, the file is created anew by a transaction that
commits, and recovery brings the old content back. -/
theorem committed_effects_lost :
    ¬ CommittedSurvives Sample.store Sample.log Sample.start [Overlap.first, Overlap.second] := by
  intro survives
  obtain ⟨tree, firstLeaves, has, gone, ready, kept⟩ := Overlap.first_leaves
  obtain ⟨final, secondLeaves, hasFinal, found, readyFinal⟩ :=
    Overlap.second_leaves has gone ready kept
  obtain ⟨after, result, run, completed, restored⟩ := Overlap.recovered hasFinal found readyFinal
  have ends : historyTree Sample.store Sample.start [Overlap.first, Overlap.second] = final := by
    rw [historyTree, historyTree, historyTree, firstLeaves, secondLeaves]
  have uncommitted : hasCommitted Sample.store Sample.log Overlap.first.txId tree = false := by
    rw [hasCommitted, has.logged]
    decide
  have committed : hasCommitted Sample.store Sample.log Overlap.second.txId final = true := by
    rw [hasCommitted, hasFinal.logged]
    decide
  have survived := survives [] 2 0 after result (by rw [ends]; exact run) completed ["d", "f"]
    (by decide)
  have expected : lastCommitted Sample.store Sample.log Sample.start.content Sample.start
      [Overlap.first, Overlap.second] ["d", "f"] = some [] := by
    simp only [lastCommitted, firstLeaves, secondLeaves, uncommitted, committed]
    exact found
  rw [expected, restored] at survived
  cases survived

/-- The same deletion, and a creation that keeps clear of it. -/
theorem committed_effects_survive_recovery_elsewhere :
    CommittedSurvives Sample.store Sample.log Sample.start [Overlap.first, Overlap.elsewhere] ∧
      ∀ cuts, Completes Sample.store (Sample.store.recoverEffectWal.repeated cuts
        (historyTree Sample.store Sample.start [Overlap.first, Overlap.elsewhere])) := by
  obtain ⟨survives, completes⟩ := committed_effects_survive_recovery Sample.lawful Sample.place
    Sample.startLogged rfl [Overlap.first, Overlap.elsewhere] (by simp) (by decide)
    Overlap.keepsClear
  exact ⟨survives, completes Sample.startRestorable Overlap.leavesRoom⟩

end ForgeCore.Effects
