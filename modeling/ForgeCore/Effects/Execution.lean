import ForgeCore.Effects.RecoveryCourse
import ForgeCore.Effects.Undo

/-!
# Whole transactions

What a transaction leaves behind wherever its process is lost, and what it
has done when it returns.  The log grows by the records of the transaction
only; every file that it has changed has a before-image among them.
-/

namespace ForgeCore.Effects

open List Durable Durable.Computation
open FileTree (Confined Isolated)

/-- A record of the transaction that the given one begins.  Recovery refuses
a log for the begin record of a split-root transaction only. -/
structure Belongs (begin record : EffectWalRecord) : Prop where
  txId : record.txId = begin.txId
  sameRoot : EffectStore.externalPublication begin = false →
    EffectStore.externalPublication record = false
  unreserved : (record.physicalTargetRef.or record.targetRef).bind reservedStatePath = none

/-- A transaction has written `trace` behind `records`, and has touched
nothing but its targets and the log. -/
structure Trail (store : EffectStore) (log : Path) (targets : Set Path)
    (begin : EffectWalRecord) (records : List EffectWalRecord) (start : FileTree)
    (trace : List EffectWalRecord) (tree : FileTree) : Prop where
  logged : Logged store log tree (records ++ trace)
  own : ∀ record ∈ trace, Belongs begin record
  opened : Opened log tree
  confined : Confined (insert log targets) start tree
  isolated : Isolated targets start tree

/-- The transaction is open, and the before-images account for the files that
it has changed. -/
structure Underway (store : EffectStore) (log : Path) (targets : Set Path)
    (begin : EffectWalRecord) (records : List EffectWalRecord) (start : FileTree)
    (trace : List EffectWalRecord) (tree : FileTree) : Prop where
  trail : Trail store log targets begin records start trace tree
  ready : ∀ path ∈ targets, start.creatable path = true
  unclosed : ∀ record ∈ trace, record.closes = false
  begun : ∃ record ∈ trace, record.stage = .begin
  faithful : ∀ record ∈ trace, record.stage = .beforeImage →
    ∃ path ∈ targets, ImageOf store start.content record path
  covered : ∀ path, path ≠ log → tree.content path ≠ start.content path →
    ∃ record ∈ trace, record.stage = .beforeImage ∧ ImageOf store start.content record path

/-- A process lost in a transaction: nothing is written yet, or the
transaction is open in the log. -/
inductive Interrupted (store : EffectStore) (log : Path) (targets : Set Path)
    (begin : EffectWalRecord) (records : List EffectWalRecord) (start after : FileTree) : Prop where
  | early (same : after = start)
  | during (trace : List EffectWalRecord)
      (underway : Underway store log targets begin records start trace after)

/-- How a transaction returns: refused, committed, or rolled back in its own
process. -/
inductive Ended (store : EffectStore) (log : Path) (targets : Set Path)
    (begin : EffectWalRecord) (records : List EffectWalRecord) (goal : Path → Option Content)
    (start after : FileTree) : Prop where
  | refused (same : after = start)
  | committed (trace : List EffectWalRecord)
      (trail : Trail store log targets begin records start trace after)
      (commit : ∃ record ∈ trace, record.stage = .commit)
      (files : ∀ path, path ≠ log → after.content path = goal path)
  | undone (trace : List EffectWalRecord)
      (trail : Trail store log targets begin records start trace after)
      (closed : ∃ record ∈ trace, record.closes = true)
      (uncommitted : ∀ record ∈ trace, record.stage ≠ .commit)
      (files : ∀ path, path ≠ log → after.content path = start.content path)

section Execution

variable {store : EffectStore} {log : Path} {targets : Set Path} {begin record : EffectWalRecord}
  {start tree after : FileTree} {records trace : List EffectWalRecord}
  {pair : PreparedWrite × OriginalFileState} {writes : List EffectWrite}

theorem belongs_ofStage
    (begin : EffectWalRecord) (effectId : StableId) (stage : EffectWalStage)
    (differs : stage ≠ .begin) :
    Belongs begin (.ofStage begin.txId effectId stage) := by
  refine ⟨rfl, fun _ => ?_, rfl⟩
  simp [EffectStore.externalPublication, EffectWalRecord.ofStage, differs]

theorem Trail.withRecord
    (trail : Trail store log targets begin records start trace tree)
    (lawful : store.codec.Lawful) (belongs : Belongs begin record)
    {ready : tree.creatable log = true} :
    Trail store log targets begin records start (trace ++ [record])
      (store.withRecord log record tree ready) := by
  refine ⟨?_, ?_, withRecord_opened, trail.confined.trans (withRecord_confined.mono (by simp)),
    trail.isolated.trans (Isolated.of_eq rfl)⟩
  · rw [← append_assoc]
    exact trail.logged.withRecord lawful record
  · exact List.forall_mem_append.mpr ⟨trail.own, List.forall_mem_singleton.mpr belongs⟩

theorem Trail.confine
    (trail : Trail store log targets begin records start trace tree) (outside : log ∉ targets)
    (confined : Confined targets tree after) :
    Trail store log targets begin records start trace after := by
  have sameFile := confined.file log outside
  refine ⟨trail.logged.congr (confined.content outside), trail.own, ?_,
    trail.confined.trans (confined.mono (Set.subset_insert log targets)),
    trail.isolated.trans confined.isolated⟩
  unfold Opened
  rw [sameFile]
  exact trail.opened

section

variable (underway : Underway store log targets begin records start trace tree)

include underway

theorem Underway.toward
    (outside : log ∉ targets) (move : Toward targets start.content tree after) :
    Underway store log targets begin records start trace after := by
  refine { underway with trail := underway.trail.confine outside move.confined, covered := ?_ }
  intro path away differs
  apply underway.covered path away
  intro reached
  exact differs (move.keeps reached)

theorem Underway.withRecord
    (lawful : store.codec.Lawful) (belongs : Belongs begin record)
    (goesOn : record.closes = false)
    (image : record.stage = .beforeImage →
      ∃ path ∈ targets, ImageOf store start.content record path)
    {ready : tree.creatable log = true} :
    Underway store log targets begin records start (trace ++ [record])
      (store.withRecord log record tree ready) := by
  refine ⟨underway.trail.withRecord lawful belongs, underway.ready, ?_, ?_, ?_, ?_⟩
  · exact List.forall_mem_append.mpr ⟨underway.unclosed, List.forall_mem_singleton.mpr goesOn⟩
  · obtain ⟨first, member, begins⟩ := underway.begun
    exact ⟨first, mem_append_left _ member, begins⟩
  · exact List.forall_mem_append.mpr ⟨underway.faithful, List.forall_mem_singleton.mpr image⟩
  · intro path away differs
    rw [content_withRecord away] at differs
    obtain ⟨other, member, covers⟩ := underway.covered path away differs
    exact ⟨other, mem_append_left _ member, covers⟩

/-- The log has been opened before, so nothing keeps a record from being
appended. -/
theorem Underway.append_ensures
    (place : store.walPath = some log) (record : EffectWalRecord) :
    Ensures (store.appendEffectWalRecord record) tree
      (Interrupted store log targets begin records start)
      (fun result after => result = .ok () ∧
        ∃ ready, after = store.withRecord log record tree ready) := by
  apply ensures_mono (appendEffectWalRecord_ensures place record
      (Interrupted.during trace underway)) (fun _ cut => cut)
  intro result after appended
  cases appended with
  | written ready => exact ⟨rfl, ready, rfl⟩
  | refused failure blocked =>
    rw [underway.trail.opened.appendable] at blocked
    cases blocked

end

/-- What the process of a transaction can rely on between two steps. -/
structure Working (store : EffectStore) (log : Path) (begin : EffectWalRecord)
    (captured : List (PreparedWrite × OriginalFileState))
    (records trace : List EffectWalRecord) (start tree : FileTree) : Prop where
  underway : Underway store log (store.targetsOf captured) begin records start trace tree
  explained : ∀ path, path ≠ log → Explained store start captured tree path

variable {captured pending : List (PreparedWrite × OriginalFileState)}
  {payloads : List EffectApplicationPayload}
  {document : ToolEffectContractDocument} {goal : Path → Option Content}

theorem Working.withRecord
    (working : Working store log begin captured records trace start tree)
    (lawful : store.codec.Lawful) (ready : tree.creatable log = true)
    (belongs : Belongs begin record)
    (goesOn : record.closes = false)
    (image : record.stage = .beforeImage →
      ∃ path ∈ store.targetsOf captured, ImageOf store start.content record path) :
    Working store log begin captured records (trace ++ [record]) start
      (store.withRecord log record tree ready) := by
  refine ⟨working.underway.withRecord lawful belongs goesOn image, ?_⟩
  intro path away
  unfold Explained
  rw [content_withRecord away]
  exact working.explained path away

theorem kept_self (start : FileTree) : Kept start start := by
  intro path present
  obtain ⟨bytes, known⟩ := Option.ne_none_iff_exists'.mp present
  exact FileTree.creatable_of_content known

/-- The captured writes of one transaction, none of them on the log. -/
structure AllPrepared (store : EffectStore) (log : Path)
    (payloads : List EffectApplicationPayload) (start : FileTree)
    (captured : List (PreparedWrite × OriginalFileState)) : Prop where
  prepared : ∀ pair ∈ captured, ∃ write, Prepared store payloads start write pair
  outside : log ∉ store.targetsOf captured
  logReady : start.creatable log = true

theorem AllPrepared.ready
    (all : AllPrepared store log payloads start captured) :
    ∀ path ∈ insert log (store.targetsOf captured), start.creatable path = true := by
  rintro path (rfl | inside)
  · exact all.logReady
  · obtain ⟨pair, member, rfl⟩ := List.mem_map.mp inside
    obtain ⟨write, prepared⟩ := all.prepared pair member
    exact prepared.ready

section

variable (working : Working store log begin captured records trace start tree)
  (lawful : store.codec.Lawful) (place : store.walPath = some log)

include working lawful place

theorem Working.rollback_ensures
    (all : AllPrepared store log payloads start captured)
    (appliedRefs : List String) (reason : EffectApplicationReason) (diagnostic : String) :
    Ensures (store.rollbackWalTransaction document begin.txId (captured.map Prod.snd)
        appliedRefs reason diagnostic) tree
      (Interrupted store log (store.targetsOf captured) begin records start)
      (fun _ after =>
        Ended store log (store.targetsOf captured) begin records goal start after) := by
  have sameTargets : store.targetsOf captured.reverse = store.targetsOf captured := by
    ext path
    simp [EffectStore.targetsOf]
  have rolledBack := rollbackEach_ensures tree captured.reverse
    fun pair member => all.prepared pair (List.mem_reverse.mp member)
  rw [sameTargets] at rolledBack
  have cut {after : FileTree} (move : Toward (store.targetsOf captured) start.content tree after) :=
    working.underway.toward all.outside move
  unfold EffectStore.rollbackWalTransaction EffectStore.rollbackOriginals
  rw [← map_reverse]
  apply ensures_bind (ensures_lost_mono rolledBack
    fun after move => Interrupted.during trace (cut move))
  rintro rollback middle ⟨move, -, back⟩
  have underway := cut move
  have kept : Kept start tree :=
    (kept_self start).confined all.ready working.underway.trail.confined
  apply ensures_bind (underway.append_ensures place _)
  rintro result after ⟨rfl, ready, rfl⟩
  have belongs := belongs_ofStage begin document.toolEffectContract.id .rollbackComplete (by simp)
  refine ensures_pure (Ended.undone _ (underway.trail.withRecord lawful belongs) ?_ ?_ ?_)
  · exact ⟨_, mem_append_right _ mem_cons_self, rfl⟩
  · refine List.forall_mem_append.mpr ⟨?_, List.forall_mem_singleton.mpr (by
        simp [EffectWalRecord.ofStage])⟩
    intro record member commits
    have goesOn := underway.unclosed record member
    simp [EffectWalRecord.closes, commits] at goesOn
  · intro path awayFromLog
    rw [content_withRecord awayFromLog]
    apply back kept path
    simpa [Explained] using working.explained path awayFromLog

theorem Working.commit_ensures
    (reached : ∀ path, path ≠ log → tree.content path = goal path) (appliedRefs : List String) :
    Ensures (store.commitTransaction document begin.txId captured appliedRefs) tree
      (Interrupted store log (store.targetsOf captured) begin records start)
      (fun _ after =>
        Ended store log (store.targetsOf captured) begin records goal start after) := by
  unfold EffectStore.commitTransaction
  apply ensures_bind (working.underway.append_ensures place _)
  rintro result after ⟨rfl, ready, rfl⟩
  have belongs := belongs_ofStage begin document.toolEffectContract.id .commit (by simp)
  refine ensures_pure (Ended.committed _ (working.underway.trail.withRecord lawful belongs) ?_ ?_)
  · exact ⟨_, mem_append_right _ mem_cons_self, rfl⟩
  · intro path awayFromLog
    rw [content_withRecord awayFromLog, reached path awayFromLog]

end

variable {write : EffectWrite}

/-! ## The loop over the writes -/

theorem beforeImage_imageOf
    (prepared : Prepared store payloads start write pair) (txId : String) (effectId : StableId) :
    ImageOf store start.content (.beforeImage store.sha256 txId effectId pair.1 pair.2)
      (store.pathOf pair) :=
  ⟨pair.1.reference, _, rfl, rfl, prepared.bound.normalized, rfl, prepared.captured⟩

theorem belongs_beforeImage
    (prepared : Prepared store payloads start write pair) (effectId : StableId) :
    Belongs begin (.beforeImage store.sha256 begin.txId effectId pair.1 pair.2) :=
  ⟨rfl, fun _ => rfl, (reservedStatePath_of_normalized prepared.bound.normalized).1⟩

theorem belongs_writeApplied
    (prepared : Prepared store payloads start write pair) (effect : ToolEffectContract) :
    Belongs begin (.writeApplied store.sha256 begin.txId effect pair.1) :=
  ⟨rfl, fun _ => rfl, (reservedStatePath_of_normalized prepared.bound.normalized).1⟩

theorem Working.applied
    (working : Working store log begin captured records trace start tree)
    (outside : log ∉ store.targetsOf captured) (member : pair ∈ captured)
    (imaged : ∃ record ∈ trace, record.stage = .beforeImage ∧
      ImageOf store start.content record (store.pathOf pair))
    (confined : Confined {store.pathOf pair} tree after)
    (applied : Applied (store.pathOf pair) pair.2 tree after result) :
    Working store log begin captured records trace start after := by
  have inside : store.pathOf pair ∈ store.targetsOf captured :=
    EffectStore.pathOf_mem_targetsOf member
  have away : store.pathOf pair ≠ log := by
    rintro rfl
    exact outside inside
  have place (path : Path) (differs : path ≠ store.pathOf pair) :
      after.content path = tree.content path := confined.content differs
  refine ⟨{ working.underway with
    trail := working.underway.trail.confine outside
      (confined.mono (Set.singleton_subset_iff.mpr inside))
    covered := ?_ }, ?_⟩
  · intro path awayFromLog differs
    by_cases here : path = store.pathOf pair
    · rw [here]
      exact imaged
    · rw [place path here] at differs
      exact working.underway.covered path awayFromLog differs
  · intro path awayFromLog
    by_cases here : path = store.pathOf pair
    · cases applied with
      | done _ installed | unsynced _ _ installed =>
        exact Or.inr ⟨pair, member, here.symm, by rw [here, installed]⟩
      | failed _ same =>
        rw [here, Explained, same]
        exact working.explained _ away
    · rw [Explained, place path here]
      exact working.explained path awayFromLog

theorem Working.applyWrites_ensures
    (working : Working store log begin captured records trace start tree)
    (lawful : store.codec.Lawful) (place : store.walPath = some log)
    (all : AllPrepared store log payloads start captured)
    (prepared : List.Forall₂ (Prepared store payloads start) writes pending)
    (pendingCaptured : ∀ pair ∈ pending, pair ∈ captured) {files : Path → Option Content}
    (now : ∀ path, path ≠ log → tree.content path = files path)
    (goalIs : declaredFiles store.root payloads writes files = goal) (appliedRefs : List String) :
    Ensures (store.applyWrites document begin.txId captured appliedRefs pending) tree
      (Interrupted store log (store.targetsOf captured) begin records start)
      (fun _ after =>
        Ended store log (store.targetsOf captured) begin records goal start after) := by
  induction prepared generalizing tree trace files appliedRefs with
  | nil =>
    subst goalIs
    exact working.commit_ensures lawful place now appliedRefs
  | @cons write pair writes pending first rest ih =>
    have member := pendingCaptured pair mem_cons_self
    have pairAway : store.pathOf pair ≠ log := by
      rintro rfl
      exact all.outside (EffectStore.pathOf_mem_targetsOf member)
    have image := beforeImage_imageOf first begin.txId document.toolEffectContract.id
    unfold EffectStore.applyWrites
    apply ensures_bind (working.underway.append_ensures place _)
    rintro _ second ⟨rfl, ready, rfl⟩
    have imaged := working.withRecord lawful ready
      (belongs_beforeImage first document.toolEffectContract.id) rfl
      (fun _ => ⟨_, EffectStore.pathOf_mem_targetsOf member, image⟩)
    apply ensures_bind (applyPreparedWrite_ensures first (Interrupted.during _ imaged.underway))
    rintro result third ⟨confined, applied⟩
    have written := imaged.applied all.outside member
        ⟨_, mem_append_right _ mem_cons_self, rfl, image⟩ confined applied
    cases applied with
    | failed failure _ | unsynced failure _ _ =>
      exact written.rollback_ensures lawful place all appliedRefs _ _
    | done captures installs =>
      apply ensures_bind (written.underway.append_ensures place _)
      rintro _ fourth ⟨rfl, readyAgain, rfl⟩
      have recorded := written.withRecord lawful readyAgain
        (belongs_writeApplied first document.toolEffectContract) rfl
        (by simp [EffectWalRecord.writeApplied, EffectWalRecord.ofStage])
      have goalStill : declaredFiles store.root payloads writes
          (Function.update files (store.pathOf pair) (declaredContent payloads write
              (files (store.pathOf pair)))) = goal := by
        rw [← goalIs, declaredFiles, first.bound.place]
        rfl
      refine ih recorded (fun other inPending =>
            pendingCaptured other (mem_cons_of_mem _ inPending)) ?_ goalStill _
      intro path awayFromLog
      rw [content_withRecord awayFromLog]
      by_cases here : path = store.pathOf pair
      · have unchanged : start.content (store.pathOf pair) = files (store.pathOf pair) := by
          rw [← first.captured, ← captures, content_withRecord pairAway, now _ pairAway]
        rw [here, Function.update_self, installs, first.declared, unchanged]
      · rw [Function.update_of_ne here, confined.content here, content_withRecord awayFromLog,
          now path awayFromLog]

/-! ## From the preflight on -/

def EffectStore.effectTargets (store : EffectStore) (document : ToolEffectContractDocument) :
    Set Path :=
  {path | ∃ write ∈ document.toolEffectContract.writeSet, writePath store.root write = some path}

theorem targetsOf_captured
    (prepared : List.Forall₂ (Prepared store payloads start)
      document.toolEffectContract.writeSet captured) :
    store.targetsOf captured = store.effectTargets document := by
  ext path
  constructor
  · intro inside
    obtain ⟨pair, member, rfl⟩ := List.mem_map.mp inside
    obtain ⟨write, inSet, first⟩ := forall₂_mem prepared.flip member
    exact ⟨write, inSet, first.bound.place⟩
  · rintro ⟨write, inSet, target⟩
    obtain ⟨pair, member, first⟩ := forall₂_mem prepared inSet
    cases first.bound.place.symm.trans target
    exact EffectStore.pathOf_mem_targetsOf member

theorem beginRecord_begins
    (document : ToolEffectContractDocument) (txId : String)
    (authority : Option EffectStore.PreparedAuthority) :
    (EffectStore.beginRecord document txId authority).txId = txId ∧
      (EffectStore.beginRecord document txId authority).stage = .begin ∧
      (EffectStore.beginRecord document txId authority).targetRef = none ∧
      (EffectStore.beginRecord document txId authority).physicalTargetRef = none := by
  cases authority with
  | none | some pair => exact ⟨rfl, rfl, rfl, rfl⟩

theorem Working.starts
    (lawful : store.codec.Lawful) (logged : Logged store log start records)
    (all : AllPrepared store log payloads start captured) (begins : begin.stage = .begin)
    (targetless : begin.targetRef = none ∧ begin.physicalTargetRef = none) :
    Working store log begin captured records [begin] start
      (store.withRecord log begin start all.logReady) := by
  have files {path : Path} (away : path ≠ log) :
      (store.withRecord log begin start all.logReady).content path = start.content path :=
    content_withRecord away
  have belongs : Belongs begin begin := by
    refine ⟨rfl, fun sameRoot => sameRoot, ?_⟩
    rw [targetless.1, targetless.2]
    rfl
  refine ⟨⟨⟨logged.withRecord lawful begin, List.forall_mem_singleton.mpr belongs,
    withRecord_opened, withRecord_confined.mono (by simp), Isolated.of_eq rfl⟩, ?_, ?_, ?_, ?_,
    ?_⟩, ?_⟩
  · intro path inside
    exact all.ready path (Set.mem_insert_of_mem log inside)
  · exact List.forall_mem_singleton.mpr (by simp [EffectWalRecord.closes, begins])
  · exact ⟨begin, mem_cons_self, begins⟩
  · exact List.forall_mem_singleton.mpr (by simp [begins])
  · intro path away differs
    exact absurd (files away) differs
  · intro path away
    exact Or.inl (files away)

theorem applyFileEffectTransaction_ensures
    (lawful : store.codec.Lawful) (place : store.walPath = some log)
    (logged : Logged store log start records)
    (outside : log ∉ store.effectTargets document)
    (txId : String) (authority : Option EffectStore.PreparedAuthority) :
    Ensures (store.applyFileEffectTransaction document payloads txId authority) start
      (Interrupted store log (store.effectTargets document)
        (EffectStore.beginRecord document txId authority) records start)
      (fun _ after => Ended store log (store.effectTargets document)
        (EffectStore.beginRecord document txId authority) records
        (declaredFiles store.root payloads document.toolEffectContract.writeSet start.content)
        start after) := by
  unfold EffectStore.applyFileEffectTransaction
  apply ensures_inspect_bind
  cases checked : store.preflight document payloads start with
  | error blocked => exact ensures_pure (Ended.refused rfl)
  | ok captured =>
    have prepared := preflight_ok checked
    obtain ⟨own, begins, targetless⟩ := beginRecord_begins document txId authority
    generalize EffectStore.beginRecord document txId authority = begin at *
    subst own
    rw [← targetsOf_captured prepared] at outside ⊢
    apply ensures_bind (appendEffectWalRecord_ensures place _ (Interrupted.early rfl))
    intro result after appended
    cases appended with
    | refused failure blocked => exact ensures_pure (Ended.refused rfl)
    | written ready =>
      have all : AllPrepared store log payloads start captured := by
        refine ⟨?_, outside, ready⟩
        intro pair member
        obtain ⟨write, -, first⟩ := forall₂_mem prepared.flip member
        exact ⟨write, first⟩
      apply (Working.starts lawful logged all begins targetless).applyWrites_ensures
        lawful place all prepared (fun _ member => member) _ rfl
      intro path awayFromLog
      exact content_withRecord awayFromLog

end Execution

end ForgeCore.Effects
