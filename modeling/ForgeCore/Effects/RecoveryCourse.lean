import ForgeCore.Effects.Rollback

/-!
# What recovery leads to

A log and a tree lead to a goal when every before-image of an open transaction
holds what the goal has at its path, and every file that differs from the goal
has such a before-image.  Recovery keeps this wherever it is cut, and reaches
the goal when it completes.
-/

namespace ForgeCore.Effects

open List Durable Durable.Computation
open FileTree (Confined Isolated)

variable {path : Path} {records markers : List EffectWalRecord} {after : FileTree}
  {txId : String}

section Log

variable {store : EffectStore} {log : Path} {tree : FileTree}

def EffectStore.withRecord (store : EffectStore) (log : Path)
    (record : EffectWalRecord) (tree : FileTree) (ready : tree.creatable log = true) : FileTree :=
  tree.install log ((tree.content log).getD [] ++ Text.asBytes (store.recordLine record))
    false ready

/-- An append writes its record, or the log cannot be opened. -/
inductive Appended (store : EffectStore) (log : Path)
    (record : EffectWalRecord) (before : FileTree) :
    Except AppendJsonLineError Unit → FileTree → Prop where
  | written (ready : before.creatable log = true) : Appended store log record before (.ok ())
        (store.withRecord log record before ready)
  | refused (failure : AppendJsonLineError)
      (blocked : before.appendable log = false) :
      Appended store log record before (.error failure) before

theorem appendEffectWalRecord_ensures
    (place : store.walPath = some log) (record : EffectWalRecord)
    {lost : FileTree → Prop} (before : lost tree) :
    Ensures (store.appendEffectWalRecord record) tree lost (Appended store log record tree) := by
  unfold EffectStore.appendEffectWalRecord
  simp only [(reservedStatePath_of_normalized place).1, place]
  apply ensures_step before
  rcases tree.appendFile_cases log (Text.asBytes (store.recordLine record)) with
    ⟨ready, -, run⟩ | ⟨blocked, failure, run⟩
  · rw [run]
    exact Appended.written ready
  · rw [run]
    exact Appended.refused _ blocked

/-- The log is there and has no second name. -/
def Opened (log : Path) (tree : FileTree) : Prop :=
  ∃ bytes, tree.file log = some (bytes, false)

theorem Opened.appendable (opened : Opened log tree) : tree.appendable log = true := by
  obtain ⟨bytes, known⟩ := opened
  have found : tree.content log = some bytes := by
    rw [FileTree.content, known]
    rfl
  refine FileTree.appendable_iff.mpr ⟨FileTree.creatable_of_content found, ?_⟩
  rw [known]
  rfl

theorem Opened.ready (opened : Opened log tree) : tree.creatable log = true :=
  (FileTree.appendable_iff.mp opened.appendable).1

variable {ready : tree.creatable log = true}

theorem content_withRecord (away : path ≠ log) :
    (store.withRecord log record tree ready).content path = tree.content path := by
  rw [EffectStore.withRecord, FileTree.content_install, if_neg away]

theorem withRecord_confined :
    Confined {log} tree (store.withRecord log record tree ready) :=
  FileTree.install_confined ready

theorem withRecord_opened : Opened log (store.withRecord log record tree ready) :=
  ⟨_, by rw [EffectStore.withRecord, FileTree.file_install, if_pos rfl]⟩

def Logged (store : EffectStore) (log : Path) (tree : FileTree)
    (records : List EffectWalRecord) : Prop :=
  store.readLog (tree.content log) = some records

theorem Logged.withRecord
    (lawful : store.codec.Lawful)
    (logged : Logged store log tree records) (record : EffectWalRecord) :
    Logged store log (store.withRecord log record tree ready) (records ++ [record]) := by
  unfold Logged EffectStore.withRecord
  rw [FileTree.content_install, if_pos rfl]
  exact readLog_append lawful logged record

theorem Logged.congr
    (logged : Logged store log tree records) (same : after.content log = tree.content log) :
    Logged store log after records := by
  unfold Logged
  rw [same]
  exact logged

end Log

theorem mem_incompleteWalTransactions : txId ∈ incompleteWalTransactions records ↔
      (∃ record ∈ records, record.stage = .begin ∧ record.txId = txId) ∧
      ∀ record ∈ records, record.closes = true → record.txId ≠ txId := by
  have collected (ids seen : List String) : txId ∈ ids.foldl (fun seen txId =>
          if seen.contains txId then seen else seen ++ [txId]) seen ↔
        txId ∈ ids ∨ txId ∈ seen := by
    induction ids generalizing seen with
    | nil => simp
    | cons head rest ih =>
      rw [foldl_cons, ih]
      split
      · next member =>
        have known : head ∈ seen := by simpa using member
        grind
      · grind
  unfold incompleteWalTransactions
  simp only [mem_filter, collected, mem_map, not_mem_nil,
    or_false, decide_eq_true_eq, Bool.not_eq_true', any_eq_false,
    Bool.and_eq_true, not_and, and_assoc]

theorem beforeImagesOf_append (first second : List EffectWalRecord) (txId : String) :
    EffectStore.beforeImagesOf (first ++ second) txId = EffectStore.beforeImagesOf first txId ++
      EffectStore.beforeImagesOf second txId := by
  simp [EffectStore.beforeImagesOf]

def Markers (records : List EffectWalRecord) : Prop :=
  ∀ record ∈ records, ∃ txId effectId, record = .ofStage txId effectId .recoveredRollback

theorem Markers.stage {marker : EffectWalRecord}
    (marked : Markers markers) (member : marker ∈ markers) :
    marker.stage = .recoveredRollback := by
  obtain ⟨txId, effectId, rfl⟩ := marked marker member
  rfl

theorem Markers.externalPublication (marked : Markers markers) :
    markers.any EffectStore.externalPublication = false := by
  rw [List.any_eq_false]
  intro marker member
  simp [EffectStore.externalPublication, marked.stage member]

theorem Markers.reservedWalTarget (marked : Markers markers) :
    EffectStore.reservedWalTarget markers = none := by
  rw [EffectStore.reservedWalTarget, List.findSome?_eq_none_iff]
  intro marker member
  obtain ⟨txId, effectId, rfl⟩ := marked marker member
  rfl

theorem Markers.append {first second : List EffectWalRecord}
    (firstMarked : Markers first) (secondMarked : Markers second) : Markers (first ++ second) := by
  intro record member
  rcases List.mem_append.mp member with inFirst | inSecond
  · exact firstMarked record inFirst
  · exact secondMarked record inSecond

theorem Markers.beforeImagesOf
    (marked : Markers markers) (txId : String) : EffectStore.beforeImagesOf markers txId = [] := by
  simp only [EffectStore.beforeImagesOf, filter_eq_nil_iff,
    Bool.and_eq_true, decide_eq_true_eq, not_and]
  intro record member _ stage
  rw [marked.stage member] at stage
  cases stage

theorem Markers.incomplete
    (marked : Markers markers) (isOpen : txId ∈ incompleteWalTransactions (records ++ markers)) :
    txId ∈ incompleteWalTransactions records ∧ ∀ marker ∈ markers, marker.txId ≠ txId := by
  obtain ⟨⟨begun, member, stage, same⟩, notClosed⟩ := mem_incompleteWalTransactions.mp isOpen
  have closes (marker : EffectWalRecord) (isMarker : marker ∈ markers) : marker.closes = true := by
    simp [EffectWalRecord.closes, marked.stage isMarker]
  refine ⟨mem_incompleteWalTransactions.mpr ⟨?_, ?_⟩, ?_⟩
  · rcases List.mem_append.mp member with inRecords | inMarkers
    · exact ⟨begun, inRecords, stage, same⟩
    · rw [marked.stage inMarkers] at stage
      cases stage
  · intro record inRecords
    exact notClosed record (mem_append_left _ inRecords)
  · intro marker isMarker
    exact notClosed marker (mem_append_right _ isMarker) (closes marker isMarker)

/-- Rolling back the open transactions leads from the tree to the goal, with
operations on the given paths only. -/
structure LeadsTo (store : EffectStore) (log : Path) (paths : Set Path)
    (goal : Path → Option Content) (tree : FileTree) (records : List EffectWalRecord) : Prop where
  faithful : ∀ txId ∈ incompleteWalTransactions records,
    ∀ record ∈ EffectStore.beforeImagesOf records txId,
      ∃ path ∈ paths, ImageOf store goal record path
  covered : ∀ path, path ≠ log → tree.content path ≠ goal path →
    ∃ txId ∈ incompleteWalTransactions records, ∃ record ∈ EffectStore.beforeImagesOf records txId,
        ImageOf store goal record path

section Recovery

variable {store : EffectStore} {log : Path} {paths : Set Path} {goal : Path → Option Content}
  {tree : FileTree} {records : List EffectWalRecord}

theorem LeadsTo.reached (leads : LeadsTo store log paths goal tree records)
    (closed : incompleteWalTransactions records = []) :
    ∀ path, path ≠ log → tree.content path = goal path := by
  intro path away
  by_contra differs
  obtain ⟨txId, isOpen, -⟩ := leads.covered path away differs
  rw [closed] at isOpen
  cases isOpen

theorem LeadsTo.of_reached (closed : incompleteWalTransactions records = [])
    (same : ∀ path, path ≠ log → tree.content path = goal path) :
    LeadsTo store log paths goal tree records := by
  refine ⟨?_, ?_⟩
  · intro txId isOpen
    rw [closed] at isOpen
    cases isOpen
  · intro path away differs
    exact absurd (same path away) differs

theorem LeadsTo.toward
    (leads : LeadsTo store log paths goal tree records) (move : Toward paths goal tree after) :
    LeadsTo store log paths goal after records := by
  refine ⟨leads.faithful, ?_⟩
  intro path away differs
  apply leads.covered path away
  intro reached
  exact differs (move.keeps reached)

/-- A recovery of `records` that started from `base` and has written some
markers: the rest of the way is still open. -/
structure Course (store : EffectStore) (log : Path) (paths : Set Path)
    (goal : Path → Option Content) (base : FileTree) (records markers : List EffectWalRecord)
    (tree : FileTree) : Prop where
  marked : Markers markers
  logged : Logged store log tree (records ++ markers)
  leads : LeadsTo store log paths goal tree (records ++ markers)
  confined : Confined (insert log paths) base tree
  isolated : Isolated paths base tree
  opened : Opened log base → Opened log tree

def Recovering (store : EffectStore) (log : Path) (paths : Set Path)
    (goal : Path → Option Content) (base : FileTree) (records : List EffectWalRecord)
    (tree : FileTree) : Prop :=
  ∃ markers, Course store log paths goal base records markers tree

/-- Closing a transaction whose files have all been restored keeps the way
to the goal open. -/
theorem LeadsTo.marked
    (nowMarked : Markers (markers ++ [marker])) (marked : Markers markers)
    (leads : LeadsTo store log paths goal tree (records ++ markers))
    (restored : AtGoal store goal (EffectStore.beforeImagesOf records marker.txId) tree)
    (same : ∀ path, path ≠ log → after.content path = tree.content path) :
    LeadsTo store log paths goal after (records ++ (markers ++ [marker])) := by
  have images (txId : String) : EffectStore.beforeImagesOf (records ++ (markers ++ [marker])) txId =
        EffectStore.beforeImagesOf (records ++ markers) txId := by
    rw [beforeImagesOf_append, nowMarked.beforeImagesOf,
      beforeImagesOf_append, marked.beforeImagesOf]
  have stillOpen {txId : String} (isOpen : txId ∈
        incompleteWalTransactions (records ++ (markers ++ [marker]))) :
      txId ∈ incompleteWalTransactions (records ++ markers) := by
    obtain ⟨inRecords, -⟩ := nowMarked.incomplete isOpen
    obtain ⟨begun, notClosed⟩ := mem_incompleteWalTransactions.mp isOpen
    refine mem_incompleteWalTransactions.mpr ⟨?_, ?_⟩
    · obtain ⟨⟨record, member, begins⟩, -⟩ := mem_incompleteWalTransactions.mp inRecords
      exact ⟨record, mem_append_left _ member, begins⟩
    · intro record member
      apply notClosed record
      rw [← append_assoc]
      exact mem_append_left _ member
  refine ⟨?_, ?_⟩
  · intro txId isOpen record member
    rw [images] at member
    exact leads.faithful txId (stillOpen isOpen) record member
  · intro path away differs
    rw [same path away] at differs
    obtain ⟨txId, isOpen, record, member, image⟩ := leads.covered path away differs
    by_cases closedNow : txId = marker.txId
    · rw [closedNow, beforeImagesOf_append, marked.beforeImagesOf, append_nil] at member
      exact absurd (restored record member path image) differs
    · refine ⟨txId, ?_, record, by rw [images]; exact member, image⟩
      obtain ⟨begun, notClosed⟩ := mem_incompleteWalTransactions.mp isOpen
      refine mem_incompleteWalTransactions.mpr ⟨?_, ?_⟩
      · obtain ⟨first, firstMember, begins⟩ := begun
        refine ⟨first, ?_, begins⟩
        rw [← append_assoc]
        exact mem_append_left _ firstMember
      · intro other otherMember
        rw [← append_assoc] at otherMember
        rcases List.mem_append.mp otherMember with earlier | last
        · exact notClosed other earlier
        · rw [List.mem_singleton.mp last]
          exact fun _ sameId => closedNow sameId.symm

/-- Recovery can get at the files to restore and at the log. -/
structure Poised (log : Path) (paths : Set Path) (tree : FileTree) : Prop where
  reachable : Reachable (insert log paths) tree
  opened : Opened log tree

/-- Nothing in the tree or in the log keeps recovery from rolling back the
open transactions. -/
structure Restorable (log : Path) (paths : Set Path) (tree : FileTree)
    (records : List EffectWalRecord) : Prop where
  reachable : Reachable (insert log paths) tree
  opened : incompleteWalTransactions records ≠ [] → Opened log tree
  sameRoot : records.any EffectStore.externalPublication = false
  unreserved : EffectStore.reservedWalTarget records = none

def OpenAtGoal (store : EffectStore) (goal : Path → Option Content)
    (records : List EffectWalRecord) (tree : FileTree) : Prop :=
  ∀ txId ∈ incompleteWalTransactions records,
    AtGoal store goal (EffectStore.beforeImagesOf records txId) tree

theorem openAtGoal_of_closed (closed : incompleteWalTransactions records = []) :
    OpenAtGoal store goal records tree := by
  intro txId isOpen
  rw [closed] at isOpen
  cases isOpen

def Closed (markers : List EffectWalRecord) (txId : String) : Prop :=
  ∃ marker ∈ markers, marker.txId = txId

section

variable {base : FileTree}

theorem Course.toward
    (course : Course store log paths goal base records markers tree) (outside : log ∉ paths)
    (move : Toward paths goal tree after) :
    Course store log paths goal base records markers after := by
  refine ⟨course.marked, course.logged.congr (move.confined.content outside),
    course.leads.toward move, course.confined.trans ?_,
    course.isolated.trans move.confined.isolated, ?_⟩
  · exact move.confined.mono (Set.subset_insert log paths)
  · intro opened
    unfold Opened
    rw [move.confined.file log outside]
    exact course.opened opened

theorem Course.withRecord
    (course : Course store log paths goal base records markers tree)
    (lawful : store.codec.Lawful) {ready : tree.creatable log = true}
    (restored : AtGoal store goal (EffectStore.beforeImagesOf records txId) tree) :
    Course store log paths goal base records
      (markers ++ [EffectStore.recoveryMarker records txId])
      (store.withRecord log (EffectStore.recoveryMarker records txId) tree ready) := by
  have nowMarked : Markers (markers ++ [EffectStore.recoveryMarker records txId]) :=
    List.forall_mem_append.mpr ⟨course.marked, List.forall_mem_singleton.mpr ⟨_, _, rfl⟩⟩
  refine ⟨nowMarked, ?_, ?_, ?_, course.isolated.trans (Isolated.of_eq rfl),
    fun _ => withRecord_opened⟩
  · rw [← append_assoc]
    exact course.logged.withRecord lawful _
  · exact course.leads.marked nowMarked course.marked restored
      fun path away => content_withRecord away
  · exact course.confined.trans (withRecord_confined.mono (by simp))

theorem Course.poised
    (course : Course store log paths goal base records markers tree)
    (poised : Poised log paths base) : Poised log paths tree :=
  ⟨poised.reachable.confined course.confined, course.opened poised.opened⟩

theorem Poised.within (poised : Poised log paths tree) : Reachable paths tree :=
  poised.reachable.mono (Set.subset_insert log paths)

theorem Course.restorable
    (course : Course store log paths goal base records markers tree)
    (restorable : Restorable log paths base records) :
    Restorable log paths tree (records ++ markers) := by
  refine ⟨restorable.reachable.confined course.confined, ?_, ?_, ?_⟩
  · intro somethingOpen
    obtain ⟨txId, isOpen⟩ := List.exists_mem_of_ne_nil _ somethingOpen
    exact course.opened (restorable.opened
      (List.ne_nil_of_mem (course.marked.incomplete isOpen).1))
  · rw [List.any_append, restorable.sameRoot, course.marked.externalPublication, Bool.or_false]
  · have earlier := restorable.unreserved
    have later := course.marked.reservedWalTarget
    unfold EffectStore.reservedWalTarget at earlier later ⊢
    rw [List.findSome?_append, earlier, later, Option.none_or]

/-- What the recovery of the pending transactions comes to: those it reports
are closed, a file at the goal stays there, and where nothing is in the way
every file gets there. -/
structure Advanced (store : EffectStore) (log : Path) (paths : Set Path)
    (goal : Path → Option Content) (base : FileTree) (records markers : List EffectWalRecord)
    (pending : List String) (before : FileTree) (completed : Bool) (after : FileTree)
    (more : List EffectWalRecord) : Prop where
  course : Course store log paths goal base records (markers ++ more) after
  closed : completed = true → ∀ txId ∈ pending, Closed more txId
  kept : ∀ path ∈ paths, before.content path = goal path → after.content path = goal path
  settles : Poised log paths base → ∀ txId ∈ pending,
    AtGoal store goal (EffectStore.beforeImagesOf records txId) after
  stands : Poised log paths base →
    (∀ txId ∈ pending, AtGoal store goal (EffectStore.beforeImagesOf records txId) before) →
    completed = true

section

variable {rollback : Bool × List String} {middle : FileTree}
  (rolledBack : RolledBack store paths goal (EffectStore.beforeImagesOf records txId).reverse tree
    rollback middle)
  (course : Course store log paths goal base records markers tree) (outside : log ∉ paths)

include rolledBack course

theorem RolledBack.atGoal (poised : Poised log paths base) :
    AtGoal store goal (EffectStore.beforeImagesOf records txId) middle := by
  intro record member
  exact rolledBack.settles (course.poised poised).within record (List.mem_reverse.mpr member)

include outside

/-- The transaction is not marked, as something is in the way. -/
theorem RolledBack.unmarked
    (hindered : Poised log paths base →
      ¬ AtGoal store goal (EffectStore.beforeImagesOf records txId) tree) :
    Advanced store log paths goal base records markers [txId] tree false middle [] := by
  refine ⟨?_, by simp, ?_, ?_, ?_⟩
  · rw [append_nil]
    exact course.toward outside rolledBack.toward
  · exact fun path _ reached => rolledBack.toward.keeps reached
  · intro poised
    exact List.forall_mem_singleton.mpr (rolledBack.atGoal course poised)
  · intro poised atGoal
    exact absurd (List.forall_mem_singleton.mp atGoal) (hindered poised)

theorem RolledBack.marked
    (lawful : store.codec.Lawful)
    (faithful : ∀ record ∈ EffectStore.beforeImagesOf records txId,
      ∃ path ∈ paths, ImageOf store goal record path)
    (allOk : rollback.1 = true) (ready : middle.creatable log = true) :
    Advanced store log paths goal base records markers [txId] tree true
      (store.withRecord log (EffectStore.recoveryMarker records txId) middle ready)
      [EffectStore.recoveryMarker records txId] := by
  have same {path : Path} (inside : path ∈ paths) :
      (store.withRecord log (EffectStore.recoveryMarker records txId) middle ready).content
        path = middle.content path :=
    content_withRecord (fun atLog => outside (atLog ▸ inside))
  refine ⟨?_, ?_, ?_, ?_, fun _ _ => rfl⟩
  · apply (course.toward outside rolledBack.toward).withRecord lawful
    intro record member
    exact rolledBack.done allOk record (List.mem_reverse.mpr member)
  · simp [Closed, EffectStore.recoveryMarker, EffectWalRecord.ofStage]
  · intro path inside reached
    rw [same inside]
    exact rolledBack.toward.keeps reached
  · intro poised
    rw [List.forall_mem_singleton]
    apply (rolledBack.atGoal course poised).kept faithful
    intro path inside reached
    rw [same inside, reached]

end

/-- What a recovery ends with.  Where nothing keeps it from its files it
restores them, and reports no failure once they are all restored. -/
structure Recovered (store : EffectStore) (log : Path) (paths : Set Path)
    (goal : Path → Option Content) (base : FileTree) (records markers : List EffectWalRecord)
    (before : FileTree) (result : EffectWalRecoveryResult) (after : FileTree)
    (final : List EffectWalRecord) : Prop where
  course : Course store log paths goal base records final after
  closed : result.status ≠ .recoveryFailed → incompleteWalTransactions (records ++ final) = []
  settles : Restorable log paths base records → OpenAtGoal store goal (records ++ final) after
  stands : Restorable log paths base records → OpenAtGoal store goal (records ++ markers) before →
    result.status ≠ .recoveryFailed

/-- A recovery that gives up does so over a log that cannot be restored. -/
theorem recovered_of_not_restorable
    (course : Course store log paths goal tree records [] tree)
    (excluded : ¬ Restorable log paths tree records) (failed : result.status = .recoveryFailed) :
    Recovered store log paths goal tree records [] tree result tree [] :=
  ⟨course, fun ok => absurd failed ok, fun restorable => absurd restorable excluded,
    fun restorable => absurd restorable excluded⟩

theorem Advanced.recovered
    (advanced : Advanced store log paths goal base records [] (incompleteWalTransactions records)
      base completed after more)
    (somethingOpen : incompleteWalTransactions records ≠ [])
    (status : result.status ≠ .recoveryFailed ↔ completed = true) :
    Recovered store log paths goal base records [] base result after more := by
  have course : Course store log paths goal base records more after := advanced.course
  have poised (restorable : Restorable log paths base records) : Poised log paths base :=
    ⟨restorable.reachable, restorable.opened somethingOpen⟩
  refine ⟨course, ?_, ?_, ?_⟩
  · intro succeeded
    rw [eq_nil_iff_forall_not_mem]
    intro txId isOpen
    obtain ⟨wasOpen, unmarked⟩ := course.marked.incomplete isOpen
    obtain ⟨marker, isMarker, sameId⟩ := advanced.closed (status.mp succeeded) txId wasOpen
    exact unmarked marker isMarker sameId
  · intro restorable txId isOpen
    rw [beforeImagesOf_append, course.marked.beforeImagesOf, append_nil]
    exact advanced.settles (poised restorable) txId (course.marked.incomplete isOpen).1
  · intro restorable atGoal
    rw [append_nil] at atGoal
    exact status.mpr (advanced.stands (poised restorable) atGoal)

variable (lawful : store.codec.Lawful) (place : store.walPath = some log) (outside : log ∉ paths)

include lawful place outside

theorem recoverTransaction_ensures
    (course : Course store log paths goal base records markers tree)
    (faithful : ∀ record ∈ EffectStore.beforeImagesOf records txId,
      ∃ path ∈ paths, ImageOf store goal record path) :
    Ensures (store.recoverTransaction records txId) tree
      (Recovering store log paths goal base records)
      (fun result after => ∃ more, Advanced store log paths goal base records markers [txId] tree
        (result.rolledBack && result.marked) after more) := by
  unfold EffectStore.recoverTransaction
  apply ensures_bind (ensures_lost_mono (rollbackBeforeImages_ensures
        (EffectStore.beforeImagesOf records txId).reverse (fun record member =>
          faithful record (List.mem_reverse.mp member)))
      fun after move => ⟨markers, course.toward outside move⟩)
  intro rollback middle rolledBack
  have moved := course.toward outside rolledBack.toward
  split
  · next allOk =>
    apply ensures_bind (appendEffectWalRecord_ensures place _
      (⟨markers, moved⟩ : Recovering store log paths goal base records middle))
    intro result after appended
    cases appended with
    | written ready =>
      exact ensures_pure ⟨_, rolledBack.marked course outside lawful faithful allOk ready⟩
    | refused failure blocked =>
      refine ensures_pure ⟨[], rolledBack.unmarked course outside fun poised => ?_⟩
      rw [(moved.poised poised).opened.appendable] at blocked
      cases blocked
  · next failed =>
    refine ensures_pure ⟨[], rolledBack.unmarked course outside fun poised atGoal => ?_⟩
    refine failed (rolledBack.stands (course.poised poised).within ?_)
    intro record member
    exact atGoal record (List.mem_reverse.mp member)

theorem recoverTransactions_ensures
    (pending : List String)
    (course : Course store log paths goal base records markers tree)
    (faithful : ∀ txId ∈ pending, ∀ record ∈ EffectStore.beforeImagesOf records txId,
      ∃ path ∈ paths, ImageOf store goal record path) :
    Ensures (store.recoverTransactions records pending) tree
      (Recovering store log paths goal base records)
      (fun summary after => ∃ more, Advanced store log paths goal base records markers pending tree
        summary.1 after more) := by
  induction pending generalizing tree markers with
  | nil =>
    exact ensures_pure ⟨[], by rwa [append_nil], by simp, fun _ _ reached => reached, by simp,
      fun _ _ => rfl⟩
  | cons txId rest ih =>
    unfold EffectStore.recoverTransactions
    apply ensures_bind (recoverTransaction_ensures lawful place outside course
        (faithful txId mem_cons_self))
    rintro first middle ⟨more, here⟩
    apply ensures_bind (ih here.course fun other member =>
          faithful other (mem_cons_of_mem _ member))
    rintro others after ⟨evenMore, there⟩
    refine ensures_pure ⟨more ++ evenMore, ?_, ?_, ?_, ?_, ?_⟩
    · rw [← append_assoc]
      exact there.course
    · intro allOk other member
      rw [Bool.and_eq_true] at allOk
      rcases List.mem_cons.mp member with rfl | inRest
      · obtain ⟨marker, isMarker, same⟩ := here.closed allOk.1 other (mem_singleton_self other)
        exact ⟨marker, mem_append_left _ isMarker, same⟩
      · obtain ⟨marker, isMarker, same⟩ := there.closed allOk.2 other inRest
        exact ⟨marker, mem_append_right _ isMarker, same⟩
    · intro path inside reached
      exact there.kept path inside (here.kept path inside reached)
    · intro poised
      rw [List.forall_mem_cons]
      refine ⟨?_, there.settles poised⟩
      exact (here.settles poised txId (mem_singleton_self txId)).kept
        (faithful txId mem_cons_self) there.kept
    · intro poised atGoal
      rw [List.forall_mem_cons] at atGoal
      rw [Bool.and_eq_true]
      refine ⟨here.stands poised (List.forall_mem_singleton.mpr atGoal.1),
        there.stands poised ?_⟩
      intro other member
      exact (atGoal.2 other member).kept (faithful other (mem_cons_of_mem _ member)) here.kept

theorem recoverRecords_ensures
    (course : Course store log paths goal tree records [] tree) (notes : List String) :
    Ensures (store.recoverRecords records notes) tree
      (Recovering store log paths goal tree records)
      (fun result after => ∃ final,
        Recovered store log paths goal tree records [] tree result after final) := by
  have leads := course.leads
  rw [append_nil] at leads
  unfold EffectStore.recoverRecords
  split
  · next external =>
    refine ensures_pure ⟨[], recovered_of_not_restorable course ?_ rfl⟩
    intro restorable
    rw [restorable.sameRoot] at external
    cases external
  · split
    · next txId reserved names =>
      refine ensures_pure ⟨[], recovered_of_not_restorable course ?_ rfl⟩
      intro restorable
      rw [restorable.unreserved] at names
      cases names
    · dsimp only
      split
      · next nothingOpen =>
        have closed : incompleteWalTransactions (records ++ []) = [] := by
          rw [append_nil]
          exact List.isEmpty_iff.mp nothingOpen
        exact ensures_pure ⟨[], course, fun _ => closed, fun _ => openAtGoal_of_closed closed,
          fun _ _ => nofun⟩
      · next somethingOpen =>
        apply ensures_bind (recoverTransactions_ensures lawful place outside _ course
            leads.faithful)
        rintro summary after ⟨more, advanced⟩
        exact ensures_pure ⟨more, advanced.recovered (by simpa using somethingOpen) (by simp)⟩

end

/-- A log that can be read is recovered by its records. -/
theorem recoverEffectWal_logged
    (place : store.walPath = some log) (logged : Logged store log tree records)
    (found : tree.content log = some bytes) :
    ∃ notes, ∀ remaining, store.recoverEffectWal remaining tree =
      store.recoverRecords records notes remaining tree := by
  unfold Logged at logged
  rw [found] at logged
  obtain ⟨text, decoded, parsed⟩ := Option.bind_eq_some_iff.mp logged
  split at parsed
  · obtain ⟨⟨parsedRecords, notes⟩, parsedOk, rfl⟩ := Option.map_eq_some_iff.mp parsed
    refine ⟨notes, fun remaining => ?_⟩
    have result : parseEffectWalRecordsForRecovery store.codec text =
        .ok (parsedRecords, notes) := by
      cases known : parseEffectWalRecordsForRecovery store.codec text with
      | error failure => simp [known, Except.toOption] at parsedOk
      | ok pair =>
        simp only [known, Except.toOption, Option.some.injEq] at parsedOk
        rw [parsedOk]
    unfold EffectStore.recoverEffectWal
    simp only [(reservedStatePath_of_normalized place).1, place]
    rw [bind_run, inspect_run]
    simp only [FileTree.read_eq_ok.mpr found, decoded, EffectStore.recoverText, result]
  · cases parsed

theorem course_starts
    (logged : Logged store log tree records) (leads : LeadsTo store log paths goal tree records) :
    Course store log paths goal tree records [] tree := by
  refine ⟨by simp [Markers], ?_, ?_, Confined.refl _ tree, Isolated.of_eq rfl,
    fun opened => opened⟩
  · rwa [append_nil]
  · rwa [append_nil]

theorem Course.append
    (course : Course store log paths goal base records markers tree)
    (later : Course store log paths goal tree (records ++ markers) more after) :
    Course store log paths goal base records (markers ++ more) after := by
  refine ⟨course.marked.append later.marked, ?_, ?_, course.confined.trans later.confined,
    course.isolated.trans later.isolated, fun opened => later.opened (course.opened opened)⟩
  · rw [← append_assoc]
    exact later.logged
  · rw [← append_assoc]
    exact later.leads

theorem recoverEffectWal_ensures
    (lawful : store.codec.Lawful) (place : store.walPath = some log) (outside : log ∉ paths)
    (course : Course store log paths goal base records markers tree) :
    Ensures store.recoverEffectWal tree (Recovering store log paths goal base records)
      (fun result after => ∃ final,
        Recovered store log paths goal base records markers tree result after final) := by
  have logged := course.logged
  cases found : tree.content log with
  | none =>
    have empty : records ++ markers = [] := by
      unfold Logged at logged
      rw [found] at logged
      exact (Option.some.inj logged).symm
    have closed : incompleteWalTransactions (records ++ markers) = [] := by
      rw [empty]
      rfl
    have ends (result : EffectWalRecoveryResult)
        (fails : result.status = .recoveryFailed → tree.read log ≠ .error .notFound) :
        Recovered store log paths goal base records markers tree result tree markers := by
      refine ⟨course, fun _ => closed, fun _ => openAtGoal_of_closed closed, ?_⟩
      intro restorable _ failed
      apply fails failed
      exact FileTree.read_eq_notFound.mpr
        ⟨(course.restorable restorable).reachable.ready log (Set.mem_insert log paths), found⟩
    unfold EffectStore.recoverEffectWal
    simp only [(reservedStatePath_of_normalized place).1, place]
    apply ensures_inspect_bind
    cases readResult : tree.read log with
    | ok bytes =>
      rw [FileTree.read_eq_ok.mp readResult] at found
      cases found
    | error failure =>
      cases failure with
      | _ => exact ensures_pure ⟨markers, ends _ (by simp [readResult])⟩
  | some bytes =>
    obtain ⟨notes, run⟩ := recoverEffectWal_logged place logged found
    have here := course_starts logged course.leads
    apply ensures_congr run
    apply ensures_mono (recoverRecords_ensures lawful place outside here notes)
    · rintro after ⟨more, later⟩
      exact ⟨markers ++ more, course.append later⟩
    · rintro summary after ⟨more, later⟩
      refine ⟨markers ++ more, course.append later.course, ?_, ?_, ?_⟩
      · rw [← append_assoc]
        exact later.closed
      · intro restorable
        rw [← append_assoc]
        exact later.settles (course.restorable restorable)
      · intro restorable atGoal
        apply later.stands (course.restorable restorable)
        rwa [append_nil]

end Recovery

end ForgeCore.Effects
