import ForgeCore.Effects.Completion
import ForgeCore.Effects.Execution

/-!
# What a transaction leaves to recovery

A transaction runs where recovery leads to some goal.  Wherever it is cut,
recovery still leads to that goal, or after a commit to the goal with what was
installed; and it can still get at its files where it could before.
-/

namespace ForgeCore.Effects

open List Durable Durable.Computation
open FileTree (Apart Isolated)

variable {store : EffectStore} {log path : Path} {targets : Set Path}
  {goal : Path → Option Content} {start tree after : FileTree}
  {record begin : EffectWalRecord} {records trace : List EffectWalRecord} {txId other : String}

/-! ## Records of one more transaction -/

theorem mem_beforeImagesOf :
    record ∈ EffectStore.beforeImagesOf records txId ↔
      record ∈ records ∧ record.txId = txId ∧ record.stage = .beforeImage := by
  simp [EffectStore.beforeImagesOf]

theorem beforeImagesOf_eq_nil (absent : ∀ record ∈ records, record.txId ≠ txId) :
    EffectStore.beforeImagesOf records txId = [] := by
  refine eq_nil_iff_forall_not_mem.mpr ?_
  intro record member
  obtain ⟨inRecords, same, -⟩ := mem_beforeImagesOf.mp member
  exact absent record inRecords same

section Appended

variable (own : ∀ record ∈ trace, record.txId = txId)
  (fresh : ∀ record ∈ records, record.txId ≠ txId)

include own fresh

/-- What is open after one more transaction was open before, or is that
transaction. -/
theorem incomplete_append (isOpen : other ∈ incompleteWalTransactions (records ++ trace)) :
    (other ∈ incompleteWalTransactions records ∧
        EffectStore.beforeImagesOf (records ++ trace) other =
          EffectStore.beforeImagesOf records other) ∨
      (other = txId ∧ EffectStore.beforeImagesOf (records ++ trace) other =
          EffectStore.beforeImagesOf trace other) := by
  rw [beforeImagesOf_append]
  by_cases same : other = txId
  · right
    subst same
    rw [beforeImagesOf_eq_nil fresh, nil_append]
    exact ⟨rfl, rfl⟩
  · left
    have notOwn (record : EffectWalRecord) (inTrace : record ∈ trace) : record.txId ≠ other := by
      rw [own record inTrace]
      exact Ne.symm same
    obtain ⟨⟨begun, member, begins, sameId⟩, unclosed⟩ := mem_incompleteWalTransactions.mp isOpen
    rw [beforeImagesOf_eq_nil notOwn, append_nil]
    refine ⟨mem_incompleteWalTransactions.mpr ⟨⟨begun, ?_, begins, sameId⟩, ?_⟩, rfl⟩
    · exact (List.mem_append.mp member).resolve_right fun inTrace => notOwn begun inTrace sameId
    · intro record inRecords
      exact unclosed record (mem_append_left _ inRecords)

theorem incomplete_append_of_earlier (isOpen : other ∈ incompleteWalTransactions records) :
    other ∈ incompleteWalTransactions (records ++ trace) ∧
      EffectStore.beforeImagesOf (records ++ trace) other =
        EffectStore.beforeImagesOf records other := by
  obtain ⟨⟨begun, member, begins, sameId⟩, unclosed⟩ := mem_incompleteWalTransactions.mp isOpen
  have notOwn (record : EffectWalRecord) (inTrace : record ∈ trace) : record.txId ≠ other := by
    rw [own record inTrace, ← sameId]
    exact Ne.symm (fresh begun member)
  rw [beforeImagesOf_append, beforeImagesOf_eq_nil notOwn, append_nil]
  refine ⟨mem_incompleteWalTransactions.mpr
    ⟨⟨begun, mem_append_left _ member, begins, sameId⟩, ?_⟩, rfl⟩
  intro record inEither
  rcases List.mem_append.mp inEither with inRecords | inTrace
  · exact unclosed record inRecords
  · exact fun _ => notOwn record inTrace

/-- A transaction that has ended adds nothing to roll back. -/
theorem incomplete_append_closed
    (closed : ∃ record ∈ trace, record.closes = true)
    (isOpen : other ∈ incompleteWalTransactions (records ++ trace)) :
    other ∈ incompleteWalTransactions records ∧
      EffectStore.beforeImagesOf (records ++ trace) other =
        EffectStore.beforeImagesOf records other := by
  refine (incomplete_append own fresh isOpen).resolve_right ?_
  rintro ⟨rfl, -⟩
  obtain ⟨record, member, closes⟩ := closed
  exact (mem_incompleteWalTransactions.mp isOpen).2 record (mem_append_right _ member) closes
    (own record member)

theorem LeadsTo.append_closed
    {paths : Set Path} (leads : LeadsTo store log paths goal tree records)
    (closed : ∃ record ∈ trace, record.closes = true) :
    LeadsTo store log paths goal tree (records ++ trace) := by
  refine ⟨?_, ?_⟩
  · intro other isOpen record member
    obtain ⟨wasOpen, images⟩ := incomplete_append_closed own fresh closed isOpen
    rw [images] at member
    exact leads.faithful other wasOpen record member
  · intro path away differs
    obtain ⟨other, isOpen, record, member, image⟩ := leads.covered path away differs
    obtain ⟨stillOpen, images⟩ := incomplete_append_of_earlier own fresh isOpen
    exact ⟨other, stillOpen, record, by rwa [images], image⟩

theorem openTargets_append_closed (closed : ∃ record ∈ trace, record.closes = true) :
    openTargets (records ++ trace) ⊆ openTargets records := by
  rintro path ⟨other, isOpen, record, member, named⟩
  obtain ⟨wasOpen, images⟩ := incomplete_append_closed own fresh closed isOpen
  rw [images] at member
  exact ⟨other, wasOpen, record, member, named⟩

end Appended

/-! ## A transaction under way -/

/-- An image of the files at the start is an image of the goal where the two
agree. -/
theorem ImageOf.congr
    {other : Path → Option Content} (image : ImageOf store goal record path)
    (same : goal path = other path) :
    ImageOf store other record path := by
  obtain ⟨targetRef, original, target, kept, normalized, hash, wanted⟩ := image
  exact ⟨targetRef, original, target, kept, normalized, hash, by rw [wanted, same]⟩

theorem LeadsTo.settled
    {paths : Set Path} (leads : LeadsTo store log paths goal tree records) (away : path ≠ log)
    (clear : path ∉ openTargets records) :
    tree.content path = goal path := by
  by_contra differs
  obtain ⟨txId, isOpen, record, member, image⟩ := leads.covered path away differs
  exact clear ⟨txId, isOpen, record, member, image.imagePath⟩

section Underway

variable (underway : Underway store log targets begin records start trace tree)
  (fresh : ∀ record ∈ records, record.txId ≠ begin.txId)

include underway fresh

theorem Underway.isOpen : begin.txId ∈ incompleteWalTransactions (records ++ trace) := by
  obtain ⟨begun, member, begins⟩ := underway.begun
  refine mem_incompleteWalTransactions.mpr ⟨⟨begun, mem_append_right _ member, begins,
      (underway.trail.own begun member).txId⟩, ?_⟩
  intro record recordMember closes
  rcases List.mem_append.mp recordMember with inRecords | inTrace
  · exact fresh record inRecords
  · rw [underway.unclosed record inTrace] at closes
    cases closes

/-- A transaction under way leads back to where its start led, when its
targets held what the goal has there. -/
theorem Underway.leadsTo
    (leads : LeadsTo store log {log}ᶜ goal start records) (outside : log ∉ targets)
    (settled : ∀ path ∈ targets, start.content path = goal path) :
    LeadsTo store log {log}ᶜ goal tree (records ++ trace) := by
  have own (record : EffectWalRecord) (member : record ∈ trace) :=
    (underway.trail.own record member).txId
  refine ⟨?_, ?_⟩
  · intro other otherOpen record member
    rcases incomplete_append own fresh otherOpen with ⟨wasOpen, images⟩ | ⟨-, images⟩
    · rw [images] at member
      exact leads.faithful other wasOpen record member
    · rw [images] at member
      obtain ⟨inTrace, -, stage⟩ := mem_beforeImagesOf.mp member
      obtain ⟨path, isTarget, image⟩ := underway.faithful record inTrace stage
      exact ⟨path, fun isLog => outside (isLog ▸ isTarget), image.congr (settled path isTarget)⟩
  · intro path away differs
    by_cases untouched : tree.content path = start.content path
    · rw [untouched] at differs
      obtain ⟨other, otherOpen, record, member, image⟩ := leads.covered path away differs
      obtain ⟨stillOpen, images⟩ := incomplete_append_of_earlier own fresh otherOpen
      exact ⟨other, stillOpen, record, by rwa [images], image⟩
    · obtain ⟨record, member, stage, image⟩ := underway.covered path away untouched
      obtain ⟨target, isTarget, targetImage⟩ := underway.faithful record member stage
      obtain rfl := image.unique targetImage
      refine ⟨begin.txId, underway.isOpen fresh, record, ?_, image.congr (settled path isTarget)⟩
      exact mem_beforeImagesOf.mpr ⟨mem_append_right _ member, own record member, stage⟩

theorem Underway.openTargets_subset :
    openTargets (records ++ trace) ⊆ openTargets records ∪ targets := by
  rintro path ⟨other, isOpen, record, member, named⟩
  rcases incomplete_append (fun record member => (underway.trail.own record member).txId) fresh
    isOpen with ⟨wasOpen, images⟩ | ⟨-, images⟩
  · rw [images] at member
    exact Or.inl ⟨other, wasOpen, record, member, named⟩
  · rw [images] at member
    obtain ⟨inTrace, -, stage⟩ := mem_beforeImagesOf.mp member
    obtain ⟨target, isTarget, image⟩ := underway.faithful record inTrace stage
    cases image.imagePath.symm.trans named
    exact Or.inr isTarget

end Underway

/-! ## Files that recovery can get at -/

/-- No target lies above or below another one, the log, or a file of an open
transaction. -/
def Unobstructed (log : Path) (targets taken : Set Path) : Prop :=
  ∀ path ∈ targets, ∀ other ∈ insert log (targets ∪ taken), Apart path other

theorem Trail.restorable
    (trail : Trail store log targets begin records start trace after)
    (restorable : Restorable log (openTargets records) start records)
    (free : Unobstructed log targets (openTargets records))
    (sameRoot : EffectStore.externalPublication begin = false)
    (opens : ∀ path ∈ openTargets (records ++ trace),
      path ∈ openTargets records ∨ path ∈ targets ∧ start.creatable path = true) :
    Restorable log (openTargets (records ++ trace)) after (records ++ trace) := by
  have named {path : Path} (inside : path ∈ insert log (openTargets (records ++ trace))) :
      path ∈ insert log (openTargets records) ∨ path ∈ targets ∧ start.creatable path = true := by
    rcases inside with rfl | isOpen
    · exact Or.inl (Set.mem_insert _ _)
    · exact (opens path isOpen).imp_left (Set.mem_insert_of_mem log)
  have apart {first second : Path}
      (firstNamed : first ∈ insert log (openTargets records) ∨ first ∈ targets)
      (secondNamed : second ∈ insert log (openTargets records) ∨ second ∈ targets) :
      Apart first second := by
    have toTarget {target other : Path} (isTarget : target ∈ targets)
        (isNamed : other ∈ insert log (openTargets records) ∨ other ∈ targets) :
        Apart target other := by
      apply free target isTarget
      rcases isNamed with (rfl | isOpen) | otherTarget
      · exact Set.mem_insert _ _
      · exact Or.inr (Or.inr isOpen)
      · exact Or.inr (Or.inl otherTarget)
    rcases firstNamed with kept | isTarget
    · rcases secondNamed with alsoKept | isTarget
      · exact restorable.reachable.apart first kept second alsoKept
      · have swapped := toTarget isTarget (Or.inl kept)
        exact ⟨swapped.2, swapped.1⟩
    · exact toTarget isTarget secondNamed
  refine ⟨⟨?_, ?_⟩, fun _ => trail.opened, ?_, ?_⟩
  · intro path inside
    apply trail.confined.creatable path
    · rintro other (rfl | isTarget)
      · exact apart (Or.inl (Set.mem_insert _ _)) ((named inside).imp_right And.left)
      · exact apart (Or.inr isTarget) ((named inside).imp_right And.left)
    · rcases named inside with kept | ⟨-, ready⟩
      · exact restorable.reachable.ready path kept
      · exact ready
  · intro first firstInside second secondInside
    exact apart ((named firstInside).imp_right And.left) ((named secondInside).imp_right And.left)
  · rw [List.any_append, restorable.sameRoot, Bool.false_or, List.any_eq_false]
    intro record member
    simp [(trail.own record member).sameRoot sameRoot]
  · have earlier := restorable.unreserved
    unfold EffectStore.reservedWalTarget at earlier ⊢
    rw [List.findSome?_append, earlier, Option.none_or, List.findSome?_eq_none_iff]
    intro record member
    rw [(trail.own record member).unreserved]
    rfl

/-! ## Wherever the transaction is cut -/

def hasCommitted (store : EffectStore) (log : Path) (txId : String) (tree : FileTree) : Bool :=
  match store.readLog (tree.content log) with
  | none => false
  | some records => records.any fun record => record.stage = .commit && record.txId = txId

theorem hasCommitted_iff (logged : Logged store log tree records) :
    hasCommitted store log txId tree = true ↔
      ∃ record ∈ records, record.stage = .commit ∧ record.txId = txId := by
  unfold Logged at logged
  simp [hasCommitted, logged, any_eq_true]

theorem hasCommitted_append
    (logged : Logged store log tree (records ++ trace))
    (fresh : ∀ record ∈ records, record.txId ≠ txId)
    (uncommitted : ∀ record ∈ trace, record.stage ≠ .commit) :
    hasCommitted store log txId tree = false := by
  rw [Bool.eq_false_iff, ne_eq, hasCommitted_iff logged]
  rintro ⟨record, member, commits, same⟩
  rcases List.mem_append.mp member with inRecords | inTrace
  · exact fresh record inRecords same
  · exact uncommitted record inTrace commits

/-- The files with the targets of a transaction as they are in the tree. -/
def overlay (targets : Set Path) [DecidablePred (· ∈ targets)] (tree : FileTree)
    (files : Path → Option Content) (path : Path) : Option Content :=
  if path ∈ targets then tree.content path else files path

instance (store : EffectStore) (document : ToolEffectContractDocument) :
    DecidablePred (· ∈ store.effectTargets document) :=
  fun path => inferInstanceAs (Decidable (∃ write ∈ document.toolEffectContract.writeSet,
    writePath store.root write = some path))

/-- A committed transaction moves the goal to what it installed. -/
theorem LeadsTo.overlay
    [DecidablePred (· ∈ targets)] (leads : LeadsTo store log {log}ᶜ goal start records)
    (clear : ∀ path ∈ targets, path ∉ openTargets records)
    (others : ∀ path, path ≠ log → path ∉ targets → after.content path = start.content path) :
    LeadsTo store log {log}ᶜ (overlay targets after goal) after records := by
  have unchanged {path : Path} (other : path ∉ targets) :
      Effects.overlay targets after goal path = goal path := if_neg other
  refine ⟨?_, ?_⟩
  · intro txId isOpen record member
    obtain ⟨path, away, image⟩ := leads.faithful txId isOpen record member
    have other : path ∉ targets := fun isTarget =>
      clear path isTarget ⟨txId, isOpen, record, member, image.imagePath⟩
    exact ⟨path, away, image.congr (unchanged other).symm⟩
  · intro path away differs
    have other : path ∉ targets := by
      intro isTarget
      exact differs (if_pos isTarget).symm
    rw [others path away other, unchanged other] at differs
    obtain ⟨txId, isOpen, record, member, image⟩ := leads.covered path away differs
    exact ⟨txId, isOpen, record, member, image.congr (unchanged other).symm⟩

theorem LeadsTo.congr
    {paths : Set Path} (leads : LeadsTo store log paths goal start records)
    (same : ∀ path, path ≠ log → after.content path = start.content path) :
    LeadsTo store log paths goal after records := by
  refine ⟨leads.faithful, ?_⟩
  intro path away differs
  rw [same path away] at differs
  exact leads.covered path away differs

theorem declaredFiles_other
    {root : String} {payloads : List EffectApplicationPayload} {writes : List EffectWrite}
    (other : ∀ write ∈ writes, writePath root write ≠ some path) (files : Path → Option Content) :
    declaredFiles root payloads writes files path = files path := by
  induction writes generalizing files with
  | nil => rfl
  | cons write rest ih =>
    rw [declaredFiles, ih fun later member => other later (mem_cons_of_mem _ member)]
    cases known : writePath root write with
    | none => rfl
    | some target =>
      have differs : path ≠ target := by
        rintro rfl
        exact other write mem_cons_self known
      simp [Function.update_of_ne differs]

/-- What a transaction leaves behind `records`, where recovery led to the
goal. -/
structure Leaves (store : EffectStore) (log : Path) (document : ToolEffectContractDocument)
    (payloads : List EffectApplicationPayload) (begin : EffectWalRecord)
    (goal : Path → Option Content) (records : List EffectWalRecord) (start : FileTree)
    (trace : List EffectWalRecord) (after : FileTree) : Prop where
  logged : Logged store log after (records ++ trace)
  own : ∀ record ∈ trace, record.txId = begin.txId
  leads : LeadsTo store log {log}ᶜ
    (if hasCommitted store log begin.txId after then
      overlay (store.effectTargets document) after goal else goal)
    after (records ++ trace)
  installed : hasCommitted store log begin.txId after = true → ∀ path, path ≠ log →
    after.content path = declaredFiles store.root payloads document.toolEffectContract.writeSet
      start.content path
  isolated : Isolated (store.effectTargets document) start after
  opens : openTargets (records ++ trace) ⊆ openTargets records ∪ store.effectTargets document
  restorable : Restorable log (openTargets records) start records →
    Unobstructed log (store.effectTargets document) (openTargets records) →
    EffectStore.externalPublication begin = false →
    Restorable log (openTargets (records ++ trace)) after (records ++ trace)

section Leaves

variable {document : ToolEffectContractDocument} {payloads : List EffectApplicationPayload}
  (fresh : ∀ record ∈ records, record.txId ≠ begin.txId)
  (leads : LeadsTo store log {log}ᶜ goal start records)
  (clear : ∀ path ∈ store.effectTargets document, path ∉ openTargets records)

include fresh

theorem Trail.leaves_closed
    (trail : Trail store log (store.effectTargets document) begin records start trace after)
    (closed : ∃ record ∈ trace, record.closes = true)
    (leadsNow : LeadsTo store log {log}ᶜ
      (if hasCommitted store log begin.txId after then
        overlay (store.effectTargets document) after goal else goal) after records)
    (installed : hasCommitted store log begin.txId after = true → ∀ path, path ≠ log →
      after.content path = declaredFiles store.root payloads document.toolEffectContract.writeSet
        start.content path) :
    Leaves store log document payloads begin goal records start trace after := by
  have own (record : EffectWalRecord) (member : record ∈ trace) := (trail.own record member).txId
  have opens := openTargets_append_closed own fresh closed
  refine ⟨trail.logged, own, leadsNow.append_closed own fresh closed, installed, trail.isolated,
    opens.trans Set.subset_union_left, ?_⟩
  intro restorable free sameRoot
  exact trail.restorable restorable free sameRoot fun path isOpen => Or.inl (opens isOpen)

include leads

theorem leaves_start (logged : Logged store log start records) :
    Leaves store log document payloads begin goal records start [] start := by
  have same : records ++ [] = records := append_nil records
  have uncommitted : hasCommitted store log begin.txId start = false :=
    hasCommitted_append (by rwa [same]) fresh (by simp)
  refine ⟨by rwa [same], by simp, ?_, ?_, Isolated.of_eq rfl, ?_, ?_⟩
  · rw [uncommitted, same]
    exact leads
  · simp [uncommitted]
  · rw [same]
    exact Set.subset_union_left
  · intro restorable _ _
    rwa [same]

include clear

theorem Underway.leaves
    (outside : log ∉ store.effectTargets document)
    (underway : Underway store log (store.effectTargets document) begin records start trace
      after) :
    Leaves store log document payloads begin goal records start trace after := by
  have own (record : EffectWalRecord) (member : record ∈ trace) :=
    (underway.trail.own record member).txId
  have opens := underway.openTargets_subset fresh
  have uncommitted : hasCommitted store log begin.txId after = false := by
    apply hasCommitted_append underway.trail.logged fresh
    intro record member commits
    have goesOn := underway.unclosed record member
    simp [EffectWalRecord.closes, commits] at goesOn
  refine ⟨underway.trail.logged, own, ?_, ?_, underway.trail.isolated, opens, ?_⟩
  · rw [uncommitted]
    apply underway.leadsTo fresh leads outside
    intro path isTarget
    exact leads.settled (fun atLog => outside (atLog ▸ isTarget)) (clear path isTarget)
  · simp [uncommitted]
  · intro restorable free sameRoot
    apply underway.trail.restorable restorable free sameRoot
    intro path isOpen
    exact (opens isOpen).imp_right fun isTarget => ⟨isTarget, underway.ready path isTarget⟩

theorem Ended.leaves
    (logged : Logged store log start records)
    (ended : Ended store log (store.effectTargets document) begin records
      (declaredFiles store.root payloads document.toolEffectContract.writeSet start.content)
      start after) :
    ∃ trace, Leaves store log document payloads begin goal records start trace after := by
  cases ended with
  | refused same =>
    subst same
    exact ⟨[], leaves_start fresh leads logged⟩
  | committed trace trail commit files =>
    obtain ⟨record, member, commits⟩ := commit
    have committed : hasCommitted store log begin.txId after = true :=
      (hasCommitted_iff trail.logged).mpr ⟨record, mem_append_right _ member, commits,
        (trail.own record member).txId⟩
    refine ⟨trace, trail.leaves_closed fresh
      ⟨record, member, by simp [EffectWalRecord.closes, commits]⟩ ?_ fun _ => files⟩
    rw [committed]
    apply leads.overlay clear
    intro path away other
    rw [files path away, declaredFiles_other]
    intro write inSet isTarget
    exact other ⟨write, inSet, isTarget⟩
  | undone trace trail closed uncommitted files =>
    have notCommitted := hasCommitted_append trail.logged fresh uncommitted
    refine ⟨trace, trail.leaves_closed fresh closed ?_ (by simp [notCommitted])⟩
    rw [notCommitted]
    exact leads.congr files

end Leaves

/-- The tree that the transaction leaves when its process survives `cut`
durable steps. -/
def crashed (store : EffectStore) (document : ToolEffectContractDocument)
    (payloads : List EffectApplicationPayload) (txId : String)
    (authority : Option EffectStore.PreparedAuthority) (start : FileTree) (cut : Nat) : FileTree :=
  (store.applyFileEffectTransaction document payloads txId authority).leaves cut start

theorem crashed_leaves
    {document : ToolEffectContractDocument}
    (lawful : store.codec.Lawful) (place : store.walPath = some log)
    (logged : Logged store log start records)
    (leads : LeadsTo store log {log}ᶜ goal start records)
    (fresh : ∀ record ∈ records, record.txId ≠ txId)
    (outside : log ∉ store.effectTargets document)
    (clear : ∀ path ∈ store.effectTargets document, path ∉ openTargets records)
    (payloads : List EffectApplicationPayload)
    (authority : Option EffectStore.PreparedAuthority) (cut : Nat) :
    ∃ trace, Leaves store log document payloads (EffectStore.beginRecord document txId authority)
      goal records start trace (crashed store document payloads txId authority start cut) := by
  obtain ⟨own, -⟩ := beginRecord_begins document txId authority
  rw [← own] at fresh
  refine (ensures_mono (applyFileEffectTransaction_ensures lawful place logged outside txId
    authority) ?_ fun _ after ended => ended.leaves fresh leads clear logged).leaves
      (fun _ _ left => left) cut
  intro after interrupted
  cases interrupted with
  | early same =>
    subst same
    exact ⟨[], leaves_start fresh leads logged⟩
  | during trace underway => exact ⟨trace, underway.leaves fresh leads clear outside⟩

end ForgeCore.Effects
