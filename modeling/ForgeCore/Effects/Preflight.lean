import ForgeCore.Effects.Transaction

/-!
# What the preflight establishes

An effect says what its targets are to hold.  A transaction that passes the
preflight has one prepared write for every declared one, bound to the file,
the content and the before-image that the tree has at that moment.
-/

namespace ForgeCore.Effects

open List

def writePath (root : String) (write : EffectWrite) : Option Path :=
  (resolveEffectTarget root write.targetKind write.reference).toOption.bind
    fun resolved => (retainedNames root resolved.2).toOption

/-- What a declared write puts in the place of the current content. -/
def declaredContent (payloads : List EffectApplicationPayload)
    (write : EffectWrite) (current : Option Content) : Option Content :=
  let payload := (payloadFor payloads write.reference).map (·.content)
  match write.accessMode with
  | .create | .write => payload
  | .append => payload.map (current.getD [] ++ ·)
  | .delete => none
  | .read => current

/-- The files after the declared writes, one after the other. -/
def declaredFiles (root : String) (payloads : List EffectApplicationPayload) :
    List EffectWrite → (Path → Option Content) → Path → Option Content
  | [], files => files
  | write :: rest, files =>
    declaredFiles root payloads rest (match writePath root write with
        | none => files
        | some path => Function.update files path (declaredContent payloads write (files path)))

variable {input output : Type} {check : input → Except Refusal output} {items : List input}

theorem checkAll_ok (accepted : (checkAll check items).1 = []) :
    List.Forall₂ (fun item checked => check item = .ok checked) items (checkAll check items).2 := by
  induction items with
  | nil => exact List.Forall₂.nil
  | cons item rest ih =>
    unfold checkAll at accepted ⊢
    cases checked : check item with
    | error refusal => simp [checked] at accepted
    | ok output =>
      rw [checked] at accepted
      exact List.Forall₂.cons checked (ih accepted)

theorem forall₂_chain {first second third : Type} {before : first → second → Prop}
    {after : second → third → Prop} {both : first → third → Prop}
    {inputs : List first} {middles : List second} {outputs : List third}
    (firstCheck : List.Forall₂ before inputs middles)
    (secondCheck : List.Forall₂ after middles outputs) (chain : ∀ input middle output,
      before input middle → after middle output → both input output) :
    List.Forall₂ both inputs outputs := by
  induction firstCheck generalizing outputs with
  | nil =>
    cases secondCheck
    exact List.Forall₂.nil
  | cons checked _ ih =>
    cases secondCheck with
    | cons checkedNext restNext =>
      exact List.Forall₂.cons (chain _ _ _ checked checkedNext) (ih restNext)

theorem forall₂_mem {first second : Type} {related : first → second → Prop}
    {inputs : List first} {outputs : List second} {item : first}
    (all : List.Forall₂ related inputs outputs) (member : item ∈ inputs) :
    ∃ found ∈ outputs, related item found := by
  induction all with
  | nil => cases member
  | @cons _ found _ _ here rest ih =>
    rcases List.mem_cons.mp member with rfl | inRest
    · exact ⟨found, mem_cons_self, here⟩
    · obtain ⟨other, inOutputs, holds⟩ := ih inRest
      exact ⟨other, mem_cons_of_mem _ inOutputs, holds⟩

section Preflight

variable {store : EffectStore} {tree : FileTree} {payloads : List EffectApplicationPayload}

theorem captureOriginals_ok
    {writes : List PreparedWrite} {captured : List (PreparedWrite × OriginalFileState)}
    (result : captureOriginals store.sha256 store.root tree writes = .ok captured) :
    List.Forall₂ (fun write pair => captureOriginal store.sha256 store.root tree write = .ok pair)
      writes captured := by
  induction writes generalizing captured with
  | nil =>
    cases result
    exact List.Forall₂.nil
  | cons write rest ih =>
    obtain ⟨pair, first, others⟩ := Checked.bind_eq_ok.mp result
    obtain ⟨pairs, restOk, rfl⟩ := Checked.map_eq_ok.mp others
    exact List.Forall₂.cons first (ih restOk)

def EffectStore.fileOf (store : EffectStore) (reference : String) : Path :=
  (retainedNames store.root reference).toOption.getD []

def EffectStore.pathOf (store : EffectStore) (pair : PreparedWrite × OriginalFileState) : Path :=
  store.fileOf pair.1.physicalReference

/-- A declared write, its resolved target and its payload. -/
structure Bound (store : EffectStore)
    (payloads : List EffectApplicationPayload) (write : EffectWrite)
    (prepared : PreparedWrite) : Prop where
  place : writePath store.root write = some (store.fileOf prepared.physicalReference)
  normalized : normalizedEffectRelativePath prepared.physicalReference =
    some (store.fileOf prepared.physicalReference)
  retained : retainedNames store.root prepared.physicalReference =
    .ok (store.fileOf prepared.physicalReference)
  mode : PreparedAccessMode.fromContract write.accessMode = some prepared.accessMode
  payload : prepared.accessMode.isDelete = false → prepared.payloadContent =
      (payloadFor payloads write.reference).map (·.content)

/-- A captured write: what it is to install and what was there. -/
structure Prepared (store : EffectStore)
    (payloads : List EffectApplicationPayload) (tree : FileTree)
    (write : EffectWrite) (pair : PreparedWrite × OriginalFileState) : Prop where
  bound : Bound store payloads write pair.1
  ready : tree.creatable (store.pathOf pair) = true
  sameReference : pair.2.physicalReference = pair.1.physicalReference
  sameTarget : pair.2.target = pair.1.target
  captured : pair.2.captured = tree.content (store.pathOf pair)
  present : pair.1.accessMode.isDelete = true → pair.2.captured ≠ none
  installed : pair.2.installedContent =
    if pair.1.accessMode.isDelete then none else some pair.1.content
  declared : pair.2.installedContent =
    declaredContent payloads write (tree.content (store.pathOf pair))

variable {write : EffectWrite} {prepared : PreparedWrite}

theorem prepareFileWrite_bound
    (result : prepareFileWrite store.sha256 store.root tree payloads write = .ok prepared) :
    Bound store payloads write prepared := by
  unfold prepareFileWrite at result
  simp only [Checked.bind_eq_ok] at result
  obtain ⟨-, -, mode, modeOk, ⟨target, physicalRef⟩, resolvedOk, payload,
    payloadOk, present, -, -, -, -, -, -, -, content, -, last⟩ := result
  cases last
  have resolved : resolveEffectTarget store.root write.targetKind
      write.reference = .ok (target, physicalRef) := by
    unfold resolveWrite at resolvedOk
    split at resolvedOk
    · next pair known =>
      cases resolvedOk
      exact known
    · cases resolvedOk
    · cases resolvedOk
  obtain ⟨names, normalized, retained, -, -, -⟩ := resolveEffectTarget_ok resolved
  have file : store.fileOf physicalRef = names := by
    simp [EffectStore.fileOf, retained, Except.toOption]
  refine ⟨?_, ?_, ?_, ?_, ?_⟩
  · simp [writePath, resolved, retained, file, Except.toOption]
  · simpa [file] using normalized
  · simpa [file] using retained
  · unfold preparedAccessMode at modeOk
    split at modeOk
    · next known =>
      cases modeOk
      exact known
    · cases modeOk
  · intro keeps
    unfold selectPayload at payloadOk
    rw [if_pos (by simpa [PreparedAccessMode.requiresPayload] using keeps)] at payloadOk
    split at payloadOk
    · cases payloadOk
    · next found known =>
      split_ifs at payloadOk
      cases payloadOk
      simp [known]

theorem revalidatePreparedWrite_ok
    {write : PreparedWrite}
    (result : revalidatePreparedWrite store.sha256 store.root tree write = .ok prepared) :
    ∃ content, prepared = { write with content } ∧
      (write.accessMode = .create ∨ write.accessMode = .write →
        write.payloadContent = some content) := by
  unfold revalidatePreparedWrite at result
  simp only [Checked.bind_eq_ok] at result
  obtain ⟨-, -, present, -, -, -, -, -, content, contentOk, last⟩ := result
  cases last
  refine ⟨content, rfl, ?_⟩
  intro plain
  unfold preparedContent at contentOk
  rcases plain with mode | mode <;> rw [mode] at contentOk <;>
    cases known : write.payloadContent with
    | none => simp [known] at contentOk
    | some bytes => simpa [known] using contentOk

theorem captureOriginal_ok
    {write : PreparedWrite}
    (retained : retainedNames store.root write.physicalReference = .ok path)
    (result : captureOriginal store.sha256 store.root tree write = .ok pair) :
    ∃ installed, pair.1 = { write with content := installed } ∧ pair.2 =
          { target := write.target
            physicalReference := write.physicalReference
            existed := (tree.content path).isSome
            content := (tree.content path).getD []
            installedContent :=
              if write.accessMode.isDelete then none else some installed } ∧
          tree.creatable path = true ∧ (write.accessMode = .delete → tree.content path ≠ none) ∧
              (write.accessMode = .append →
                write.payloadContent.map ((tree.content path).getD [] ++ ·) = some installed) ∧
                (write.accessMode ≠ .append → installed = write.content) := by
  unfold captureOriginal at result
  obtain ⟨⟨existed, content⟩, found, checked⟩ := Checked.bind_eq_ok.mp result
  have read : tree.creatable path = true ∧ existed = (tree.content path).isSome ∧
        content = (tree.content path).getD [] := by
    have source : readAuthorityFile store.root tree write.physicalReference = tree.read path := by
      rw [readAuthorityFile, retained]
      rfl
    rw [source] at found
    split at found
    · next bytes known =>
      have there := FileTree.read_eq_ok.mp known
      cases found
      exact ⟨FileTree.creatable_of_content there, by simp [there]⟩
    · next known =>
      obtain ⟨ready, missing⟩ := FileTree.read_eq_notFound.mp known
      cases found
      exact ⟨ready, by simp [missing]⟩
    · cases found
  obtain ⟨ready, rfl, rfl⟩ := read
  dsimp only at checked
  by_cases presence : (expectedPresence write.accessMode).any
      (· != (tree.content path).isSome) = true
  · rw [if_pos presence] at checked
    cases checked
  rw [if_neg presence] at checked
  split at checked
  · cases checked
  obtain ⟨installed, installedOk, last⟩ := Checked.bind_eq_ok.mp checked
  cases last
  refine ⟨installed, rfl, rfl, ready, ?_, ?_, ?_⟩
  · intro mode missing
    simp [mode, missing, expectedPresence] at presence
  · intro mode
    rw [mode] at installedOk
    cases known : write.payloadContent with
    | none => simp [known] at installedOk
    | some bytes =>
      simp only [known, Except.ok.injEq] at installedOk
      simpa using installedOk
  · intro mode
    split at installedOk
    · next known _ => exact absurd known mode
    · next known _ => exact absurd known mode
    · cases installedOk
      rfl

theorem prepared_of_checks {first second : PreparedWrite} {pair : PreparedWrite × OriginalFileState}
    (prepared : prepareFileWrite store.sha256 store.root tree payloads write = .ok first)
    (revalidated : revalidatePreparedWrite store.sha256 store.root tree first = .ok second)
    (captured : captureOriginal store.sha256 store.root tree second = .ok pair) :
    Prepared store payloads tree write pair := by
  have bound := prepareFileWrite_bound prepared
  obtain ⟨content, rfl, plain⟩ := revalidatePreparedWrite_ok revalidated
  have retained : retainedNames store.root
      ({ first with content } : PreparedWrite).physicalReference =
        .ok (store.fileOf first.physicalReference) := bound.retained
  obtain ⟨installed, firstEq, secondEq, ready, present, appended, kept⟩ :=
    captureOriginal_ok retained captured
  obtain ⟨final, original⟩ := pair
  dsimp only at firstEq secondEq
  subst firstEq secondEq
  have capturedEq (found : Option Content) :
      capturedContent found.isSome (found.getD []) = found := by
    cases found with
    | none => rfl
    | some bytes => rfl
  refine ⟨⟨bound.place, bound.normalized, bound.retained, bound.mode,
    bound.payload⟩, ready, rfl, rfl, capturedEq _, ?_, rfl, ?_⟩
  · intro isDelete
    rw [OriginalFileState.captured, capturedEq]
    apply present
    cases known : first.accessMode with
    | delete => rfl
    | create | write => simp [known, PreparedAccessMode.isDelete] at isDelete
    | append => simp [known, PreparedAccessMode.isDelete] at isDelete
  · have mode := bound.mode
    have payload := bound.payload
    dsimp only at present appended kept ⊢
    cases known : first.accessMode with
    | create =>
      rw [known] at mode payload plain kept
      have declaredMode : write.accessMode = .create := by
        cases declared : write.accessMode <;>
          simp [declared, PreparedAccessMode.fromContract] at mode ⊢
      rw [kept (by simp), declaredContent, declaredMode, ← payload rfl, plain (by simp)]
      rfl
    | write =>
      rw [known] at mode payload plain kept
      have declaredMode : write.accessMode = .write := by
        cases declared : write.accessMode <;>
          simp [declared, PreparedAccessMode.fromContract] at mode ⊢
      rw [kept (by simp), declaredContent, declaredMode, ← payload rfl, plain (by simp)]
      rfl
    | append =>
      rw [known] at mode payload appended
      have declaredMode : write.accessMode = .append := by
        cases declared : write.accessMode <;>
          simp [declared, PreparedAccessMode.fromContract] at mode ⊢
      rw [declaredContent, declaredMode, ← payload rfl]
      exact (appended rfl).symm
    | delete =>
      rw [known] at mode
      have declaredMode : write.accessMode = .delete := by
        cases declared : write.accessMode <;>
          simp [declared, PreparedAccessMode.fromContract] at mode ⊢
      rw [declaredContent, declaredMode]
      rfl

variable {document : ToolEffectContractDocument}
  {captured : List (PreparedWrite × OriginalFileState)}

theorem preflight_checks
    (result : store.preflight document payloads tree = .ok captured) :
    let prepared := prepareFileWrites store.sha256 store.root tree payloads
      document.toolEffectContract.writeSet
    let revalidated := revalidatePreparedWrites store.sha256 store.root tree
      prepared.2
    prepared.1 = [] ∧ revalidated.1 = [] ∧
      captureOriginals store.sha256 store.root tree revalidated.2 = .ok captured := by
  unfold EffectStore.preflight at result
  dsimp only at result ⊢
  generalize (if errorCount (validateToolEffect document) > 0 then
    [EffectApplicationReason.effectValidationErrors] else []) = invalid at result
  split at result
  · cases result
  · next accepted =>
    split at result
    · cases result
    · next unchanged =>
      split at result
      · cases result
      · next pairs capturedOk =>
        cases result
        simp only [ne_eq, not_not, append_eq_nil_iff, map_eq_nil_iff] at accepted unchanged
        exact ⟨accepted.2.2, unchanged, capturedOk⟩

/-- Every declared write is prepared when the preflight passes. -/
theorem preflight_ok (result : store.preflight document payloads tree = .ok captured) :
    List.Forall₂ (Prepared store payloads tree) document.toolEffectContract.writeSet captured := by
  obtain ⟨accepted, unchanged, capturedOk⟩ := preflight_checks result
  have revalidated : List.Forall₂ (fun first pair => ∃ second,
        revalidatePreparedWrite store.sha256 store.root tree first = .ok second ∧
          captureOriginal store.sha256 store.root tree second = .ok pair) _ captured :=
    forall₂_chain (checkAll_ok unchanged) (captureOriginals_ok capturedOk)
      (fun _ second _ checked captured => ⟨second, checked, captured⟩)
  apply forall₂_chain (checkAll_ok accepted) revalidated
  rintro write first pair prepared ⟨second, checked, captured⟩
  exact prepared_of_checks prepared checked captured

/-! ## As far as the tree is read -/

theorem checkAll_congr
    {other : input → Except Refusal output} (same : ∀ item ∈ items, check item = other item) :
    checkAll check items = checkAll other items := by
  induction items with
  | nil => rfl
  | cons item rest ih =>
    unfold checkAll
    rw [same item mem_cons_self, ih fun other member => same other (mem_cons_of_mem _ member)]

theorem mem_checkAll {checked : output} (member : checked ∈ (checkAll check items).2) :
    ∃ item ∈ items, check item = .ok checked := by
  induction items with
  | nil => cases member
  | cons item rest ih =>
    unfold checkAll at member
    cases known : check item with
    | error refusal =>
      rw [known] at member
      obtain ⟨found, inRest, ok⟩ := ih member
      exact ⟨found, mem_cons_of_mem _ inRest, ok⟩
    | ok output =>
      rw [known] at member
      rcases List.mem_cons.mp member with rfl | later
      · exact ⟨item, mem_cons_self, known⟩
      · obtain ⟨found, inRest, ok⟩ := ih later
        exact ⟨found, mem_cons_of_mem _ inRest, ok⟩

variable {other : FileTree}

/-- Two trees that read the same where the effect reads or writes. -/
structure SameReads (root : String) (document : ToolEffectContractDocument)
    (tree other : FileTree) : Prop where
  reads : ∀ read ∈ document.toolEffectContract.readSet, ∀ physicalRef,
      effectTargetPhysicalReference read.targetKind read.reference = .ok physicalRef →
        readAuthorityFile root tree physicalRef = readAuthorityFile root other physicalRef
  writes : ∀ write ∈ document.toolEffectContract.writeSet, ∀ resolved,
    resolveWrite root write = .ok resolved → readAuthorityFile root tree resolved.2 =
        readAuthorityFile root other resolved.2

theorem validateFileBackedRead_congr {read : EffectRead} (same : ∀ physicalRef,
      effectTargetPhysicalReference read.targetKind read.reference = .ok physicalRef →
      readAuthorityFile store.root tree physicalRef =
      readAuthorityFile store.root other physicalRef) :
    validateFileBackedRead store.sha256 store.root tree read =
      validateFileBackedRead store.sha256 store.root other read := by
  unfold validateFileBackedRead
  cases known : effectTargetPhysicalReference read.targetKind read.reference with
  | error failure => rfl
  | ok physicalRef => simp only [same physicalRef known]

theorem prepareFileWrite_congr (same : ∀ resolved, resolveWrite store.root write = .ok resolved →
      readAuthorityFile store.root tree resolved.2 =
      readAuthorityFile store.root other resolved.2) :
    prepareFileWrite store.sha256 store.root tree payloads write =
      prepareFileWrite store.sha256 store.root other payloads write := by
  unfold prepareFileWrite
  cases known : resolveWrite store.root write with
  | error refusal => rfl
  | ok resolved =>
    simp only [inspectTarget, authorityLeafExists, checkFreshness,
      preparedContent, same resolved known, Checked.ok_bind]

theorem prepareFileWrite_physical
    (result : prepareFileWrite store.sha256 store.root tree payloads write = .ok prepared) :
    ∃ target, resolveWrite store.root write = .ok (target, prepared.physicalReference) := by
  unfold prepareFileWrite at result
  simp only [Checked.bind_eq_ok] at result
  obtain ⟨-, -, mode, -, resolved, resolves, payload, -, present, -, -, -, -,
    -, -, -, content, -, last⟩ := result
  cases last
  exact ⟨resolved.1, resolves⟩

theorem revalidatePreparedWrite_congr
    {write : PreparedWrite} (same : readAuthorityFile store.root tree write.physicalReference =
      readAuthorityFile store.root other write.physicalReference) :
    revalidatePreparedWrite store.sha256 store.root tree write =
      revalidatePreparedWrite store.sha256 store.root other write := by
  unfold revalidatePreparedWrite
  simp only [inspectTarget, authorityLeafExists, checkFreshness, preparedContent, same]

theorem captureOriginals_congr {writes : List PreparedWrite} (same : ∀ write ∈ writes,
      readAuthorityFile store.root tree write.physicalReference =
      readAuthorityFile store.root other write.physicalReference) :
    captureOriginals store.sha256 store.root tree writes =
      captureOriginals store.sha256 store.root other writes := by
  induction writes with
  | nil => rfl
  | cons write rest ih =>
    have first : captureOriginal store.sha256 store.root tree write =
        captureOriginal store.sha256 store.root other write := by
      unfold captureOriginal
      rw [same write mem_cons_self]
    unfold captureOriginals
    rw [first, ih fun later member =>
      same later (mem_cons_of_mem _ member)]

/-- The checks of an effect depend on nothing else in the tree. -/
theorem preflight_congr (same : SameReads store.root document tree other) :
    store.preflight document payloads tree = store.preflight document payloads other := by
  have reads : checkAll (validateFileBackedRead store.sha256 store.root
      tree) document.toolEffectContract.readSet =
        checkAll (validateFileBackedRead store.sha256 store.root other)
          document.toolEffectContract.readSet := checkAll_congr fun read member =>
      validateFileBackedRead_congr (same.reads read member)
  have prepared : prepareFileWrites store.sha256 store.root tree payloads
      document.toolEffectContract.writeSet =
        prepareFileWrites store.sha256 store.root other payloads
          document.toolEffectContract.writeSet := checkAll_congr fun write member =>
      prepareFileWrite_congr (same.writes write member)
  unfold EffectStore.preflight
  dsimp only
  rw [reads, prepared]
  generalize preparedIs : prepareFileWrites store.sha256 store.root other
    payloads document.toolEffectContract.writeSet = outcome
  have here : ∀ write ∈ outcome.2, readAuthorityFile store.root tree write.physicalReference =
        readAuthorityFile store.root other write.physicalReference := by
    intro write member
    rw [← preparedIs, prepareFileWrites] at member
    obtain ⟨declared, inWriteSet, result⟩ := mem_checkAll member
    obtain ⟨target, resolves⟩ := prepareFileWrite_physical result
    exact same.writes declared inWriteSet (target, write.physicalReference) resolves
  have revalidated : revalidatePreparedWrites store.sha256 store.root tree outcome.2 =
        revalidatePreparedWrites store.sha256 store.root other outcome.2 :=
    checkAll_congr fun write member =>
      revalidatePreparedWrite_congr (here write member)
  rw [revalidated]
  generalize revalidatedIs : revalidatePreparedWrites store.sha256
    store.root other outcome.2 = final
  have captured : captureOriginals store.sha256 store.root tree final.2 =
      captureOriginals store.sha256 store.root other final.2 := by
    apply captureOriginals_congr
    intro write member
    rw [← revalidatedIs, revalidatePreparedWrites] at member
    obtain ⟨checked, inPrepared, result⟩ := mem_checkAll member
    obtain ⟨content, rfl, -⟩ := revalidatePreparedWrite_ok result
    exact here checked inPrepared
  rw [captured]

end Preflight

end ForgeCore.Effects
