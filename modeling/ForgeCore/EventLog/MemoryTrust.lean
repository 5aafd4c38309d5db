import ForgeCore.EventLog.MemoryRuns

/-!
# Authority and forgetting in the memory store

Authority above the floor comes from a promotion with enough evidence, and a
forgotten entry stays forgotten, as long as admissions keep to the floor and
never bring back an id that was forgotten.
-/

namespace ForgeCore.EventLog

open List Machine Text

namespace MemoryProjection

variable {projection : MemoryProjection}

theorem getElem?_admitted
    (sequence nowUnix : Nat) (entry : MemoryEntry) (id : String) :
    (MemoryDomain.apply projection
        (.admitted sequence nowUnix entry)).entries[id]? =
      if entry.entryId.value = id then some entry
      else projection.entries[id]? := by
  rw [MemoryDomain.apply]
  simp only [Std.ExtTreeMap.getElem?_insert, Std.LawfulEqCmp.compare_eq_iff_eq]

theorem getElem?_promoted
    (sequence nowUnix : Nat) (entryId : StableId)
    (before after : AuthorityLevel) (refs : List String)
    (live : projection.entries[entryId.value]? = some existing)
    (id : String) :
    (MemoryDomain.apply projection
        (.promoted sequence nowUnix entryId before after
          refs)).entries[id]? =
      if entryId.value = id then
        some { existing with authorityLevel := some after }
      else projection.entries[id]? := by
  simp only [MemoryDomain.apply, live, Std.ExtTreeMap.getElem?_insert,
    Std.LawfulEqCmp.compare_eq_iff_eq]

theorem getElem?_forgotten
    (sequence nowUnix : Nat) (before : MemoryEntry) (hash id : String) :
    (MemoryDomain.apply projection
        (.forgotten sequence nowUnix before hash)).entries[id]? =
      if before.entryId.value = id then none
      else projection.entries[id]? := by
  rw [MemoryDomain.apply]
  simp only [Std.ExtTreeMap.getElem?_erase, Std.LawfulEqCmp.compare_eq_iff_eq]

end MemoryProjection

open MemoryProjection

theorem entries_applied_concat (events : List MemoryEvent) (event : MemoryEvent) :
    (applied memoryDomain (events ++ [event])).entries =
      (MemoryDomain.apply (applied memoryDomain events) event).entries := by
  rw [applied_concat]
  rfl

theorem superseded_applied_concat (events : List MemoryEvent) (event : MemoryEvent) :
    (applied memoryDomain (events ++ [event])).superseded =
      (MemoryDomain.apply (applied memoryDomain events) event).superseded := by
  rw [applied_concat]
  rfl

theorem getElem?_applied_admitted
    (events : List MemoryEvent) (sequence nowUnix : Nat) (entry : MemoryEntry) :
    (applied memoryDomain (events ++ [.admitted sequence nowUnix entry])).entries[
      entry.entryId.value]? = some entry := by
  rw [entries_applied_concat, getElem?_admitted, if_pos rfl]

/-- Every live entry is filed under its own id and has a confidence that the
reader accepts. -/
def Filed (projection : MemoryProjection) : Prop :=
  ∀ (id : String) (entry : MemoryEntry), projection.entries[id]? = some entry →
      entry.entryId.value = id ∧ entry.confidence ≤ maxConfidence

theorem Filed.apply {projection : MemoryProjection} (filed : Filed projection) {event : MemoryEvent}
    (formed : event.WellFormed) : Filed (MemoryDomain.apply projection event) := by
  intro id entry found
  cases event with
  | admitted sequence nowUnix admitted =>
    rw [getElem?_admitted] at found
    split at found
    · next same =>
      cases found
      exact ⟨same, formed⟩
    · exact filed id entry found
  | promoted sequence nowUnix entryId before after refs =>
    cases live : projection.entries[entryId.value]? with
    | none =>
      simp only [MemoryDomain.apply, live] at found
      exact filed id entry found
    | some existing =>
      rw [getElem?_promoted sequence nowUnix entryId before after refs live] at found
      split at found
      · next same =>
        cases found
        rw [← same]
        exact filed entryId.value existing live
      · exact filed id entry found
  | forgotten sequence nowUnix before hash =>
    rw [getElem?_forgotten] at found
    split at found
    · cases found
    · exact filed id entry found

theorem filed_replay (formed : ∀ event ∈ events, event.WellFormed) :
    Filed (replay memoryDomain events) := by
  induction events using List.reverseRecOn with
  | nil =>
    intro id entry found
    simp [replay, memoryDomain] at found
  | append_singleton events event ih =>
    have filed := ih fun other member => formed other (mem_append_left _ member)
    rw [replay, foldl_append, foldl_cons, foldl_nil, ← replay, applyEvent]
    split
    · exact filed
    · exact filed.apply (formed event (by simp))

theorem SoundMemory.filed {prims : MemoryPrimitives} {file : List UInt8} {events : List MemoryEvent}
    (sound : SoundMemory prims file events) : Filed (applied memoryDomain events) := by
  rw [← replay_numbered sound.numbered]
  exact filed_replay sound.formed

/-! ## What a call does to an entry -/

theorem applyEvent_next
    {projection : MemoryProjection} {event : MemoryEvent}
    (number : event.sequence = projection.sequence + 1) :
    applyEvent memoryDomain projection event =
      { MemoryDomain.apply projection event with sequence := projection.sequence + 1 } := by
  have isNew : ¬ event.sequence ≤ projection.sequence := by omega
  have fresh : (0 < projection.sequence && event.sequence ≤ projection.sequence) = false := by
    simp [isNew]
  rw [applyEvent, ← number]
  exact if_neg (Bool.not_eq_true _ ▸ fresh)

/-- A sweep files each flip under its id, the last one where there are
several. -/
theorem replay_flipEvents
    (nowUnix : Nat) (entries : List MemoryEntry) :
    ∀ projection : MemoryProjection, ∃ swept,
      (flipEvents nowUnix projection.sequence entries).foldl (applyEvent memoryDomain)
        projection = { projection with
          sequence := projection.sequence + entries.length
          entries := swept } ∧
      ∀ id : String, swept[id]? =
        (entries.reverse.find? (·.entryId.value = id)).or projection.entries[id]? := by
  induction entries with
  | nil =>
    intro projection
    exact ⟨projection.entries, rfl, fun id => rfl⟩
  | cons first rest ih =>
    intro projection
    obtain ⟨swept, isSwept, lookups⟩ := ih { projection with
      sequence := projection.sequence + 1
      entries := projection.entries.insert first.entryId.value first }
    refine ⟨swept, ?_, ?_⟩
    · rw [flipEvents, foldl_cons, applyEvent_next rfl, length_cons, Nat.add_comm rest.length,
        ← Nat.add_assoc]
      exact isSwept
    · intro id
      rw [lookups, reverse_cons, find?_append, Option.or_assoc]
      simp only [Std.ExtTreeMap.getElem?_insert, Std.LawfulEqCmp.compare_eq_iff_eq,
        find?_cons, find?_nil]
      by_cases same : first.entryId.value = id <;> simp [same]

theorem mem_newlyStale (filed : Filed projection) :
    entry ∈ newlyStale projection nowUnix ↔ ∃ original,
      projection.entries[entry.entryId.value]? = some original ∧
        original.freshness.stale = false ∧ entry = markStale nowUnix original ∧
        entry.freshness.stale = true := by
  rw [newlyStale, mem_filter, List.mem_map]
  simp only [List.mem_map, Bool.and_eq_true]
  constructor
  · rintro ⟨⟨original, ⟨pair, inEntries, rfl⟩, rfl⟩, stale, fresh⟩
    have live := Std.ExtTreeMap.mem_toList_iff_getElem?_eq_some.mp inEntries
    have isKey : (markStale nowUnix pair.2).entryId.value = pair.1 := (filed _ _ live).1
    rw [isKey, live, Option.any_some, Bool.not_eq_true'] at fresh
    exact ⟨pair.2, by rw [isKey, live], fresh, rfl, stale⟩
  · rintro ⟨original, live, fresh, rfl, stale⟩
    have inEntries := Std.ExtTreeMap.mem_toList_iff_getElem?_eq_some.mpr live
    refine ⟨⟨original, ⟨_, inEntries, rfl⟩, rfl⟩, stale, ?_⟩
    rw [live, Option.any_some, fresh]
    rfl

/-- Where a live entry comes from: it was there before the call, or the call
admits it, promotes it or marks it as stale. -/
theorem Appends.origin
    {prims : MemoryPrimitives} {projection : MemoryProjection} (filed : Filed projection)
    {call : MemoryCall} {new : List MemoryEvent} (appends : Appends prims projection call new)
    {id : String} {entry : MemoryEntry} (found :
      (new.foldl (applyEvent memoryDomain) projection).entries[id]? = some entry) :
    projection.entries[id]? = some entry ∨
      (∃ policy nowUnix, call = .admission entry policy nowUnix ∧ entry.entryId.value = id) ∨
      (∃ entryId policy evidence nowUnix existing,
        call = .promote entryId policy evidence nowUnix ∧ entryId.value = id ∧
        projection.entries[id]? = some existing ∧ canPromote existing policy evidence = .allowed ∧
        new = [.promoted (projection.sequence + 1) nowUnix entryId
          existing.authorityLevelEffective .authority (distinctNonEmpty evidence.evidenceRefs)] ∧
        entry = { existing with authorityLevel := some .authority }) ∨
      ∃ nowUnix original, projection.entries[id]? = some original ∧
        entry = markStale nowUnix original := by
  cases appends with
  | nothing => exact .inl found
  | admitted admittedEntry policy nowUnix allowed =>
    rw [foldl_cons, foldl_nil, applyEvent_next rfl, getElem?_admitted] at found
    split at found
    · next same =>
      cases found
      exact .inr (.inl ⟨policy, nowUnix, rfl, same⟩)
    · exact .inl found
  | promoted entryId policy evidence nowUnix existing live allowed =>
    rw [foldl_cons, foldl_nil, applyEvent_next rfl, getElem?_promoted _ _ _ _ _ _ live] at found
    split at found
    · next same =>
      cases found
      rw [same] at live
      exact .inr (.inr (.inl
        ⟨entryId, policy, evidence, nowUnix, existing, rfl, same, live, allowed, rfl, rfl⟩))
    · exact .inl found
  | forgotten entryId nowUnix before notForgotten live =>
    rw [foldl_cons, foldl_nil, applyEvent_next rfl, getElem?_forgotten] at found
    split at found
    · cases found
    · exact .inl found
  | flipped nowUnix entries stale =>
    obtain ⟨swept, isSwept, lookups⟩ := replay_flipEvents nowUnix entries projection
    rw [isSwept, lookups, Option.or_eq_some_iff] at found
    rcases found with flipped | ⟨-, earlier⟩
    · have member := List.mem_reverse.mp (mem_of_find?_eq_some flipped)
      have same : entry.entryId.value = id := by simpa using find?_some flipped
      obtain ⟨original, live, -, isEntry, -⟩ := (mem_newlyStale filed).mp (stale entry member)
      rw [same] at live
      exact .inr (.inr (.inr ⟨nowUnix, original, live, isEntry⟩))
    · exact .inl earlier

/-- A call does not forget what is live behind it. -/
theorem Appends.superseded
    {prims : MemoryPrimitives} {projection : MemoryProjection} {call : MemoryCall}
    {new : List MemoryEvent} (appends : Appends prims projection call new)
    {id : String} {entry : MemoryEntry} (found :
      (new.foldl (applyEvent memoryDomain) projection).entries[id]? = some entry) :
    (new.foldl (applyEvent memoryDomain) projection).superseded.contains id =
      projection.superseded.contains id := by
  cases appends with
  | nothing => rfl
  | admitted => rw [foldl_cons, foldl_nil, applyEvent_next rfl]; rfl
  | promoted entryId policy evidence nowUnix existing live allowed =>
    rw [foldl_cons, foldl_nil, applyEvent_next rfl]
    simp only [MemoryDomain.apply, live]
  | forgotten entryId nowUnix before notForgotten live =>
    rw [foldl_cons, foldl_nil, applyEvent_next rfl, getElem?_forgotten] at found
    rw [foldl_cons, foldl_nil, applyEvent_next rfl, MemoryDomain.apply]
    split at found
    · cases found
    · next other => simp [Std.ExtTreeSet.contains_insert, other]
  | flipped nowUnix entries stale =>
    obtain ⟨swept, isSwept, -⟩ := replay_flipEvents nowUnix entries projection
    rw [isSwept]

theorem Appends.replay_eq
    {prims : MemoryPrimitives} {events new : List MemoryEvent} {call : MemoryCall}
    (numbered : Numbered memoryDomain events)
    (appends : Appends prims (applied memoryDomain events) call new) :
    applied memoryDomain (events ++ new) =
      new.foldl (applyEvent memoryDomain) (applied memoryDomain events) := by
  rw [← replay_numbered (appends.numbered numbered), ← replay_numbered numbered, replay,
    foldl_append, ← replay]

theorem distinctNonEmpty_concat (refs : List String) (ref : String) :
    distinctNonEmpty (refs ++ [ref]) =
      if (trim ref).isEmpty || (distinctNonEmpty refs).contains (trim ref)
      then distinctNonEmpty refs
      else distinctNonEmpty refs ++ [trim ref] := by
  rw [distinctNonEmpty, foldl_append, foldl_cons, foldl_nil, ← distinctNonEmpty]

theorem distinctNonEmpty_spec (refs : List String) :
    (distinctNonEmpty refs).Nodup ∧ ∀ ref ∈ distinctNonEmpty refs, ref ≠ "" := by
  induction refs using List.reverseRecOn with
  | nil => exact ⟨nodup_nil, fun _ member => absurd member not_mem_nil⟩
  | append_singleton refs ref ih =>
    obtain ⟨distinct, present⟩ := ih
    rw [distinctNonEmpty_concat]
    split
    · exact ⟨distinct, present⟩
    · next fresh =>
      simp only [Bool.or_eq_true, not_or, contains_iff_mem] at fresh
      constructor
      · rw [nodup_append]
        refine ⟨distinct, nodup_singleton _, ?_⟩
        intro other member last isLast same
        rw [List.mem_singleton.mp isLast] at same
        rw [same] at member
        exact fresh.2 member
      · intro other member
        rcases List.mem_append.mp member with before | isLast
        · exact present other before
        · rw [List.mem_singleton.mp isLast]
          intro empty
          exact fresh.1 (String.isEmpty_iff.mpr empty)

theorem evidence_of_canPromote
    {entry : MemoryEntry} {policy : MemoryPolicy} {evidence : AdmissionEvidence}
    (allowed : canPromote entry policy evidence = .allowed) :
    max 1 policy.minEvidenceRefsForAuthority ≤ (distinctNonEmpty evidence.evidenceRefs).length := by
  by_contra few
  have refused : canPromote entry policy evidence =
        .blocked [.insufficientEvidenceForAuthority] := by
    rw [canPromote]
    apply if_pos
    rw [Bool.or_eq_true, decide_eq_true_eq, decide_eq_true_eq, countDistinctNonEmpty]
    omega
  rw [refused] at allowed
  cases allowed

section Authority

variable (prims : MemoryPrimitives)

/-- An earlier call promoted the id: it appended a promotion with as many
distinct references as its policy asks for, and at least one. -/
def Vouched (calls : List MemoryCall) (id : String) : Prop :=
  ∃ before entryId policy evidence nowUnix after sequence level refs, calls = before ++
          MemoryCall.promote entryId policy evidence nowUnix :: after ∧ entryId.value = id ∧
      memoryFile prims (before ++ [MemoryCall.promote entryId policy evidence nowUnix]) =
        append prims.codec (memoryFile prims before)
          (.promoted sequence nowUnix entryId level .authority refs) ∧
      refs.Nodup ∧ (∀ ref ∈ refs, ref ≠ "") ∧ max 1 policy.minEvidenceRefsForAuthority ≤ refs.length

variable {prims}

theorem Vouched.concat
    {calls : List MemoryCall} {id : String} (vouched : Vouched prims calls id) (call : MemoryCall) :
    Vouched prims (calls ++ [call]) id := by
  obtain ⟨before, entryId, policy, evidence, nowUnix, after, sequence,
    level, refs, split, rest⟩ := vouched
  refine ⟨before, entryId, policy, evidence, nowUnix, after ++ [call],
    sequence, level, refs, ?_, rest⟩
  rw [split, append_assoc, cons_append]

variable (prims) in
/-- Whatever is above the floor was promoted, and nothing was reviewed. -/
def Trusted (calls : List MemoryCall) (projection : MemoryProjection) :
    Prop :=
  ∀ (id : String) (entry : MemoryEntry), projection.entries[id]? = some entry →
      (entry.authorityLevelEffective ≠ .raw → Vouched prims calls id) ∧
      entry.reviewStateEffective = .unreviewed

/-- The entry of an admission is on the floor of both axes. -/
def MemoryCall.OnFloor : MemoryCall → Prop
  | .admission entry _ _ =>
    entry.authorityLevelEffective = .raw ∧ entry.reviewStateEffective = .unreviewed
  | _ => True

theorem Trusted.step {calls : List MemoryCall} {call : MemoryCall} {events new : List MemoryEvent}
    (sound : SoundMemory prims (memoryFile prims calls) events)
    (trusted : Trusted prims calls (applied memoryDomain events)) (onFloor : call.OnFloor)
    (appends : Appends prims (applied memoryDomain events) call new) (isFile :
      memoryFile prims (calls ++ [call]) = memoryFile prims calls ++ eventLines prims.codec new) :
    Trusted prims (calls ++ [call]) (applied memoryDomain (events ++ new)) := by
  have kept : Trusted prims (calls ++ [call]) (applied memoryDomain events) := by
    intro id entry found
    obtain ⟨vouched, unreviewed⟩ := trusted id entry found
    exact ⟨fun above => (vouched above).concat call, unreviewed⟩
  intro id entry found
  rw [appends.replay_eq sound.numbered] at found
  rcases appends.origin sound.filed found with earlier | ⟨policy, nowUnix, rfl, -⟩ |
    ⟨entryId, policy, evidence, nowUnix, existing, rfl, same, live, allowed, rfl, rfl⟩ |
    ⟨nowUnix, original, live, rfl⟩
  · exact kept id entry earlier
  · exact ⟨fun above => absurd onFloor.1 above, onFloor.2⟩
  · refine ⟨fun _ => ?_, (kept id existing live).2⟩
    obtain ⟨distinct, present⟩ := distinctNonEmpty_spec evidence.evidenceRefs
    exact ⟨calls, entryId, policy, evidence, nowUnix, [], _, _, _,
      rfl, same, isFile.trans (append_eq _ _).symm, distinct, present,
      evidence_of_canPromote allowed⟩
  · exact kept id original live

end Authority

/-- In a run whose admissions keep to the floor, every entry above the floor
was promoted with enough evidence, and no entry is reviewed. -/
theorem memory_authority_needs_promotion
    (prims : MemoryPrimitives)
    (lawful : prims.codec.Lawful MemoryEvent.WellFormed)
    (calls : List MemoryCall)
    (onFloor : ∀ call ∈ calls, call.OnFloor)
    (projection : MemoryProjection)
    (readable : project prims (memoryFile prims calls) = .ok projection) :
    ∀ (id : String) (entry : MemoryEntry),
      projection.entries[id]? = some entry →
      (entry.authorityLevelEffective ≠ .raw → Vouched prims calls id) ∧
      entry.reviewStateEffective = .unreviewed := by
  have start : Trusted prims [] memoryDomain.empty := by
    intro id entry found
    simp [memoryDomain] at found
  have reached := @memoryFile_invariant prims lawful (Trusted prims)
      (fun _ call => call.OnFloor) start
      (fun calls call events new sound trusted floor appends _ isFile =>
        trusted.step sound floor appends isFile)
      calls
      (fun before call after split =>
        onFloor call (by rw [split]; simp))
  rcases reached with ⟨events, sound, trusted⟩ | ⟨error, unreadable⟩
  · have same := (sound.replay_eq lawful).symm.trans readable
    rw [← Except.ok.inj same]
    exact trusted
  · rw [unreadable] at readable
    cases readable

namespace Sample

/-- The digest of the text of the entry, the only one that is forgotten. -/
def entryHash : String :=
  "sha256:a3733045279c7e82935d1dc18b89d3b29d14634c2d8c20c4658e4848474b7efc"

noncomputable def memoryPrimitives : MemoryPrimitives :=
  ⟨memoryCodec, fun _ => entryHash⟩

def policy : MemoryPolicy := ⟨[.preference], [], 1⟩

def authoritative : MemoryEntry :=
  { entry with authorityLevel := some .authority }

theorem admitted_once (allowed : canAdmit admittedEntry policy = .allowed)
    (formed : admittedEntry.confidence ≤ maxConfidence) :
    SoundMemory memoryPrimitives (memoryFile memoryPrimitives [.admission admittedEntry policy 0])
      [.admitted 1 0 admittedEntry] :=
  SoundMemory.admission memoryCodec_lawful sound_nil 0 (by decide) allowed formed

end Sample

/-- An entry that is admitted with authority has it without a promotion. -/
theorem admission_carries_authority :
    ∃ projection entry, project Sample.memoryPrimitives (memoryFile Sample.memoryPrimitives
      [.admission Sample.authoritative Sample.policy 0]) = .ok projection ∧
      projection.entries["m"]? = some entry ∧ entry.authorityLevelEffective = .authority ∧
      ¬ Vouched Sample.memoryPrimitives [.admission Sample.authoritative Sample.policy 0] "m" := by
  have sound := Sample.admitted_once (show canAdmit Sample.authoritative Sample.policy = .allowed by
        decide)
      (by decide)
  refine ⟨_, Sample.authoritative, sound.replay_eq memoryCodec_lawful, ?_, rfl, ?_⟩
  · exact getElem?_applied_admitted [] 1 0 Sample.authoritative
  · rintro ⟨before, entryId, policy, evidence, nowUnix, after, _, _, _, split, -⟩
    cases before with
    | nil => cases split
    | cons head tail =>
      have lengths := congrArg List.length split
      simp at lengths

/-- An entry is admitted on the floor and promoted with one reference. -/
theorem memory_authority_needs_promotion_promoted :
    let calls : List MemoryCall := [.admission Sample.entry Sample.policy 0,
        .promote ⟨"m"⟩ Sample.policy ⟨["review-1"]⟩ 0]
    ∃ projection entry, project Sample.memoryPrimitives
          (memoryFile Sample.memoryPrimitives calls) = .ok projection ∧
        projection.entries["m"]? = some entry ∧ entry.authorityLevelEffective = .authority ∧
        Vouched Sample.memoryPrimitives calls "m" ∧ entry.reviewStateEffective = .unreviewed := by
  intro calls
  have once := Sample.admitted_once (show canAdmit Sample.entry Sample.policy = .allowed by decide)
      (by decide)
  have live : (applied memoryDomain [.admitted 1 0 Sample.entry]).entries[
        (StableId.mk "m").value]? = some Sample.entry := getElem?_applied_admitted [] 1 0 _
  have sound := SoundMemory.promote memoryCodec_lawful once 0 (by decide) live
      (show canPromote Sample.entry Sample.policy ⟨["review-1"]⟩ = .allowed by decide +kernel)
  rw [← memoryFile_concat] at sound
  have readable := sound.replay_eq memoryCodec_lawful
  have promoted : (applied memoryDomain ([.admitted 1 0 Sample.entry] ++ [.promoted 2 0 ⟨"m"⟩
        Sample.entry.authorityLevelEffective .authority (distinctNonEmpty ["review-1"])])).entries[
        "m"]? = some { Sample.entry with authorityLevel := some .authority } := by
    rw [entries_applied_concat, getElem?_promoted _ _ _ _ _ _ live, if_pos rfl]
  obtain ⟨vouched, unreviewed⟩ := memory_authority_needs_promotion Sample.memoryPrimitives
    memoryCodec_lawful calls (by simp [calls, MemoryCall.OnFloor]; decide) _ readable "m" _ promoted
  exact ⟨_, _, readable, promoted, rfl, vouched (by decide), unreviewed⟩

/-- No live entry is forgotten. -/
def Apart (projection : MemoryProjection) : Prop :=
  ∀ (id : String) (entry : MemoryEntry), projection.entries[id]? = some entry →
      projection.superseded.contains id = false

/-- An admission does not bring back an id that was forgotten. -/
def MemoryCall.KeepsForgotten (prims : MemoryPrimitives) (file : List UInt8) : MemoryCall → Prop
  | .admission entry _ _ =>
    ∀ projection, project prims file = .ok projection →
      projection.superseded.contains entry.entryId.value = false
  | _ => True

theorem Apart.step {prims : MemoryPrimitives} (lawful : prims.codec.Lawful MemoryEvent.WellFormed)
    {file : List UInt8} {call : MemoryCall} {events new : List MemoryEvent}
    (sound : SoundMemory prims file events) (apart : Apart (applied memoryDomain events))
    (keeps : call.KeepsForgotten prims file)
    (appends : Appends prims (applied memoryDomain events) call new) :
    Apart (applied memoryDomain (events ++ new)) := by
  intro id entry found
  rw [appends.replay_eq sound.numbered] at found ⊢
  rw [appends.superseded found]
  rcases appends.origin sound.filed found with earlier | ⟨policy, nowUnix, rfl, same⟩ |
    ⟨_, _, _, _, existing, -, -, live, -⟩ | ⟨_, original, live, -⟩
  · exact apart id entry earlier
  · rw [← same]
    exact keeps (applied memoryDomain events) (sound.replay_eq lawful)
  · exact apart id existing live
  · exact apart id original live

/-- In a run that never admits a forgotten id again, no live entry is
forgotten, and forgetting a live entry removes it while there are numbers
left. -/
theorem forgotten_memory_stays_forgotten
    (prims : MemoryPrimitives)
    (lawful : prims.codec.Lawful MemoryEvent.WellFormed)
    (calls : List MemoryCall)
    (keeps : ∀ before call after,
      calls = before ++ call :: after →
      call.KeepsForgotten prims (memoryFile prims before))
    (projection : MemoryProjection)
    (readable : project prims (memoryFile prims calls) = .ok projection) :
    (∀ (id : String) (entry : MemoryEntry),
      projection.entries[id]? = some entry →
      projection.superseded.contains id = false) ∧
    ∀ (entryId : StableId) (entry : MemoryEntry) (nowUnix : Nat),
      projection.entries[entryId.value]? = some entry →
      projection.sequence < u64Max →
      ∃ after,
        project prims (memoryFile prims (calls ++ [.forget entryId nowUnix])) = .ok after ∧
        after.entries[entryId.value]? = none := by
  have start : Apart memoryDomain.empty := by
    intro id entry found
    simp [memoryDomain] at found
  have reached := @memoryFile_invariant prims lawful (fun _ => Apart) (fun before call =>
        call.KeepsForgotten prims (memoryFile prims before))
      start
      (fun _ _ _ _ sound apart keeping appends _ _ =>
        apart.step lawful sound keeping appends)
      calls keeps
  rcases reached with ⟨events, sound, apart⟩ | ⟨error, unreadable⟩
  · have same := (sound.replay_eq lawful).symm.trans readable
    rw [← Except.ok.inj same]
    refine ⟨apart, ?_⟩
    intro entryId entry nowUnix live below
    have current := sequenceOf_applied sound.numbered
    have filed := sound.filed entryId.value entry live
    have longer := SoundMemory.forget lawful sound nowUnix (by rw [← current]; exact below)
        (apart entryId.value entry live) live filed.2
    rw [← memoryFile_concat] at longer
    refine ⟨_, longer.replay_eq lawful, ?_⟩
    rw [entries_applied_concat, getElem?_forgotten, if_pos filed.1]
  · rw [unreadable] at readable
    cases readable

namespace Sample

theorem entry_allowed : canAdmit entry policy = .allowed := by
  decide

theorem superseded_admitted :
    (applied memoryDomain [.admitted 1 0 entry]).superseded.contains "m" = false := by
  have same := superseded_applied_concat [] (MemoryEvent.admitted 1 0 entry)
  rw [nil_append] at same
  rw [same]
  exact Std.ExtTreeSet.contains_empty

theorem superseded_forgotten :
    (applied memoryDomain [.admitted 1 0 entry, .forgotten 2 0 entry entryHash]).superseded.contains
      "m" = true := by
  have same := superseded_applied_concat [.admitted 1 0 entry]
    (MemoryEvent.forgotten 2 0 entry entryHash)
  rw [singleton_append] at same
  rw [same]
  exact Std.ExtTreeSet.contains_insert_self

theorem admitted_forgotten : SoundMemory memoryPrimitives (memoryFile memoryPrimitives
      [.admission entry policy 0, .forget ⟨"m"⟩ 0])
      [.admitted 1 0 entry, .forgotten 2 0 entry entryHash] := by
  have once := admitted_once entry_allowed (by decide)
  have live : (applied memoryDomain [.admitted 1 0 entry]).entries[
        (StableId.mk "m").value]? = some entry := getElem?_applied_admitted [] 1 0 entry
  have notForgotten : (applied memoryDomain [.admitted 1 0 entry]).superseded.contains
        (StableId.mk "m").value = false := superseded_admitted
  have longer := SoundMemory.forget memoryCodec_lawful once 0 (by decide) notForgotten live
      (by decide)
  rw [← memoryFile_concat] at longer
  exact longer

theorem admitted_again : SoundMemory memoryPrimitives (memoryFile memoryPrimitives
      [.admission entry policy 0, .forget ⟨"m"⟩ 0, .admission entry policy 0])
      [.admitted 1 0 entry, .forgotten 2 0 entry entryHash, .admitted 3 0 entry] := by
  have longer := SoundMemory.admission memoryCodec_lawful admitted_forgotten 0 (by decide)
      entry_allowed (by decide)
  rw [← memoryFile_concat] at longer
  exact longer

theorem admitted_again_projection :
    (applied memoryDomain [.admitted 1 0 entry, .forgotten 2 0 entry entryHash,
      .admitted 3 0 entry]).entries["m"]? = some entry ∧ (applied memoryDomain
      [.admitted 1 0 entry, .forgotten 2 0 entry entryHash,
      .admitted 3 0 entry]).superseded.contains "m" = true := by
  have same := superseded_applied_concat [.admitted 1 0 entry, .forgotten 2 0 entry entryHash]
      (MemoryEvent.admitted 3 0 entry)
  refine ⟨getElem?_applied_admitted [.admitted 1 0 entry, .forgotten 2 0 entry entryHash] 3 0
    entry, ?_⟩
  rw [cons_append, singleton_append] at same
  rw [same]
  exact superseded_forgotten

end Sample

/-- An id that is admitted again after it was forgotten is live and forgotten
at once, and can never be forgotten again. -/
theorem forgotten_memory_returns :
    let calls : List MemoryCall := [.admission Sample.entry Sample.policy 0, .forget ⟨"m"⟩ 0,
        .admission Sample.entry Sample.policy 0]
    ∃ projection, project Sample.memoryPrimitives
          (memoryFile Sample.memoryPrimitives calls) = .ok projection ∧
        projection.entries["m"]? = some Sample.entry ∧
        projection.superseded.contains "m" = true ∧
        memoryFile Sample.memoryPrimitives (calls ++ [.forget ⟨"m"⟩ 0]) =
          memoryFile Sample.memoryPrimitives calls := by
  intro calls
  have readable : project Sample.memoryPrimitives
        (memoryFile Sample.memoryPrimitives calls) = .ok _ :=
    Sample.admitted_again.replay_eq memoryCodec_lawful
  obtain ⟨live, superseded⟩ := Sample.admitted_again_projection
  refine ⟨_, readable, live, superseded, ?_⟩
  rw [memoryFile_concat, MemoryCall.file, forgetWithDurability]
  simp only [readable, superseded, if_true]

/-- One entry is admitted, then forgotten for good. -/
theorem forgotten_memory_stays_forgotten_once :
    ∃ after, project Sample.memoryPrimitives (memoryFile Sample.memoryPrimitives
      [.admission Sample.entry Sample.policy 0, .forget ⟨"m"⟩ 0]) =
      .ok after ∧ after.entries["m"]? = none := by
  have sound := Sample.admitted_once Sample.entry_allowed (by decide)
  have readable := sound.replay_eq memoryCodec_lawful
  have live : (applied memoryDomain [.admitted 1 0 Sample.entry]).entries["m"]? =
        some Sample.entry := getElem?_applied_admitted [] 1 0 Sample.entry
  have keeps : ∀ before call after, [MemoryCall.admission Sample.entry Sample.policy 0] =
            before ++ call :: after → call.KeepsForgotten Sample.memoryPrimitives
            (memoryFile Sample.memoryPrimitives before) := by
    intro before call after split
    cases before with
    | nil =>
      obtain ⟨rfl, -⟩ := List.cons.inj split
      intro projection empty
      have isEmpty : project Sample.memoryPrimitives [] = .ok memoryDomain.empty :=
        sound_nil.replay_eq memoryCodec_lawful
      rw [memoryFile, foldl_nil, isEmpty] at empty
      rw [← Except.ok.inj empty]
      rfl
    | cons head tail =>
      have lengths := congrArg List.length split
      simp at lengths
  have stays := forgotten_memory_stays_forgotten Sample.memoryPrimitives
      memoryCodec_lawful _ keeps _ readable
  exact stays.2 ⟨"m"⟩ Sample.entry 0 live (by decide)

end ForgeCore.EventLog
