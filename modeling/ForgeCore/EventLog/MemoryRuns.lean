import ForgeCore.EventLog.Json

/-!
# Runs of the memory store

What every call appends to the file, and that the file stays one that its
calls could have written.
-/

namespace ForgeCore.EventLog

open List Machine Text

def flipEvents (nowUnix : Nat) : Nat → List MemoryEntry → List MemoryEvent
  | _, [] => []
  | sequence, entry :: rest =>
    .admitted (sequence + 1) nowUnix entry :: flipEvents nowUnix (sequence + 1) rest

section Calls

variable (prims : MemoryPrimitives)

/-- The events that a call may append to a stream with a projection. -/
inductive Appends (projection : MemoryProjection) : MemoryCall → List MemoryEvent → Prop where
  | nothing (call : MemoryCall) : Appends projection call []
  | admitted (entry : MemoryEntry) (policy : MemoryPolicy) (nowUnix : Nat)
      (allowed : canAdmit entry policy = .allowed) :
      Appends projection (.admission entry policy nowUnix)
        [.admitted (projection.sequence + 1) nowUnix entry]
  | promoted (entryId : StableId) (policy : MemoryPolicy)
      (evidence : AdmissionEvidence) (nowUnix : Nat) (entry : MemoryEntry)
      (live : projection.entries[entryId.value]? = some entry)
      (allowed : canPromote entry policy evidence = .allowed) :
      Appends projection (.promote entryId policy evidence nowUnix)
        [.promoted (projection.sequence + 1) nowUnix entryId
          entry.authorityLevelEffective .authority
          (distinctNonEmpty evidence.evidenceRefs)]
  | forgotten (entryId : StableId) (nowUnix : Nat) (before : MemoryEntry)
      (notForgotten : projection.superseded.contains entryId.value = false)
      (live : projection.entries[entryId.value]? = some before) :
      Appends projection (.forget entryId nowUnix)
        [.forgotten (projection.sequence + 1) nowUnix before
          (prims.contentHashOf before)]
  | flipped (nowUnix : Nat) (entries : List MemoryEntry)
      (stale : ∀ entry ∈ entries, entry ∈ newlyStale projection nowUnix) :
      Appends projection (.listNow nowUnix)
        (flipEvents nowUnix projection.sequence entries)

variable {prims}

theorem append_eq (file : List UInt8) (event : MemoryEvent) :
    append prims.codec file event = file ++ eventLines prims.codec [event] := by
  rw [append, eventLines, flatMap_singleton]

/-- A sweep appends the flips in order, as far as there are numbers. -/
theorem appendFlips_eq (nowUnix : Nat) (entries : List MemoryEntry) :
    ∀ (sequence : Nat) (file : List UInt8), ∃ count,
      (appendFlips prims nowUnix sequence entries file).1 = file ++ eventLines prims.codec
        (flipEvents nowUnix sequence (entries.take count)) ∧
      ((appendFlips prims nowUnix sequence entries file).2 = none ∧ entries.length ≤ count ∨
        (appendFlips prims nowUnix sequence entries file).2 = some .sequenceExhausted ∧
          count < entries.length ∧ u64Max ≤ sequence + count) := by
  induction entries with
  | nil =>
    intro sequence file
    refine ⟨0, ?_, .inl ⟨rfl, Nat.le_refl 0⟩⟩
    rw [appendFlips, take_nil, flipEvents, eventLines, flatMap_nil, append_nil]
  | cons entry rest ih =>
    intro sequence file
    rw [appendFlips]
    cases next : checkedSucc sequence with
    | none =>
      refine ⟨0, ?_, .inr ⟨rfl, Nat.succ_pos _, ?_⟩⟩
      · rw [take_zero, flipEvents, eventLines, flatMap_nil, append_nil]
      · by_contra below
        have below : sequence < u64Max := Nat.lt_of_not_le below
        rw [checkedSucc, if_pos below] at next
        cases next
    | some number =>
      obtain ⟨count, appended, ended⟩ := ih number (append prims.codec file
            (.admitted number nowUnix entry))
      have isNext := (checkedSucc_eq_some.mp next).2
      subst isNext
      refine ⟨count + 1, ?_, ?_⟩
      · simp only
        rw [appended, take_succ_cons, flipEvents, append_eq,
          append_assoc, ← eventLines_append, singleton_append]
      · rw [length_cons, Nat.succ_le_succ_iff, Nat.succ_lt_succ_iff,
          show sequence + (count + 1) = sequence + 1 + count by omega]
        exact ended

variable {file : List UInt8} {events : List MemoryEvent}

theorem MemoryCall.file_appends (call : MemoryCall)
    (readable : project prims file = .ok projection) :
    ∃ new, Appends prims projection call new ∧ call.file prims file =
      file ++ eventLines prims.codec new := by
  have unchanged : ∃ new, Appends prims projection call new ∧
        file = file ++ eventLines prims.codec new := ⟨[], .nothing call, (append_nil file).symm⟩
  cases call with
  | admission entry policy nowUnix =>
    rw [MemoryCall.file, admitWithDurability]
    cases gate : canAdmit entry policy with
    | blocked reasons => exact unchanged
    | allowed =>
      simp only [readable]
      cases next : nextSequence memoryDomain projection with
      | error source => exact unchanged
      | ok sequence =>
        have number := (nextSequence_eq_ok.mp next).2
        subst number
        exact ⟨_, .admitted entry policy nowUnix gate, append_eq _ _⟩
  | promote entryId policy evidence nowUnix =>
    rw [MemoryCall.file, promoteWithDurability]
    simp only [readable]
    cases live : projection.entries[entryId.value]? with
    | none => exact unchanged
    | some entry =>
      simp only
      cases gate : canPromote entry policy evidence with
      | blocked reasons => exact unchanged
      | allowed =>
        simp only
        cases next : nextSequence memoryDomain projection with
        | error source => exact unchanged
        | ok sequence =>
          have number := (nextSequence_eq_ok.mp next).2
          subst number
          exact ⟨_, .promoted entryId policy evidence nowUnix entry live gate, append_eq _ _⟩
  | forget entryId nowUnix =>
    rw [MemoryCall.file, forgetWithDurability]
    simp only [readable]
    cases superseded : projection.superseded.contains entryId.value with
    | true => exact unchanged
    | false =>
      simp only [Bool.false_eq_true, if_false]
      cases live : projection.entries[entryId.value]? with
      | none => exact unchanged
      | some before =>
        simp only
        cases next : nextSequence memoryDomain projection with
        | error source => exact unchanged
        | ok sequence =>
          have number := (nextSequence_eq_ok.mp next).2
          subst number
          exact ⟨_, .forgotten entryId nowUnix before superseded live, append_eq _ _⟩
  | listNow nowUnix =>
    rw [MemoryCall.file, listNowWithDurability]
    simp only [readable]
    obtain ⟨count, appended, -⟩ := appendFlips_eq nowUnix (newlyStale projection nowUnix)
        projection.sequence file
    refine ⟨_, .flipped nowUnix ((newlyStale projection nowUnix).take count)
      (fun entry member => mem_of_mem_take member), ?_⟩
    rw [← appended]
    cases appendFlips prims nowUnix projection.sequence (newlyStale projection nowUnix) file with
    | mk after outcome => cases outcome <;> rfl

theorem MemoryCall.file_unreadable
    (call : MemoryCall) (unreadable : project prims file = .error error) :
    call.file prims file = file := by
  cases call with
  | admission entry policy nowUnix =>
    rw [MemoryCall.file, admitWithDurability]
    cases canAdmit entry policy with
    | blocked reasons => rfl
    | allowed => simp only [unreadable]
  | promote entryId policy evidence nowUnix =>
    simp only [MemoryCall.file, promoteWithDurability, unreadable]
  | forget entryId nowUnix =>
    simp only [MemoryCall.file, forgetWithDurability, unreadable]
  | listNow nowUnix =>
    simp only [MemoryCall.file, listNowWithDurability, unreadable]

theorem numbered_flipEvents (nowUnix : Nat) (entries : List MemoryEntry) :
    ∀ events, Numbered memoryDomain events → Numbered memoryDomain
      (events ++ flipEvents nowUnix events.length entries) := by
  induction entries with
  | nil =>
    intro events numbered
    rw [flipEvents, append_nil]
    exact numbered
  | cons entry rest ih =>
    intro events numbered
    have longer := ih (events ++ [.admitted (events.length + 1) nowUnix entry])
        (numbered_concat.mpr ⟨numbered, rfl⟩)
    rw [length_append, length_singleton, append_assoc, singleton_append] at longer
    exact longer

theorem Appends.numbered (numbered : Numbered memoryDomain events)
    (appends : Appends prims (applied memoryDomain events) call new) :
    Numbered memoryDomain (events ++ new) := by
  have current : (applied memoryDomain events).sequence = events.length :=
    sequenceOf_applied numbered
  cases appends with
  | nothing =>
    rw [append_nil]
    exact numbered
  | flipped nowUnix entries stale =>
    rw [current]
    exact numbered_flipEvents nowUnix entries events numbered
  | _ =>
    rw [current]
    exact numbered_concat.mpr ⟨numbered, rfl⟩

variable (prims) in
def SoundMemory (file : List UInt8) (events : List MemoryEvent) : Prop :=
  Sound memoryDomain prims.codec MemoryEvent.WellFormed file events

theorem memoryFile_concat (calls : List MemoryCall) (call : MemoryCall) :
    memoryFile prims (calls ++ [call]) = call.file prims (memoryFile prims calls) := by
  rw [memoryFile, foldl_append]
  rfl

/-- What holds at first, and is kept by the events of every call, holds of
every stream that can be read. -/
theorem memoryFile_invariant (lawful : prims.codec.Lawful MemoryEvent.WellFormed)
    {invariant : List MemoryCall → MemoryProjection → Prop}
    {meets : List MemoryCall → MemoryCall → Prop} (start : invariant [] memoryDomain.empty) (step :
      ∀ calls call events new, SoundMemory prims (memoryFile prims calls) events →
      invariant calls (applied memoryDomain events) → meets calls call →
      Appends prims (applied memoryDomain events) call new → SoundMemory prims
      (memoryFile prims (calls ++ [call])) (events ++ new) →
      memoryFile prims (calls ++ [call]) = memoryFile prims calls ++ eventLines prims.codec new →
      invariant (calls ++ [call]) (applied memoryDomain (events ++ new)))
    (calls : List MemoryCall) (allMeet : ∀ before call after, calls = before ++ call :: after →
      meets before call) : (∃ events, SoundMemory prims (memoryFile prims calls) events ∧
      invariant calls (applied memoryDomain events)) ∨ ∃ error,
      project prims (memoryFile prims calls) = .error error := by
  induction calls using List.reverseRecOn with
  | nil => exact .inl ⟨[], sound_nil, start⟩
  | append_singleton calls call ih =>
    have earlier : ∀ before other after, calls = before ++ other :: after → meets before other := by
      intro before other after split
      apply allMeet before other (after ++ [call])
      rw [split, append_assoc, cons_append]
    rcases ih earlier with
      ⟨events, sound, holds⟩ | ⟨error, unreadable⟩
    · obtain ⟨new, appends, isFile⟩ := call.file_appends (sound.replay_eq lawful)
      have numbered := appends.numbered sound.numbered
      rw [← memoryFile_concat] at isFile
      rcases sound.append_or_unreadable lawful numbered with
        longer | unreadable
      · rw [← isFile] at longer
        exact .inl ⟨events ++ new, longer, step calls call events new sound holds
            (allMeet calls call [] rfl) appends longer isFile⟩
      · rw [← isFile] at unreadable
        exact .inr unreadable
    · refine .inr ⟨error, ?_⟩
      rw [memoryFile_concat, call.file_unreadable unreadable, unreadable]

theorem SoundMemory.nextSequence (sound : SoundMemory prims file events)
    (below : events.length < u64Max) : EventLog.nextSequence memoryDomain
      (applied memoryDomain events) = .ok (events.length + 1) := by
  rw [nextSequence_eq_ok, sequenceOf_applied sound.numbered]
  exact ⟨below, rfl⟩

section Succeeds

variable (lawful : prims.codec.Lawful MemoryEvent.WellFormed)
  (sound : SoundMemory prims file events) (nowUnix : Nat) (below : events.length < u64Max)

include lawful sound below

theorem SoundMemory.admission (allowed : canAdmit entry policy = .allowed)
    (formed : entry.confidence ≤ maxConfidence) :
    SoundMemory prims (MemoryCall.file prims (.admission entry policy nowUnix) file)
      (events ++ [.admitted (events.length + 1) nowUnix entry]) := by
  have readable : project prims file = _ := sound.replay_eq lawful
  have written : SoundMemory prims (append prims.codec file
          (.admitted (events.length + 1) nowUnix entry)) _ := Sound.append sound formed rfl
  simp only [MemoryCall.file, admitWithDurability, allowed, readable, sound.nextSequence below]
  exact written

/-- A live entry is promoted with the references that its policy asks for. -/
theorem SoundMemory.promote
    (live : (applied memoryDomain events).entries[entryId.value]? = some entry)
    (allowed : canPromote entry policy evidence = .allowed) :
    SoundMemory prims (MemoryCall.file prims (.promote entryId policy evidence nowUnix) file)
      (events ++ [.promoted (events.length + 1) nowUnix entryId entry.authorityLevelEffective
        .authority (distinctNonEmpty evidence.evidenceRefs)]) := by
  have readable : project prims file = _ := sound.replay_eq lawful
  have written : SoundMemory prims (append prims.codec file
      (.promoted (events.length + 1) nowUnix entryId entry.authorityLevelEffective .authority
        (distinctNonEmpty evidence.evidenceRefs))) _ := Sound.append sound trivial rfl
  simp only [MemoryCall.file, promoteWithDurability, readable, live, allowed,
    sound.nextSequence below]
  exact written

/-- A live entry that was not forgotten before is forgotten. -/
theorem SoundMemory.forget
    (notForgotten : (applied memoryDomain events).superseded.contains entryId.value = false)
    (live : (applied memoryDomain events).entries[entryId.value]? = some before)
    (formed : before.confidence ≤ maxConfidence) :
    SoundMemory prims (MemoryCall.file prims (.forget entryId nowUnix) file) (events ++
      [.forgotten (events.length + 1) nowUnix before (prims.contentHashOf before)]) := by
  have readable : project prims file = _ := sound.replay_eq lawful
  have written : SoundMemory prims (append prims.codec file
          (.forgotten (events.length + 1) nowUnix before (prims.contentHashOf before))) _ :=
    Sound.append sound formed rfl
  simp only [MemoryCall.file, forgetWithDurability, readable, notForgotten,
    Bool.false_eq_true, if_false, live, sound.nextSequence below]
  exact written

end Succeeds

end Calls

end ForgeCore.EventLog
