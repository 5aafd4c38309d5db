import ForgeCore.ActionReplay.Calls
import ForgeCore.Library.Checked
import ForgeCore.Library.Index

/-!
# The store and its projection

Records that are appended to the log and the projection that is updated in
memory stay two views of one state.
-/

namespace ForgeCore.ActionReplay

open Text Digest ForgeCore.Frame Machine
open Checked Index

/-- The maps of the recovery loop describe the same bindings. -/
structure Consistent (prims : ReplayPrimitives) (projection : Projection) : Prop where
  keyed : ∀ key entry, projection.entries[key]? = some entry → entry.keyHash = key ∧
      key = replayKeyHash prims entry.actionPacketDigest
        entry.originEventIdHash
  packets : Indexes projection.packetKeys projection.entries
      WorkflowActionReplayEntry.actionPacketDigest
  origins : Indexes projection.originKeys projection.entries
      WorkflowActionReplayEntry.originEventIdHash

/-- The bytes of the log, and what the recovery loop has read in them. -/
structure Represents (prims : ReplayPrimitives) (wal : Bytes) (scan : Scan) : Prop where
  read : ∃ lines, wal = ByteLines.image lines ∧ (∀ line ∈ lines, ByteLines.lineFeed ∉ line) ∧
    readLines prims 0 {} lines = .ok scan
  bounded : wal.length ≤ workflowActionReplayMaxBytes
  numbered : scan.lastSequence = scan.validRecordCount
  counted : scan.validRecordCount ≤ workflowActionReplayMaxRecords
  chained : isSha256Token scan.lastRecordDigest = true
  consistent : Consistent prims scan.projection

variable {wal : Bytes} {entry : WorkflowActionReplayEntry}

section Reading

variable {prims : ReplayPrimitives}

theorem isSha256Token_genesisRecordDigest : isSha256Token genesisRecordDigest = true := by
  decide +kernel

theorem represents_empty : Represents prims [] {} where
  read := ⟨[], rfl, by simp, rfl⟩
  bounded := Nat.zero_le _
  numbered := rfl
  counted := Nat.zero_le _
  chained := isSha256Token_genesisRecordDigest
  consistent :=
    { keyed := by simp
      packets := Index.indexes_empty
      origins := Index.indexes_empty }

theorem recover_represents (represents : Represents prims wal scan) :
    recoverWorkflowActionReplay prims wal = .ok (scan.recovery wal.length) := by
  obtain ⟨lines, rfl, clean, read⟩ := represents.read
  rw [recoverWorkflowActionReplay, if_neg (Nat.not_lt.mpr represents.bounded)]
  by_cases filled : lines = []
  · subst filled
    cases read
    simp
  · have ended := ByteLines.endsWithLineFeed_image filled
    rw [if_neg (by simp [ended]), if_neg (ByteLines.image_ne_nil filled),
      ByteLines.cut_stripLineFeed_image filled clean, read, ok_bind]
    rfl

theorem readLines_append (done : Nat) (scan : Scan) (first second : List Bytes) :
    readLines prims done scan (first ++ second) = readLines prims done scan first >>= fun next =>
      readLines prims (done + first.length) next second := by
  induction first generalizing done scan with
  | nil => simp [readLines, ok_bind]
  | cons line rest ih =>
    simp only [List.cons_append, readLines, bind_assoc, List.length_cons]
    congr 1
    funext next
    rw [ih, Nat.add_assoc, Nat.add_comm 1]

end Reading

/-- What the recovery asks of a record, apart from its place in the chain. -/
structure WellFormed (prims : ReplayPrimitives) (record : UnsignedRecord) : Prop where
  schema : record.schemaVersion = workflowActionReplaySchemaVersion
  packet : isSha256Token record.actionPacketDigest = true
  origin : isSha256Token record.originEventIdHash = true
  ledger : isSha256Token record.plannedLedgerRecordDigest = true
  key : record.keyHash = replayKeyHash prims record.actionPacketDigest
      record.originEventIdHash

/-- The record may come next after the scanned ones. -/
structure Follows (scan : Scan) (record : UnsignedRecord) : Prop where
  sequence : record.sequence = scan.lastSequence + 1
  prior : record.priorRecordDigest = scan.lastRecordDigest

def Scan.extended (prims : ReplayPrimitives) (scan : Scan)
    (record : UnsignedRecord) (projection : Projection) : Scan where
  projection := projection
  lastSequence := record.sequence
  lastRecordDigest := digestCanonical prims record
  validRecordCount := scan.validRecordCount + 1

section Extension

variable {prims : ReplayPrimitives} {scan : Scan} {record : UnsignedRecord}

theorem validateStoredRecord_signed
    (wellFormed : WellFormed prims record) (follows : Follows scan record)
    (small : scan.lastSequence < u64Max) (chained : isSha256Token scan.lastRecordDigest = true)
    (number : Nat) : validateStoredRecord prims number (signed prims record)
      scan.lastSequence scan.lastRecordDigest = .ok () := by
  have next : nextSequence scan.lastSequence = .ok record.sequence := by
    rw [nextSequence, checkedSucc, if_pos small, follows.sequence]
  have key : isSha256Token record.keyHash = true := by
    rw [wellFormed.key]
    exact isSha256Token_formatDigest prims _
  have digest : isSha256Token (digestCanonical prims record) = true :=
    isSha256Token_formatDigest prims _
  have digests : (signed prims record).digestFields.find?
        (fun field => !isSha256Token field.2) = none := by
    simp [StoredRecord.digestFields, signed, key, wellFormed.packet,
      wellFormed.origin, wellFormed.ledger, follows.prior, chained, digest]
  simp only [validateStoredRecord, digests]
  simp [signed, wellFormed.schema, next, orCorrupt, follows.prior, ok_bind, ← wellFormed.key]
  rfl

variable {projection : Projection}

theorem readLine_signed
    (lawful : prims.Lawful) (wellFormed : WellFormed prims record) (follows : Follows scan record)
    (numbered : scan.lastSequence = scan.validRecordCount)
    (room : scan.validRecordCount < workflowActionReplayMaxRecords)
    (chained : isSha256Token scan.lastRecordDigest = true)
    (applied : applyRecord prims number record scan.projection = .ok projection) :
    readLine prims number scan (prims.storedToVec (signed prims record)) =
      .ok (scan.extended prims record projection) := by
  have bound : scan.lastSequence < 20000 := by
    rw [numbered]
    exact room
  have exact53 : (signed prims record).unsigned.sequence < 2 ^ 53 := by
    change record.sequence < 2 ^ 53
    rw [follows.sequence]
    omega
  have small : scan.lastSequence < u64Max := bound.trans (by decide)
  rw [readLine, if_neg (lawful.storedToVec_ne_nil _), if_neg (Nat.not_le.mpr room),
    lawful.fromSlice_storedToVec _ exact53]
  simp only []
  rw [validateStoredRecord_signed wellFormed follows small chained, ok_bind]
  change applyRecord prims number record scan.projection >>= _ = _
  rw [applied, ok_bind]
  rfl

/-- A record that follows the chain and fits extends the log. -/
theorem Represents.append
    (lawful : prims.Lawful)
    (represents : Represents prims wal scan)
    (wellFormed : WellFormed prims record)
    (follows : Follows scan record)
    (room : scan.validRecordCount < workflowActionReplayMaxRecords)
    (fits : wal.length + (encodeLine prims record).length ≤ workflowActionReplayMaxBytes)
    (applied : ∀ number, applyRecord prims number record scan.projection = .ok projection)
    (consistent : Consistent prims projection) :
    Represents prims (wal ++ encodeLine prims record)
      (scan.extended prims record projection) where
  read := by
    obtain ⟨lines, rfl, clean, read⟩ := represents.read
    refine ⟨lines ++ [prims.storedToVec (signed prims record)], ?_, ?_, ?_⟩
    · rw [ByteLines.image_append, ByteLines.image_singleton]
      rfl
    · intro line member
      rcases List.mem_append.mp member with before | added
      · exact clean line before
      · rw [List.mem_singleton.mp added]
        exact lawful.lineFeed_not_mem _
    · rw [readLines_append, read, ok_bind]
      simp only [readLines]
      rw [readLine_signed lawful wellFormed follows represents.numbered room
        represents.chained (applied _), ok_bind]
  bounded := by
    rw [List.length_append]
    exact fits
  numbered := by
    change record.sequence = scan.validRecordCount + 1
    rw [follows.sequence, represents.numbered]
  counted := room
  chained := isSha256Token_formatDigest prims _
  consistent := consistent

end Extension

/-- The maps after a reserve record. -/
def Projection.reserved (projection : Projection) (record : UnsignedRecord) : Projection where
  entries := projection.entries.insert record.keyHash record.reservedEntry
  packetKeys := projection.packetKeys.insert record.actionPacketDigest record.keyHash
  originKeys := projection.originKeys.insert record.originEventIdHash record.keyHash

def Projection.committed (projection : Projection) (record : UnsignedRecord)
    (entry : WorkflowActionReplayEntry) : Projection :=
  { projection with
    entries := projection.entries.insert record.keyHash (entry.committedAt record.sequence) }

/-- No entry has the key, the packet or the origin of the record. -/
structure Fresh (projection : Projection) (record : UnsignedRecord) : Prop where
  key : projection.entries[record.keyHash]? = none
  packet : ∀ (key : String) entry, projection.entries[key]? = some entry →
    entry.actionPacketDigest ≠ record.actionPacketDigest
  origin : ∀ (key : String) entry, projection.entries[key]? = some entry →
    entry.originEventIdHash ≠ record.originEventIdHash

/-- The entry has the packet, origin and ledger record of the record. -/
structure Matches (entry : WorkflowActionReplayEntry) (record : UnsignedRecord) : Prop where
  packet : entry.actionPacketDigest = record.actionPacketDigest
  origin : entry.originEventIdHash = record.originEventIdHash
  ledger : entry.plannedLedgerRecordDigest = record.plannedLedgerRecordDigest

theorem validateBinding_eq_ok :
    validateBinding entry packetDigest originEventIdHash ledgerDigest = .ok () ↔
      entry.actionPacketDigest = packetDigest ∧ entry.originEventIdHash = originEventIdHash ∧
      entry.plannedLedgerRecordDigest = ledgerDigest := by
  unfold validateBinding
  split_ifs <;> simp_all

section Operations

variable {prims : ReplayPrimitives} {projection : Projection} {record : UnsignedRecord}

theorem applyRecord_reserve
    (consistent : Consistent prims projection) (operation : record.operation = .reserve)
    (fresh : Fresh projection record) (number : Nat) :
    applyRecord prims number record projection = .ok (projection.reserved record) := by
  have packet := consistent.packets.absent fresh.packet
  have origin := consistent.origins.absent fresh.origin
  simp only [applyRecord, operation,
    Std.ExtTreeMap.contains_eq_isSome_getElem?, fresh.key, packet, origin,
    Option.isSome_none, Bool.false_eq_true, if_false]
  rfl

theorem Consistent.reserved
    (consistent : Consistent prims projection)
    (wellFormed : WellFormed prims record)
    (fresh : Fresh projection record) :
    Consistent prims (projection.reserved record) where
  keyed := by
    intro key entry found
    simp only [Projection.reserved, Std.ExtTreeMap.getElem?_insert,
      Std.LawfulEqCmp.compare_eq_iff_eq] at found
    split_ifs at found with same
    · cases found
      subst same
      exact ⟨rfl, wellFormed.key⟩
    · exact consistent.keyed key entry found
  packets := consistent.packets.insert record.reservedEntry fresh.key fresh.packet
  origins := consistent.origins.insert record.reservedEntry fresh.key fresh.origin

theorem applyRecord_commit (operation : record.operation = .commit)
    (found : projection.entries[record.keyHash]? = some entry)
    (bound : Matches entry record) (pending : entry.state = .reserved) (number : Nat) :
    applyRecord prims number record projection = .ok (projection.committed record entry) := by
  have binding : validateBinding entry record.actionPacketDigest
        record.originEventIdHash record.plannedLedgerRecordDigest = .ok () :=
    validateBinding_eq_ok.mpr ⟨bound.packet, bound.origin, bound.ledger⟩
  simp only [applyRecord, operation, found, binding, orCorrupt, pending]
  rfl

theorem Consistent.committed
    (consistent : Consistent prims projection)
    (found : projection.entries[record.keyHash]? = some entry) :
    Consistent prims (projection.committed record entry) where
  keyed := by
    intro key other lookup
    simp only [Projection.committed, Std.ExtTreeMap.getElem?_insert,
      Std.LawfulEqCmp.compare_eq_iff_eq] at lookup
    split_ifs at lookup with same
    · cases lookup
      subst same
      exact consistent.keyed _ entry found
    · exact consistent.keyed key other lookup
  packets := consistent.packets.update found rfl
  origins := consistent.origins.update found rfl

end Operations

end ForgeCore.ActionReplay
