import ForgeCore.Common
import ForgeCore.EventLog.Lines

/-!
# The memory store

Entries are admitted, promoted, marked stale and forgotten by events; the
policies that allow it, and the projection.
-/

namespace ForgeCore.EventLog

open Machine Text

inductive MemoryKind where
  | preference
  | decision
  | lessonLearned
  | playbookRule
  | failurePattern
  | glossaryTerm
deriving DecidableEq, Repr

inductive AuthorityLevel where
  | raw
  | provisional
  | authority
deriving DecidableEq, Repr

inductive ReviewState where
  | unreviewed
  | reviewed
deriving DecidableEq, Repr

inductive ApprovalState where
  | proposed
  | inReview
  | approved
  | rejected
  | autoPromoted
deriving DecidableEq, Repr

structure MemoryProvenance where
  sourceRunId : Option StableId
  sourceAgent : Option StableId
  evidenceRef : Option String
  capturedAt : String
deriving DecidableEq, Repr

structure Freshness where
  ttlSeconds : Option Nat
  lastConfirmedAt : String
  stale : Bool
deriving DecidableEq, Repr

/-- A memory with its provenance and its standing. -/
structure MemoryEntry where
  entryId : StableId
  kind : MemoryKind
  content : String
  provenance : MemoryProvenance
  freshness : Freshness
  confidence : UInt8
  approval : ApprovalState
  supersedes : Option StableId
  invalidationReason : Option String
  authorityLevel : Option AuthorityLevel
  reviewState : Option ReviewState
  reviewedBy : Option PrincipalId
  reviewedAt : Option String
deriving DecidableEq, Repr

def maxConfidence : UInt8 := 100

namespace MemoryEntry

/-- An explicit level wins over the one that the older approval stands for. -/
def authorityLevelEffective (entry : MemoryEntry) : AuthorityLevel :=
  match entry.authorityLevel with
  | some explicit => explicit
  | none =>
    match entry.approval with
    | .approved => .provisional
    | .proposed | .inReview | .rejected | .autoPromoted => .raw

def reviewStateEffective (entry : MemoryEntry) : ReviewState :=
  entry.reviewState.getD .unreviewed

end MemoryEntry

/-- `str::parse::<u64>`. -/
def parseU64 (text : String) : Option Nat :=
  let digits :=
    match asBytes text with
    | 43 :: digits => digits
    | digits => digits
  if digits = [] then
    none
  else
    match parseDigits 0 digits with
    | some value => if value ≤ u64Max then some value else none
    | none => none

def checkedAddU64 (left right : Nat) : Option Nat :=
  if left + right ≤ u64Max then some (left + right) else none

/-- An entry whose time cannot be told is stale. -/
def markStale (nowUnixSeconds : Nat) (entry : MemoryEntry) : MemoryEntry :=
  let stale :=
    match entry.freshness.ttlSeconds with
    | none => entry.freshness.stale
    | some ttlSeconds =>
      match (parseU64 entry.freshness.lastConfirmedAt).bind fun last =>
          checkedAddU64 last ttlSeconds with
      | none => true
      | some expiresAt => entry.freshness.stale || expiresAt ≤ nowUnixSeconds
  { entry with freshness := { entry.freshness with stale := stale } }

inductive EvidenceField where
  | provenanceEvidenceRef
  | sourceRunId
  | sourceAgent
deriving DecidableEq, Repr

def EvidenceField.isPresent (field : EvidenceField) (provenance : MemoryProvenance) : Bool :=
  match field with
  | .provenanceEvidenceRef => provenance.evidenceRef.any fun text => !text.isEmpty
  | .sourceRunId => provenance.sourceRunId.isSome
  | .sourceAgent => provenance.sourceAgent.isSome

/-- Which entries are admitted, and with which evidence. -/
structure MemoryPolicy where
  permittedKinds : List MemoryKind
  requiredEvidenceFields : List EvidenceField
  minEvidenceRefsForAuthority : Nat
deriving DecidableEq, Repr

structure AdmissionEvidence where
  evidenceRefs : List String
deriving DecidableEq, Repr

inductive AdmissionDenialReason where
  | kindNotPermitted
  | missingRequiredEvidence
  | insufficientEvidenceForAuthority
  | promoteTargetsReviewAxis
deriving DecidableEq, Repr

/-- The verdict of a policy on an entry. -/
inductive AdmissionDecision where
  | allowed
  | blocked (reasons : List AdmissionDenialReason)
deriving DecidableEq, Repr

def AdmissionDecision.fromDenials (denials : List AdmissionDenialReason) : AdmissionDecision :=
  if denials.isEmpty then .allowed else .blocked denials

def kindIsPermitted (kind : MemoryKind) (permitted : List MemoryKind) : Bool :=
  !permitted.isEmpty && permitted.contains kind

/-- The gate looks at the kind and at the evidence fields only. -/
def canAdmit (entry : MemoryEntry) (policy : MemoryPolicy) : AdmissionDecision :=
  let kindDenials :=
    if kindIsPermitted entry.kind policy.permittedKinds then []
    else [.kindNotPermitted]
  let fieldDenials := (policy.requiredEvidenceFields.filter fun field =>
      !field.isPresent entry.provenance).map
        fun _ => AdmissionDenialReason.missingRequiredEvidence
  .fromDenials (kindDenials ++ fieldDenials)

/-- The references that are not blank, each once, without the white space
around them. -/
def distinctNonEmpty (refs : List String) : List String :=
  refs.foldl (fun seen ref =>
      let trimmed := trim ref
      if trimmed.isEmpty || seen.contains trimmed then seen
      else seen ++ [trimmed])
    []

def countDistinctNonEmpty (refs : List String) : Nat :=
  (distinctNonEmpty refs).length

/-- The gate counts the references; the entry itself is not consulted. -/
def canPromote (_entry : MemoryEntry) (policy : MemoryPolicy)
    (evidence : AdmissionEvidence) : AdmissionDecision :=
  let distinctRefs := countDistinctNonEmpty evidence.evidenceRefs
  if distinctRefs = 0 || distinctRefs < policy.minEvidenceRefsForAuthority
  then
    .blocked [.insufficientEvidenceForAuthority]
  else
    .allowed

inductive MemoryEvent where
  | admitted (sequence atUnix : Nat) (entry : MemoryEntry)
  | promoted (sequence atUnix : Nat) (entryId : StableId)
      (before after : AuthorityLevel) (evidenceRefs : List String)
  | forgotten (sequence atUnix : Nat) (before : MemoryEntry)
      (contentHash : String)
deriving DecidableEq, Repr

def MemoryEvent.sequence : MemoryEvent → Nat
  | .admitted sequence _ _ => sequence
  | .promoted sequence _ _ _ _ _ => sequence
  | .forgotten sequence _ _ _ => sequence

/-- The reader refuses a confidence above one hundred. -/
def MemoryEvent.WellFormed : MemoryEvent → Prop
  | .admitted _ _ entry => entry.confidence ≤ maxConfidence
  | .promoted _ _ _ _ _ _ => True
  | .forgotten _ _ before _ => before.confidence ≤ maxConfidence

/-- The entries that are alive, and those that are not. -/
structure MemoryProjection where
  sequence : Nat
  entries : Std.ExtTreeMap String MemoryEntry
  superseded : Std.ExtTreeSet String
  diagnostics : List ProjectionDiagnostic

namespace MemoryDomain

def promoteTargetMissing (entryId : StableId) : ProjectionDiagnostic where
  severity := .warning
  code := "promote_target_missing"
  message := "promote targeted unknown entry " ++ entryId.value

def apply (projection : MemoryProjection) : MemoryEvent → MemoryProjection
  | .admitted _ _ entry =>
    { projection with
      entries := projection.entries.insert entry.entryId.value entry }
  | .promoted _ _ entryId _ after _ =>
    match projection.entries[entryId.value]? with
    | some existing =>
      { projection with
        entries := projection.entries.insert entryId.value
            { existing with authorityLevel := some after } }
    | none =>
      { projection with
        diagnostics := projection.diagnostics ++ [promoteTargetMissing entryId] }
  | .forgotten _ _ before _ =>
    { projection with
      entries := projection.entries.erase before.entryId.value
      superseded := projection.superseded.insert before.entryId.value }

end MemoryDomain

def memoryDomain : EventSourced MemoryEvent MemoryProjection ProjectionDiagnostic where
  sequence := MemoryEvent.sequence
  empty := ⟨0, ∅, ∅, []⟩
  apply := MemoryDomain.apply
  recordDiagnostic projection diagnostic :=
    { projection with
      diagnostics := projection.diagnostics ++ [diagnostic] }
  sequenceOf := MemoryProjection.sequence
  advanceSequence projection newSequence :=
    { projection with sequence := newSequence }
  diagnosticOutOfOrderEventIgnored := outOfOrderEventIgnored
  diagnosticTornFinalLineSkipped := tornFinalLineSkipped
  sequenceOf_empty := rfl
  sequenceOf_advance := fun _ _ => rfl
  sequenceOf_diagnostic := fun _ _ => rfl

/-- The code outside the repository that the store is built on. -/
structure MemoryPrimitives where
  codec : EventCodec MemoryEvent
  contentHashOf : MemoryEntry → String

inductive AdmissionStatus where
  | admitted (sequence : Nat)
  | deniedByGate (reasons : List AdmissionDenialReason)
  | storeError (error : EventLogError)
deriving DecidableEq, Repr

inductive PromoteStatus where
  | promoted (sequence : Nat) (before after : AuthorityLevel)
  | notFound
  | deniedByGate (reasons : List AdmissionDenialReason)
  | storeError (error : EventLogError)
deriving DecidableEq, Repr

inductive ForgetStatus where
  | forgotten (sequence : Nat)
  | alreadyForgotten
  | notFound
  | storeError (error : EventLogError)
deriving DecidableEq, Repr

inductive ListStatus where
  | ok (flipped : Nat) (entries : List MemoryEntry)
  | storeError (error : EventLogError)
deriving DecidableEq, Repr

section Store

variable (prims : MemoryPrimitives)

def project (file : List UInt8) : Except EventLogError MemoryProjection :=
  replayBytes memoryDomain prims.codec file

/-- The gate decides before the stream is read. -/
def admitWithDurability (file : List UInt8) (entry : MemoryEntry)
    (policy : MemoryPolicy) (nowUnix : Nat) : List UInt8 × AdmissionStatus :=
  match canAdmit entry policy with
  | .blocked reasons => (file, .deniedByGate reasons)
  | .allowed =>
    match project prims file with
    | .error source => (file, .storeError source)
    | .ok projection =>
      match nextSequence memoryDomain projection with
      | .error source => (file, .storeError source)
      | .ok sequence =>
        (append prims.codec file (.admitted sequence nowUnix entry), .admitted sequence)

def promoteWithDurability (file : List UInt8) (entryId : StableId)
    (policy : MemoryPolicy) (evidence : AdmissionEvidence) (nowUnix : Nat) :
    List UInt8 × PromoteStatus :=
  match project prims file with
  | .error source => (file, .storeError source)
  | .ok projection =>
    match projection.entries[entryId.value]? with
    | none => (file, .notFound)
    | some entry =>
      match canPromote entry policy evidence with
      | .blocked reasons => (file, .deniedByGate reasons)
      | .allowed =>
        let before := entry.authorityLevelEffective
        let after := AuthorityLevel.authority
        match nextSequence memoryDomain projection with
        | .error source => (file, .storeError source)
        | .ok sequence =>
          (append prims.codec file (.promoted sequence nowUnix entryId before after
              (distinctNonEmpty evidence.evidenceRefs)), .promoted sequence before after)

def forgetWithDurability (file : List UInt8) (entryId : StableId)
    (nowUnix : Nat) : List UInt8 × ForgetStatus :=
  match project prims file with
  | .error source => (file, .storeError source)
  | .ok projection =>
    if projection.superseded.contains entryId.value then
      (file, .alreadyForgotten)
    else
      match projection.entries[entryId.value]? with
      | none => (file, .notFound)
      | some before =>
        match nextSequence memoryDomain projection with
        | .error source => (file, .storeError source)
        | .ok sequence =>
          (append prims.codec file (.forgotten sequence nowUnix before
              (prims.contentHashOf before)), .forgotten sequence)

/-- The entries that a sweep marks and that were not marked before. -/
def newlyStale (projection : MemoryProjection) (nowUnix : Nat) : List MemoryEntry :=
  let swept := (projection.entries.toList.map Prod.snd).map (markStale nowUnix)
  swept.filter fun entry =>
    entry.freshness.stale && (projection.entries[entry.entryId.value]?).any fun original =>
        !original.freshness.stale

/-- The flips are appended in order, each under the next number. -/
def appendFlips (nowUnix : Nat) : Nat → List MemoryEntry → List UInt8 →
      List UInt8 × Option EventLogError
  | _, [], file => (file, none)
  | sequence, entry :: rest, file =>
    match checkedSucc sequence with
    | none => (file, some .sequenceExhausted)
    | some sequence =>
      appendFlips nowUnix sequence rest (append prims.codec file (.admitted sequence nowUnix entry))

def listNowWithDurability (file : List UInt8) (nowUnix : Nat) : List UInt8 × ListStatus :=
  match project prims file with
  | .error source => (file, .storeError source)
  | .ok projection =>
    let swept := (projection.entries.toList.map Prod.snd).map (markStale nowUnix)
    let flips := newlyStale projection nowUnix
    match appendFlips prims nowUnix projection.sequence flips
        file with
    | (after, some error) => (after, .storeError error)
    | (after, none) => (after, .ok flips.length (swept.filter fun entry => !entry.freshness.stale))

/-- The calls on the store, with the clock that they read. -/
inductive MemoryCall where
  | admission (entry : MemoryEntry) (policy : MemoryPolicy) (nowUnix : Nat)
  | promote (entryId : StableId) (policy : MemoryPolicy)
      (evidence : AdmissionEvidence) (nowUnix : Nat)
  | forget (entryId : StableId) (nowUnix : Nat)
  | listNow (nowUnix : Nat)
deriving DecidableEq, Repr

def MemoryCall.file (call : MemoryCall) (file : List UInt8) : List UInt8 :=
  match call with
  | .admission entry policy nowUnix => (admitWithDurability prims file entry policy nowUnix).1
  | .promote entryId policy evidence nowUnix =>
    (promoteWithDurability prims file entryId policy evidence nowUnix).1
  | .forget entryId nowUnix => (forgetWithDurability prims file entryId nowUnix).1
  | .listNow nowUnix => (listNowWithDurability prims file nowUnix).1

def memoryFile (calls : List MemoryCall) : List UInt8 :=
  calls.foldl (fun file call => call.file prims file) []

end Store

end ForgeCore.EventLog
