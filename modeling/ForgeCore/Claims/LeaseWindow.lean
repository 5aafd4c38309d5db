import ForgeCore.Claims.Engine
import ForgeCore.Claims.TimestampCodec

/-!
# The window of a lease

A granted lease is live until its expiry exactly when the expiry can be
printed as a timestamp.
-/

namespace ForgeCore.Claims

open Text

def firstPrintable : Int := -93692592000

def lastPrintable : Int := 253402300799

theorem firstOfJanuary_valid (year : Int) : ValidDate year 1 1 :=
  ⟨by decide, 31, rfl, by decide, by decide⟩

theorem le_year_iff (year days : Int) :
    year ≤ (civilFromDays days).1 ↔ daysFromCivil year 1 1 ≤ days := by
  obtain ⟨valid, counted⟩ := civilFromDays_spec days
  obtain ⟨monthLow, -⟩ := valid.monthRange
  obtain ⟨maxDay, -, first, -⟩ := valid.dayRange
  constructor
  · intro begun
    by_contra before
    have earlier : DateLt year 1 1 (civilFromDays days).1
          (civilFromDays days).2.1 (civilFromDays days).2.2 ∨
        year = (civilFromDays days).1 ∧ 1 = (civilFromDays days).2.1 ∧
          1 = (civilFromDays days).2.2 := by
      unfold DateLt
      omega
    rcases earlier with less | ⟨sameYear, sameMonth, sameDay⟩
    · have smaller := daysFromCivil_lt (firstOfJanuary_valid year) valid less
      omega
    · rw [← sameYear, ← sameMonth, ← sameDay] at counted
      omega
  · intro begun
    by_contra before
    have less : DateLt (civilFromDays days).1 (civilFromDays days).2.1
        (civilFromDays days).2.2 year 1 1 := by
      unfold DateLt
      omega
    have smaller := daysFromCivil_lt valid (firstOfJanuary_valid year) less
    omega

theorem printableYear_iff (unix : Int) :
    PrintableYear (Stamp.ofUnix unix).year ↔ firstPrintable ≤ unix ∧ unix ≤ lastPrintable := by
  have low := le_year_iff (-999) (unix / 86400)
  have high := le_year_iff 10000 (unix / 86400)
  have firstDay : daysFromCivil (-999) 1 1 = -1084405 := by decide
  have lastDay : daysFromCivil 10000 1 1 = 2932897 := by decide
  rw [firstDay] at low
  rw [lastDay] at high
  simp only [PrintableYear, Stamp.ofUnix, firstPrintable, lastPrintable]
  omega

/-- A claim that is live exactly before the end of its lease. -/
def LiveUntil (claim : ClaimContract) (expiry : Int) : Prop :=
  ∀ time : Int, inI64 time = true → (isLive claim time = true ↔ time < expiry)

/-- The ends of leases that are read back, or that no time precedes. -/
def ExactExpiry (expiry : Int) : Prop :=
  firstPrintable ≤ expiry ∧ expiry ≤ lastPrintable ∨ expiry = i64Min

variable {claim : ClaimContract} {expiry now : Int}

theorem liveUntil_iff (isOpen : claim.status.value.isOpen = true)
    (expires : claim.lease.expiresAt = unixToRfc3339 expiry) (inRange : inI64 expiry = true) :
    LiveUntil claim expiry ↔ ExactExpiry expiry := by
  have read := rfc3339ToUnix_unixToRfc3339_eq expiry
  rw [← expires] at read
  by_cases printable : firstPrintable ≤ expiry ∧ expiry ≤ lastPrintable
  · rw [if_pos ((printableYear_iff expiry).mpr printable)] at read
    refine ⟨fun _ => Or.inl printable, ?_⟩
    intro _ time _
    simp [isLive, isOpen, isExpired, read]
  · rw [if_neg fun fits => printable ((printableYear_iff expiry).mp fits)] at read
    have dead : ∀ time, isLive claim time = false := by
      intro time
      simp [isLive, isExpired, read]
    rw [inI64_iff] at inRange
    rw [ExactExpiry, or_iff_right printable]
    constructor
    · intro window
      by_contra later
      have first : inI64 i64Min = true := by decide
      have live := (window i64Min first).mpr (by omega)
      rw [dead] at live
      cases live
    · intro earliest time timeRange
      rw [inI64_iff] at timeRange
      rw [dead time]
      simp only [Bool.false_eq_true, false_iff, not_lt]
      omega

theorem checkedLeaseExpiry_ok {ttlSeconds : Nat}
    {field : String} (granted : checkedLeaseExpiry now ttlSeconds field = .ok expiry) :
    expiry = now + ttlSeconds ∧ inI64 expiry = true := by
  rw [checkedLeaseExpiry, i64TryFrom] at granted
  split at granted
  · cases granted
  · next ttl fits =>
    split at fits
    · cases fits
      rw [checkedAdd] at granted
      split at granted
      · cases granted
      · next total added =>
        split at added
        · next inRange =>
          cases added
          cases granted
          exact ⟨rfl, inRange⟩
        · cases added
    · cases fits

theorem acquire_grants {toLowercase : String → String}
    {active : List ClaimContract} {request : AcquireRequest}
    (accepted : acquire toLowercase active request now = .accepted claim) :
    ∃ expiry, checkedLeaseExpiry now request.ttlSeconds "ttl_seconds" = .ok expiry ∧
      claim = acquiredClaim request now expiry := by
  rw [acquire] at accepted
  split at accepted
  · cases accepted
  split at accepted
  · cases accepted
  split at accepted
  · cases accepted
  · next expiry granted =>
    cases accepted
    exact ⟨expiry, granted, rfl⟩

theorem heartbeat_accepted {renewed : ClaimContract}
    {agentId : StableId} (accepted : heartbeat claim agentId now = .accepted renewed) :
    ∃ expiry, checkedLeaseExpiry now claim.lease.ttlSeconds "lease.ttl_seconds" = .ok expiry ∧
      renewed.status.value = .active ∧ renewed.lease.expiresAt = unixToRfc3339 expiry := by
  rw [heartbeat] at accepted
  split at accepted
  · cases accepted
  split at accepted
  · cases accepted
  split at accepted
  · cases accepted
  split at accepted
  · cases accepted
  split at accepted
  · cases accepted
  · next expiry granted =>
    cases accepted
    exact ⟨expiry, granted, rfl, rfl⟩

/-- A lease window is exact for the ends of leases that are read back, and
only for them. -/
theorem lease_window_iff_printable
    (toLowercase : String → String)
    (active : List ClaimContract)
    (request : AcquireRequest)
    (now : Int)
    (claim renewed : ClaimContract)
    (agentId : StableId) :
    (acquire toLowercase active request now = .accepted claim →
      (LiveUntil claim (now + request.ttlSeconds) ↔
        ExactExpiry (now + request.ttlSeconds))) ∧
    (heartbeat claim agentId now = .accepted renewed →
      (LiveUntil renewed (now + claim.lease.ttlSeconds) ↔
        ExactExpiry (now + claim.lease.ttlSeconds))) := by
  refine ⟨?_, ?_⟩
  · intro accepted
    obtain ⟨expiry, granted, rfl⟩ := acquire_grants accepted
    obtain ⟨rfl, inRange⟩ := checkedLeaseExpiry_ok granted
    exact liveUntil_iff rfl rfl inRange
  · intro accepted
    obtain ⟨expiry, granted, isActive, expires⟩ := heartbeat_accepted accepted
    obtain ⟨rfl, inRange⟩ := checkedLeaseExpiry_ok granted
    refine liveUntil_iff ?_ expires inRange
    rw [isActive]
    rfl

namespace Sample

def storyRequest (ttlSeconds : Nat) : AcquireRequest where
  scopeKind := .story
  scopeId := ⟨"s1"⟩
  principalId := none
  agentId := ⟨"alice"⟩
  role := .worker
  ttlSeconds := ttlSeconds
  heartbeatIntervalSeconds := 60
  paths := [⟨"src/lib.rs"⟩]
  productArea := none
  expectedStateVersion := none

end Sample

/-- A lease of a trillion seconds ends behind the year 9999, and is expired
at once. -/
theorem lease_window_fails_beyond_year_9999 :
    ¬∀ (toLowercase : String → String) (active : List ClaimContract)
      (request : AcquireRequest) (now : Int) (claim : ClaimContract),
      acquire toLowercase active request now = .accepted claim →
      LiveUntil claim (now + request.ttlSeconds) := by
  intro window
  have accepted : acquire toAsciiLowercase [] (Sample.storyRequest 1000000000000) 1767225600 =
        .accepted (acquiredClaim (Sample.storyRequest 1000000000000) 1767225600 1001767225600) := by
    decide +kernel
  have live := (window _ _ _ _ _ accepted 1767225600 (by decide)).mpr (by decide)
  have dead : isLive (acquiredClaim (Sample.storyRequest 1000000000000)
      1767225600 1001767225600) 1767225600 = false := by
    decide +kernel
  rw [dead] at live
  cases live

/-- A lease of one hour, and its renewal. -/
theorem lease_window_iff_printable_hour :
    LiveUntil (acquiredClaim (Sample.storyRequest 3600) 1767225600 1767229200) 1767229200 ∧
      ∃ renewed, LiveUntil renewed 1767229300 := by
  have accepted : acquire toAsciiLowercase [] (Sample.storyRequest 3600) 1767225600 = .accepted
        (acquiredClaim (Sample.storyRequest 3600) 1767225600 1767229200) := by
    decide +kernel
  refine ⟨((lease_window_iff_printable _ _ _ _ _ (acquiredClaim
    (Sample.storyRequest 3600) 1767225600 1767229200) ⟨"alice"⟩).1
      accepted).mpr (Or.inl (by decide)), ?_⟩
  cases renewal : heartbeat (acquiredClaim (Sample.storyRequest 3600)
      1767225600 1767229200) ⟨"alice"⟩ 1767225700 with
  | accepted renewed =>
    exact ⟨renewed, ((lease_window_iff_printable toAsciiLowercase []
      (Sample.storyRequest 3600) _ _ _ _).2 renewal).mpr (Or.inl (by decide))⟩
  | rejected rejection =>
    have unrejected : ∀ rejection, heartbeat
        (acquiredClaim (Sample.storyRequest 3600) 1767225600 1767229200)
        ⟨"alice"⟩ 1767225700 ≠ .rejected rejection := by
      intro rejection
      have passed : (heartbeat (acquiredClaim (Sample.storyRequest 3600) 1767225600 1767229200)
          ⟨"alice"⟩ 1767225700) matches .accepted _ := by
        decide +kernel
      intro rejected
      rw [rejected] at passed
      cases passed
    exact absurd renewal (unrejected rejection)

end ForgeCore.Claims
