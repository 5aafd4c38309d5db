import Mathlib

/-!
# Checksummed record frames

A frame is a 24-byte header with its own checksum, a payload and a checksum of
both.  A whole frame decodes whatever follows it, and any proper prefix of a
frame is recognised as cut off.
-/

namespace ForgeCore.Frame

open List

abbrev Bytes := List UInt8

def leBytes : Nat → Nat → Bytes
  | 0, _ => []
  | width + 1, value => UInt8.ofNat value :: leBytes width (value / 256)

def readLe : Bytes → Nat
  | [] => 0
  | byte :: rest => byte.toNat + 256 * readLe rest

@[simp]
theorem length_leBytes (width value : Nat) : (leBytes width value).length = width := by
  induction width generalizing value with
  | zero => rfl
  | succ width ih =>
    rw [leBytes, length_cons, ih]

theorem readLe_leBytes (fits : value < 256 ^ width) : readLe (leBytes width value) = value := by
  induction width generalizing value with
  | zero =>
    have isZero : value = 0 := by simpa using fits
    rw [isZero]
    rfl
  | succ width ih =>
    have quotientFits : value / 256 < 256 ^ width := by
      rw [Nat.pow_succ'] at fits
      exact Nat.div_lt_of_lt_mul fits
    rw [leBytes, readLe, ih quotientFits]
    have lowByte : (UInt8.ofNat value).toNat = value % 256 := by
      simp
    rw [lowByte]
    omega

variable {first second : Bytes} {index bit : Nat}

theorem readLe_inj (lengths : first.length = second.length)
    (same : readLe first = readLe second) : first = second := by
  induction first generalizing second with
  | nil => exact (List.length_eq_zero_iff.mp lengths.symm).symm
  | cons byte rest ih =>
    cases second with
    | nil => cases lengths
    | cons other others =>
      have low := UInt8.toNat_lt byte
      have otherLow := UInt8.toNat_lt other
      simp only [readLe] at same
      have bytesEq : byte = other := UInt8.toNat_inj.mp (by omega)
      have restEq : readLe rest = readLe others := by omega
      rw [bytesEq, ih (Nat.succ.inj lengths) restEq]

/-- The bytes with one bit of one byte flipped. -/
def flipBit (bytes : Bytes) (index bit : Nat) : Bytes :=
  bytes.modify index (· ^^^ (1 <<< UInt8.ofNat bit))

@[simp]
theorem length_flipBit (bytes : Bytes) (index bit : Nat) :
    (flipBit bytes index bit).length = bytes.length :=
  length_modify _ _ _

theorem flipBit_append_left (inside : index < first.length) (bit : Nat) :
    flipBit (first ++ second) index bit = flipBit first index bit ++ second := by
  induction first generalizing index with
  | nil => cases inside
  | cons byte rest ih =>
    cases index with
    | zero => rfl
    | succ index =>
      have shifted := ih (Nat.lt_of_succ_lt_succ inside)
      simp only [flipBit, cons_append, modify_succ_cons] at shifted ⊢
      rw [shifted]

theorem flipBit_append_right (behind : first.length ≤ index) (bit : Nat) :
    flipBit (first ++ second) index bit = first ++ flipBit second (index - first.length) bit := by
  induction first generalizing index with
  | nil => simp
  | cons byte rest ih =>
    cases index with
    | zero => simp at behind
    | succ index =>
      have shifted := ih (Nat.le_of_succ_le_succ behind)
      simp only [flipBit, cons_append, modify_succ_cons,
        length_cons, Nat.add_sub_add_right] at shifted ⊢
      rw [shifted]

theorem flipBit_ne (inside : index < bytes.length) (isBit : bit < 8) :
    flipBit bytes index bit ≠ bytes := by
  intro same
  have byteSame := congrArg (·[index]?) same
  simp only [flipBit, getElem?_modify, getElem?_eq_getElem inside,
    if_true, Option.map_eq_map, Option.map_some, Option.some.injEq] at byteSame
  have mask : (1 : UInt8) <<< UInt8.ofNat bit = 0 := by
    have cancelled := congrArg (bytes[index] ^^^ ·) byteSame
    simpa [← UInt8.xor_assoc] using cancelled
  interval_cases bit <;> revert mask <;> decide

/-- The checksum tells inputs apart that differ in one bit. -/
def TellsBits (crc : Bytes → UInt32) : Prop :=
  ∀ (bytes : Bytes) (index bit : Nat), index < bytes.length → bit < 8 →
    crc (flipBit bytes index bit) ≠ crc bytes

/-- The CRC-32C of the Castagnoli polynomial, bit by bit. -/
def crc32c (bytes : Bytes) : UInt32 :=
  let bit (crc : UInt32) : UInt32 :=
    if crc &&& 1 = 1 then (crc >>> 1) ^^^ 0x82F63B78 else crc >>> 1
  let step (crc : UInt32) (byte : UInt8) : UInt32 :=
    bit (bit (bit (bit (bit (bit (bit (bit (crc ^^^ byte.toUInt32))))))))
  bytes.foldl step 0xFFFFFFFF ^^^ 0xFFFFFFFF

theorem and_one_eq_one_iff (crc : UInt32) : crc &&& 1 = 1 ↔ crc.toBitVec.getLsbD 0 = true := by
  rw [← UInt32.toBitVec_inj]
  constructor
  · intro same
    have bit := congrArg (·.getLsbD 0) same
    simpa using bit
  · intro low
    apply BitVec.eq_of_getLsbD_eq
    intro index inside
    by_cases isLow : index = 0
    · rw [isLow]
      simpa using low
    · simp [isLow]

/-- One shift of the register loses nothing: the bit that is shifted out comes
back as the highest bit. -/
theorem crc_shift_injective :
    Function.Injective fun crc : UInt32 =>
      if crc &&& 1 = 1 then (crc >>> 1) ^^^ 0x82F63B78 else crc >>> 1 := by
  have bits (crc : UInt32) (index : Nat) : (if crc &&& 1 = 1 then (crc >>> 1) ^^^ 0x82F63B78
          else crc >>> 1 : UInt32).toBitVec.getLsbD index = (crc.toBitVec.getLsbD (index + 1) ^^
          (crc.toBitVec.getLsbD 0 && (0x82F63B78#32).getLsbD index)) := by
    by_cases low : crc.toBitVec.getLsbD 0 = true
    · rw [if_pos ((and_one_eq_one_iff crc).mpr low), low]
      simp [Nat.add_comm 1 index]
    · rw [if_neg (mt (and_one_eq_one_iff crc).mp low), Bool.eq_false_iff.mpr low]
      simp [Nat.add_comm 1 index]
  intro first second same
  have each (index : Nat) := congrArg (·.toBitVec.getLsbD index) same
  simp only [bits] at each
  have low : first.toBitVec.getLsbD 0 = second.toBitVec.getLsbD 0 := by
    simpa using each 31
  apply UInt32.toBitVec_inj.mp
  apply BitVec.eq_of_getLsbD_eq
  intro index inside
  cases index with
  | zero => exact low
  | succ index =>
    have shifted := each index
    rw [low] at shifted
    exact Bool.xor_left_inj.mp shifted

theorem foldl_injective {register item : Type*}
    {step : register → item → register} (injective : ∀ item, Function.Injective fun register =>
      step register item) (items : List item) :
    Function.Injective fun register => items.foldl step register := by
  induction items with
  | nil => exact Function.injective_id
  | cons first rest ih =>
    intro left right same
    exact injective first (ih same)

/-- The checksum tells apart what differs in a single bit. -/
theorem crc32c_tells : TellsBits crc32c := by
  intro bytes index bit inside isBit same
  have different := flipBit_ne inside isBit
  have split : bytes = bytes.take index ++ bytes[index] :: bytes.drop (index + 1) := by
    rw [cons_getElem_drop_succ, take_append_drop]
  obtain ⟨before, byte, after, rfl, isIndex⟩ : ∃ before byte after,
        bytes = before ++ byte :: after ∧ before.length = index :=
    ⟨_, _, _, split, length_take_of_le inside.le⟩
  subst isIndex
  rw [flipBit_append_right (le_refl _), Nat.sub_self] at same different
  have changed : byte ^^^ (1 <<< UInt8.ofNat bit) ≠ byte := by
    intro unchanged
    apply different
    rw [flipBit, modify_zero_cons, unchanged]
  have eight := crc_shift_injective.iterate 8
  have stepInjective (item : UInt8) : Function.Injective fun register : UInt32 =>
        (fun crc : UInt32 =>
          if crc &&& 1 = 1 then (crc >>> 1) ^^^ 0x82F63B78
          else crc >>> 1)^[8] (register ^^^ item.toUInt32) :=
    fun first second equal =>
      (UInt32.xor_left_inj _).mp (eight equal)
  simp only [crc32c, flipBit, modify_zero_cons, foldl_append,
    foldl_cons, UInt32.xor_left_inj] at same
  have registers := foldl_injective stepInjective after same
  have bytesEqual := (UInt32.xor_right_inj _).mp (eight registers)
  exact changed (UInt8.toUInt32_inj.mp bytesEqual)

def headerLen : Nat := 24

def headerCrcOffset : Nat := 20

def trailerLen : Nat := 4

/-- What a particular log fixes about its frames. -/
structure Format where
  magic : Bytes
  version : UInt8
  /-- The flags that the writer sets. -/
  flags : Nat
  /-- The flags that the reader lets pass. -/
  flagsAccepted : Nat → Bool
  maxPayloadLen : Nat
  crc : Bytes → UInt32
  magic_length : magic.length = 4
  flags_lt : flags < 256 ^ 2
  flags_accepted : flagsAccepted flags = true
  maxPayloadLen_lt : maxPayloadLen < 256 ^ 4

/-- Why no frame can be read. -/
inductive FrameStop where
  | truncatedHeader
  | invalidHeader
  | payloadTooLarge
  | truncatedPayload
  | payloadChecksumMismatch
  deriving DecidableEq, Repr

/-- A frame that was read, and its length in the file. -/
structure DecodedFrame where
  flags : Nat
  recordType : UInt8
  seq : Nat
  payload : Bytes
  recordLen : Nat
  deriving DecidableEq, Repr

namespace Format

variable (format : Format)

def headerPrefix (seq : Nat) (recordType : UInt8) (payloadLen : Nat) : Bytes :=
  format.magic ++ [format.version, recordType] ++ leBytes 2 format.flags ++
    leBytes 8 seq ++ leBytes 4 payloadLen

def encode (seq : Nat) (recordType : UInt8) (payload : Bytes) : Bytes :=
  let header := format.headerPrefix seq recordType payload.length
  header ++ leBytes 4 (format.crc header).toNat ++ payload ++
    leBytes 4 (format.crc (header ++ payload)).toNat

def decode (remaining : Bytes) : Except FrameStop DecodedFrame :=
  if remaining.length < headerLen then
    .error .truncatedHeader
  else
    let header := remaining.take headerLen
    let flags := readLe ((header.drop 6).take 2)
    let payloadLen := readLe ((header.drop 16).take 4)
    let covered := header.take headerCrcOffset
    if header.take 4 ≠ format.magic || header[4]? ≠ some format.version then
      .error .invalidHeader
    else if !format.flagsAccepted flags then
      .error .invalidHeader
    else if format.maxPayloadLen < payloadLen then
      .error .payloadTooLarge
    else if (format.crc covered).toNat ≠ readLe (header.drop headerCrcOffset) then
      .error .invalidHeader
    else if remaining.length < headerLen + payloadLen + trailerLen then
      .error .truncatedPayload
    else
      let payload := (remaining.drop headerLen).take payloadLen
      let trailer := (remaining.drop (headerLen + payloadLen)).take trailerLen
      if (format.crc (covered ++ payload)).toNat ≠ readLe trailer then
        .error .payloadChecksumMismatch
      else
        .ok
          { flags := flags
            recordType := header.getD 5 0
            seq := readLe ((header.drop 8).take 8)
            payload := payload
            recordLen := headerLen + payloadLen + trailerLen }

@[simp]
theorem length_headerPrefix (seq : Nat) (recordType : UInt8) (payloadLen : Nat) :
    (format.headerPrefix seq recordType payloadLen).length = 20 := by
  simp [headerPrefix, format.magic_length]

@[simp]
theorem length_encode (seq : Nat) (recordType : UInt8) (payload : Bytes) :
    (format.encode seq recordType payload).length = headerLen + payload.length + trailerLen := by
  simp [encode, headerLen, trailerLen]
  omega

theorem headerPrefix_fields
    (seq : Nat) (recordType : UInt8) (payloadLen : Nat) (rest : Bytes) :
    let header := format.headerPrefix seq recordType payloadLen ++ rest
    header.take 4 = format.magic ∧ header[4]? = some format.version ∧ header.getD 5 0 = recordType ∧
      (header.drop 6).take 2 = leBytes 2 format.flags ∧
      (header.drop 8).take 8 = leBytes 8 seq ∧
      (header.drop 16).take 4 = leBytes 4 payloadLen := by
  obtain ⟨first, second, third, fourth, shape⟩ : ∃ first second third fourth,
        format.magic = [first, second, third, fourth] := List.length_eq_four.mp format.magic_length
  simp [headerPrefix, shape, leBytes]

theorem readLe_crc (covered : Bytes) :
    readLe (leBytes 4 (format.crc covered).toNat) = (format.crc covered).toNat :=
  readLe_leBytes (UInt32.toNat_lt _)

variable {seq : Nat} {payload remaining : Bytes} {frame : DecodedFrame}

/-- Behind a header that the writer produced, only the length and the checksum
of what follows are left to decide. -/
theorem decode_header
    (recordType : UInt8) (tail : Bytes)
    (seqFits : seq < 256 ^ 8) (lenFits : payloadLen ≤ format.maxPayloadLen) :
    let covered := format.headerPrefix seq recordType payloadLen
    format.decode
        (covered ++ (leBytes 4 (format.crc covered).toNat ++ tail)) =
      if tail.length < payloadLen + trailerLen then
        .error .truncatedPayload
      else if (format.crc (covered ++ tail.take payloadLen)).toNat ≠
          readLe ((tail.drop payloadLen).take trailerLen) then
        .error .payloadChecksumMismatch
      else
        .ok
          { flags := format.flags
            recordType := recordType
            seq := seq
            payload := tail.take payloadLen
            recordLen := headerLen + payloadLen + trailerLen } := by
  intro covered
  have coveredLength : covered.length = 20 := format.length_headerPrefix seq recordType payloadLen
  have crcLength := length_leBytes 4 (format.crc covered).toNat
  have crcRead := format.readLe_crc covered
  have fields := format.headerPrefix_fields seq recordType payloadLen
      (leBytes 4 (format.crc covered).toNat)
  simp only [show format.headerPrefix seq recordType payloadLen = covered from rfl] at fields
  -- From here on only these facts about the two parts of the header matter.
  clear_value covered
  generalize leBytes 4 (format.crc covered).toNat = crcBytes at *
  obtain ⟨magic, version, type, flags, sequence, len⟩ := fields
  have lenLt : payloadLen < 256 ^ 4 := lt_of_le_of_lt lenFits format.maxPayloadLen_lt
  have headerEq : (covered ++ (crcBytes ++ tail)).take headerLen = covered ++ crcBytes := by
    rw [← append_assoc]
    apply take_left'
    simp [coveredLength, crcLength, headerLen]
  have dropHeader : (covered ++ (crcBytes ++ tail)).drop headerLen = tail := by
    rw [← append_assoc]
    apply drop_left'
    simp [coveredLength, crcLength, headerLen]
  have dropTrailer : (covered ++ (crcBytes ++ tail)).drop (headerLen + payloadLen) =
        tail.drop payloadLen := by
    rw [← drop_drop, dropHeader]
  have wholeLength : (covered ++ (crcBytes ++ tail)).length = headerLen + tail.length := by
    simp only [length_append, coveredLength, crcLength, headerLen]
    omega
  have coveredTake : (covered ++ crcBytes).take headerCrcOffset = covered :=
    take_left' coveredLength
  have coveredDrop : (covered ++ crcBytes).drop headerCrcOffset = crcBytes :=
    drop_left' coveredLength
  have notShort : ¬ headerLen + tail.length < headerLen := by omega
  have shortIff : (headerLen + tail.length < headerLen + payloadLen + trailerLen) =
        (tail.length < payloadLen + trailerLen) := by
    rw [eq_iff_iff]
    omega
  unfold decode
  simp only [wholeLength, headerEq, dropHeader, dropTrailer, coveredTake,
    coveredDrop, if_neg notShort, shortIff, magic, version, type, flags,
    sequence, len, readLe_leBytes seqFits, readLe_leBytes lenLt,
    readLe_leBytes format.flags_lt, format.flags_accepted, crcRead]
  simp [Nat.not_lt.mpr lenFits]

theorem decode_encode_append
    (recordType : UInt8) (rest : Bytes)
    (seqFits : seq < 256 ^ 8)
    (lenFits : payload.length ≤ format.maxPayloadLen) :
    format.decode (format.encode seq recordType payload ++ rest) = .ok
        { flags := format.flags
          recordType := recordType
          seq := seq
          payload := payload
          recordLen := headerLen + payload.length + trailerLen } := by
  have split := format.decode_header recordType (payload ++ leBytes 4
          (format.crc (format.headerPrefix seq recordType payload.length ++ payload)).toNat ++ rest)
      seqFits lenFits
  simp only [append_assoc] at split
  simp only [encode, append_assoc, split, take_left, drop_left]
  rw [if_neg (by simp [trailerLen]), if_neg]
  rw [not_not, take_left' (by simp [trailerLen]), readLe_crc]

/-- A frame cut anywhere before its last byte is recognised as truncated. -/
theorem decode_take_encode
    (recordType : UInt8)
    (seqFits : seq < 256 ^ 8)
    (lenFits : payload.length ≤ format.maxPayloadLen)
    (short : cut < (format.encode seq recordType payload).length) :
    format.decode ((format.encode seq recordType payload).take cut) = .error
        (if cut < headerLen then .truncatedHeader else .truncatedPayload) := by
  have cutLength : ((format.encode seq recordType payload).take cut).length = cut :=
    length_take_of_le (Nat.le_of_lt short)
  rw [length_encode] at short
  by_cases inHeader : cut < headerLen
  · unfold decode
    rw [cutLength, if_pos inHeader, if_pos inHeader]
  · rw [if_neg inHeader]
    -- The header survived the cut, so the length it declares is readable.
    set covered := format.headerPrefix seq recordType payload.length
    set body := payload ++ leBytes 4 (format.crc (covered ++ payload)).toNat with bodyEq
    have shape : (format.encode seq recordType payload).take cut =
          covered ++ (leBytes 4 (format.crc covered).toNat ++ body.take (cut - headerLen)) := by
      have whole : format.encode seq recordType payload =
            (covered ++ leBytes 4 (format.crc covered).toNat) ++ body := by
        simp only [encode, bodyEq, append_assoc, covered]
      rw [whole, take_append, take_of_length_le, append_assoc]
      · simp [covered, headerLen]
      · simp only [length_append, length_leBytes, covered, length_headerPrefix]
        simp only [headerLen] at inHeader
        omega
    rw [shape, format.decode_header recordType _ seqFits lenFits, if_pos]
    rw [length_take]
    omega

/-! ### Frames that follow or are damaged -/

/-- What decodes as a frame decodes the same with more bytes behind it. -/
theorem decode_append (decoded : format.decode remaining = .ok frame) (more : Bytes) :
    format.decode (remaining ++ more) = .ok frame ∧
      frame.recordLen ≤ remaining.length ∧ 0 < frame.recordLen := by
  unfold decode at decoded ⊢
  by_cases short : remaining.length < headerLen
  · rw [if_pos short] at decoded
    cases decoded
  · rw [if_neg short] at decoded
    have longer : ¬ (remaining ++ more).length < headerLen := by
      rw [length_append]
      omega
    have header : (remaining ++ more).take headerLen = remaining.take headerLen :=
      take_append_of_le_length (by omega)
    rw [if_neg longer]
    simp only [header] at decoded ⊢
    generalize payloadLenEq : readLe (((remaining.take headerLen).drop 16).take 4) = payloadLen
      at decoded ⊢
    by_cases cut : remaining.length < headerLen + payloadLen + trailerLen
    · simp only [if_pos cut] at decoded
      split_ifs at decoded
    · have notCut : ¬ (remaining ++ more).length < headerLen + payloadLen + trailerLen := by
        rw [length_append]
        omega
      have payload : ((remaining ++ more).drop headerLen).take payloadLen =
            (remaining.drop headerLen).take payloadLen := by
        rw [drop_append_of_le_length (by omega),
          take_append_of_le_length (by rw [length_drop]; omega)]
      have trailer : ((remaining ++ more).drop (headerLen + payloadLen)).take trailerLen =
            (remaining.drop (headerLen + payloadLen)).take trailerLen := by
        rw [drop_append_of_le_length (by omega),
          take_append_of_le_length (by rw [length_drop]; omega)]
      simp only [if_neg cut] at decoded
      simp only [if_neg notCut, payload, trailer]
      refine ⟨decoded, ?_⟩
      split_ifs at decoded
      cases decoded
      exact ⟨by simpa using cut, by simp [headerLen]⟩

/-- A frame decodes from its own bytes alone. -/
theorem decode_take (decoded : format.decode remaining = .ok frame) :
    format.decode (remaining.take frame.recordLen) = .ok frame := by
  obtain ⟨-, bound, -⟩ := format.decode_append decoded []
  unfold decode at decoded ⊢
  by_cases short : remaining.length < headerLen
  · rw [if_pos short] at decoded
    cases decoded
  · rw [if_neg short] at decoded
    simp only at decoded
    generalize payloadLenEq : readLe (((remaining.take headerLen).drop 16).take 4) = payloadLen
      at decoded
    have recordLen : frame.recordLen = headerLen + payloadLen + trailerLen := by
      split_ifs at decoded
      cases decoded
      rfl
    have length : (remaining.take frame.recordLen).length =
        headerLen + payloadLen + trailerLen := by
      rw [length_take, Nat.min_eq_left bound, recordLen]
    have header : (remaining.take frame.recordLen).take headerLen = remaining.take headerLen := by
      rw [take_take, recordLen]
      congr 1
      omega
    have payload : ((remaining.take frame.recordLen).drop headerLen).take payloadLen =
          (remaining.drop headerLen).take payloadLen := by
      rw [drop_take, take_take, recordLen]
      congr 1
      omega
    have trailer : ((remaining.take frame.recordLen).drop
            (headerLen + payloadLen)).take trailerLen =
          (remaining.drop (headerLen + payloadLen)).take trailerLen := by
      rw [drop_take, take_take, recordLen]
      congr 1
      omega
    have whole : ¬remaining.length < headerLen + payloadLen + trailerLen := by
      omega
    rw [if_neg (by omega)]
    simp only [header, payloadLenEq, length, payload, trailer, lt_irrefl, if_false]
    simpa only [if_neg whole] using decoded

/-- A header that passes its checks, with the payload length it declares. -/
structure WholeHeader (header : Bytes) (payloadLen : Nat) : Prop where
  length : header.length = headerLen
  magic : header.take 4 = format.magic
  version : header[4]? = some format.version
  flags : format.flagsAccepted (readLe ((header.drop 6).take 2)) = true
  declared : readLe ((header.drop 16).take 4) = payloadLen
  fits : payloadLen ≤ format.maxPayloadLen
  checksum : (format.crc (header.take headerCrcOffset)).toNat = readLe (header.drop headerCrcOffset)

/-- The bytes end inside the record that they begin. -/
inductive Incomplete (tail : Bytes) : Prop
  | inHeader (nonempty : tail ≠ []) (short : tail.length < headerLen)
  | behindHeader (payloadLen : Nat)
      (header : format.WholeHeader (tail.take headerLen) payloadLen)
      (short : tail.length < headerLen + payloadLen + trailerLen)

variable {tail : Bytes}

theorem incomplete_of_truncatedHeader (nonempty : tail ≠ [])
    (decoded : format.decode tail = .error .truncatedHeader) : format.Incomplete tail := by
  apply Incomplete.inHeader nonempty
  by_contra long
  rw [decode, if_neg long] at decoded
  dsimp only at decoded
  split_ifs at decoded <;> cases decoded

theorem incomplete_of_truncatedPayload (decoded : format.decode tail = .error .truncatedPayload) :
    format.Incomplete tail := by
  have long : ¬ tail.length < headerLen := by
    intro short
    rw [decode, if_pos short] at decoded
    cases decoded
  rw [decode, if_neg long] at decoded
  dsimp only at decoded
  split_ifs at decoded with named flagged fits checked short
  any_goals cases decoded
  simp only [Bool.or_eq_true, decide_eq_true_eq, not_or, not_not] at named
  exact .behindHeader _
      { length := length_take_of_le (Nat.not_lt.mp long)
        magic := named.1
        version := named.2
        flags := by simpa using flagged
        declared := rfl
        fits := Nat.not_lt.mp fits
        checksum := not_not.mp checked } short

theorem getElem?_of_decode (decoded : format.decode remaining = .ok frame) :
    remaining[5]? = some frame.recordType := by
  unfold decode at decoded
  by_cases short : remaining.length < headerLen
  · rw [if_pos short] at decoded
    cases decoded
  · rw [if_neg short] at decoded
    have long : 5 < remaining.length := by
      simp only [headerLen] at short
      omega
    simp only at decoded
    split_ifs at decoded
    cases decoded
    simp [headerLen, getElem?_eq_getElem long]

theorem getElem?_encode (seq : Nat) (recordType : UInt8) (payload : Bytes) :
    (format.encode seq recordType payload)[5]? = some recordType := by
  have long : 5 < (format.encode seq recordType payload).length := by
    rw [length_encode, headerLen]
    omega
  have isType : (format.encode seq recordType payload).getD 5 0 = recordType := by
    simp only [encode, append_assoc]
    exact (format.headerPrefix_fields seq recordType payload.length _).2.2.1
  rw [getElem?_eq_getElem long]
  rw [getD_eq_getElem _ _ long] at isType
  rw [isType]

theorem decode_bad_header (long : headerLen ≤ remaining.length)
    (bad : (format.crc (remaining.take headerCrcOffset)).toNat ≠
      readLe ((remaining.drop headerCrcOffset).take 4)) :
    format.decode remaining = .error .invalidHeader ∨
      format.decode remaining = .error .payloadTooLarge := by
  have covered : (remaining.take headerLen).take headerCrcOffset =
        remaining.take headerCrcOffset := by
    rw [take_take]
    rfl
  have stored : (remaining.take headerLen).drop headerCrcOffset =
        (remaining.drop headerCrcOffset).take 4 := by
    rw [drop_take]
    rfl
  unfold decode
  rw [if_neg (Nat.not_lt.mpr long)]
  simp only [covered, stored]
  split_ifs
  · exact Or.inl rfl
  · exact Or.inl rfl
  · exact Or.inr rfl
  · exact Or.inl rfl

/-- A bit flipped in the header is noticed by the checksum of the header. -/
theorem decode_flipped_header
    (tells : TellsBits format.crc) (seq : Nat) (recordType : UInt8)
    (payloadLen : Nat) (tail : Bytes)
    (inside : index < headerLen) (isBit : bit < 8) :
    let covered := format.headerPrefix seq recordType payloadLen
    let flipped := flipBit (covered ++ (leBytes 4 (format.crc covered).toNat ++ tail))
        index bit
    format.decode flipped = .error .invalidHeader ∨
      format.decode flipped = .error .payloadTooLarge := by
  intro covered flipped
  have coveredLength : covered.length = headerCrcOffset :=
    format.length_headerPrefix seq recordType payloadLen
  have crcLength := length_leBytes 4 (format.crc covered).toNat
  have crcRead := format.readLe_crc covered
  have long : headerLen ≤ flipped.length := by
    simp only [flipped, length_flipBit, length_append, coveredLength,
      crcLength, headerLen, headerCrcOffset]
    omega
  apply format.decode_bad_header long
  by_cases inCovered : index < covered.length
  · -- The stored checksum is the one of the bytes before the flip.
    have shape : flipped = flipBit covered index bit ++
          (leBytes 4 (format.crc covered).toNat ++ tail) := flipBit_append_left inCovered bit
    have flippedLength : (flipBit covered index bit).length = headerCrcOffset := by
      rw [length_flipBit, coveredLength]
    rw [shape, take_left' flippedLength, drop_left' flippedLength, take_left' crcLength, crcRead]
    intro same
    exact tells covered index bit inCovered isBit (UInt32.toNat_inj.mp same)
  · have behind := Nat.le_of_not_lt inCovered
    have inStored : index - covered.length < (leBytes 4 (format.crc covered).toNat).length := by
      rw [crcLength, coveredLength]
      simp only [headerLen, headerCrcOffset] at inside ⊢
      omega
    have shape : flipped = covered ++ (flipBit (leBytes 4 (format.crc covered).toNat)
            (index - covered.length) bit ++ tail) := by
      rw [← flipBit_append_left inStored]
      exact flipBit_append_right behind bit
    rw [shape, take_left' coveredLength, drop_left' coveredLength,
      take_left' (by rw [length_flipBit, crcLength])]
    intro same
    have bytesSame := readLe_inj (by rw [length_flipBit]) (crcRead.trans same)
    exact flipBit_ne inStored isBit bytesSame.symm

/-- A bit flipped behind the header is noticed by the checksum of the
record. -/
theorem decode_flipped_body
    (tells : TellsBits format.crc) (recordType : UInt8)
    (rest : Bytes) (seqFits : seq < 256 ^ 8)
    (lenFits : payload.length ≤ format.maxPayloadLen)
    (inside : index < payload.length + trailerLen) (isBit : bit < 8) :
    let covered := format.headerPrefix seq recordType payload.length
    let trailer := leBytes 4 (format.crc (covered ++ payload)).toNat
    format.decode
        (covered ++ (leBytes 4 (format.crc covered).toNat ++
          flipBit (payload ++ (trailer ++ rest)) index bit)) =
      .error .payloadChecksumMismatch := by
  intro covered trailer
  have trailerLength : trailer.length = trailerLen := length_leBytes 4 _
  have crcRead := format.readLe_crc (covered ++ payload)
  rw [format.decode_header recordType _ seqFits lenFits, if_neg, if_pos]
  · by_cases inPayload : index < payload.length
    · rw [flipBit_append_left inPayload, take_left' (length_flipBit payload index bit),
        drop_left' (length_flipBit payload index bit), take_left' trailerLength, crcRead]
      intro same
      have flipped : covered ++ flipBit payload index bit =
            flipBit (covered ++ payload) (covered.length + index) bit := by
        rw [flipBit_append_right (Nat.le_add_right _ _), Nat.add_sub_cancel_left]
      rw [flipped] at same
      refine tells (covered ++ payload) _ bit ?_ isBit (UInt32.toNat_inj.mp same)
      rw [length_append]
      omega
    · have behind := Nat.le_of_not_lt inPayload
      have inTrailer : index - payload.length < trailer.length := by
        rw [trailerLength]
        omega
      rw [flipBit_append_right behind, flipBit_append_left inTrailer, take_left, drop_left,
        take_left' (by rw [length_flipBit, trailerLength]), ← crcRead]
      intro same
      have bytesSame := readLe_inj (by rw [length_flipBit]) same
      exact flipBit_ne inTrailer isBit bytesSame.symm
  · rw [length_flipBit, length_append, length_append, trailerLength]
    omega

/-- A frame with one flipped bit is refused, and never taken for a cut. -/
theorem decode_flipBit_encode
    (tells : TellsBits format.crc) (recordType : UInt8) (rest : Bytes) (seqFits : seq < 256 ^ 8)
    (lenFits : payload.length ≤ format.maxPayloadLen)
    (inside : index < (format.encode seq recordType payload).length) (isBit : bit < 8) :
    ∃ stop, format.decode (flipBit (format.encode seq recordType payload) index bit ++ rest) =
      .error stop ∧ stop ≠ .truncatedHeader ∧ stop ≠ .truncatedPayload := by
  set covered := format.headerPrefix seq recordType payload.length with isCovered
  set trailer := leBytes 4 (format.crc (covered ++ payload)).toNat with isTrailer
  have shape : format.encode seq recordType payload ++ rest =
        covered ++ (leBytes 4 (format.crc covered).toNat ++ (payload ++ (trailer ++ rest))) := by
    simp only [encode, append_assoc, isCovered, isTrailer]
  rw [← flipBit_append_left inside, shape]
  by_cases inHeader : index < headerLen
  · rcases format.decode_flipped_header tells seq recordType payload.length
        (payload ++ (trailer ++ rest)) inHeader isBit with invalid | large
    · exact ⟨_, invalid, by simp, by simp⟩
    · exact ⟨_, large, by simp, by simp⟩
  · rw [length_encode] at inside
    have headLength : (covered ++ leBytes 4 (format.crc covered).toNat).length = headerLen := by
      simp [isCovered, headerLen]
    have behind : (covered ++ leBytes 4 (format.crc covered).toNat).length ≤ index := by
      rw [headLength]
      exact Nat.le_of_not_lt inHeader
    have mismatch := @decode_flipped_body (index - headerLen) bit format seq payload tells
        recordType rest seqFits lenFits (by omega) isBit
    rw [← append_assoc, flipBit_append_right behind, headLength, append_assoc]
    exact ⟨_, mismatch, by simp, by simp⟩

end Format

end ForgeCore.Frame
