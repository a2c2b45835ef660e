/-
# Entries of the phrase cache

`crates/audio/src/cache.rs`: the file a synthesized phrase is kept in.
An entry is a header of 56 bytes (the magic, the rate, the channels, two reserved bytes, the
number of samples and the digest of the payload) and the samples.  SHA-256 is a parameter.

The digest is that of the payload alone.  What a corrupted entry decodes to is therefore decided by
the range checks where the corruption is in the header (`altered_entry_iff`).
-/

import PersonalAgent.Contracts.Libraries

namespace PersonalAgent.Audio

open List

/-- A digest has 32 bytes. -/
class SizedSha256 extends Sha256 where
  length_digest : ∀ bytes, (digest bytes).length = 32

inductive AudioError where
  | processing (message : String)
  deriving DecidableEq

/-! ### Bytes -/

/-- `to_le_bytes` of a number of `width` bytes. -/
def toLeBytes (width value : ℕ) : List UInt8 :=
  (List.range width).map fun place => UInt8.ofNat (value / 256 ^ place)

def fromLeBytes : List UInt8 → ℕ
  | [] => 0
  | byte :: rest => byte.toNat + 256 * fromLeBytes rest

/-- The bytes from `start` up to `stop`, if there are so many. -/
def slice (bytes : List UInt8) (start stop : ℕ) : List UInt8 := (bytes.take stop).drop start

@[simp] theorem length_toLeBytes (width value : ℕ) : (toLeBytes width value).length = width := by
  simp [toLeBytes]

theorem toLeBytes_succ (width value : ℕ) :
    toLeBytes (width + 1) value = UInt8.ofNat value :: toLeBytes width (value / 256) := by
  simp only [toLeBytes, range_succ_eq_map, map_cons, map_map, pow_zero, Nat.div_one]
  congr 1
  refine map_congr_left fun place _ => ?_
  simp only [Function.comp_apply, Nat.succ_eq_add_one]
  rw [Nat.div_div_eq_div_mul, pow_succ']

theorem fromLeBytes_toLeBytes {width value : ℕ} (h : value < 256 ^ width) :
    fromLeBytes (toLeBytes width value) = value := by
  induction width generalizing value with
  | zero => simpa [toLeBytes, fromLeBytes, eq_comm] using h
  | succ width ih =>
    rw [toLeBytes_succ, fromLeBytes, ih (Nat.div_lt_of_lt_mul (by rwa [pow_succ'] at h))]
    simp only [UInt8.toNat_ofNat']
    omega

theorem toLeBytes_fromLeBytes (bytes : List UInt8) :
    toLeBytes bytes.length (fromLeBytes bytes) = bytes := by
  induction bytes with
  | nil => rfl
  | cons byte bytes ih =>
    have hbyte := byte.toNat_lt
    have hrest : (byte.toNat + 256 * fromLeBytes bytes) / 256 = fromLeBytes bytes := by omega
    rw [length_cons, toLeBytes_succ, fromLeBytes, hrest, ih]
    congr 1
    refine UInt8.toNat_inj.mp ?_
    simp only [UInt8.toNat_ofNat']
    omega

theorem fromLeBytes_inj {a b : List UInt8} (hlength : a.length = b.length)
    (h : fromLeBytes a = fromLeBytes b) : a = b := by
  rw [← toLeBytes_fromLeBytes a, ← toLeBytes_fromLeBytes b, hlength, h]

theorem fromLeBytes_lt (bytes : List UInt8) : fromLeBytes bytes < 256 ^ bytes.length := by
  induction bytes with
  | nil => decide
  | cons byte bytes ih =>
    have hbyte := byte.toNat_lt
    rw [fromLeBytes, length_cons, pow_succ']
    omega

theorem length_slice {bytes : List UInt8} {start stop : ℕ} (h : stop ≤ bytes.length) :
    (slice bytes start stop).length = stop - start := by
  rw [slice, length_drop, length_take, Nat.min_eq_left h]

theorem slice_skip {before after : List UInt8} {start stop : ℕ} (h : before.length ≤ start) :
    slice (before ++ after) start stop =
      slice after (start - before.length) (stop - before.length) := by
  have hbefore : (before.take stop).drop start = [] :=
    drop_eq_nil_of_le (by rw [length_take]; omega)
  rw [slice, slice, take_append, drop_append, hbefore, nil_append, length_take]
  rcases le_total stop before.length with hstop | hstop
  · simp [Nat.sub_eq_zero_of_le hstop]
  · rw [Nat.min_eq_right hstop]

theorem slice_here {field after : List UInt8} {stop : ℕ} (h : field.length = stop) :
    slice (field ++ after) 0 stop = field := by
  simp [slice, ← h]

/-! ### The entry format -/

/-- One decoded cache hit: interleaved signed 16-bit PCM plus its format. -/
structure CachedPhrase where
  samples : List Int16
  sampleRateHz : UInt32
  channels : UInt16
  deriving DecidableEq

/-- `b"PAPHRAS1"`. -/
def entryMagic : List UInt8 := "PAPHRAS1".toList.flatMap String.utf8EncodeChar

def entryHeaderBytes : ℕ := 56

def payloadOf (samples : List Int16) : List UInt8 :=
  samples.flatMap fun sample => toLeBytes 2 sample.toUInt16.toNat

/-- The samples of a payload, from its pairs of bytes. -/
def samplesOf : List UInt8 → List Int16
  | low :: high :: rest => (UInt16.ofNat (fromLeBytes [low, high])).toInt16 :: samplesOf rest
  | _ => []

section Format

variable [SizedSha256]

def encodeEntry (samples : List Int16) (sampleRateHz : UInt32) (channels : UInt16) :
    Except AudioError (List UInt8) :=
  if samples.isEmpty || !(8000 ≤ sampleRateHz.toNat && sampleRateHz.toNat ≤ 192000) ||
      channels = 0 || samples.length % channels.toNat != 0 then
    .error (.processing "phrase cache received an invalid PCM phrase")
  else
    let payload := payloadOf samples
    .ok (entryMagic ++ toLeBytes 4 sampleRateHz.toNat ++ toLeBytes 2 channels.toNat ++
      toLeBytes 2 0 ++ toLeBytes 8 samples.length ++ Sha256.digest payload ++ payload)

def decodeEntry (bytes : List UInt8) : Option CachedPhrase :=
  if bytes.length < entryHeaderBytes then none
  else if slice bytes 0 8 != entryMagic then none
  else
    let sampleRateHz := fromLeBytes (slice bytes 8 12)
    let channels := fromLeBytes (slice bytes 12 14)
    let sampleCount := fromLeBytes (slice bytes 16 24)
    let expected := slice bytes 24 entryHeaderBytes
    let payload := bytes.drop entryHeaderBytes
    if sampleCount = 0 || channels = 0 || !(8000 ≤ sampleRateHz && sampleRateHz ≤ 192000) ||
        2 ^ 64 ≤ sampleCount * 2 || payload.length != sampleCount * 2 ||
        sampleCount % channels != 0 || Sha256.digest payload != expected then none
    else
      some
        { samples := samplesOf payload
          sampleRateHz := UInt32.ofNat sampleRateHz
          channels := UInt16.ofNat channels }

/-- The checks that an entry passes: each of its numbers is in range, it has as many bytes as it
says and the digest is that of its payload. -/
structure Passes (bytes : List UInt8) : Prop where
  header : entryHeaderBytes ≤ bytes.length
  magic : slice bytes 0 8 = entryMagic
  rate : 8000 ≤ fromLeBytes (slice bytes 8 12) ∧ fromLeBytes (slice bytes 8 12) ≤ 192000
  channels : fromLeBytes (slice bytes 12 14) ≠ 0 ∧
    fromLeBytes (slice bytes 16 24) % fromLeBytes (slice bytes 12 14) = 0
  count : fromLeBytes (slice bytes 16 24) ≠ 0 ∧ fromLeBytes (slice bytes 16 24) * 2 < 2 ^ 64 ∧
    (bytes.drop entryHeaderBytes).length = fromLeBytes (slice bytes 16 24) * 2
  digest : Sha256.digest (bytes.drop entryHeaderBytes) = slice bytes 24 entryHeaderBytes

theorem decodeEntry_eq_some_iff {bytes : List UInt8} {phrase : CachedPhrase} :
    decodeEntry bytes = some phrase ↔ Passes bytes ∧
      phrase = ⟨samplesOf (bytes.drop entryHeaderBytes),
        UInt32.ofNat (fromLeBytes (slice bytes 8 12)),
        UInt16.ofNat (fromLeBytes (slice bytes 12 14))⟩ := by
  unfold decodeEntry
  dsimp only
  refine ⟨fun h => ?_, ?_⟩
  · split_ifs at h with hheader hmagic hchecks
    simp only [Bool.or_eq_true, decide_eq_true_eq, bne_iff_ne, Bool.not_eq_true',
      Bool.and_eq_false_iff, decide_eq_false_iff_not, not_or, not_not, not_le, not_lt]
      at hchecks hmagic hheader
    obtain ⟨⟨⟨⟨⟨⟨hcount, hchannels⟩, hrate⟩, hsize⟩, hlength⟩, hdivides⟩, hdigest⟩ := hchecks
    exact ⟨⟨hheader, hmagic, hrate, ⟨hchannels, hdivides⟩, ⟨hcount, hsize, hlength⟩, hdigest⟩,
      (Option.some.inj h).symm⟩
  · rintro ⟨h, rfl⟩
    rw [if_neg (not_lt.mpr h.header), if_neg (by simp [h.magic]), if_neg]
    have hsize := h.count.2.1
    simp [h.count.1, h.count.2.2, h.channels.1, h.channels.2, h.rate.1, h.rate.2, h.digest]
    omega

omit [SizedSha256] in
theorem samplesOf_payloadOf (samples : List Int16) : samplesOf (payloadOf samples) = samples := by
  induction samples with
  | nil => rfl
  | cons sample samples ih =>
    have hvalue := sample.toUInt16.toNat_lt
    have hpair : toLeBytes 2 sample.toUInt16.toNat = [UInt8.ofNat sample.toUInt16.toNat,
        UInt8.ofNat (sample.toUInt16.toNat / 256)] := by
      rw [toLeBytes_succ, toLeBytes_succ]
      rfl
    have hround : fromLeBytes (toLeBytes 2 sample.toUInt16.toNat) = sample.toUInt16.toNat :=
      fromLeBytes_toLeBytes hvalue
    rw [hpair] at hround
    rw [payloadOf, flatMap_cons, hpair]
    change _ :: samplesOf (payloadOf samples) = _
    rw [ih, hround]
    simp

omit [SizedSha256] in
theorem payloadOf_samplesOf {payload : List UInt8} (h : payload.length % 2 = 0) :
    payloadOf (samplesOf payload) = payload := by
  induction payload using samplesOf.induct with
  | case1 low high rest ih =>
    have hpair : toLeBytes 2 (fromLeBytes [low, high]) = [low, high] := toLeBytes_fromLeBytes _
    have hlow := low.toNat_lt
    have hhigh := high.toNat_lt
    have hvalue : fromLeBytes [low, high] < 2 ^ 16 := by
      simp only [fromLeBytes]
      omega
    have hrest : rest.length % 2 = 0 := by
      rw [length_cons, length_cons] at h
      omega
    rw [samplesOf, payloadOf, flatMap_cons]
    change _ ++ payloadOf (samplesOf rest) = _
    rw [ih hrest, UInt16.toUInt16_toInt16, UInt16.toNat_ofNat', Nat.mod_eq_of_lt hvalue, hpair]
    rfl
  | case2 payload hshort =>
    match payload, h, hshort with
    | [], _, _ => rfl
    | low :: high :: rest, _, hshort => exact absurd rfl (hshort low high rest)

theorem decodeEntry_encodeEntry {samples : List Int16} {rate : UInt32} {channels : UInt16}
    {bytes : List UInt8} (hlength : samples.length < 2 ^ 62)
    (h : encodeEntry samples rate channels = .ok bytes) :
    decodeEntry bytes = some ⟨samples, rate, channels⟩ := by
  unfold encodeEntry at h
  split_ifs at h with hchecks
  simp only [Bool.or_eq_true, List.isEmpty_iff, Bool.not_eq_true', Bool.and_eq_false_iff,
    decide_eq_false_iff_not, decide_eq_true_eq, bne_iff_ne, not_or, not_not] at hchecks
  obtain ⟨⟨⟨hsamples, hrate⟩, hchannels⟩, hdivides⟩ := hchecks
  obtain rfl := Except.ok.inj h
  have hdigest := SizedSha256.length_digest (payloadOf samples)
  have hpayload : (payloadOf samples).length = samples.length * 2 := by
    simp [payloadOf, length_flatMap]
  have hmagic : entryMagic.length = 8 := by decide +kernel
  simp only [append_assoc]
  have hcount : fromLeBytes (toLeBytes 8 samples.length) = samples.length :=
    fromLeBytes_toLeBytes (by omega)
  have hrate' : fromLeBytes (toLeBytes 4 rate.toNat) = rate.toNat :=
    fromLeBytes_toLeBytes rate.toNat_lt
  have hchannels' : fromLeBytes (toLeBytes 2 channels.toNat) = channels.toNat :=
    fromLeBytes_toLeBytes channels.toNat_lt
  have hpos : 0 < samples.length := List.length_pos_iff.mpr hsamples
  have hne : channels.toNat ≠ 0 := fun hzero => hchannels (UInt16.toNat_inj.mp hzero)
  rw [decodeEntry_eq_some_iff]
  -- each field is found behind those before it
  refine ⟨⟨?_, ?_, ?_, ?_, ?_, ?_⟩, ?_⟩ <;>
    simp (disch := simp [hmagic, hdigest]) only [slice_skip, slice_here, length_toLeBytes, hmagic,
      Nat.reduceSub, hcount, hrate', hchannels', length_append, hdigest, hpayload,
      entryHeaderBytes, drop_append, drop_eq_nil_of_le, nil_append, drop_zero]
  · omega
  · exact hrate
  · exact ⟨hne, hdivides⟩
  · exact ⟨hpos.ne', by omega, trivial⟩
  · simp [samplesOf_payloadOf]

/-- **Entries that were altered.**  What was encoded is decoded again, and whatever is decoded
passes the checks.  An entry of which bytes were altered decodes to nothing or to the phrase it had,
exactly if it fails the checks or has kept its rate, its channels and its digest, which is that of
the samples only; this where the digest has not collided. -/
theorem altered_entry_iff :
    (∀ (samples : List Int16) (rate : UInt32) (channels : UInt16) (bytes : List UInt8),
      samples.length < 2 ^ 62 → encodeEntry samples rate channels = .ok bytes →
      decodeEntry bytes = some ⟨samples, rate, channels⟩) ∧
    (∀ (bytes : List UInt8) (phrase : CachedPhrase), decodeEntry bytes = some phrase →
      Passes bytes) ∧
    ∀ (entry altered : List UInt8) (phrase : CachedPhrase), decodeEntry entry = some phrase →
      altered.length = entry.length →
      (Sha256.digest (altered.drop entryHeaderBytes) =
        Sha256.digest (entry.drop entryHeaderBytes) →
        altered.drop entryHeaderBytes = entry.drop entryHeaderBytes) →
      ((decodeEntry altered = none ∨ decodeEntry altered = some phrase) ↔
        (Passes altered → slice altered 8 12 = slice entry 8 12 ∧
          slice altered 12 14 = slice entry 12 14 ∧
          slice altered 24 entryHeaderBytes = slice entry 24 entryHeaderBytes)) := by
  refine ⟨fun samples rate channels bytes hlength h => decodeEntry_encodeEntry hlength h,
    fun bytes phrase h => (decodeEntry_eq_some_iff.mp h).1, ?_⟩
  intro entry altered phrase hentry hlength hcollision
  obtain ⟨hpasses, rfl⟩ := decodeEntry_eq_some_iff.mp hentry
  by_cases haltered : Passes altered
  swap
  · have hnone : decodeEntry altered = none := by
      cases hdecode : decodeEntry altered with
      | none => rfl
      | some other => exact absurd (decodeEntry_eq_some_iff.mp hdecode).1 haltered
    exact iff_of_true (.inl hnone) fun h => absurd h haltered
  have hdecode := decodeEntry_eq_some_iff.mpr ⟨haltered, rfl⟩
  rw [hdecode]
  simp only [reduceCtorEq, false_or, Option.some_inj, CachedPhrase.mk.injEq, haltered,
    forall_const]
  have hheader : 56 ≤ entry.length := hpasses.header
  have hheader' : 56 ≤ altered.length := haltered.header
  -- numbers of as many bytes are equal if the bytes are
  have hfield (start stop : ℕ) (hstop : stop ≤ 56) :
      slice altered start stop = slice entry start stop ↔
        fromLeBytes (slice altered start stop) = fromLeBytes (slice entry start stop) := by
    refine ⟨congrArg fromLeBytes, fromLeBytes_inj ?_⟩
    rw [length_slice (by omega), length_slice (by omega)]
  have hrate : UInt32.ofNat (fromLeBytes (slice altered 8 12)) =
      UInt32.ofNat (fromLeBytes (slice entry 8 12)) ↔ slice altered 8 12 = slice entry 8 12 := by
    rw [hfield 8 12 (by decide), ← UInt32.toNat_inj, UInt32.toNat_ofNat', UInt32.toNat_ofNat',
      Nat.mod_eq_of_lt (by have := haltered.rate.2; omega),
      Nat.mod_eq_of_lt (by have := hpasses.rate.2; omega)]
  have hchannels : UInt16.ofNat (fromLeBytes (slice altered 12 14)) =
      UInt16.ofNat (fromLeBytes (slice entry 12 14)) ↔
        slice altered 12 14 = slice entry 12 14 := by
    have hlt (bytes : List UInt8) (hbytes : 56 ≤ bytes.length) :
        fromLeBytes (slice bytes 12 14) < 2 ^ 16 := by
      have hbound := fromLeBytes_lt (slice bytes 12 14)
      rwa [length_slice (by omega)] at hbound
    rw [hfield 12 14 (by decide), ← UInt16.toNat_inj, UInt16.toNat_ofNat', UInt16.toNat_ofNat',
      Nat.mod_eq_of_lt (hlt _ hheader'), Nat.mod_eq_of_lt (hlt _ hheader)]
  rw [hrate, hchannels, ← haltered.digest, ← hpasses.digest]
  refine ⟨fun ⟨hsamples, hrate, hchannels⟩ => ⟨hrate, hchannels, ?_⟩,
    fun ⟨hrate, hchannels, hdigest⟩ => ⟨by rw [hcollision hdigest], hrate, hchannels⟩⟩
  have heven : (altered.drop entryHeaderBytes).length % 2 = 0 := by
    rw [haltered.count.2.2]
    omega
  have heven' : (entry.drop entryHeaderBytes).length % 2 = 0 := by
    rw [hpasses.count.2.2]
    omega
  rw [← payloadOf_samplesOf heven, ← payloadOf_samplesOf heven', hsamples]

end Format

section Examples

/-- A digest of the first 32 bytes. -/
@[reducible] def leadSha256 : SizedSha256 where
  digest bytes := bytes.take 32 ++ List.replicate (32 - min 32 bytes.length) 0
  length_digest bytes := by
    simp only [length_append, length_take, length_replicate]
    omega

attribute [local instance] leadSha256

/-- A phrase of two samples, at 24000 Hz. -/
def shortEntry : List UInt8 := (encodeEntry [1, 2] 24000 1).toOption.getD []

/-- **A header that was corrupted is believed.**  One bit of the rate, and the phrase is played at
24001 Hz; one bit of the channels, and it is a phrase of two channels. -/
theorem corrupt_header_decoded :
    decodeEntry shortEntry = some ⟨[1, 2], 24000, 1⟩ ∧
    decodeEntry (shortEntry.set 8 0xc1) = some ⟨[1, 2], 24001, 1⟩ ∧
    decodeEntry (shortEntry.set 12 2) = some ⟨[1, 2], 24000, 2⟩ := by
  decide +kernel

/-- A reserved byte does not matter. -/
theorem altered_entry_reserved :
    decodeEntry (shortEntry.set 14 7) = none ∨
      decodeEntry (shortEntry.set 14 7) = some ⟨[1, 2], 24000, 1⟩ :=
  (altered_entry_iff.2.2 shortEntry (shortEntry.set 14 7) ⟨[1, 2], 24000, 1⟩ (by decide +kernel)
    (by decide +kernel) fun _ => by decide +kernel).mpr fun _ => by decide +kernel

end Examples

end PersonalAgent.Audio
