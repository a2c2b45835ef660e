/-
# Hashes of release artifacts

`decode_hex` reads hexadecimal digits of either case, `hex` writes lower case.  `verify` accepts
a hash that the first can read; `verify_artifact` compares its text with what the second writes.
So a signed manifest whose hash has a capital letter is accepted, and no download for it ever is
(`artifact_usable_iff`).
-/

import PersonalAgent.Core.Release

namespace PersonalAgent.Core

open List

/-! ### Digits -/

/-- A digit, of either case. -/
def IsHexDigit (c : Char) : Prop :=
  ('0' ≤ c ∧ c ≤ '9') ∨ ('a' ≤ c ∧ c ≤ 'f') ∨ ('A' ≤ c ∧ c ≤ 'F')

/-- The character of a digit, as `hex` writes it. -/
def digitOf (n : ℕ) : Char := "0123456789abcdef".toList.getD n '0'

/-- `char::to_ascii_lowercase`. -/
def lowerChar (c : Char) : Char :=
  if 65 ≤ c.toNat && c.toNat ≤ 90 then Char.ofNat (c.toNat + 32) else c

variable {c : Char} {n : ℕ}

theorem nibble_isSome_iff : (nibble c).isSome ↔ IsHexDigit c := by
  unfold nibble IsHexDigit
  simp only [Char.le_def, UInt32.le_iff_toNat_le]
  change _ ↔ (48 ≤ c.toNat ∧ c.toNat ≤ 57) ∨ (97 ≤ c.toNat ∧ c.toNat ≤ 102) ∨
    (65 ≤ c.toNat ∧ c.toNat ≤ 70)
  split_ifs <;> simp <;> omega

theorem nibble_digitOf (h : n < 16) : nibble (digitOf n) = some n := by
  interval_cases n <;> rfl

theorem toNat_lt_of_isHexDigit (h : IsHexDigit c) : c.toNat < 128 := by
  rcases h with ⟨-, h⟩ | ⟨-, h⟩ | ⟨-, h⟩ <;>
    exact lt_of_le_of_lt (UInt32.le_iff_toNat_le.mp h) (by decide)

/-- A digit that is read is written in lower case. -/
theorem digitOf_nibble (h : nibble c = some n) : n < 16 ∧ digitOf n = lowerChar c := by
  have hall : ∀ m : Fin 128, ∀ n ∈ nibble (Char.ofNat m),
      n < 16 ∧ digitOf n = lowerChar (Char.ofNat m) := by decide +kernel
  have hdigit : IsHexDigit c := nibble_isSome_iff.mp (by rw [h]; rfl)
  have hc := hall ⟨c.toNat, toNat_lt_of_isHexDigit hdigit⟩ n
  rw [Char.ofNat_toNat] at hc
  exact hc h

theorem lowerChar_eq_self_iff (h : IsHexDigit c) : lowerChar c = c ↔ ¬('A' ≤ c ∧ c ≤ 'F') := by
  have hall : ∀ m : Fin 128, IsHexDigit (Char.ofNat m) →
      (lowerChar (Char.ofNat m) = Char.ofNat m ↔
        ¬('A' ≤ Char.ofNat m ∧ Char.ofNat m ≤ 'F')) := by
    unfold IsHexDigit
    decide +kernel
  have hc := hall ⟨c.toNat, toNat_lt_of_isHexDigit h⟩
  rw [Char.ofNat_toNat] at hc
  exact hc h

/-! ### Texts -/

/-- The digits that `hex` writes. -/
def digitsOf (bytes : List UInt8) : List Char :=
  bytes.flatMap fun byte => [digitOf (byte.toNat / 16), digitOf (byte.toNat % 16)]

theorem toList_hex (bytes : List UInt8) : (hex bytes).toList = digitsOf bytes :=
  String.toList_ofList

theorem digitsOf_cons (byte : UInt8) (bytes : List UInt8) : digitsOf (byte :: bytes) =
    digitOf (byte.toNat / 16) :: digitOf (byte.toNat % 16) :: digitsOf bytes := rfl

theorem decodePairs_digitsOf (bytes : List UInt8) :
    decodePairs (digitsOf bytes) = some bytes := by
  induction bytes with
  | nil => rfl
  | cons byte bytes ih =>
    have hbyte := byte.toNat_lt
    have hsum : byte.toNat / 16 * 16 + byte.toNat % 16 = byte.toNat := by omega
    rw [digitsOf_cons, decodePairs, nibble_digitOf (by omega), nibble_digitOf (by omega), ih]
    change some (UInt8.ofNat (byte.toNat / 16 * 16 + byte.toNat % 16) :: bytes) = _
    rw [hsum, UInt8.ofNat_toNat]

theorem digitsOf_decodePairs {text : List Char} {bytes : List UInt8}
    (h : decodePairs text = some bytes) : digitsOf bytes = text.map lowerChar ∧
      text.length = bytes.length * 2 ∧ ∀ c ∈ text, IsHexDigit c := by
  induction text using decodePairs.induct generalizing bytes with
  | case1 =>
    obtain rfl := Option.some.inj h
    exact ⟨rfl, rfl, fun c hc => absurd hc not_mem_nil⟩
  | case2 c => cases h
  | case3 high low rest ih =>
    simp only [decodePairs, Option.bind_eq_bind, Option.bind_eq_some_iff, Option.pure_def,
      Option.some_inj] at h
    obtain ⟨m, hm, n, hn, bytes, hrest, rfl⟩ := h
    obtain ⟨hdigits, hlength, hall⟩ := ih hrest
    obtain ⟨hm16, hhigh⟩ := digitOf_nibble hm
    obtain ⟨hn16, hlow⟩ := digitOf_nibble hn
    have hbyte : (UInt8.ofNat (m * 16 + n)).toNat = m * 16 + n := by
      rw [UInt8.toNat_ofNat', Nat.mod_eq_of_lt (by omega)]
    refine ⟨?_, by simp [hlength, add_mul], ?_⟩
    · rw [digitsOf_cons, hbyte, hdigits, show (m * 16 + n) / 16 = m by omega,
        show (m * 16 + n) % 16 = n by omega, hhigh, hlow]
      rfl
    · intro c hc
      rcases mem_cons.mp hc with rfl | hc
      · exact nibble_isSome_iff.mp (by rw [hm]; rfl)
      rcases mem_cons.mp hc with rfl | hc
      · exact nibble_isSome_iff.mp (by rw [hn]; rfl)
      · exact hall c hc

theorem decodePairs_isSome {text : List Char} (hall : ∀ c ∈ text, IsHexDigit c)
    (heven : text.length % 2 = 0) : (decodePairs text).isSome := by
  induction text using decodePairs.induct with
  | case1 => rfl
  | case2 c => cases heven
  | case3 high low rest ih =>
    obtain ⟨m, hm⟩ := Option.isSome_iff_exists.mp (nibble_isSome_iff.mpr (hall high (by simp)))
    obtain ⟨n, hn⟩ := Option.isSome_iff_exists.mp (nibble_isSome_iff.mpr (hall low (by simp)))
    obtain ⟨bytes, hrest⟩ := Option.isSome_iff_exists.mp (ih (fun c hc => hall c (by simp [hc])) (by
      simp only [length_cons] at heven
      omega))
    simp [decodePairs, hm, hn, hrest]

theorem utf8ByteSize_of_isHexDigit {s : String} (h : ∀ c ∈ s.toList, IsHexDigit c) :
    s.utf8ByteSize = s.toList.length := by
  rw [← String.ofList_toList (s := s)]
  generalize s.toList = text at h
  rw [String.toList_ofList]
  induction text with
  | nil => rfl
  | cons c text ih =>
    have hc : c.utf8Size = 1 := Char.utf8Size_eq_one_iff.mpr (UInt32.le_iff_toNat_le.mpr
      (Nat.le_of_lt_succ (toNat_lt_of_isHexDigit (h c mem_cons_self))))
    rw [← singleton_append, String.ofList_append, String.utf8ByteSize_append,
      ih fun c' hc' => h c' (mem_cons_of_mem c hc'), length_append]
    simp [hc]

/-- `decode_hex` accepts exactly `2 * n` digits. -/
theorem decodeHex_isSome_iff {value : String} : (decodeHex n value).isSome ↔
    value.toList.length = n * 2 ∧ ∀ c ∈ value.toList, IsHexDigit c := by
  unfold decodeHex
  refine ⟨fun h => ?_, fun ⟨hlength, hall⟩ => ?_⟩
  · split_ifs at h with hsize
    · cases h
    · obtain ⟨bytes, hbytes⟩ := Option.isSome_iff_exists.mp h
      have hall := (digitsOf_decodePairs hbytes).2.2
      rw [not_not, utf8ByteSize_of_isHexDigit hall] at hsize
      exact ⟨hsize, hall⟩
  · rw [utf8ByteSize_of_isHexDigit hall, if_neg (not_not.mpr hlength)]
    exact decodePairs_isSome hall (by omega)

theorem decodeHex_hex (bytes : List UInt8) : decodeHex bytes.length (hex bytes) = some bytes := by
  have hpairs := decodePairs_digitsOf bytes
  obtain ⟨-, hlength, hall⟩ := digitsOf_decodePairs hpairs
  rw [← toList_hex] at hpairs hlength hall
  rw [decodeHex, utf8ByteSize_of_isHexDigit hall, if_neg (not_not.mpr hlength), hpairs]

theorem hex_injective : hex.Injective := by
  intro a b h
  have ha := (decodeHex_isSome_iff.mp (by rw [decodeHex_hex a]; rfl)).1
  have hb := (decodeHex_isSome_iff.mp (by rw [decodeHex_hex b]; rfl)).1
  have hlength : a.length = b.length := by
    rw [h] at ha
    omega
  have hdecode := decodeHex_hex a
  rw [h, hlength, decodeHex_hex b] at hdecode
  exact (Option.some.inj hdecode).symm

/-- A text that decodes to the bytes is what `hex` writes if it has no capital letter. -/
theorem hex_eq_iff {value : String} {bytes : List UInt8} (h : decodeHex n value = some bytes) :
    hex bytes = value ↔ ∀ c ∈ value.toList, ¬('A' ≤ c ∧ c ≤ 'F') := by
  unfold decodeHex at h
  split_ifs at h
  obtain ⟨hdigits, -, hall⟩ := digitsOf_decodePairs h
  have hmap := map_inj_left (f := lowerChar) (g := id) (l := value.toList)
  rw [map_id] at hmap
  rw [← String.toList_inj, toList_hex, hdigits, hmap]
  exact forall₂_congr fun c hc => lowerChar_eq_self_iff (hall c hc)

/-! ### Artifacts -/

namespace SignedReleaseManifest

/-- **The downloads that a verified manifest admits.**  Hexadecimal digits decode to the bytes they
were written from, and `decode_hex` accepts `2 * n` digits and nothing else.  Bytes of the length
and the decoded hash that the first entry of a target has are accepted exactly if the hash is
spelled without capital letters. -/
theorem artifact_usable_iff [ReleaseCrypto] :
    (∀ bytes, decodeHex bytes.length (hex bytes) = some bytes) ∧
    (∀ n value, (decodeHex n value).isSome ↔
      value.toList.length = n * 2 ∧ ∀ c ∈ value.toList, IsHexDigit c) ∧
    ∀ (manifest : SignedReleaseManifest) (publicKey : List UInt8) (target : String)
      (artifact : ReleaseArtifact) (bytes : List UInt8), manifest.verify publicKey = .ok () →
      manifest.artifacts.find? (·.target == target) = some artifact →
      bytes.length = artifact.byteLength →
      decodeHex 32 artifact.sha256 = some (Sha256.digest bytes) →
      (manifest.verifyArtifact target bytes = .ok artifact ↔
        ∀ c ∈ artifact.sha256.toList, ¬('A' ≤ c ∧ c ≤ 'F')) := by
  refine ⟨decodeHex_hex, fun n value => decodeHex_isSome_iff, ?_⟩
  intro manifest publicKey target artifact bytes _ hfind hlength hdecode
  rw [← hex_eq_iff hdecode, ← Sha256.hexDigest, verifyArtifact, hfind]
  simp [hlength]

end SignedReleaseManifest

section Examples

attribute [local instance] Session.toyCrypto

/-- A release whose hash is spelled with the given digits. -/
def spelledManifest (sha256 : String) : SignedReleaseManifest :=
  { Session.signedManifest with
    artifacts := Session.signedManifest.artifacts.map fun artifact =>
      { artifact with sha256 := sha256 } }

/-- **A hash in capital letters.**  The manifest verifies, its hash decodes to that of the bytes,
and the bytes do not match it. -/
theorem capital_hash_unusable :
    let manifest := spelledManifest (String.ofList (List.replicate 64 'A'))
    let bytes := Session.installer 0xaa
    manifest.verify [7] = .ok () ∧
    decodeHex 32 (String.ofList (List.replicate 64 'A')) = some (Sha256.digest bytes) ∧
    manifest.verifyArtifact "linux" bytes = .error .artifactMismatch := by
  decide +kernel

/-- A hash in lower case. -/
theorem artifact_usable_lower :
    let manifest := spelledManifest (String.ofList (List.replicate 64 'a'))
    ∃ artifact, manifest.verifyArtifact "linux" (Session.installer 0xaa) = .ok artifact := by
  intro manifest
  refine ⟨_, (SignedReleaseManifest.artifact_usable_iff.2.2 manifest [7] "linux" _
    (Session.installer 0xaa) (by decide +kernel) rfl (by decide +kernel) (by decide +kernel)).mpr
      fun c hc => ?_⟩
  change c ∈ (String.ofList (List.replicate 64 'a')).toList at hc
  rw [String.toList_ofList] at hc
  rw [eq_of_mem_replicate hc]
  decide

end Examples

end PersonalAgent.Core
