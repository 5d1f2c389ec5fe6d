import SlideDeck.Text.Utf8

/-!
# UTF-8 is read as it was written

A character is written as one to four bytes. The first byte tells how many there are, and each
form has its own range of code points, so the reader finds the form again (`front_encodeChar`) and
computes the code point from the bytes. A text is read character by character
(`decode?_encode`).
-/

set_option autoImplicit false

namespace SlideDeck.Text.Utf8

/-! ## Bytes as numbers -/

theorem toNat_ofNat {n : Nat} (bound : n < 256) : (UInt8.ofNat n).toNat = n := by
  rw [UInt8.toNat_ofNat', Nat.mod_eq_of_lt bound]

theorem between_iff (low high b : UInt8) :
    (decide (low ≤ b) && decide (b ≤ high)) = true ↔
      low.toNat ≤ b.toNat ∧ b.toNat ≤ high.toNat := by
  rw [Bool.and_eq_true, decide_eq_true_iff, decide_eq_true_iff, UInt8.le_iff_toNat_le,
    UInt8.le_iff_toNat_le]

theorem isContinuation_iff {b : UInt8} :
    isContinuation b = true ↔ 128 ≤ b.toNat ∧ b.toNat ≤ 191 :=
  between_iff 0x80 0xBF b

/-- The bytes that may stand behind the first one. Four first bytes leave out a part of them. -/
theorem secondAllowed_of {lead second : UInt8} (lower : 128 ≤ second.toNat)
    (upper : second.toNat ≤ 191) (noOverlong : lead.toNat = 0xE0 → 160 ≤ second.toNat)
    (noSurrogate : lead.toNat = 0xED → second.toNat ≤ 159)
    (noLongOverlong : lead.toNat = 0xF0 → 144 ≤ second.toNat)
    (noExcess : lead.toNat = 0xF4 → second.toNat ≤ 143) : secondAllowed lead second = true := by
  simp only [secondAllowed, beq_iff_eq, ← UInt8.toNat_inj, UInt8.reduceToNat]
  split
  next e0 => exact (between_iff _ _ _).mpr ⟨noOverlong e0, upper⟩
  split
  next ed => exact (between_iff _ _ _).mpr ⟨lower, noSurrogate ed⟩
  split
  next f0 => exact (between_iff _ _ _).mpr ⟨noLongOverlong f0, upper⟩
  split
  next f4 => exact (between_iff _ _ _).mpr ⟨lower, noExcess f4⟩
  exact isContinuation_iff.mpr ⟨lower, upper⟩

/-- A byte that continues a character, from its six bits. -/
theorem toNat_continuation (n : Nat) : (UInt8.ofNat (n % 64 + 128)).toNat = n % 64 + 128 :=
  toNat_ofNat (by omega)

theorem isContinuation_ofNat (n : Nat) : isContinuation (UInt8.ofNat (n % 64 + 128)) = true := by
  rw [isContinuation_iff, toNat_continuation]
  omega

theorem payload_ofNat (n : Nat) : payload (UInt8.ofNat (n % 64 + 128)) = n % 64 := by
  rw [payload, toNat_continuation]
  omega

/-! ## One character -/

section Forms

variable {n : Nat} (rest : List UInt8)

theorem front_one (upper : n ≤ 0x7F) :
    front (UInt8.ofNat n) rest = .character (Char.ofNat n) 0 := by
  have lead := toNat_ofNat (n := n) (by omega)
  have low : UInt8.ofNat n < 0x80 := by
    rw [UInt8.lt_iff_toNat_lt, lead]
    exact Nat.lt_succ_of_le upper
  unfold front
  rw [if_pos low, lead]

/-- A first byte from 128 on does not stand alone. -/
theorem not_low {b : UInt8} (lower : 128 ≤ b.toNat) : ¬ b < 0x80 := by
  rw [UInt8.lt_iff_toNat_lt]
  exact Nat.not_lt.mpr lower

/-- A byte outside of a range fails the test for the range. -/
theorem not_between {low high b : UInt8} (outside : b.toNat < low.toNat ∨ high.toNat < b.toNat) :
    ¬ (decide (low ≤ b) && decide (b ≤ high)) = true := by
  rw [between_iff]
  omega

theorem front_two (lower : 0x7F < n) (upper : n ≤ 0x7FF) :
    front (UInt8.ofNat (n / 64 % 32 + 192)) (UInt8.ofNat (n % 64 + 128) :: rest) =
      .character (Char.ofNat n) 1 := by
  have lead := toNat_ofNat (n := n / 64 % 32 + 192) (by omega)
  have code : (n / 64 % 32 + 192 - 0xC0) * 64 + n % 64 = n := by omega
  unfold front
  rw [if_neg (not_low (by omega)),
    if_pos ((between_iff _ _ _).mpr (by simp only [UInt8.reduceToNat]; omega))]
  simp only [isContinuation_ofNat, if_true, lead, payload_ofNat, code]

theorem front_three (lower : 0x7FF < n) (upper : n ≤ 0xFFFF)
    (noSurrogate : n < 0xD800 ∨ 0xDFFF < n) :
    front (UInt8.ofNat (n / 4096 % 16 + 224))
        (UInt8.ofNat (n / 64 % 64 + 128) :: UInt8.ofNat (n % 64 + 128) :: rest) =
      .character (Char.ofNat n) 2 := by
  have lead := toNat_ofNat (n := n / 4096 % 16 + 224) (by omega)
  have code : (n / 4096 % 16 + 224 - 0xE0) * 4096 + n / 64 % 64 * 64 + n % 64 = n := by omega
  have second : secondAllowed (UInt8.ofNat (n / 4096 % 16 + 224))
      (UInt8.ofNat (n / 64 % 64 + 128)) = true := by
    apply secondAllowed_of <;> rw [toNat_continuation] <;> omega
  unfold front
  rw [if_neg (not_low (by omega)),
    if_neg (not_between (by simp only [UInt8.reduceToNat]; omega)),
    if_pos ((between_iff _ _ _).mpr (by simp only [UInt8.reduceToNat]; omega))]
  simp only [second, isContinuation_ofNat, Bool.not_true, Bool.false_eq_true, if_false, lead,
    payload_ofNat, code]

theorem front_four (lower : 0xFFFF < n) (upper : n ≤ 0x10FFFF) :
    front (UInt8.ofNat (n / 262144 % 8 + 240))
        (UInt8.ofNat (n / 4096 % 64 + 128) :: UInt8.ofNat (n / 64 % 64 + 128) ::
          UInt8.ofNat (n % 64 + 128) :: rest) =
      .character (Char.ofNat n) 3 := by
  have lead := toNat_ofNat (n := n / 262144 % 8 + 240) (by omega)
  have code : (n / 262144 % 8 + 240 - 0xF0) * 262144 + n / 4096 % 64 * 4096 + n / 64 % 64 * 64 +
      n % 64 = n := by omega
  have second : secondAllowed (UInt8.ofNat (n / 262144 % 8 + 240))
      (UInt8.ofNat (n / 4096 % 64 + 128)) = true := by
    apply secondAllowed_of <;> rw [toNat_continuation] <;> omega
  unfold front
  rw [if_neg (not_low (by omega)),
    if_neg (not_between (by simp only [UInt8.reduceToNat]; omega)),
    if_neg (not_between (by simp only [UInt8.reduceToNat]; omega)),
    if_pos ((between_iff _ _ _).mpr (by simp only [UInt8.reduceToNat]; omega))]
  simp only [second, isContinuation_ofNat, Bool.not_true, Bool.false_eq_true, if_false, lead,
    payload_ofNat, code]

end Forms

/-- The reader finds a character that was written, and knows how many bytes it has. -/
theorem front_encodeChar (c : Char) :
    ∃ lead more, encodeChar c = lead :: more ∧
      ∀ rest, front lead (more ++ rest) = .character c more.length := by
  have whole : Char.ofNat c.val.toNat = c := Char.ofNat_toNat c
  have valid : c.val.toNat < 0xD800 ∨ 0xDFFF < c.val.toNat ∧ c.val.toNat < 0x110000 := c.valid
  rw [encodeChar, String.utf8EncodeChar]
  by_cases one : c.val.toNat ≤ 0x7F
  · refine ⟨UInt8.ofNat c.val.toNat, [], if_pos one, fun rest => ?_⟩
    rw [List.nil_append, front_one rest one, whole, List.length_nil]
  by_cases two : c.val.toNat ≤ 0x7FF
  · simp only [if_neg one, if_pos two]
    refine ⟨_, _, rfl, fun rest => ?_⟩
    rw [List.singleton_append, front_two rest (by omega) two, whole, List.length_singleton]
  by_cases three : c.val.toNat ≤ 0xFFFF
  · simp only [if_neg one, if_neg two, if_pos three]
    refine ⟨_, _, rfl, fun rest => ?_⟩
    rw [List.cons_append, List.singleton_append, front_three rest (by omega) three (by omega),
      whole]
    rfl
  · simp only [if_neg one, if_neg two, if_neg three]
    refine ⟨_, _, rfl, fun rest => ?_⟩
    rw [List.cons_append, List.cons_append, List.singleton_append,
      front_four rest (by omega) (by omega), whole]
    rfl

/-! ## Texts -/

theorem decodeFrom_append (onFault : Option Char) (front rest : List UInt8) :
    decodeFrom onFault front.length (front ++ rest) = decodeFrom onFault 0 rest := by
  induction front with
  | nil => rfl
  | cons lead front ih => exact ih

theorem decode?_encode_cons (c : Char) (bytes : List UInt8) :
    decode? (encodeChar c ++ bytes) = (decode? bytes).map (c :: ·) := by
  obtain ⟨lead, more, written, read⟩ := front_encodeChar c
  rw [written, decode?, List.cons_append, decodeFrom, read bytes]
  simp only [decodeFrom_append]
  rfl

/-- **What was written is read.** -/
theorem decode?_encode (s : Text) : decode? (encode s) = some s := by
  induction s with
  | nil => rfl
  | cons c s ih =>
      have front : encode (c :: s) = encodeChar c ++ encode s := rfl
      rw [front, decode?_encode_cons, ih, Option.map_some]

end SlideDeck.Text.Utf8
