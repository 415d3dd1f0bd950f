import Mathlib.Tactic.IntervalCases
import TraceFold.Text.Blank
import TraceFold.Text.Digits

/-!
# Digits that are read back

Numbers are written without leading zeros, or padded to a fixed width, and in both forms reading
gives the number that was written.  What is needed besides is the form of the digits themselves: a
reader finds their end because nothing else is a digit, and knows a zero from the first digit of
another number.
-/

namespace TraceFold.Text

variable {c : Char} {cs rest : List Char} {n width : Nat}

/-! ## Decimal digits -/

lemma isDigit_of_mem_ofNat (h : c ∈ ofNat n) : c.isDigit = true :=
  Nat.isDigit_of_mem_toDigits (by omega) (by omega) h

@[simp] lemma ofNat_ne_nil (n : Nat) : ofNat n ≠ [] := Nat.toDigits_ne_nil

@[simp] lemma decimalValue_ofNat (n : Nat) : decimalValue (ofNat n) = n :=
  Nat.ofDigitChars_ten_toDigits

lemma length_ofNat_le_iff (h : 0 < width) : (ofNat n).length ≤ width ↔ n < 10 ^ width :=
  Nat.length_toDigits_le_iff (by omega) h

lemma digitChar_eq_zero (h : n < 10) (hzero : n.digitChar = '0') : n = 0 := by
  interval_cases n <;> first | rfl | exact absurd hzero (by decide)

/-- A number begins with a digit; only zero begins with a zero, and nothing follows it. -/
lemma ofNat_eq_cons (n : Nat) :
    ∃ d ds, ofNat n = d :: ds ∧ d.isDigit = true ∧ (d = '0' → n = 0 ∧ ds = []) := by
  have hdigit : ∀ d ds, ofNat n = d :: ds → d.isDigit = true :=
    fun d ds hds => isDigit_of_mem_ofNat (hds ▸ List.mem_cons_self)
  induction n using Nat.strongRecOn with
  | ind n ih =>
    have hif : ofNat n = if n < 10 then [n.digitChar] else ofNat (n / 10) ++ [(n % 10).digitChar] :=
      Nat.toDigits_eq_if (by omega)
    split at hif
    · rename_i hlt
      exact ⟨_, [], hif, hdigit _ _ hif, fun hzero => ⟨digitChar_eq_zero hlt hzero, rfl⟩⟩
    · rename_i hge
      obtain ⟨d, ds, hds, -, hzero⟩ := ih (n / 10) (by omega) fun d ds hds =>
        isDigit_of_mem_ofNat (hds ▸ List.mem_cons_self)
      rw [hds, List.cons_append] at hif
      exact ⟨d, ds ++ _, hif, hdigit _ _ hif, fun h => absurd (hzero h).1 (by omega)⟩

/-- A run of digits ends where something else stands. -/
lemma takeWhile_isDigit (hcs : ∀ c ∈ cs, c.isDigit = true)
    (hrest : rest.takeWhile Char.isDigit = []) : (cs ++ rest).takeWhile Char.isDigit = cs := by
  rw [List.takeWhile_append_of_pos hcs, hrest, List.append_nil]

lemma dropWhile_isDigit (hcs : ∀ c ∈ cs, c.isDigit = true)
    (hrest : rest.takeWhile Char.isDigit = []) : (cs ++ rest).dropWhile Char.isDigit = rest := by
  rw [List.dropWhile_append_of_pos hcs]
  have hsplit := List.takeWhile_append_dropWhile (p := Char.isDigit) (l := rest)
  rwa [hrest, List.nil_append] at hsplit

/-! ## Padded digits -/

lemma isDigit_of_mem_ofNatPadded (h : c ∈ ofNatPadded width n) : c.isDigit = true := by
  rcases List.mem_append.1 h with h | h
  · rw [List.eq_of_mem_replicate h]; rfl
  · exact isDigit_of_mem_ofNat h

@[simp] lemma decimalValue_ofNatPadded (width n : Nat) :
    decimalValue (ofNatPadded width n) = n := by
  rw [ofNatPadded, padLeft, decimalValue, Nat.ofDigitChars_append, Nat.ofDigitChars_replicate_zero,
    Nat.mul_zero]
  exact decimalValue_ofNat n

lemma length_padLeft (h : cs.length ≤ width) : (padLeft width cs).length = width := by
  rw [padLeft, List.length_append, List.length_replicate]
  omega

lemma length_ofNatPadded (hwidth : 0 < width) (h : n < 10 ^ width) :
    (ofNatPadded width n).length = width :=
  length_padLeft ((length_ofNat_le_iff hwidth).2 h)

lemma ofNatPadded_ne_nil (width n : Nat) : ofNatPadded width n ≠ [] := by
  simp [ofNatPadded, padLeft]

/-! ## Hexadecimal digits -/

lemma hexValue?_digitChar (h : n < 16) : hexValue? n.digitChar = some n := by
  interval_cases n <;> rfl

lemma hexFrom?_append (acc : Nat) (cs rest : List Char) :
    hexFrom? acc (cs ++ rest) = (hexFrom? acc cs).bind (hexFrom? · rest) := by
  induction cs generalizing acc with
  | nil => rfl
  | cons c cs ih =>
    rw [List.cons_append, hexFrom?, hexFrom?]
    cases hexValue? c with
    | none => rfl
    | some d => exact ih _

lemma hexFrom?_hexOfNat (n : Nat) : hexFrom? 0 (hexOfNat n) = some n := by
  induction n using Nat.strongRecOn with
  | ind n ih =>
    have hif : hexOfNat n =
        if n < 16 then [n.digitChar] else hexOfNat (n / 16) ++ [(n % 16).digitChar] :=
      Nat.toDigits_eq_if (by omega)
    rw [hif]
    split
    · rename_i hlt
      simp [hexFrom?, hexValue?_digitChar hlt]
    · rename_i hge
      have hlast := hexValue?_digitChar (Nat.mod_lt n (by omega : 0 < 16))
      rw [hexFrom?_append, ih (n / 16) (by omega)]
      simp only [Option.bind_some, hexFrom?, hlast, Option.some.injEq]
      omega

lemma hex?_hexOfNat (n : Nat) : hex? (hexOfNat n) = some n := by
  have hne : hexOfNat n ≠ [] := Nat.toDigits_ne_nil
  rw [hex?, if_neg hne, hexFrom?_hexOfNat]

lemma exists_digitChar_of_mem_hexOfNat (h : c ∈ hexOfNat n) : ∃ d < 16, c = d.digitChar := by
  induction n using Nat.strongRecOn with
  | ind n ih =>
    have hif : hexOfNat n =
        if n < 16 then [n.digitChar] else hexOfNat (n / 16) ++ [(n % 16).digitChar] :=
      Nat.toDigits_eq_if (by omega)
    rw [hif] at h
    split at h
    · rename_i hlt
      exact ⟨n, hlt, List.mem_singleton.1 h⟩
    · rename_i hge
      rcases List.mem_append.1 h with h | h
      · exact ih (n / 16) (by omega) h
      · exact ⟨n % 16, Nat.mod_lt n (by omega), List.mem_singleton.1 h⟩

lemma hexFrom?_zeros (count : Nat) : hexFrom? 0 (List.replicate count '0') = some 0 := by
  induction count with
  | zero => rfl
  | succ count ih => exact ih

lemma hexFrom?_padLeft (width n : Nat) : hexFrom? 0 (padLeft width (hexOfNat n)) = some n := by
  rw [padLeft, hexFrom?_append, hexFrom?_zeros, Option.bind_some, hexFrom?_hexOfNat]

lemma length_padLeft_hexOfNat (hwidth : 0 < width) (h : n < 16 ^ width) :
    (padLeft width (hexOfNat n)).length = width :=
  length_padLeft ((Nat.length_toDigits_le_iff (by omega) hwidth).2 h)

/-- A byte is written by its two digits. -/
lemma hexOfByte_eq (b : UInt8) :
    hexOfByte b = [(b.toNat / 16).digitChar, (b.toNat % 16).digitChar] := by
  have hlt := b.toNat_lt
  rw [hexOfByte, hexOfNat, Nat.toDigits_eq_if (by omega)]
  split
  · rename_i hsmall
    rw [Nat.div_eq_of_lt hsmall, Nat.mod_eq_of_lt hsmall]
    rfl
  · rw [Nat.toDigits_of_lt_base (by omega)]
    rfl

/-! ## Digits are not blank -/

lemma isBlank_of_isDigit (h : c.isDigit = true) : isBlank c = false := by
  simp only [Char.isDigit, Bool.and_eq_true, decide_eq_true_eq, ge_iff_le,
    UInt32.le_iff_toNat_le] at h
  change 48 ≤ c.toNat ∧ c.toNat ≤ 57 at h
  rw [← Bool.not_eq_true]
  intro hblank
  simp only [isBlank, Bool.or_eq_true, Bool.and_eq_true, decide_eq_true_eq, beq_iff_eq] at hblank
  omega

lemma isBlank_digitChar (h : n < 16) : isBlank n.digitChar = false := by
  interval_cases n <;> rfl

end TraceFold.Text
