import TraceFold.Codec.Account
import TraceFold.Proofs.Json.Rendering
import TraceFold.Proofs.Text.Instants
import TraceFold.Proofs.Text.Written

/-!
# Decoding values that were written

Every decoder of a scalar gives back the value whose written form it is given, over the whole range
of the value: integers of every width to their ends, amounts to 128 bits, any text, any flags, any
address and instant.  Lists and values that may be absent follow from their elements.

Nothing is said here about other documents; a decoder takes many forms that are never written.
-/

namespace TraceFold.Json

variable {α : Type} {read : Json → Decoded α} {write : α → Json}

/-! ## Texts -/

/-- A unit below the surrogates stands for a character by itself. -/
lemma charsOf_unit {u : UInt16} (h : u.toNat < 0xD800) (e : Ending) (before : List Char)
    (gs : List Glyph) :
    charsOf e before (.unit u :: gs) = charsOf e (Char.ofNat u.toNat :: before) gs := by
  have hhigh : isHighSurrogate u = false := by
    simp [isHighSurrogate, UInt16.le_iff_toNat_le]
    omega
  have hlow : isLowSurrogate u = false := by
    simp [isLowSurrogate, UInt16.le_iff_toNat_le]
    omega
  conv_lhs => unfold charsOf
  simp only [hhigh, hlow, Bool.false_eq_true, if_false]

lemma charsOf_glyphOf (c : Char) (e : Ending) (before : List Char) (gs : List Glyph) :
    charsOf e before (glyphOf c :: gs) = charsOf e (c :: before) gs := by
  unfold glyphOf
  split
  · rename_i hcontrol
    have hunit : (UInt16.ofNat c.toNat).toNat = c.toNat := by
      rw [UInt16.toNat_ofNat', Nat.mod_eq_of_lt (by omega)]
    rw [charsOf_unit (by omega), hunit, Char.ofNat_toNat]
  · rw [charsOf]

lemma charsOf_map_glyphOf (before cs : List Char) :
    charsOf .closed before (cs.map glyphOf) = .ok (before.reverse ++ cs) := by
  induction cs generalizing before with
  | nil => rw [List.map_nil, charsOf, List.append_nil]
  | cons c cs ih =>
    rw [List.map_cons, charsOf_glyphOf, ih, List.reverse_cons, List.append_assoc,
      List.singleton_append]

lemma text_glyphsOf (t : String) : text (glyphsOf t) .closed = .ok t := by
  rw [text, textOf, glyphsOf, charsOf_map_glyphOf]
  simp [Except.map]

lemma readText_ofText (t : String) : readText (ofText t) = .ok t := text_glyphsOf t

lemma readAddress_toJson (a : Address) : readAddress a.toJson = .ok a := by
  rw [readAddress, Address.toJson, readText_ofText]
  simp only [bind, Except.bind, Address.ofText, Address.ofText?_toText]

lemma readInterfaces_toJson (i : Interfaces) : readInterfaces i.toJson = .ok i := by
  rw [readInterfaces, Interfaces.toJson, readText_ofText]
  simp only [bind, Except.bind, Interfaces.ofText?_toText]

lemma readTimestamp_ofText (t : Timestamp) : readTimestamp (ofText t.toText) = .ok t := by
  rw [readTimestamp, readText_ofText]
  simp only [bind, Except.bind, Timestamp.ofText?_toText]

/-! ## Words -/

lemma readBool_ofBool (b : Bool) : readBool (ofBool b) = .ok b := by
  cases b <;> rfl

/-- A decoder that takes no `null` reads a value that may be absent as it was written. -/
lemma readOption_ofOption {o : Option α} (hnull : ∀ e a, read (.word .null e) ≠ .ok a)
    (h : ∀ a, o = some a → read (write a) = .ok a) :
    readOption read (ofOption write o) = .ok o := by
  cases o with
  | none => rfl
  | some a =>
    have hread := h a rfl
    rw [ofOption, readOption, hread]
    · rfl
    · exact fun heq => hnull _ a (heq ▸ hread)
    · exact fun f heq => hnull _ a (heq ▸ hread)

/-! ## Integers -/

lemma Decimal.ofLexeme_ofInt (i : Int) :
    Decimal.ofLexeme (Text.ofInt i) = ⟨decide (i < 0), Text.ofNat i.natAbs, [], none⟩ := by
  have hall : ∀ c ∈ Text.ofNat i.natAbs, c.isDigit = true :=
    fun c hc => Text.isDigit_of_mem_ofNat hc
  have htake : (Text.ofNat i.natAbs).takeWhile Char.isDigit = Text.ofNat i.natAbs :=
    List.takeWhile_eq_self_iff.mpr hall
  have hdrop : (Text.ofNat i.natAbs).dropWhile Char.isDigit = [] :=
    List.dropWhile_eq_nil_iff.mpr hall
  by_cases hi : i < 0
  · simp [Decimal.ofLexeme, Text.ofInt, hi, htake, hdrop]
  · obtain ⟨d, ds, hds, hdigit, -⟩ := Text.ofNat_eq_cons i.natAbs
    have hsign : d ≠ '-' := by
      rintro rfl
      exact absurd hdigit (by decide)
    rw [hds] at htake hdrop
    simp [Decimal.ofLexeme, Text.ofInt, hi, hds, hsign, htake, hdrop]

lemma Number.ofLexeme_ofInt {i : Int} (lower : -9223372036854775808 ≤ i)
    (upper : i < UInt64.size) : Number.ofLexeme (Text.ofInt i) = .integer i := by
  rw [Number.ofLexeme, Decimal.ofLexeme_ofInt]
  by_cases hi : i < 0
  · have habs : (i.natAbs : Int) = -i := by omega
    simp [hi, habs]
    omega
  · have habs : (i.natAbs : Int) = i := by omega
    have hsize : i.natAbs < UInt64.size := by omega
    simp [hi, hsize, habs]

lemma readInteger_ofInt {low high i : Int} (hlow : -9223372036854775808 ≤ low)
    (hhigh : high ≤ UInt64.size) (h : low ≤ i ∧ i < high) :
    readInteger low high (ofInt i) = .ok i := by
  rw [ofInt, readInteger, Number.ofLexeme_ofInt (by omega) (by omega)]
  simp only [if_pos h]

lemma readUInt8_ofNat (b : UInt8) : readUInt8 (ofNat b.toNat) = .ok b := by
  rw [readUInt8, ofNat_eq_ofInt, readInteger_ofInt (by decide) (by decide)]
  · simp [Except.map]
  · exact ⟨by omega, Int.ofNat_lt.mpr b.toNat_lt⟩

lemma readUInt32_ofNat (n : UInt32) : readUInt32 (ofNat n.toNat) = .ok n := by
  rw [readUInt32, ofNat_eq_ofInt, readInteger_ofInt (by decide) (by decide)]
  · simp [Except.map]
  · exact ⟨by omega, Int.ofNat_lt.mpr n.toNat_lt⟩

lemma readUInt64_ofNat (n : UInt64) : readUInt64 (ofNat n.toNat) = .ok n := by
  rw [readUInt64, ofNat_eq_ofInt, readInteger_ofInt (by decide) (by decide)]
  · simp [Except.map]
  · exact ⟨by omega, Int.ofNat_lt.mpr n.toNat_lt⟩

lemma readNanotons_ofInt (n : Nanotons) : readNanotons (ofInt n.val) = .ok n := by
  have hlower := n.lower
  have hupper := n.upper
  rw [readNanotons, readInteger_ofInt (by decide) (by decide) (by omega)]
  simp [Except.map]

lemma readAmount_ofNat (n : JettonAmount) : readAmount (ofNat n.val) = .ok n := by
  have hdigits : (Text.ofNat n.val).all Char.isDigit = true :=
    List.all_eq_true.mpr fun c hc => Text.isDigit_of_mem_ofNat hc
  rw [ofNat, readAmount]
  simp [hdigits]

/-! ## Lists -/

lemma readItems_map {as : List α} (h : ∀ a ∈ as, read (write a) = .ok a) :
    readItems read (.ofList .done (as.map write)) = .ok as := by
  induction as with
  | nil => rfl
  | cons a as ih =>
    rw [List.map_cons, JsonItems.ofList, readItems, h a (by simp),
      ih fun b hb => h b (by simp [hb])]
    rfl

/-- Without a level left no list is read. -/
lemma readList_none_ne_ok (v : Json) (as : List α) : readList none v ≠ .ok as := by
  unfold readList
  split <;> exact nofun

lemma readList_list {as : List α} (h : ∀ a ∈ as, read (write a) = .ok a) :
    readList (some read) (list (as.map write)) = .ok as :=
  readItems_map h

end TraceFold.Json
