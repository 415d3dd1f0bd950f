import Mathlib.Data.List.Induction
import TraceFold.Json.Decode
import TraceFold.Proofs.Text.Written

/-!
# Spellings of addresses

Which texts are addresses, which address each of them is, and how it is written.  A spelling is made
of an optional minus sign, decimal digits and hexadecimal digits (`Address.Spelling`), with any
blanks around the whole.  Reading goes through several stages: blanks are dropped, the first colon
is found, the parts are read, their ranges are checked.  All stages together accept the spellings
that are allowed and nothing else.

An address has many spellings: zeros may stand in front, a zero may have a sign, and the
hexadecimal digits come in two cases.  `Spelling.canonical` does away with these liberties without
reading anything, and it comes to the written form of the address.
-/

namespace TraceFold

variable {cs core digits hex : List Char} {c : Char} {v : Nat} {bytes : List UInt8}

/-! ## Texts without the blanks around them -/

namespace Text

/-- `core` is `cs` without the blanks at either end. -/
structure Trims (cs core : List Char) : Prop where
  parts : ∃ lead trail, cs = lead ++ core ++ trail ∧ ∀ c ∈ lead ++ trail, isBlank c = true
  first : ∀ c, core.head? = some c → isBlank c = false
  last : ∀ c, core.getLast? = some c → isBlank c = false

lemma not_blank_of_head?_dropWhile (h : (cs.dropWhile isBlank).head? = some c) :
    isBlank c = false := by
  have hhead := List.head?_dropWhile_not isBlank cs
  rwa [h] at hhead

theorem trims_trim (cs : List Char) : Trims cs (trim cs) := by
  have hstart := List.takeWhile_append_dropWhile (p := isBlank) (l := cs)
  have hend := List.takeWhile_append_dropWhile (p := isBlank) (l := (trimStart cs).reverse)
  have hsplit : trimStart cs =
      trim cs ++ ((trimStart cs).reverse.takeWhile isBlank).reverse := by
    rw [trim, trimEnd, ← List.reverse_append, hend, List.reverse_reverse]
  refine ⟨⟨cs.takeWhile isBlank, ((trimStart cs).reverse.takeWhile isBlank).reverse, ?_, ?_⟩,
    fun c hc => ?_, fun c hc => ?_⟩
  · rw [List.append_assoc, ← hsplit, trimStart, hstart]
  · intro c hc
    rcases List.mem_append.1 hc with hc | hc
    · exact List.mem_takeWhile_imp hc
    · exact List.mem_takeWhile_imp (List.mem_reverse.1 hc)
  · have hhead : (cs.dropWhile isBlank).head? = some c := by
      rw [← trimStart, hsplit, List.head?_append, hc]
      rfl
    exact not_blank_of_head?_dropWhile hhead
  · rw [trim, trimEnd, List.getLast?_reverse] at hc
    exact not_blank_of_head?_dropWhile hc

/-- There is only one way to drop the blanks. -/
theorem Trims.eq_trim (h : Trims cs core) : core = trim cs := by
  obtain ⟨lead, trail, rfl, hblank⟩ := h.parts
  have htrail : ∀ c ∈ trail.reverse, isBlank c = true := fun c hc =>
    hblank c (List.mem_append_right _ (List.mem_reverse.1 hc))
  have hstart : trimStart (lead ++ core ++ trail) = (core ++ trail).dropWhile isBlank := by
    rw [trimStart, List.append_assoc,
      List.dropWhile_append_of_pos fun c hc => hblank c (List.mem_append_left _ hc)]
  rw [trim, hstart]
  cases core with
  | nil =>
    have hall : trail.dropWhile isBlank = [] :=
      List.dropWhile_eq_nil_iff.2 fun c hc => hblank c (List.mem_append_right _ hc)
    rw [List.nil_append, hall]
    rfl
  | cons c core =>
    have hcore : (c :: core ++ trail).dropWhile isBlank = c :: core ++ trail :=
      List.dropWhile_eq_self_iff.2 fun _ => by simp [h.first c rfl]
    have hend : (c :: core).rdropWhile isBlank = c :: core :=
      List.rdropWhile_eq_self_iff.2 fun hne => by
        simp [h.last _ (List.getLast?_eq_some_getLast hne)]
    rw [hcore, trimEnd, List.reverse_append, List.dropWhile_append_of_pos htrail]
    exact hend.symm

/-! ## Digits and their values -/

/-- An ASCII hexadecimal digit of either case. -/
def IsHexDigit (c : Char) : Prop :=
  ('0' ≤ c ∧ c ≤ '9') ∨ ('a' ≤ c ∧ c ≤ 'f') ∨ ('A' ≤ c ∧ c ≤ 'F')

lemma hexValue?_isSome : (hexValue? c).isSome = true ↔ IsHexDigit c := by
  have hle : ∀ a b : Char, a ≤ b ↔ a.toNat ≤ b.toNat := fun a b => UInt32.le_iff_toNat_le
  simp only [IsHexDigit, hle, hexValue?]
  split
  · rename_i h
    exact iff_of_true rfl (.inl h)
  · split
    · rename_i h
      exact iff_of_true rfl (.inr (.inl h))
    · split
      · rename_i h
        exact iff_of_true rfl (.inr (.inr h))
      · rename_i h h' h''
        refine iff_of_false (by simp) ?_
        rintro (h₁ | h₁ | h₁)
        · exact h h₁
        · exact h' h₁
        · exact h'' h₁

/-- In lower case, a digit is the one by which its value is written. -/
lemma toLower_of_hexValue? (h : hexValue? c = some v) : v < 16 ∧ c.toLower = v.digitChar := by
  have hall : ∀ n < 103, ∀ v ∈ hexValue? (Char.ofNat n),
      v < 16 ∧ (Char.ofNat n).toLower = v.digitChar := by decide
  have hlt : c.toNat < 103 := by
    unfold hexValue? at h
    dsimp only at h
    split at h
    · omega
    · split at h
      · omega
      · split at h
        · omega
        · cases h
  have hc := hall c.toNat hlt v
  rw [Char.ofNat_toNat] at hc
  exact hc h

lemma digitChar_of_isDigit (h : c.isDigit = true) :
    c.toNat - '0'.toNat < 10 ∧ (c.toNat - '0'.toNat).digitChar = c := by
  have hall : ∀ n < 58, (Char.ofNat n).isDigit = true →
      (Char.ofNat n).toNat - '0'.toNat < 10 ∧
        ((Char.ofNat n).toNat - '0'.toNat).digitChar = Char.ofNat n := by decide
  have hlt : c.toNat < 58 := by
    simp only [Char.isDigit, Bool.and_eq_true, decide_eq_true_eq, UInt32.le_iff_toNat_le] at h
    exact Nat.lt_succ_of_le h.2
  have hc := hall c.toNat hlt
  rw [Char.ofNat_toNat] at hc
  exact hc h

/-! ## Zeros in front -/

/-- Digits without the zeros in front; of nothing but zeros one is left. -/
def bareDigits (digits : List Char) : List Char :=
  match digits.dropWhile (· == '0') with
  | [] => ['0']
  | d :: ds => d :: ds

/-- A number is written by the digits it was read from, if no zero stands in front of them. -/
lemma ofNat_decimalValue_of_bare (hdigits : ∀ c ∈ digits, c.isDigit = true) (hne : digits ≠ [])
    (hzero : digits.head? ≠ some '0') : ofNat (decimalValue digits) = digits := by
  induction digits using List.reverseRecOn with
  | nil => exact absurd rfl hne
  | append_singleton ds c ih =>
    obtain ⟨hlt, hc⟩ := digitChar_of_isDigit (hdigits c (by simp))
    have hvalue : decimalValue (ds ++ [c]) = 10 * decimalValue ds + (c.toNat - '0'.toNat) := by
      rw [decimalValue, Nat.ofDigitChars_append, Nat.ofDigitChars_cons, Nat.ofDigitChars_nil,
        decimalValue]
    rw [hvalue, ofNat, Nat.toDigits_eq_if (by omega)]
    by_cases hds : ds = []
    · subst hds
      rw [if_pos (by simpa [decimalValue] using hlt)]
      simpa [decimalValue] using hc
    · have hhead : ds.head? ≠ some '0' := by
        obtain ⟨d, ds, rfl⟩ := List.exists_cons_of_ne_nil hds
        exact hzero
      have ih := ih (fun d hd => hdigits d (List.mem_append_left _ hd)) hds hhead
      have hpos : 0 < decimalValue ds := by
        refine Nat.pos_of_ne_zero fun h => hhead ?_
        rw [← ih, h]
        rfl
      rw [if_neg (by omega), show (10 * decimalValue ds + (c.toNat - '0'.toNat)) / 10 =
        decimalValue ds by omega, show (10 * decimalValue ds + (c.toNat - '0'.toNat)) % 10 =
        c.toNat - '0'.toNat by omega, hc]
      exact congrArg (· ++ [c]) ih

lemma decimalValue_dropZeros (digits : List Char) :
    decimalValue (digits.dropWhile (· == '0')) = decimalValue digits := by
  induction digits with
  | nil => rfl
  | cons c digits ih =>
    by_cases hc : c = '0'
    · rw [List.dropWhile_cons_of_pos (by simp [hc]), ih, hc, decimalValue, decimalValue,
        Nat.ofDigitChars_cons]
      rfl
    · rw [List.dropWhile_cons_of_neg (by simp [hc])]

theorem ofNat_decimalValue (hdigits : ∀ c ∈ digits, c.isDigit = true) :
    ofNat (decimalValue digits) = bareDigits digits := by
  have hvalue := decimalValue_dropZeros digits
  have hhead := List.head?_dropWhile_not (· == '0') digits
  have hmem : ∀ c ∈ digits.dropWhile (· == '0'), c.isDigit = true := fun c hc =>
    hdigits c ((List.dropWhile_suffix _).subset hc)
  rw [bareDigits]
  cases hbare : digits.dropWhile (· == '0') with
  | nil =>
    rw [hbare] at hvalue
    rw [← hvalue]
    rfl
  | cons d ds =>
    rw [hbare] at hvalue hhead hmem
    rw [← hvalue]
    refine ofNat_decimalValue_of_bare hmem (List.cons_ne_nil d ds) fun h => ?_
    rw [Option.some.inj h] at hhead
    cases hhead

end Text

namespace Address

open Text

/-! ## Workchains -/

/-- What stands in front of the digits of a number. -/
def signChars (negative : Bool) : List Char := if negative then ['-'] else []

/-- The number that some digits stand for, with a sign. -/
def signedValue (negative : Bool) (digits : List Char) : Int :=
  if negative then -(decimalValue digits : Int) else decimalValue digits

/-- One to ten decimal digits that stand, with their sign, for a number of 32 bits. -/
structure Numeral (negative : Bool) (digits : List Char) : Prop where
  length_pos : 1 ≤ digits.length
  length_le : digits.length ≤ 10
  decimal : ∀ c ∈ digits, c.isDigit = true
  low : -2147483648 ≤ signedValue negative digits
  high : signedValue negative digits ≤ 2147483647

/-- A minus sign, if there is one, stands in front; no other number begins with one. -/
lemma workchain?_signChars {negative : Bool} (hsign : negative = false → digits.head? ≠ some '-') :
    workchain? (signChars negative ++ digits) =
      if 1 ≤ digits.length ∧ digits.length ≤ 10 ∧ digits.all Char.isDigit then
        if -2147483648 ≤ signedValue negative digits ∧ signedValue negative digits ≤ 2147483647
          then some (Int32.ofInt (signedValue negative digits)) else none
      else none := by
  cases negative with
  | true => rfl
  | false =>
    rw [signChars, if_neg (by decide), List.nil_append, workchain?]
    · rfl
    · rintro r rfl
      exact hsign rfl rfl

lemma exists_signChars (cs : List Char) : ∃ negative digits, cs = signChars negative ++ digits ∧
    (negative = false → digits.head? ≠ some '-') := by
  by_cases hsign : cs.head? = some '-'
  · obtain ⟨rest, rfl⟩ := List.head?_eq_some_iff.1 hsign
    exact ⟨true, rest, rfl, nofun⟩
  · exact ⟨false, cs, rfl, fun _ => hsign⟩

lemma Numeral.workchain? {negative : Bool} (h : Numeral negative digits) :
    workchain? (signChars negative ++ digits) =
      some (Int32.ofInt (signedValue negative digits)) := by
  rw [workchain?_signChars, if_pos ⟨h.length_pos, h.length_le, List.all_eq_true.2 h.decimal⟩,
    if_pos ⟨h.low, h.high⟩]
  rintro - hhead
  have hmem := h.decimal _ (List.mem_of_head? hhead)
  cases hmem

lemma exists_numeral {w : Int32} (h : workchain? cs = some w) :
    ∃ negative digits, cs = signChars negative ++ digits ∧ Numeral negative digits := by
  obtain ⟨negative, digits, rfl, hsign⟩ := exists_signChars cs
  rw [workchain?_signChars hsign] at h
  split at h
  · rename_i hshape
    split at h
    · rename_i hrange
      exact ⟨negative, digits, rfl, hshape.1, hshape.2.1, List.all_eq_true.1 hshape.2.2,
        hrange.1, hrange.2⟩
    · cases h
  · cases h

lemma Numeral.toInt_ofInt {negative : Bool} (h : Numeral negative digits) :
    (Int32.ofInt (signedValue negative digits)).toInt = signedValue negative digits :=
  Int32.toInt_ofInt_of_le h.low (Int.lt_add_one_of_le h.high)

/-- Written again, a number has no zeros in front, and a sign only if it is below zero. -/
lemma Numeral.ofInt_signedValue {negative : Bool} (h : Numeral negative digits) :
    Text.ofInt (signedValue negative digits) =
      signChars (negative && decimalValue digits != 0) ++ bareDigits digits := by
  rw [← ofNat_decimalValue h.decimal, Text.ofInt, signedValue]
  cases negative with
  | false => simp [signChars]
  | true =>
    by_cases hzero : decimalValue digits = 0
    · simp [signChars, hzero]
    · rw [if_pos rfl, if_pos (by omega)]
      simp [signChars, hzero]

/-! ## Hashes -/

/-- A byte is the value of the two digits at its place. -/
def PairAt (hex : List Char) (i : Nat) (b : UInt8) : Prop :=
  ∃ c d high low, hex[2 * i]? = some c ∧ hex[2 * i + 1]? = some d ∧
    hexValue? c = some high ∧ hexValue? d = some low ∧ b.toNat = 16 * high + low

lemma bytes?_pair_eq_some {d : Char} : bytes? (c :: d :: cs) = some bytes ↔
    ∃ high low rest, hexValue? c = some high ∧ hexValue? d = some low ∧ bytes? cs = some rest ∧
      bytes = UInt8.ofNat (16 * high + low) :: rest := by
  rw [bytes?]
  cases hexValue? c <;> cases hexValue? d <;> cases bytes? cs <;> simp [eq_comm]

/-- Bytes are read from an even number of hexadecimal digits. -/
lemma exists_bytes?_iff : ∀ cs : List Char, (∃ bytes, bytes? cs = some bytes) ↔
    cs.length % 2 = 0 ∧ ∀ c ∈ cs, IsHexDigit c
  | [] => by simp [bytes?]
  | [_] => by simp [bytes?]
  | c :: d :: cs => by
    have hlength : (c :: d :: cs).length % 2 = cs.length % 2 := by
      rw [List.length_cons, List.length_cons]
      omega
    rw [hlength, List.forall_mem_cons, List.forall_mem_cons, and_left_comm,
      and_left_comm (a := cs.length % 2 = 0), ← exists_bytes?_iff cs, ← hexValue?_isSome,
      ← hexValue?_isSome, Option.isSome_iff_exists, Option.isSome_iff_exists]
    simp only [bytes?_pair_eq_some]
    constructor
    · rintro ⟨-, high, low, rest, hhigh, hlow, hrest, -⟩
      exact ⟨⟨high, hhigh⟩, ⟨low, hlow⟩, rest, hrest⟩
    · rintro ⟨⟨high, hhigh⟩, ⟨low, hlow⟩, rest, hrest⟩
      exact ⟨_, high, low, rest, hhigh, hlow, hrest, rfl⟩

/-- Bytes that were read are the values of the digits, and are written by the digits in lower
case. -/
lemma of_bytes? : ∀ (cs : List Char) (bytes : List UInt8), bytes? cs = some bytes →
    cs.length = 2 * bytes.length ∧ bytes.flatMap hexOfByte = cs.map Char.toLower ∧
      ∀ i (hi : i < bytes.length), PairAt cs i bytes[i]
  | [], bytes, h => by
    obtain rfl := Option.some.inj h
    exact ⟨rfl, rfl, nofun⟩
  | [_], _, h => nomatch h
  | c :: d :: cs, bytes, h => by
    obtain ⟨high, low, rest, hhigh, hlow, hrest, rfl⟩ := bytes?_pair_eq_some.1 h
    obtain ⟨hlength, htext, hpairs⟩ := of_bytes? cs rest hrest
    obtain ⟨hhighlt, hc⟩ := toLower_of_hexValue? hhigh
    obtain ⟨hlowlt, hd⟩ := toLower_of_hexValue? hlow
    have hvalue : (UInt8.ofNat (16 * high + low)).toNat = 16 * high + low := by
      rw [UInt8.toNat_ofNat', Nat.mod_eq_of_lt (by omega)]
    refine ⟨by rw [List.length_cons, List.length_cons, List.length_cons]; omega, ?_, ?_⟩
    · rw [List.flatMap_cons, htext, hexOfByte_eq, hvalue, List.map_cons, List.map_cons, hc, hd,
        show (16 * high + low) / 16 = high by omega, show (16 * high + low) % 16 = low by omega]
      rfl
    · intro i hi
      cases i with
      | zero => exact ⟨c, d, high, low, rfl, rfl, hhigh, hlow, hvalue⟩
      | succ i => exact hpairs i (Nat.lt_of_succ_lt_succ hi)

lemma exists_hash?_iff : (∃ hash, hash? hex = some hash) ↔
    hex.length = 64 ∧ ∀ c ∈ hex, IsHexDigit c := by
  constructor
  · rintro ⟨hash, h⟩
    rw [hash?] at h
    split at h
    · rename_i bytes hbytes
      split at h
      · rename_i hcount
        have hlength := (of_bytes? hex bytes hbytes).1
        exact ⟨by omega, ((exists_bytes?_iff hex).1 ⟨bytes, hbytes⟩).2⟩
      · cases h
    · cases h
  · rintro ⟨hlength, hdigits⟩
    obtain ⟨bytes, hbytes⟩ := (exists_bytes?_iff hex).2 ⟨by omega, hdigits⟩
    have hcount : bytes.length = 32 := by
      have := (of_bytes? hex bytes hbytes).1
      omega
    exact ⟨⟨bytes.toArray, by simpa using hcount⟩, by rw [hash?, hbytes]; exact dif_pos hcount⟩

lemma of_hash? {hash : Vector UInt8 32} (h : hash? hex = some hash) :
    hash.toList.flatMap hexOfByte = hex.map Char.toLower ∧
      ∀ i (hi : i < 32), PairAt hex i hash[i] := by
  rw [hash?] at h
  split at h
  · rename_i bytes hbytes
    split at h
    · rename_i hcount
      obtain rfl := Option.some.inj h
      obtain ⟨-, htext, hpairs⟩ := of_bytes? hex bytes hbytes
      exact ⟨htext, fun i hi => hpairs i (by omega)⟩
    · cases h
  · cases h

/-! ## Whole addresses -/

/-- An address is read from the two sides of its first colon. -/
lemma ofChars?_eq_some_iff {a : Address} : ofChars? cs = some a ↔
    ∃ left right, cs = left ++ ':' :: right ∧ ':' ∉ left ∧ workchain? left = some a.workchain ∧
      hash? right = some a.hash := by
  rw [ofChars?]
  constructor
  · intro h
    have hsplit := List.takeWhile_append_dropWhile (p := (· != ':')) (l := cs)
    split at h
    · rename_i right hright
      obtain ⟨w, hw, h⟩ := Option.bind_eq_some_iff.1 h
      obtain ⟨hash, hhash, h⟩ := Option.bind_eq_some_iff.1 h
      obtain rfl := Option.some.inj h
      rw [hright] at hsplit
      refine ⟨_, right, hsplit.symm, fun hmem => ?_, hw, hhash⟩
      have hcolon := List.mem_takeWhile_imp hmem
      cases hcolon
    · cases h
  · rintro ⟨left, right, rfl, hcolon, hw, hhash⟩
    have hleft : ∀ c ∈ left, (c != ':') = true := by
      intro c hc
      rw [bne_iff_ne]
      rintro rfl
      exact hcolon hc
    rw [List.dropWhile_append_of_pos hleft, List.takeWhile_append_of_pos hleft]
    simp [hw, hhash]

/-- The parts of a written address. -/
structure Spelling where
  negative : Bool
  digits : List Char
  hex : List Char

namespace Spelling

/-- The parts put together. -/
def chars (p : Spelling) : List Char := signChars p.negative ++ p.digits ++ ':' :: p.hex

/-- A text spells an address if, apart from blanks at its ends, it is put together from a number of
32 bits and 64 hexadecimal digits. -/
structure Spells (p : Spelling) (text : String) : Prop where
  trims : Trims text.toList p.chars
  numeral : Numeral p.negative p.digits
  hex_length : p.hex.length = 64
  hex_digits : ∀ c ∈ p.hex, IsHexDigit c

/-- The address has the workchain and the bytes that the parts stand for. -/
structure Denotes (p : Spelling) (a : Address) : Prop where
  workchain : a.workchain.toInt = signedValue p.negative p.digits
  hash : ∀ i (hi : i < 32), PairAt p.hex i a.hash[i]

/-- The one spelling without zeros in front of other digits, without a sign before a zero, and with
all hexadecimal digits in lower case. -/
def canonical (p : Spelling) : List Char :=
  signChars (p.negative && decimalValue p.digits != 0) ++ bareDigits p.digits ++
    ':' :: p.hex.map Char.toLower

variable {p : Spelling} {text : String} {a : Address}

/-- What is spelled is read, and written in the canonical form. -/
lemma Spells.exists_denoted (h : p.Spells text) : ∃ a, Address.ofText text = .ok a ∧
    p.Denotes a ∧ a.toText = String.ofList p.canonical := by
  obtain ⟨hash, hhash⟩ := exists_hash?_iff.2 ⟨h.hex_length, h.hex_digits⟩
  obtain ⟨hwritten, hpairs⟩ := of_hash? hhash
  have hcolon : ':' ∉ signChars p.negative ++ p.digits := by
    intro hmem
    rcases List.mem_append.1 hmem with hmem | hmem
    · cases hnegative : p.negative <;> simp [signChars, hnegative] at hmem
    · cases h.numeral.decimal _ hmem
  have hread : ofText? text =
      some ⟨Int32.ofInt (signedValue p.negative p.digits), hash⟩ := by
    rw [ofText?, ← h.trims.eq_trim, ofChars?_eq_some_iff]
    exact ⟨_, p.hex, rfl, hcolon, h.numeral.workchain?, hhash⟩
  have hdenotes : p.Denotes ⟨Int32.ofInt (signedValue p.negative p.digits), hash⟩ :=
    ⟨h.numeral.toInt_ofInt, hpairs⟩
  refine ⟨_, by rw [Address.ofText, hread], hdenotes, ?_⟩
  rw [toText, toChars, hashText, h.numeral.toInt_ofInt, h.numeral.ofInt_signedValue, hwritten,
    canonical]

/-- What is read is spelled. -/
lemma exists_spells (h : Address.ofText text = .ok a) : ∃ p : Spelling, p.Spells text := by
  rw [Address.ofText] at h
  split at h
  · rename_i hread
    obtain ⟨left, right, htrim, -, hw, hhash⟩ := ofChars?_eq_some_iff.1 hread
    obtain ⟨negative, digits, rfl, hnumeral⟩ := exists_numeral hw
    obtain ⟨hlength, hdigits⟩ := exists_hash?_iff.1 ⟨_, hhash⟩
    have htrims := trims_trim text.toList
    rw [htrim] at htrims
    exact ⟨⟨negative, digits, right⟩, htrims, hnumeral, hlength, hdigits⟩
  · cases h

end Spelling

lemma ofText_toText (a : Address) : ofText a.toText = .ok a := by
  rw [ofText, ofText?_toText]

lemma toText_injective {a a' : Address} (h : a.toText = a'.toText) : a = a' := by
  have hread := a.ofText_toText
  rw [h, ofText_toText] at hread
  exact (Except.ok.inj hread).symm

open Spelling in
/-- A text is an address if it spells one, and then it is the address that its parts denote;
otherwise the text is rejected as it stands, with its blanks.  Every address is read back from its
written form.  The written form of what was read is the canonical spelling, so that two texts are
the same address if their canonical spellings are the same. -/
theorem addresses_read :
    (∀ text, (∃ a, ofText text = .ok a) ↔ ∃ p : Spelling, p.Spells text) ∧
    (∀ text, (¬ ∃ p : Spelling, p.Spells text) → ofText text = .error (.invalidAddress text)) ∧
    (∀ a, ofText a.toText = .ok a) ∧
    (∀ (p : Spelling) text a, p.Spells text → ofText text = .ok a →
      p.Denotes a ∧ a.toText = String.ofList p.canonical) ∧
    ∀ (p p' : Spelling) text text', p.Spells text → p'.Spells text' →
      (ofText text = ofText text' ↔ p.canonical = p'.canonical) := by
  have hread : ∀ (p : Spelling) text a, p.Spells text → ofText text = .ok a →
      p.Denotes a ∧ a.toText = String.ofList p.canonical := by
    intro p text a h ha
    obtain ⟨a', ha', hdenotes, htext⟩ := h.exists_denoted
    obtain rfl := Except.ok.inj (ha.symm.trans ha')
    exact ⟨hdenotes, htext⟩
  refine ⟨fun text => ⟨fun ⟨a, ha⟩ => exists_spells ha, fun ⟨p, hp⟩ => ?_⟩, fun text hno => ?_,
    ofText_toText, hread, fun p p' text text' h h' => ?_⟩
  · obtain ⟨a, ha, -⟩ := hp.exists_denoted
    exact ⟨a, ha⟩
  · rw [ofText]
    split
    · rename_i a ha
      exact absurd (exists_spells (a := a) (by rw [ofText, ha])) hno
    · rfl
  · obtain ⟨a, ha, -, htext⟩ := h.exists_denoted
    obtain ⟨a', ha', -, htext'⟩ := h'.exists_denoted
    rw [ha, ha', Except.ok.injEq]
    constructor
    · rintro rfl
      exact String.ofList_injective (htext.symm.trans htext')
    · intro hsame
      exact toText_injective (htext.trans ((congrArg String.ofList hsame).trans htext'.symm))

/-- An address with a zero in front and capital digits, in a text with blanks around it. -/
def shouted : Spelling := ⟨true, ['0', '7'], List.replicate 64 'A'⟩

def shoutedText : String := String.ofList (' ' :: shouted.chars ++ ['\n'])

open Spelling in
/-- The capital digits are written in lower case, and a hash that is too short is rejected. -/
theorem addresses_read_shouted :
    shouted.Spells shoutedText ∧
    shouted.canonical = '-' :: '7' :: ':' :: List.replicate 64 'a' ∧
    (∃ a, ofText shoutedText = .ok a ∧ shouted.Denotes a ∧
      a.toText = String.ofList shouted.canonical) ∧
    ofText shoutedText = ofText (String.ofList shouted.canonical) ∧
    (¬ ∃ p : Spelling, p.Spells " 7:ab") ∧
    ofText " 7:ab" = .error (.invalidAddress " 7:ab") := by
  obtain ⟨hiff, hrejected, hback, hread, -⟩ := addresses_read
  have hhead : shouted.chars.head? = some '-' := rfl
  have hlast : shouted.chars.getLast? = some 'A' := by decide
  have hspells : shouted.Spells shoutedText := by
    refine ⟨⟨⟨[' '], ['\n'], ?_, List.all_eq_true.1 (by decide)⟩, fun c hc => ?_, fun c hc => ?_⟩,
      ⟨by decide, by decide, List.all_eq_true.1 (by decide), by decide, by decide⟩, by decide,
      fun c hc => ?_⟩
    · rw [shoutedText, String.toList_ofList]
      rfl
    · rw [hhead] at hc
      obtain rfl := Option.some.inj hc
      rfl
    · rw [hlast] at hc
      obtain rfl := Option.some.inj hc
      rfl
    · rw [List.eq_of_mem_replicate hc]
      exact .inr (.inr (by decide))
  obtain ⟨a, ha⟩ := (hiff _).2 ⟨shouted, hspells⟩
  obtain ⟨hdenotes, htext⟩ := hread _ _ _ hspells ha
  have hshort : ofText? " 7:ab" = none := by decide
  have hno : ¬ ∃ p : Spelling, p.Spells " 7:ab" := by
    intro hp
    obtain ⟨b, hb⟩ := (hiff " 7:ab").2 hp
    rw [ofText, hshort] at hb
    cases hb
  have hcanonical : shouted.canonical = '-' :: '7' :: ':' :: List.replicate 64 'a' := by decide
  refine ⟨hspells, hcanonical, ⟨a, ha, hdenotes, htext⟩, ?_, hno, hrejected _ hno⟩
  rw [ha, ← htext, hback]

end Address
end TraceFold
