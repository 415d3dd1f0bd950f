import Mathlib.Data.List.DropRight
import Mathlib.Data.Nat.Bitwise
import TraceFold.Address
import TraceFold.Interfaces
import TraceFold.Proofs.Text.Digits

/-!
# Addresses and interface sets that are read back

Reading is more liberal than writing: it allows blanks, leading zeros and parts in any order.  On
what is written it gives back the address or the set that was written, whatever it is.

For a set of interfaces this rests on its named flags being single bits: each of them either lies
inside the set or has nothing in common with it, so the flags that are written by name and the
number for the rest make up the whole set again (`Interfaces.unionParts?_parts`).
-/

namespace TraceFold

variable {cs rest : List Char} {c : Char}

/-! ## Blanks at the ends -/

namespace Text

lemma trim_eq_self (h : ∀ c ∈ cs, isBlank c = false) : trim cs = cs := by
  have hstart : trimStart cs = cs :=
    List.dropWhile_eq_self_iff.2 fun hpos => by simp [h _ (List.getElem_mem hpos)]
  rw [trim, hstart]
  exact List.rdropWhile_eq_self_iff.2 fun hne => by simp [h _ (List.getLast_mem hne)]

lemma trim_cons_of_blank (h : isBlank c = true) (cs : List Char) : trim (c :: cs) = trim cs := by
  rw [trim, trimStart, List.dropWhile_cons_of_pos h, trim, trimStart]

lemma trim_append_of_blank (h : isBlank c = true) (cs : List Char) :
    trim (cs ++ [c]) = trim cs := by
  rw [trim, trim, trimStart, trimStart, List.dropWhile_append]
  split
  · rename_i hempty
    rw [List.isEmpty_iff.1 hempty, List.dropWhile_cons_of_pos h]
    rfl
  · rw [trimEnd, trimEnd, List.reverse_append, List.reverse_singleton, List.singleton_append,
      List.dropWhile_cons_of_pos h]

/-- A text that is trimmed away was all blank. -/
lemma isBlank_of_trim_eq_nil (h : trim cs = []) (hc : c ∈ cs) : isBlank c = true := by
  rw [trim, trimEnd, List.reverse_eq_nil_iff, List.dropWhile_eq_nil_iff] at h
  rw [← List.takeWhile_append_dropWhile (p := isBlank) (l := cs), List.mem_append] at hc
  rcases hc with hc | hc
  · exact List.mem_takeWhile_imp hc
  · exact h c (List.mem_reverse.2 hc)

end Text

/-! ## Addresses -/

namespace Address

open Text

lemma bytes?_flatMap_hexOfByte (bytes : List UInt8) :
    bytes? (bytes.flatMap hexOfByte) = some bytes := by
  induction bytes with
  | nil => rfl
  | cons b bytes ih =>
    have hlt := b.toNat_lt
    have hhigh := hexValue?_digitChar (show b.toNat / 16 < 16 by omega)
    have hlow := hexValue?_digitChar (show b.toNat % 16 < 16 by omega)
    rw [List.flatMap_cons, hexOfByte_eq, List.cons_append, List.singleton_append, bytes?, hhigh,
      hlow, ih]
    simp only [Option.bind_eq_bind, Option.bind_some, Nat.div_add_mod, UInt8.ofNat_toNat]

lemma hash?_hashText (a : Address) : hash? a.hashText = some a.hash := by
  rw [hash?, hashText, bytes?_flatMap_hexOfByte]
  simp [Vector.toList]

lemma workchain?_ofInt (w : Int32) : workchain? (Text.ofInt w.toInt) = some w := by
  have hlow := w.le_toInt
  have hhigh := w.toInt_lt
  have hlength : (ofNat w.toInt.natAbs).length ≤ 10 :=
    (length_ofNat_le_iff (by omega)).2 (by omega)
  have hpos : 1 ≤ (ofNat w.toInt.natAbs).length := List.length_pos_iff.2 (ofNat_ne_nil _)
  have hall : (ofNat w.toInt.natAbs).all Char.isDigit = true :=
    List.all_eq_true.2 fun c hc => isDigit_of_mem_ofNat hc
  have hsign : ∀ r, ofNat w.toInt.natAbs ≠ '-' :: r := by
    intro r heq
    have hdigit := isDigit_of_mem_ofNat (heq ▸ List.mem_cons_self)
    exact absurd hdigit (by decide)
  by_cases hneg : w.toInt < 0
  · rw [show Text.ofInt w.toInt = '-' :: ofNat w.toInt.natAbs from if_pos hneg, workchain?]
    simp only [hlength, hpos, hall, decimalValue_ofNat, and_self, if_true]
    rw [show -(w.toInt.natAbs : Int) = w.toInt by omega, if_pos (by omega), Int32.ofInt_toInt]
  · rw [show Text.ofInt w.toInt = ofNat w.toInt.natAbs from if_neg hneg, workchain?]
    · simp only [hlength, hpos, hall, decimalValue_ofNat, and_self, if_true, Bool.false_eq_true,
        if_false]
      rw [show (w.toInt.natAbs : Int) = w.toInt by omega, if_pos (by omega), Int32.ofInt_toInt]
    · exact hsign

/-- No sign or digit is a blank or a colon. -/
lemma not_blank_of_mem_ofInt {i : Int} (h : c ∈ Text.ofInt i) :
    isBlank c = false ∧ c ≠ ':' := by
  have hdigits : ∀ n, c ∈ ofNat n → isBlank c = false ∧ c ≠ ':' := by
    intro n hc
    have hdigit := isDigit_of_mem_ofNat hc
    refine ⟨isBlank_of_isDigit hdigit, ?_⟩
    rintro rfl
    exact absurd hdigit (by decide)
  rw [Text.ofInt] at h
  split at h
  · rcases List.mem_cons.1 h with rfl | h
    · decide
    · exact hdigits _ h
  · exact hdigits _ h

lemma not_blank_of_mem_hashText {a : Address} (h : c ∈ a.hashText) : isBlank c = false := by
  obtain ⟨b, -, hb⟩ := List.mem_flatMap.1 h
  have hlt := b.toNat_lt
  rw [hexOfByte_eq, List.mem_cons, List.mem_singleton] at hb
  rcases hb with rfl | rfl
  · exact isBlank_digitChar (by omega)
  · exact isBlank_digitChar (by omega)

theorem ofText?_toText (a : Address) : ofText? a.toText = some a := by
  have hblank : ∀ c ∈ a.toChars, isBlank c = false := by
    intro c hc
    rw [toChars, List.mem_append, List.mem_cons] at hc
    rcases hc with hc | rfl | hc
    · exact (not_blank_of_mem_ofInt hc).1
    · rfl
    · exact not_blank_of_mem_hashText hc
  have hcolon : ∀ c ∈ Text.ofInt a.workchain.toInt, (c != ':') = true := by
    intro c hc
    simpa using (not_blank_of_mem_ofInt hc).2
  rw [ofText?, toText, String.toList_ofList, trim_eq_self hblank, ofChars?, toChars,
    List.dropWhile_append_of_pos hcolon, List.takeWhile_append_of_pos hcolon]
  simp [workchain?_ofInt, hash?_hashText]

end Address

/-! ## Interface sets -/

namespace Interfaces

open Text

variable {a : Interfaces} {f : UInt32}

/-! ### Parts between bars -/

lemma splitBars_of_not_mem (h : '|' ∉ cs) : splitBars cs = [cs] := by
  induction cs with
  | nil => rfl
  | cons c cs ih =>
    obtain ⟨hc, hcs⟩ := not_or.1 (List.mem_cons.not.1 h)
    rw [splitBars, ih hcs]
    exact fun hbar => hc hbar.symm

lemma splitBars_append (h : '|' ∉ cs) (rest : List Char) :
    splitBars (cs ++ '|' :: rest) = cs :: splitBars rest := by
  induction cs with
  | nil => rfl
  | cons c cs ih =>
    obtain ⟨hc, hcs⟩ := not_or.1 (List.mem_cons.not.1 h)
    rw [List.cons_append, splitBars, ih hcs]
    exact fun hbar => hc hbar.symm

lemma part?_congr {cs' : List Char} (h : trim cs = trim cs') : part? cs = part? cs' := by
  rw [part?, h, part?]

/-- What stands between the bars are the parts, with blanks that make no difference. -/
lemma unionParts?_splitBars (lead : List Char) (hlead : ∀ cs, trim (lead ++ cs) = trim cs)
    (hbar : '|' ∉ lead) {pieces : List (List Char)} (hne : pieces ≠ [])
    (hpieces : ∀ piece ∈ pieces, '|' ∉ piece) :
    unionParts? (splitBars (lead ++ " | ".toList.intercalate pieces)) = unionParts? pieces := by
  induction pieces generalizing lead with
  | nil => exact absurd rfl hne
  | cons piece rest ih =>
    have hpiece := hpieces piece List.mem_cons_self
    cases rest with
    | nil =>
      rw [List.intercalate_singleton, splitBars_of_not_mem (by simp [hbar, hpiece]), unionParts?,
        part?_congr (hlead piece)]
      rfl
    | cons next rest =>
      have hrest := fun q hq => hpieces q (List.mem_cons_of_mem piece hq)
      have hshape : lead ++ " | ".toList.intercalate (piece :: next :: rest) =
          (lead ++ piece ++ [' ']) ++
            '|' :: ([' '] ++ " | ".toList.intercalate (next :: rest)) := by
        rw [List.intercalate_cons_cons]
        simp
      have htrim : trim (lead ++ piece ++ [' ']) = trim piece := by
        rw [trim_append_of_blank rfl, hlead]
      have hnext := ih [' '] (trim_cons_of_blank rfl) (by simp) (by simp) hrest
      rw [hshape, splitBars_append (by simp [hbar, hpiece]), unionParts?, part?_congr htrim, hnext,
        ← unionParts?]

/-! ### Named flags -/

/-- A flag: it lies inside of a set or has nothing in common with it. -/
def IsFlag (f : UInt32) : Prop := ∀ x : UInt32, x &&& f = f ∨ x &&& f = 0

lemma isFlag_of_toNat {i : Nat} (h : f.toNat = 2 ^ i) : IsFlag f := by
  intro x
  rw [← UInt32.toNat_inj, ← UInt32.toNat_inj, UInt32.toNat_and, h, Nat.and_two_pow]
  cases x.toNat.testBit i
  · right; simp
  · left; simp

lemma isFlag_of_named : ∀ f ∈ named, IsFlag f.2.bits := by
  simp only [named, List.forall_mem_cons]
  refine ⟨?_, ?_, ?_, ?_, ?_, nofun⟩
  · exact isFlag_of_toNat (i := 0) rfl
  · exact isFlag_of_toNat (i := 1) rfl
  · exact isFlag_of_toNat (i := 2) rfl
  · exact isFlag_of_toNat (i := 3) rfl
  · exact isFlag_of_toNat (i := 4) rfl

lemma and_or_distrib (x y z : UInt32) : x &&& (y ||| z) = (x &&& y) ||| (x &&& z) :=
  UInt32.toBitVec_inj.1 BitVec.and_or_distrib_left

/-- All the bits of some flags. -/
def bitsOf (flags : List (String × Interfaces)) : UInt32 :=
  flags.foldr (fun f bits => f.2.bits ||| bits) 0

/-- Flags that are picked by a set and read by their names are the set, as far as they reach. -/
lemma unionParts?_names {flags : List (String × Interfaces)} (a : Interfaces)
    (hflags : ∀ f ∈ flags, IsFlag f.2.bits ∧ part? f.1.toList = some f.2)
    (more : List (List Char)) :
    unionParts? ((flags.filter fun f => a.contains f.2).map (·.1.toList) ++ more) =
      (unionParts? more).map fun u => ⟨(a.bits &&& bitsOf flags) ||| u.bits⟩ := by
  induction flags with
  | nil =>
    cases hmore : unionParts? more <;> simp [bitsOf, hmore]
  | cons f flags ih =>
    obtain ⟨hflag, hpart⟩ := hflags f List.mem_cons_self
    have ih := ih fun g hg => hflags g (List.mem_cons_of_mem f hg)
    have hbits : a.bits &&& bitsOf (f :: flags) =
        (a.bits &&& f.2.bits) ||| (a.bits &&& bitsOf flags) := and_or_distrib _ _ _
    rw [hbits]
    by_cases hcontains : a.contains f.2 = true
    · have hand : a.bits &&& f.2.bits = f.2.bits := by simpa [contains] using hcontains
      rw [List.filter_cons, if_pos hcontains, List.map_cons, List.cons_append, unionParts?, hpart,
        ih, hand]
      cases unionParts? more with
      | none => rfl
      | some u => simp [union, UInt32.or_assoc]
    · have hand : a.bits &&& f.2.bits = 0 :=
        (hflag a.bits).resolve_left (by simpa [contains] using hcontains)
      rw [List.filter_cons, if_neg hcontains, ih, hand, UInt32.zero_or]

/-! ### The whole set -/

/-- The flags without a name, as they are written: in one part, if there are any. -/
def unnamedParts (rest : UInt32) : List String :=
  if rest == 0 then [] else ["0x" ++ String.ofList (hexOfNat rest.toNat)]

lemma parts_eq (a : Interfaces) : a.parts =
    (named.filter fun f => a.contains f.2).map Prod.fst ++
      unnamedParts (a.bits &&& ~~~namedBits) := by
  unfold parts unnamedParts
  split <;> simp_all

/-- Neither a bar nor a blank stands in a hexadecimal number. -/
lemma not_bar_of_mem_hexOfNat {n : Nat} (h : c ∈ hexOfNat n) : c ≠ '|' ∧ isBlank c = false := by
  obtain ⟨d, hd, rfl⟩ := exists_digitChar_of_mem_hexOfNat h
  refine ⟨?_, isBlank_digitChar hd⟩
  interval_cases d <;> decide

lemma unionParts?_unnamedParts (rest : UInt32) :
    unionParts? ((unnamedParts rest).map String.toList) = some ⟨rest⟩ := by
  unfold unnamedParts
  split
  · rename_i hzero
    rw [beq_iff_eq.1 hzero]
    rfl
  · have htrim : trim ('0' :: 'x' :: hexOfNat rest.toNat) = '0' :: 'x' :: hexOfNat rest.toNat := by
      refine trim_eq_self ?_
      simp only [List.forall_mem_cons]
      exact ⟨rfl, rfl, fun c hc => (not_bar_of_mem_hexOfNat hc).2⟩
    have hplus : ∀ r, hexOfNat rest.toNat ≠ '+' :: r := by
      intro r heq
      obtain ⟨d, hd, hc⟩ := exists_digitChar_of_mem_hexOfNat (heq ▸ List.mem_cons_self)
      interval_cases d <;> exact absurd hc (by decide)
    have hbits : hexBits? (hexOfNat rest.toNat) = some ⟨rest⟩ := by
      rw [hexBits?]
      · simp only [hex?_hexOfNat, rest.toNat_lt_size, if_true, UInt32.ofNat_toNat]
      · exact hplus
    have hpart : part? ('0' :: 'x' :: hexOfNat rest.toNat) = some ⟨rest⟩ := by
      rw [part?, htrim]
      exact hbits
    simp [unionParts?, hpart, union, none]

/-- The parts of a set make it up. -/
lemma unionParts?_parts (a : Interfaces) : unionParts? (a.parts.map String.toList) = some a := by
  have hnamed : ∀ f ∈ named, IsFlag f.2.bits ∧ part? f.1.toList = some f.2 :=
    fun f hf => ⟨isFlag_of_named f hf, by revert f hf; decide⟩
  have hall : bitsOf named ||| ~~~namedBits = -1 := by decide
  rw [parts_eq, List.map_append, List.map_map]
  have hparts := unionParts?_names a hnamed
    ((unnamedParts (a.bits &&& ~~~namedBits)).map String.toList)
  rw [unionParts?_unnamedParts, Option.map_some] at hparts
  refine hparts.trans ?_
  rw [← and_or_distrib, hall, UInt32.and_neg_one]

/-- No part has a bar in it, and none is blank. -/
lemma parts_not_bar (a : Interfaces) : ∀ p ∈ a.parts, '|' ∉ p.toList ∧
    ∃ c ∈ p.toList, isBlank c = false := by
  intro p hp
  rw [parts_eq, List.mem_append, List.mem_map] at hp
  rcases hp with ⟨f, hf, rfl⟩ | hp
  · have hnames : ∀ f ∈ named, '|' ∉ f.1.toList ∧ f.1.toList.all isBlank = false := by decide
    obtain ⟨hbar, hblank⟩ := hnames f (List.mem_filter.1 hf).1
    exact ⟨hbar, by simpa using hblank⟩
  · unfold unnamedParts at hp
    split at hp
    · cases hp
    · rw [List.mem_singleton.1 hp]
      refine ⟨?_, '0', by simp, rfl⟩
      simp only [String.toList_append, String.toList_ofList, List.mem_append, not_or]
      exact ⟨by decide, fun hbar => (not_bar_of_mem_hexOfNat hbar).1 rfl⟩

theorem ofText?_toText (a : Interfaces) : ofText? a.toText = some a := by
  have hunion := unionParts?_parts a
  have hparts := parts_not_bar a
  rw [ofText?, toText, String.toList_intercalate]
  generalize hpieces : a.parts.map String.toList = pieces at hunion ⊢
  have hpiece : ∀ piece ∈ pieces, '|' ∉ piece ∧ ∃ c ∈ piece, isBlank c = false := by
    intro piece hmem
    rw [← hpieces] at hmem
    obtain ⟨p, hp, rfl⟩ := List.mem_map.1 hmem
    exact hparts p hp
  by_cases hne : pieces = []
  · rw [hne] at hunion ⊢
    rw [← hunion]
    rfl
  · have hsplit := unionParts?_splitBars [] (fun _ => rfl) (by simp) hne
      fun piece hmem => (hpiece piece hmem).1
    rw [if_neg, ← hunion, ← hsplit]
    · rfl
    · intro htrim
      cases pieces with
      | nil => exact hne rfl
      | cons piece rest =>
        obtain ⟨-, c, hc, hblank⟩ := hpiece piece List.mem_cons_self
        have hmem : c ∈ " | ".toList.intercalate (piece :: rest) := by
          cases rest <;> simp [List.intercalate_cons_cons, hc]
        rw [isBlank_of_trim_eq_nil htrim hmem] at hblank
        cases hblank

end Interfaces
end TraceFold
