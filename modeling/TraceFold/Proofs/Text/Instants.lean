import TraceFold.Proofs.Text.Digits
import TraceFold.Timestamp

/-!
# Instants that are read back

Every part of the written form has a fixed width or ends at a character that no number can go on
with, so a reader that takes as many digits as it may takes the part that was written and no more.
A year beyond four digits is written with a sign, and only then are more digits taken.
-/

namespace TraceFold

open Text

variable {rest : List Char} {n width : Nat}

/-! ## Dates, times and offsets -/

lemma Date.of?_self (d : Date) : Date.of? d.year d.month d.day = some d :=
  dif_pos ⟨d.year_range, d.month_range, d.day_range⟩

lemma TimeOfDay.of?_self (t : TimeOfDay) :
    TimeOfDay.of? t.hour t.minute t.second t.nano = some t :=
  dif_pos ⟨t.hour_lt, t.minute_lt, t.second_le, t.nano_lt⟩

namespace Timestamp

lemma ofLocal?_zero (date : Date) (time : TimeOfDay) :
    ofLocal? date time 0 = some ⟨date, time⟩ := by
  have hhour := time.hour_lt
  have hminute := time.minute_lt
  have hminutes : (60 * (time.hour : Int) + time.minute - 0).toNat =
      60 * time.hour + time.minute := by omega
  unfold ofLocal?
  dsimp only
  rw [if_neg (by omega), if_pos (by omega), hminutes,
    show (60 * time.hour + time.minute) / 60 = time.hour by omega,
    show (60 * time.hour + time.minute) % 60 = time.minute by omega, TimeOfDay.of?_self]
  rfl

/-! ## Numbers -/

/-- Neither blanks nor signs come before a digit. -/
lemma ofNatPadded_eq_cons (width n : Nat) :
    ∃ d ds, ofNatPadded width n = d :: ds ∧ d.isDigit = true := by
  obtain ⟨d, ds, hds⟩ := List.exists_cons_of_ne_nil (ofNatPadded_ne_nil width n)
  exact ⟨d, ds, hds, isDigit_of_mem_ofNatPadded (hds ▸ List.mem_cons_self)⟩

lemma trimStart_ofNatPadded (width n : Nat) (rest : List Char) :
    trimStart (ofNatPadded width n ++ rest) = ofNatPadded width n ++ rest := by
  obtain ⟨d, ds, hds, hdigit⟩ := ofNatPadded_eq_cons width n
  rw [hds, List.cons_append, trimStart,
    List.dropWhile_cons_of_neg (by simp [isBlank_of_isDigit hdigit])]

/-- As many digits as may be taken are there. -/
lemma number?_ofNatPadded (hwidth : 0 < width) (h : n < 10 ^ width) (rest : List Char) :
    number? width (ofNatPadded width n ++ rest) = some (n, rest) := by
  have hlength := length_ofNatPadded hwidth h
  have hdigits : ((ofNatPadded width n ++ rest).take width).takeWhile Char.isDigit =
      ofNatPadded width n := by
    rw [List.take_append_of_le_length hlength.ge, List.take_of_length_le hlength.le]
    simpa using takeWhile_isDigit (fun c hc => isDigit_of_mem_ofNatPadded hc) List.takeWhile_nil
  unfold number?
  simp only [trimStart_ofNatPadded, hdigits, ofNatPadded_ne_nil, if_false,
    decimalValue_ofNatPadded, List.drop_left]

lemma longNumber?_ofNatPadded (hrest : rest.takeWhile Char.isDigit = []) :
    longNumber? (ofNatPadded width n ++ rest) = some (n, rest) := by
  unfold longNumber?
  simp only [takeWhile_isDigit (fun c hc => isDigit_of_mem_ofNatPadded hc) hrest,
    dropWhile_isDigit (fun c hc => isDigit_of_mem_ofNatPadded hc) hrest, ofNatPadded_ne_nil,
    if_false, decimalValue_ofNatPadded]

lemma year?_yearText (year : Int) (hrest : rest.takeWhile Char.isDigit = []) :
    year? (yearText year ++ rest) = some (year, rest) := by
  unfold yearText
  split
  · rename_i hrange
    have hnumber : number? 4 (ofNatPadded 4 year.toNat ++ rest) = some (year.toNat, rest) :=
      number?_ofNatPadded (by omega) (by omega) rest
    obtain ⟨d, ds, hds, hdigit⟩ := ofNatPadded_eq_cons 4 year.toNat
    have hsign : ∀ c r, ofNatPadded 4 year.toNat ++ rest = c :: r → c.isDigit = true := by
      intro c r heq
      rw [hds] at heq
      rwa [← (List.cons.inj heq).1]
    unfold year?
    rw [trimStart_ofNatPadded]
    split
    · rename_i r heq
      exact absurd (hsign _ r heq) (by decide)
    · rename_i r heq
      exact absurd (hsign _ r heq) (by decide)
    · rw [hnumber, Option.map_some]
      simp only [Option.some.injEq, Prod.mk.injEq, and_true]
      omega
  · split
    · rename_i hneg
      show (longNumber? (ofNatPadded 4 year.natAbs ++ rest)).map _ = _
      rw [longNumber?_ofNatPadded hrest, Option.map_some]
      simp only [Option.some.injEq, Prod.mk.injEq, and_true]
      omega
    · show (longNumber? (ofNatPadded 4 year.natAbs ++ rest)).map _ = _
      rw [longNumber?_ofNatPadded hrest, Option.map_some]
      simp only [Option.some.injEq, Prod.mk.injEq, and_true]
      omega

lemma fraction?_ofNatPadded (hwidth : 0 < width ∧ width ≤ 9) (h : n < 10 ^ width)
    (hrest : rest.takeWhile Char.isDigit = []) :
    fraction? ('.' :: ofNatPadded width n ++ rest) = some (n * 10 ^ (9 - width), rest) := by
  have hlength := length_ofNatPadded hwidth.1 h
  rw [List.cons_append, fraction?]
  simp only [takeWhile_isDigit (fun c hc => isDigit_of_mem_ofNatPadded hc) hrest,
    dropWhile_isDigit (fun c hc => isDigit_of_mem_ofNatPadded hc) hrest, ofNatPadded_ne_nil,
    if_false, List.take_of_length_le (hlength.trans_le hwidth.2), hlength,
    decimalValue_ofNatPadded]
  rfl

/-- Whatever number of digits is written, the nanoseconds are the same. -/
lemma fraction?_fractionText (h : n < 1000000000) :
    fraction? (fractionText n ++ ['Z']) = some (n, ['Z']) := by
  have hrest : ['Z'].takeWhile Char.isDigit = [] := by decide
  unfold fractionText
  split
  · rename_i hzero
    rw [hzero]
    rfl
  · split
    · rw [fraction?_ofNatPadded (by omega) (by omega) hrest]
      congr 2
      omega
    · split
      · rw [fraction?_ofNatPadded (by omega) (by omega) hrest]
        congr 2
        omega
      · rw [fraction?_ofNatPadded (by omega) h hrest]
        congr 2
        omega

/-! ## Instants -/

theorem ofText?_toText (t : Timestamp) : ofText? t.toText = some t := by
  have hmonth : t.date.month < 10 ^ 2 := by have := t.date.month_range; omega
  have hday : t.date.day < 10 ^ 2 := by
    have hle := t.date.day_range.2
    have : daysInMonth t.date.year t.date.month ≤ 31 := by
      unfold daysInMonth
      split <;> (try split) <;> omega
    omega
  have hhour : t.time.hour < 10 ^ 2 := by have := t.time.hour_lt; omega
  have hminute : t.time.minute < 10 ^ 2 := by have := t.time.minute_lt; omega
  have hsecond : t.time.second < 10 ^ 2 := by have := t.time.second_le; omega
  rw [ofText?, toText, String.toList_ofList, ofChars?, toChars, secondsText]
  have hyear : ∀ r, year? (yearText t.date.year ++ '-' :: r) = some (t.date.year, '-' :: r) :=
    fun _ => year?_yearText t.date.year (List.takeWhile_cons_of_neg (by decide))
  have hdash : ∀ r, after? '-' ('-' :: r) = some r := fun _ => rfl
  have hcolon : ∀ r, after? ':' (':' :: r) = some r := fun _ => rfl
  have hzone : offset? (trimStart ['Z']) = some (0, []) := by decide
  simp only [List.append_assoc, List.cons_append]
  refine Option.bind_eq_some_iff.2 ⟨_, hyear _, ?_⟩
  refine Option.bind_eq_some_iff.2 ⟨_, hdash _, ?_⟩
  refine Option.bind_eq_some_iff.2 ⟨_, number?_ofNatPadded (by omega) hmonth _, ?_⟩
  refine Option.bind_eq_some_iff.2 ⟨_, hdash _, ?_⟩
  refine Option.bind_eq_some_iff.2 ⟨_, number?_ofNatPadded (by omega) hday _, ?_⟩
  -- the letter between date and time
  refine Option.bind_eq_some_iff.2 ⟨_, rfl, ?_⟩
  refine Option.bind_eq_some_iff.2 ⟨_, number?_ofNatPadded (by omega) hhour _, ?_⟩
  refine Option.bind_eq_some_iff.2 ⟨_, hcolon _, ?_⟩
  refine Option.bind_eq_some_iff.2 ⟨_, number?_ofNatPadded (by omega) hminute _, ?_⟩
  refine Option.bind_eq_some_iff.2 ⟨_, hcolon _, ?_⟩
  refine Option.bind_eq_some_iff.2 ⟨_, number?_ofNatPadded (by omega) hsecond _, ?_⟩
  refine Option.bind_eq_some_iff.2 ⟨_, fraction?_fractionText t.time.nano_lt, ?_⟩
  refine Option.bind_eq_some_iff.2 ⟨_, hzone, ?_⟩
  refine (if_pos rfl).trans ?_
  refine Option.bind_eq_some_iff.2 ⟨_, t.date.of?_self, ?_⟩
  refine Option.bind_eq_some_iff.2 ⟨_, t.time.of?_self, ?_⟩
  exact ofLocal?_zero t.date t.time

end Timestamp
end TraceFold
