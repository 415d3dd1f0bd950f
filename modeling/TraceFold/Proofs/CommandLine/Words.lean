import Mathlib.Data.List.Infix
import TraceFold.CommandLine.Arguments

/-!
# Arguments as words

The words of a command line as a grammar.  An argument is a switch, an option with its value in
one of its spellings, or a bare name of the input; it is written as one or two words.  Every list
of words is a list of arguments and then a place where the reading stops: the end, a request for
help or for the version, an option without its value, or an option that does not exist.  Taking
the words of arguments is taking the arguments one by one, each from where the last one led.

A word with an attached value may hold several copies of its option.  All of them are dropped, so
the value of such a word is what follows the last copy.
-/

namespace TraceFold.CommandLine

/-- The options that take a value. -/
inductive ValuedOption where
  | input
  | maxPasses
deriving DecidableEq

namespace ValuedOption

def name : ValuedOption → String
  | input => "--input"
  | maxPasses => "--max-passes"

/-- The beginning of a word with an attached value. -/
def start (o : ValuedOption) : String := o.name ++ "="

/-- What the option does with its value. -/
def set : ValuedOption → Config → String → Except ArgumentError Config
  | input => Config.setInput
  | maxPasses => Config.setMaxPasses

/-- A value with copies of the option in front. -/
def repeated (o : ValuedOption) : ℕ → String → String
  | 0, v => v
  | k + 1, v => o.start ++ o.repeated k v

variable (o : ValuedOption)

theorem toList_repeated_succ (k : ℕ) (v : String) :
    (o.repeated (k + 1) v).toList = o.start.toList ++ (o.repeated k v).toList := by
  rw [repeated, String.toList_append]

theorem start_prefix_repeated (k : ℕ) (v : String) :
    o.start.toList <+: (o.repeated (k + 1) v).toList :=
  ⟨_, (o.toList_repeated_succ k v).symm⟩

theorem length_start_pos : 0 < o.start.toList.length := by cases o <;> decide

theorem le_length_repeated (k : ℕ) (v : String) : k ≤ (o.repeated k v).toList.length := by
  induction k with
  | zero => exact Nat.zero_le _
  | succ k ih =>
    have := o.length_start_pos
    rw [toList_repeated_succ, List.length_append]
    omega

/-- Every value is some copies of the option and then a value that does not begin with it. -/
theorem exists_repeated (w : String) :
    ∃ k v, w = o.repeated k v ∧ ¬ o.start.toList <+: v.toList := by
  induction h : w.toList.length using Nat.strongRecOn generalizing w with
  | _ n ih =>
    by_cases hw : o.start.toList <+: w.toList
    · obtain ⟨r, hr⟩ := hw
      have hlt : (String.ofList r).toList.length < n := by
        have := o.length_start_pos
        rw [String.toList_ofList, ← h, ← hr, List.length_append]
        omega
      obtain ⟨k, v, hk, hv⟩ := ih _ hlt (String.ofList r) rfl
      refine ⟨k + 1, v, ?_, hv⟩
      rw [repeated, ← hk, ← String.toList_inj, String.toList_append, String.toList_ofList, hr]
    · exact ⟨0, w, rfl, hw⟩

end ValuedOption

/-! ## Attached values -/

theorem afterStart?_append (start r : List Char) : afterStart? start (start ++ r) = some r := by
  induction start with
  | nil => rfl
  | cons c start ih => simpa [afterStart?] using ih

theorem eq_append_of_afterStart? {start cs r : List Char} (h : afterStart? start cs = some r) :
    cs = start ++ r := by
  fun_induction afterStart? start cs with
  | case1 cs => simpa using h
  | case2 => cases h
  | case3 s ss cs ih => rw [ih h, List.cons_append]
  | case4 => cases h

theorem afterStart?_eq_none {start cs : List Char} :
    afterStart? start cs = none ↔ ¬ start <+: cs := by
  constructor
  · rintro h ⟨r, rfl⟩
    rw [afterStart?_append] at h
    cases h
  · intro h
    cases hr : afterStart? start cs with
    | none => rfl
    | some r => exact absurd ⟨r, (eq_append_of_afterStart? hr).symm⟩ h

theorem attachedValue?_eq_none {option word : String} :
    attachedValue? option word = none ↔ ¬ option.toList <+: word.toList := by
  rw [attachedValue?, Option.map_eq_none_iff, afterStart?_eq_none]

namespace ValuedOption

variable {o : ValuedOption} {v : String}

theorem dropCopies_repeated (hv : ¬ o.start.toList <+: v.toList) {k n : ℕ} (h : k ≤ n) :
    dropCopies o.start.toList n (o.repeated k v).toList = v.toList := by
  induction k generalizing n with
  | zero =>
    cases n with
    | zero => rfl
    | succ n => rw [repeated, dropCopies, afterStart?_eq_none.2 hv]
  | succ k ih =>
    cases n with
    | zero => cases h
    | succ n =>
      rw [toList_repeated_succ, dropCopies, afterStart?_append]
      exact ih (Nat.le_of_succ_le_succ h)

/-- The value read from a word is what follows the last copy of the option: a text of some length
has at most so many copies. -/
theorem attachedValue?_repeated (hv : ¬ o.start.toList <+: v.toList) (k : ℕ) :
    attachedValue? o.start (o.repeated (k + 1) v) = some v := by
  rw [attachedValue?, toList_repeated_succ, afterStart?_append, Option.map_some,
    dropCopies_repeated hv (o.le_length_repeated k v), String.ofList_toList]

end ValuedOption

/-! ## Arguments -/

/-- One argument of a command line. -/
inductive Argument where
  | color (on : Bool)
  | json
  /-- An option and its value, as two words. -/
  | separate (o : ValuedOption) (value : String)
  /-- An option and its value in one word, with further copies of the option between them. -/
  | attached (o : ValuedOption) (copies : ℕ) (value : String)
      (h : ¬ o.start.toList <+: value.toList)
  /-- The input after the short name of its option. -/
  | short (value : String)
  /-- The input alone. -/
  | bare (value : String) (h : value = "-" ∨ value.toList.head? ≠ some '-')

namespace Argument

def words : Argument → List String
  | color true => ["--color"]
  | color false => ["--no-color"]
  | json => ["--json"]
  | separate o v => [o.name, v]
  | attached o k v _ => [o.repeated (k + 1) v]
  | short v => ["-i", v]
  | bare v _ => [v]

/-- What an argument adds to what was asked for so far. -/
def take (c : Config) : Argument → Except ArgumentError Config
  | color on => .ok { c with color := on }
  | json => .ok { c with json := true }
  | separate o v => o.set c v
  | attached o _ v _ => o.set c v
  | short v => c.setInput v
  | bare v _ => c.setInput v

end Argument

/-! ## Single words -/

/-- The words that ask for something else than a run. -/
def requestNames : List String := ["-h", "--help", "-V", "--version"]

/-- The words that are arguments of their own. -/
def switchNames : List String := ["--color", "--no-color", "--json"]

/-- The words that wait for a value. -/
def valuedNames : List String := ["--max-passes", "--input", "-i"]

/-- The words that are options as they stand. -/
def optionNames : List String := requestNames ++ switchNames ++ valuedNames

theorem takeWords_cons {word : String} (h : word ∉ optionNames) (c : Config)
    (ws : List String) :
    takeWords c (word :: ws) = takeWord c word >>= (takeWords · ws) := by
  simp only [optionNames, requestNames, switchNames, valuedNames, List.mem_append, List.mem_cons,
    List.not_mem_nil, or_false, not_or] at h
  rw [takeWords.eq_def]
  cases hw : takeWord c word <;> simp [h, hw] <;> rfl

theorem takeWords_name (o : ValuedOption) (c : Config) (v : String) (ws : List String) :
    takeWords c (o.name :: v :: ws) = o.set c v >>= (takeWords · ws) := by
  rw [takeWords.eq_def]
  cases o with
  | input => cases h : c.setInput v <;> simp [ValuedOption.name, ValuedOption.set, h] <;> rfl
  | maxPasses =>
    cases h : c.setMaxPasses v <;> simp [ValuedOption.name, ValuedOption.set, h] <;> rfl

theorem takeWords_short (c : Config) (v : String) (ws : List String) :
    takeWords c ("-i" :: v :: ws) = c.setInput v >>= (takeWords · ws) := by
  rw [takeWords.eq_def]
  cases h : c.setInput v <;> simp [h] <;> rfl

theorem takeWord_repeated {o : ValuedOption} {v : String} (hv : ¬ o.start.toList <+: v.toList)
    (k : ℕ) (c : Config) : takeWord c (o.repeated (k + 1) v) = o.set c v := by
  cases o with
  | maxPasses =>
    have hvalue : attachedValue? "--max-passes=" (ValuedOption.maxPasses.repeated (k + 1) v)
        = some v := ValuedOption.attachedValue?_repeated hv k
    rw [takeWord, hvalue]
    rfl
  | input =>
    have hother : attachedValue? "--max-passes=" (ValuedOption.input.repeated (k + 1) v)
        = none := by
      refine attachedValue?_eq_none.2 fun hstart => ?_
      -- two beginnings of one word, neither of which begins the other
      have := List.prefix_or_prefix_of_prefix hstart
        (ValuedOption.input.start_prefix_repeated k v)
      revert this
      decide
    have hvalue : attachedValue? "--input=" (ValuedOption.input.repeated (k + 1) v) = some v :=
      ValuedOption.attachedValue?_repeated hv k
    rw [takeWord, hother]
    simp only [hvalue]
    rfl

theorem takeWord_plain {word : String} (h : ∀ o : ValuedOption, ¬ o.start.toList <+: word.toList)
    (c : Config) :
    takeWord c word = if word.toList.head? = some '-' ∧ word ≠ "-" then
      .error (.unknownOption word) else c.setInput word := by
  have hmax : attachedValue? "--max-passes=" word = none :=
    attachedValue?_eq_none.2 (h .maxPasses)
  have hin : attachedValue? "--input=" word = none := attachedValue?_eq_none.2 (h .input)
  rw [takeWord, hmax]
  simp only [hin]

theorem takeWord_bare {v : String} (h : v = "-" ∨ v.toList.head? ≠ some '-') (c : Config) :
    takeWord c v = c.setInput v := by
  have hplain : ∀ o : ValuedOption, ¬ o.start.toList <+: v.toList := by
    rintro o ⟨r, hr⟩
    obtain rfl | h := h
    · have := congrArg List.length hr
      cases o <;> simp [ValuedOption.start, ValuedOption.name] at this
    · rw [← hr] at h
      cases o <;> exact h rfl
  rw [takeWord_plain hplain, if_neg]
  rintro ⟨hdash, hne⟩
  exact h.elim hne (· hdash)

/-! ## Taking arguments -/

namespace Argument

theorem attached_not_name {o : ValuedOption} (k : ℕ) (v : String) :
    o.repeated (k + 1) v ∉ optionNames := by
  have hnames : ∀ n ∈ optionNames, ¬ o.start.toList <+: n.toList := by cases o <;> decide
  exact fun h => hnames _ h (o.start_prefix_repeated k v)

theorem bare_not_name {v : String} (h : v = "-" ∨ v.toList.head? ≠ some '-') :
    v ∉ optionNames := by
  have hnames : ∀ n ∈ optionNames, n ≠ "-" ∧ n.toList.head? = some '-' := by decide
  intro hv
  exact h.elim (hnames v hv).1 (· (hnames v hv).2)

/-- The words of an argument are taken together. -/
theorem takeWords_words (a : Argument) (c : Config) (ws : List String) :
    takeWords c (a.words ++ ws) = take c a >>= (takeWords · ws) := by
  cases a with
  | color on => cases on <;> (rw [takeWords.eq_def]; rfl)
  | json => rw [takeWords.eq_def]; rfl
  | separate o v => exact takeWords_name o c v ws
  | attached o k v h =>
    rw [words, List.singleton_append, takeWords_cons (attached_not_name k v),
      takeWord_repeated h, take]
  | short v => exact takeWords_short c v ws
  | bare v h =>
    rw [words, List.singleton_append, takeWords_cons (bare_not_name h), takeWord_bare h, take]

/-- Arguments are taken one by one, and what follows them is read from where they led. -/
theorem takeWords_flatMap (args : List Argument) (c : Config) (ws : List String) :
    takeWords c (args.flatMap words ++ ws) = args.foldlM take c >>= (takeWords · ws) := by
  induction args generalizing c with
  | nil => rfl
  | cons a args ih =>
    rw [List.flatMap_cons, List.append_assoc, takeWords_words, List.foldlM_cons, bind_assoc]
    exact congrArg (take c a >>= ·) (funext ih)

end Argument

/-! ## Where the reading stops -/

/-- An option that does not exist. -/
structure Unknown (word : String) : Prop where
  dash : word.toList.head? = some '-'
  ne_dash : word ≠ "-"
  ne_name : word ∉ optionNames
  not_attached : ∀ o : ValuedOption, ¬ o.start.toList <+: word.toList

/-- What may follow the arguments that are read. -/
inductive Stop : List String → Prop
  | done : Stop []
  | asked {word : String} (h : word ∈ requestNames) (ws : List String) : Stop (word :: ws)
  | valueless {word : String} (h : word ∈ valuedNames) : Stop [word]
  | unknown {word : String} (h : Unknown word) (ws : List String) : Stop (word :: ws)

/-- Reading goes to the end only if nothing is left to stop at. -/
theorem Stop.eq_nil {ws : List String} {c c' : Config} (hs : Stop ws)
    (h : takeWords c ws = .ok (.run c')) : ws = [] := by
  cases hs with
  | done => rfl
  | asked hw =>
    simp only [requestNames, List.mem_cons, List.not_mem_nil, or_false] at hw
    rw [takeWords.eq_def] at h
    obtain rfl | rfl | rfl | rfl := hw <;> cases h
  | valueless hw =>
    simp only [valuedNames, List.mem_cons, List.not_mem_nil, or_false] at hw
    rw [takeWords.eq_def] at h
    obtain rfl | rfl | rfl := hw <;> cases h
  | unknown hw =>
    rw [takeWords_cons hw.ne_name, takeWord_plain hw.not_attached,
      if_pos ⟨hw.dash, hw.ne_dash⟩] at h
    cases h

/-- A request, an option that waits for its value, an option that does not exist, or an argument
of its own. -/
theorem word_cases (word : String) :
    word ∈ requestNames ∨ word ∈ valuedNames ∨ Unknown word ∨ ∃ a : Argument, a.words = [word] := by
  by_cases hname : word ∈ optionNames
  · simp only [optionNames, List.mem_append] at hname
    obtain (hrequest | hswitch) | hvalued := hname
    · exact .inl hrequest
    · refine .inr (.inr (.inr ?_))
      simp only [switchNames, List.mem_cons, List.not_mem_nil, or_false] at hswitch
      obtain rfl | rfl | rfl := hswitch
      · exact ⟨.color true, rfl⟩
      · exact ⟨.color false, rfl⟩
      · exact ⟨.json, rfl⟩
    · exact .inr (.inl hvalued)
  by_cases hattached : ∃ o : ValuedOption, o.start.toList <+: word.toList
  · obtain ⟨o, ho⟩ := hattached
    obtain ⟨k, v, rfl, hv⟩ := o.exists_repeated word
    cases k with
    | zero => exact absurd ho hv
    | succ k => exact .inr (.inr (.inr ⟨.attached o k v hv, rfl⟩))
  by_cases hbare : word = "-" ∨ word.toList.head? ≠ some '-'
  · exact .inr (.inr (.inr ⟨.bare word hbare, rfl⟩))
  · rw [not_or, not_not] at hbare
    exact .inr (.inr (.inl ⟨hbare.2, hbare.1, hname, not_exists.1 hattached⟩))

/-- Every list of words is the words of some arguments, and then a place to stop. -/
theorem exists_arguments : ∀ ws : List String,
    ∃ (args : List Argument) (rest : List String),
      ws = args.flatMap Argument.words ++ rest ∧ Stop rest
  | [] => ⟨[], [], rfl, .done⟩
  | word :: ws => by
    obtain h | h | h | ⟨a, ha⟩ := word_cases word
    · exact ⟨[], word :: ws, rfl, .asked h ws⟩
    · cases ws with
      | nil => exact ⟨[], [word], rfl, .valueless h⟩
      | cons v ws =>
        obtain ⟨a, ha⟩ : ∃ a : Argument, a.words = [word, v] := by
          simp only [valuedNames, List.mem_cons, List.not_mem_nil, or_false] at h
          obtain rfl | rfl | rfl := h
          · exact ⟨.separate .maxPasses v, rfl⟩
          · exact ⟨.separate .input v, rfl⟩
          · exact ⟨.short v, rfl⟩
        obtain ⟨args, rest, rfl, hstop⟩ := exists_arguments ws
        exact ⟨a :: args, rest, by rw [List.flatMap_cons, ha]; rfl, hstop⟩
    · exact ⟨[], word :: ws, rfl, .unknown h ws⟩
    · obtain ⟨args, rest, rfl, hstop⟩ := exists_arguments ws
      exact ⟨a :: args, rest, by rw [List.flatMap_cons, ha]; rfl, hstop⟩

/-- If the standard input can be read, nothing has to be named. -/
theorem parse_eq_takeWords {terminals : Terminals} (h : terminals.input = false)
    (ws : List String) : parse terminals ws = takeWords (.default terminals.output) ws := by
  rw [parse, h]
  cases takeWords (.default terminals.output) ws with
  | error e => rfl
  | ok r => cases r <;> simp

/-- Words that are taken whole leave the rest to be read from where they led. -/
theorem takeWords_append {c c' : Config} {pre : List String}
    (h : takeWords c pre = .ok (.run c')) (ws : List String) :
    takeWords c (pre ++ ws) = takeWords c' ws := by
  obtain ⟨args, rest, rfl, hstop⟩ := exists_arguments pre
  rw [Argument.takeWords_flatMap] at h
  cases hargs : args.foldlM Argument.take c with
  | error e => rw [hargs] at h; cases h
  | ok c₁ =>
    rw [hargs] at h
    obtain rfl := hstop.eq_nil h
    obtain rfl : c₁ = c' := by cases h; rfl
    rw [List.append_nil, Argument.takeWords_flatMap, hargs]
    rfl

end TraceFold.CommandLine
