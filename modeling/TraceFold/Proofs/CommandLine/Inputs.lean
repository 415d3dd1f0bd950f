import TraceFold.Proofs.CommandLine.Words

/-!
# Inputs

Which inputs a command line may name.  The inputs decide alone: the other arguments leave what is
named as it is, in whatever order they stand among the inputs.  What is named so far is also the
only trace of an earlier input, and the standard input leaves none, so inputs are refused if and
only if one of them follows the name of a file.

Nothing is lost by speaking of arguments: words whose reading comes upon no request, no option
without its value and no option that does not exist are the words of arguments
(`exists_arguments`).
-/

namespace TraceFold.CommandLine

namespace Argument

/-- The input that an argument names. -/
def input? : Argument → Option String
  | separate .input v => some v
  | attached .input _ v _ => some v
  | short v => some v
  | bare v _ => some v
  | _ => none

/-- A number of passes is a number. -/
def Counted : Argument → Prop
  | separate .maxPasses v => (Text.word64? v.toList).isSome
  | attached .maxPasses _ v _ => (Text.word64? v.toList).isSome
  | _ => True

theorem take_input {a : Argument} {v : String} (h : a.input? = some v) (c : Config) :
    take c a = c.setInput v := by
  cases a with
  | color | json => cases h
  | separate o | attached o => cases o <;> cases h; rfl
  | short | bare => cases h; rfl

/-- An argument that names no input leaves what is named as it is. -/
theorem take_other {a : Argument} (h : a.input? = none) (hcount : a.Counted) (c : Config) :
    ∃ c', take c a = .ok c' ∧ c'.input = c.input := by
  have hpasses : ∀ v : String, (Text.word64? v.toList).isSome →
      ∃ c', c.setMaxPasses v = .ok c' ∧ c'.input = c.input := by
    intro v hv
    obtain ⟨n, hn⟩ := Option.isSome_iff_exists.1 hv
    exact ⟨{ c with maxPasses := n }, by rw [Config.setMaxPasses, hn], rfl⟩
  cases a with
  | color on => exact ⟨_, rfl, rfl⟩
  | json => exact ⟨_, rfl, rfl⟩
  | separate o v => cases o with
    | input => cases h
    | maxPasses => exact hpasses v hcount
  | attached o k v => cases o with
    | input => cases h
    | maxPasses => exact hpasses v hcount
  | short v => cases h
  | bare v => cases h

end Argument

/-- The inputs that arguments name, in order. -/
def inputs (args : List Argument) : List String := args.filterMap Argument.input?

/-- What naming some inputs in order comes to: the last one is the input, unless it is the
standard input, and it is an error if one before the last is a file. -/
structure Names (names : List String) (asked : Except ArgumentError Config) : Prop where
  accepted : (∀ v ∈ names.dropLast, v = "-") →
    ∃ c, asked = .ok c ∧ c.input = names.getLast?.filter (· ≠ "-")
  refused : (∃ v ∈ names.dropLast, v ≠ "-") → asked = .error .repeatedInput

namespace Names

variable {names : List String} {asked : Except ArgumentError Config}

/-- The standard input in front leaves no trace. -/
theorem dash (h : Names names asked) : Names ("-" :: names) asked := by
  cases names with
  | nil => exact ⟨fun _ => h.accepted (by simp), by simp⟩
  | cons v names => exact ⟨fun hall => by simpa using h.accepted (by simpa using hall),
      fun hex => h.refused (by simpa using hex)⟩

/-- Nothing may follow a file. -/
theorem twice {v w : String} (h : v ≠ "-") (names : List String) :
    Names (v :: w :: names) (.error .repeatedInput) :=
  ⟨fun hall => absurd (hall v (by simp)) h, fun _ => rfl⟩

end Names

/-- The inputs decide alone, together with what is named already. -/
theorem names_foldlM {args : List Argument} (hcount : ∀ a ∈ args, a.Counted) {c : Config}
    (hc : c.input ≠ some "-") :
    Names (c.input.toList ++ inputs args) (args.foldlM Argument.take c) := by
  induction args generalizing c with
  | nil =>
    cases hi : c.input with
    | none => exact ⟨fun _ => ⟨c, rfl, hi⟩, by simp [inputs]⟩
    | some v =>
      have hv : v ≠ "-" := fun h => hc (h ▸ hi)
      exact ⟨fun _ => ⟨c, rfl, by simp [inputs, Option.filter, hi, hv]⟩, by simp [inputs]⟩
  | cons a args ih =>
    have hrest : ∀ a ∈ args, a.Counted := fun a ha => hcount a (List.mem_cons_of_mem _ ha)
    rw [List.foldlM_cons]
    cases ha : a.input? with
    | none =>
      obtain ⟨c', htake, hsame⟩ := Argument.take_other ha (hcount a List.mem_cons_self) c
      rw [htake, inputs, List.filterMap_cons_none ha, ← hsame]
      exact ih hrest (hsame ▸ hc)
    | some v =>
      rw [Argument.take_input ha, inputs, List.filterMap_cons_some ha, Config.setInput]
      cases hi : c.input with
      | some w => exact .twice (fun h => hc (h ▸ hi)) _
      | none =>
        by_cases hv : v = "-"
        · subst hv
          have := ih hrest hc
          rw [hi] at this
          exact this.dash
        · rw [if_neg (by simp), if_neg hv]
          exact ih (c := { c with input := some v }) hrest (by simpa using hv)

theorem parse_words (output : Bool) (args : List Argument) :
    parse ⟨false, output⟩ (args.flatMap Argument.words) =
      (args.foldlM Argument.take (.default output)).map .run := by
  rw [parse_eq_takeWords rfl, ← List.append_nil (args.flatMap _), Argument.takeWords_flatMap]
  exact bind_pure_comp Request.run _

/-- **Inputs of a command line.**  With something on the standard input and numbers where numbers
of passes are due, the arguments are refused if and only if an input before the last one is a
file, and then for naming an input again.  Otherwise they ask for a run on the last input, or on
the standard input if that is what it names or nothing is named.  So one input is never refused,
and two are if the first of them is a file. -/
theorem repeated_inputs (args : List Argument) (output : Bool)
    (hcount : ∀ a ∈ args, a.Counted) :
    (parse ⟨false, output⟩ (args.flatMap Argument.words) = .error .repeatedInput ↔
        ∃ v ∈ (inputs args).dropLast, v ≠ "-") ∧
      ((∀ v ∈ (inputs args).dropLast, v = "-") →
        ∃ c, parse ⟨false, output⟩ (args.flatMap Argument.words) = .ok (.run c) ∧
          c.input = (inputs args).getLast?.filter (· ≠ "-")) ∧
      ((inputs args).length ≤ 1 →
        ∃ c, parse ⟨false, output⟩ (args.flatMap Argument.words) = .ok (.run c) ∧
          (c.input = none ↔ inputs args = [] ∨ inputs args = ["-"])) := by
  have hfree : (Config.default output).input ≠ some "-" := by simp [Config.default]
  have hnames : Names (inputs args) (args.foldlM Argument.take (.default output)) :=
    names_foldlM hcount hfree
  have haccepted : (∀ v ∈ (inputs args).dropLast, v = "-") →
      ∃ c, parse ⟨false, output⟩ (args.flatMap Argument.words) = .ok (.run c) ∧
        c.input = (inputs args).getLast?.filter (· ≠ "-") := by
    intro hall
    obtain ⟨c, hc, hinput⟩ := hnames.accepted hall
    exact ⟨c, by rw [parse_words output, hc]; rfl, hinput⟩
  refine ⟨⟨fun herror => ?_, fun hex => ?_⟩, haccepted, fun hone => ?_⟩
  · by_contra hno
    obtain ⟨c, hc, -⟩ := haccepted fun v hv => by_contra fun hne => hno ⟨v, hv, hne⟩
    rw [hc] at herror
    cases herror
  · rw [parse_words output, hnames.refused hex]
    rfl
  · have hfirst : (inputs args).dropLast = [] :=
      List.eq_nil_of_length_eq_zero (by rw [List.length_dropLast]; omega)
    obtain ⟨c, hc, hinput⟩ := haccepted (by simp [hfirst])
    refine ⟨c, hc, ?_⟩
    rw [hinput]
    match inputs args, hone with
    | [], _ => simp
    | [v], _ => simp

/-- The standard input after a file is refused, whatever stands between them. -/
theorem repeated_inputs_dashLast :
    (∀ a ∈ [Argument.bare "a.json" (by decide), .separate .maxPasses "5", .short "-"], a.Counted) ∧
      parse .none ["a.json", "--max-passes", "5", "-i", "-"] = .error .repeatedInput := by
  have hcount : ∀ a ∈ [Argument.bare "a.json" (by decide), .separate .maxPasses "5", .short "-"],
      a.Counted := by
    simp only [List.forall_mem_cons]
    exact ⟨trivial, (by decide : (Text.word64? "5".toList).isSome), trivial, by simp⟩
  exact ⟨hcount, (repeated_inputs _ false hcount).1.2 ⟨"a.json", by decide, by decide⟩⟩

/-- A file after the standard input is taken, so the order of two inputs matters. -/
theorem repeated_inputs_dashFirst :
    inputs [.bare "-" (by decide), .bare "a.json" (by decide)] = ["-", "a.json"] ∧
      parse .none ["-", "a.json"] = .ok (.run ⟨some "a.json", false, defaultMaxPasses, false⟩) ∧
      parse .none ["a.json", "-"] = .error .repeatedInput := by
  refine ⟨rfl, ?_, ?_⟩ <;> decide

end TraceFold.CommandLine
