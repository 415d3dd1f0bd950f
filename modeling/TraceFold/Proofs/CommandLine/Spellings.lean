import TraceFold.Proofs.CommandLine.Words

/-!
# Spellings of a value

An option takes its value as the next word or after an equals sign.  What stands before an option
and behind it does not change how it is read, so the two spellings can be compared at the option
alone.  They agree on every value that does not begin with the option itself; of one that does,
the attached spelling keeps only what follows the copies of the option.
-/

namespace TraceFold.CommandLine

/-- Words that ask for the same wherever they stand, after words that are taken whole. -/
def Interchangeable (ws ws' : List String) : Prop :=
  ∀ (terminals : Terminals) (pre post : List String) (c : Config),
    takeWords (.default terminals.output) pre = .ok (.run c) →
      parse terminals (pre ++ ws ++ post) = parse terminals (pre ++ ws' ++ post)

theorem Interchangeable.of_takeWords {ws ws' : List String}
    (h : ∀ c post, takeWords c (ws ++ post) = takeWords c (ws' ++ post)) :
    Interchangeable ws ws' := by
  intro terminals pre post c hpre
  rw [parse, parse, List.append_assoc, List.append_assoc, takeWords_append hpre,
    takeWords_append hpre, h]

namespace ValuedOption

variable (o : ValuedOption)

/-- A word with copies of its option asks for what the option asks for with the value behind the
last copy. -/
theorem interchangeable_repeated {v : String} (hv : ¬ o.start.toList <+: v.toList) (k : ℕ) :
    Interchangeable [o.repeated (k + 1) v] [o.name, v] :=
  .of_takeWords fun c post =>
    (Argument.takeWords_words (.attached o k v hv) c post).trans
      (takeWords_name o c v post).symm

/-- An option alone asks for a run with what it sets. -/
theorem parse_name (v : String) :
    parse .none [o.name, v] = (o.set (.default false) v).map .run := by
  rw [parse_eq_takeWords rfl, takeWords_name]
  exact bind_pure_comp Request.run _

/-- A value that begins with its option is told from every other: it is a name of a file, and it
is no number. -/
theorem eq_of_set_eq {v w : String} (hw : o.start.toList <+: w.toList)
    (h : o.set (.default false) v = o.set (.default false) w) : v = w := by
  cases o with
  | input =>
    have hfree : ¬ (Config.default false).input.isSome := by decide
    have hfile : w ≠ "-" := by
      rintro rfl
      exact absurd hw (by decide)
    rw [set, Config.setInput, Config.setInput, if_neg hfree, if_neg hfree, if_neg hfile] at h
    split at h
    · cases h
    · cases h
      rfl
  | maxPasses =>
    obtain ⟨r, hr⟩ := hw
    have hnumber : Text.word64? w.toList = none := by
      rw [← hr]
      simp [Text.word64?, Text.decimal?, start, name]
    rw [set, Config.setMaxPasses, Config.setMaxPasses, hnumber] at h
    split at h
    · cases h
    · cases h
      rfl

end ValuedOption

/-- **The two spellings of a value.**  Every value is some copies of its option and a value that
does not begin with it; attached, it asks for what that value asks for as a word of its own,
wherever it stands.  So the two spellings of a value agree if and only if it does not begin with
its option. -/
theorem attached_value (o : ValuedOption) (w : String) :
    (∃ k v, w = o.repeated k v ∧ ¬ o.start.toList <+: v.toList ∧
        Interchangeable [o.start ++ w] [o.name, v]) ∧
      (Interchangeable [o.start ++ w] [o.name, w] ↔ ¬ o.start.toList <+: w.toList) := by
  obtain ⟨k, v, hw, hv⟩ := o.exists_repeated w
  have hread : Interchangeable [o.start ++ w] [o.name, v] := by
    subst hw
    exact o.interchangeable_repeated hv k
  refine ⟨⟨k, v, hw, hv, hread⟩, fun hagree hstart => ?_, fun hno => ?_⟩
  · have hparse : parse .none [o.name, v] = parse .none [o.name, w] :=
      (hread .none [] [] _ rfl).symm.trans (hagree .none [] [] _ rfl)
    rw [o.parse_name, o.parse_name] at hparse
    have hset : o.set (.default false) v = o.set (.default false) w := by
      cases hov : o.set (.default false) v <;> cases how : o.set (.default false) w <;>
        simp_all [Except.map]
    exact hv (o.eq_of_set_eq hstart hset ▸ hstart)
  · exact o.interchangeable_repeated hno 0

/-- A copy of the option is dropped from an attached value only. -/
theorem attached_value_copied :
    ¬ Interchangeable ["--input=--input=x"] ["--input", "--input=x"] ∧
      ¬ Interchangeable ["--max-passes=--max-passes=5"] ["--max-passes", "--max-passes=5"] := by
  constructor <;> intro h
  · have hfiles : parse .none ["--input=--input=x"] ≠ parse .none ["--input", "--input=x"] := by
      decide
    exact hfiles (h .none [] [] _ rfl)
  · have hcounts : parse .none ["--max-passes=--max-passes=5"] ≠
        parse .none ["--max-passes", "--max-passes=5"] := by decide
    exact hcounts (h .none [] [] _ rfl)

end TraceFold.CommandLine
