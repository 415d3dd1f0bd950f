import TraceFold.Json.Printer
import TraceFold.Json.Reader
import TraceFold.Proofs.Text.Digits

/-!
# Documents that are read back

`Json.Written` is the set of trees from which documents are made: words, integers, texts, and lists
and records of these.  Reading a document that was made from one of them gives the tree again and
leaves nothing over (`Written.ofText_render`).

The reader is a machine that is run for a number of steps known beforehand.  `State.Leads` says that
it comes from one state to another without using up more of that number than it gets back by
having read on, so the steps need not be counted.  A written value is then read in whatever
surroundings it stands (`Written.readsThrough`), by induction on how the tree was made.
-/

namespace TraceFold.Json

/-- The trees from which documents are made. -/
inductive Written : Json → Prop
  | word (w : Word) : Written (.word w .closed)
  | integer (i : Int) : Written (ofInt i)
  | text (t : String) : Written (ofText t)
  | list {items : List Json} (h : ∀ v ∈ items, Written v) : Written (list items)
  | record {members : List (String × Json)} (h : ∀ m ∈ members, Written m.2) :
      Written (record members)

attribute [simp] Written.word Written.integer Written.text

@[simp] lemma written_null : null.Written := .word .null

@[simp] lemma written_ofBool (b : Bool) : (ofBool b).Written := .word _

lemma ofNat_eq_ofInt (n : Nat) : ofNat n = ofInt n := by
  rw [ofNat, ofInt, Text.ofInt, if_neg (by omega), Int.natAbs_natCast]

@[simp] lemma written_ofNat (n : Nat) : (ofNat n).Written := ofNat_eq_ofInt n ▸ .integer n

lemma written_ofOption {α : Type} {write : α → Json} {o : Option α}
    (h : ∀ a, o = some a → (write a).Written) : (ofOption write o).Written := by
  cases o with
  | none => exact written_null
  | some a => exact h a rfl

variable {v : Json} {cs rest : List Char} {s t u : State} {stack : List Frame}

/-! ## Steps of the reader -/

namespace State

/-- Reading comes from `s` to `t` in no more steps than the text that was read allows. -/
def Leads (s t : State) : Prop := ∃ n, n + t.bound ≤ s.bound ∧ step^[n] s = t

lemma Leads.trans (h : Leads s t) (h' : Leads t u) : Leads s u := by
  obtain ⟨n, hn, rfl⟩ := h
  obtain ⟨m, hm, rfl⟩ := h'
  exact ⟨m + n, by omega, Function.iterate_add_apply step m n s⟩

lemma Leads.of_step (h : s.step = t) (hbound : t.bound < s.bound) : Leads s t :=
  ⟨1, by omega, h⟩

lemma run_of_iterate {n : Nat} (h : step^[n] s = .final v cs) :
    ∀ m, n ≤ m → run m s = (v, cs) := by
  induction n generalizing s with
  | zero =>
    rintro m -
    obtain rfl : s = .final v cs := h
    cases m <;> rfl
  | succ n ih =>
    intro m hm
    obtain ⟨m, rfl⟩ : ∃ k, m = k + 1 := ⟨m - 1, by omega⟩
    have hrun : run (m + 1) s = run m s.step := by
      cases s with
      | final => cases m <;> rfl
      | _ => rfl
    rw [hrun]
    exact ih (by rwa [Function.iterate_succ_apply] at h) m (by omega)

lemma Leads.run (h : Leads s (.final v cs)) : State.run s.bound s = (v, cs) := by
  obtain ⟨n, hn, hfinal⟩ := h
  exact run_of_iterate hfinal s.bound (by omega)

end State

/-! ## Strings -/

/-- A character with a short escape is what the escape is read as. -/
lemma readString_shortForm {c e : Char} (h : shortForm? c = some e) (before : List Glyph)
    (rest : List Char) :
    readString before ('\\' :: e :: rest) = readString (.char c :: before) rest := by
  unfold shortForm? at h
  split at h <;> cases h <;> rfl

/-- Every escape that is written is read as the character it is written for. -/
lemma readString_glyphOf (c : Char) (before : List Glyph) (rest : List Char) :
    readString before (glyphChars (glyphOf c) ++ rest) = readString (glyphOf c :: before) rest := by
  unfold glyphOf
  split
  · rename_i hcontrol
    have hunit : (UInt16.ofNat c.toNat).toNat = c.toNat := by
      rw [UInt16.toNat_ofNat', Nat.mod_eq_of_lt (by omega)]
    have hlength : (Text.padLeft 4 (Text.hexOfNat c.toNat)).length = 4 :=
      Text.length_padLeft_hexOfNat (by omega) (by omega)
    have hvalue := Text.hexFrom?_padLeft 4 c.toNat
    rw [glyphChars, hunit]
    generalize Text.padLeft 4 (Text.hexOfNat c.toNat) = digits at hlength hvalue ⊢
    obtain _ | ⟨a₁, _ | ⟨a₂, _ | ⟨a₃, _ | ⟨a₄, _ | _⟩⟩⟩⟩ := digits <;> try cases hlength
    show readString before ('\\' :: 'u' :: a₁ :: a₂ :: a₃ :: a₄ :: rest) = _
    rw [readString, unit?, hvalue]
    rfl
  · rename_i hplain
    rw [glyphChars]
    cases hshort : shortForm? c with
    | some e => exact readString_shortForm hshort before rest
    | none =>
      have hge : ¬ c.toNat < 0x20 := fun hlt => hplain ⟨hlt, hshort⟩
      have hquote : c ≠ '"' := by rintro rfl; cases hshort
      have hslash : c ≠ '\\' := by rintro rfl; cases hshort
      show readString before (c :: rest) = _
      rw [readString, if_neg hge]
      · exact hquote
      · exact fun _ _ _ _ _ h => absurd h hslash
      · exact fun _ h => absurd h hslash
      · exact fun _ _ h => absurd h hslash
      · exact fun h => absurd h hslash

lemma readString_glyphsOf (cs : List Char) (before : List Glyph) (rest : List Char) :
    readString before ((cs.map glyphOf).flatMap glyphChars ++ '"' :: rest) =
      (.string (before.reverse ++ cs.map glyphOf) .closed, rest) := by
  induction cs generalizing before with
  | nil => rw [List.map_nil, List.flatMap_nil, List.nil_append, readString, List.append_nil]
  | cons c cs ih =>
    rw [List.map_cons, List.flatMap_cons, List.append_assoc, readString_glyphOf, ih,
      List.reverse_cons, List.append_assoc, List.singleton_append]

/-! ## Numbers -/

/-- The text goes on with something that ends a value inside a container, or it ends. -/
def Separated : List Char → Prop
  | [] => True
  | c :: _ => c = ',' ∨ c = ']' ∨ c = '}'

lemma separated_comma (cs : List Char) : Separated (',' :: cs) := .inl rfl

lemma separated_bracket (cs : List Char) : Separated (']' :: cs) := .inr (.inl rfl)

lemma separated_brace (cs : List Char) : Separated ('}' :: cs) := .inr (.inr rfl)

lemma Separated.takeWhile_isDigit (h : Separated rest) : rest.takeWhile Char.isDigit = [] := by
  cases rest with
  | nil => rfl
  | cons c rest =>
    rcases h with rfl | rfl | rfl <;> exact List.takeWhile_cons_of_neg (by decide)

lemma Separated.readFraction (h : Separated rest) (before : List Char) :
    readFraction before rest = (.number before .closed, rest) := by
  cases rest with
  | nil => rfl
  | cons c rest => rcases h with rfl | rfl | rfl <;> rfl

lemma readNumber_ofNat (h : Separated rest) (sign : List Char) (n : Nat) :
    readNumber sign (Text.ofNat n ++ rest) = (.number (sign ++ Text.ofNat n) .closed, rest) := by
  have hall : ∀ c ∈ Text.ofNat n, c.isDigit = true := fun c hc => Text.isDigit_of_mem_ofNat hc
  have hdigits : digitsOf (Text.ofNat n ++ rest) = (Text.ofNat n, rest) := by
    rw [digitsOf, Text.takeWhile_isDigit hall h.takeWhile_isDigit,
      Text.dropWhile_isDigit hall h.takeWhile_isDigit]
  obtain ⟨d, ds, hds, -, hzero⟩ := Text.ofNat_eq_cons n
  by_cases hd : d = '0'
  · obtain ⟨-, rfl⟩ := hzero hd
    rw [hds, hd, List.singleton_append]
    cases rest with
    | nil => rfl
    | cons c rest => rcases h with rfl | rfl | rfl <;> rfl
  · rw [readNumber]
    · simp only [hdigits, Text.ofNat_ne_nil, if_false, h.readFraction]
    · intro r heq
      rw [hds] at heq
      exact hd (List.cons.inj heq).1

/-! ## One value -/

/-- A written value is read wherever it stands. -/
def ReadsThrough (v : Json) : Prop :=
  ∀ rest stack, Separated rest →
    State.Leads (.value (v.chars ++ rest) stack) (.after v rest stack)

/-- A written value begins with a character that is no blank and ends no list. -/
def BeginsAsValue (v : Json) : Prop :=
  ∃ c cs, v.chars = c :: cs ∧ isBlank c = false ∧ c ≠ ']'

lemma skipBlanks_cons {c : Char} (h : isBlank c = false) (cs : List Char) :
    skipBlanks (c :: cs) = c :: cs :=
  List.dropWhile_cons_of_neg (by simp [h])

lemma step_value_scalar {c : Char} (hblank : isBlank c = false) (harray : c ≠ '[')
    (hobject : c ≠ '{') (cs : List Char) (stack : List Frame) :
    State.step (.value (c :: cs) stack) =
      afterScalar (readScalar (c :: cs)).1 (readScalar (c :: cs)).2 stack := by
  simp only [State.step, skipBlanks_cons hblank]
  split <;> simp_all

/-- What the scanner of scalars reads in one go is read in one step. -/
lemma readsThrough_of_readScalar {c : Char} {cs : List Char} (hchars : v.chars = c :: cs)
    (hblank : isBlank c = false) (harray : c ≠ '[') (hobject : c ≠ '{')
    (hfault : scalarFault? v = none)
    (hread : ∀ rest, Separated rest → readScalar (c :: (cs ++ rest)) = (v, rest)) :
    ReadsThrough v := by
  intro rest stack hrest
  rw [hchars]
  apply State.Leads.of_step
  · rw [List.cons_append, step_value_scalar hblank harray hobject, hread rest hrest]
    simp only [afterScalar, hfault]
  · simp only [State.bound, List.length_append, List.length_cons]
    omega

lemma word_readsThrough (w : Word) : ReadsThrough (.word w .closed) := by
  intro rest stack _
  apply State.Leads.of_step
  · cases w <;> rfl
  · simp only [State.bound, List.length_append]
    omega

lemma text_chars (t : String) :
    (ofText t).chars = '"' :: ((t.toList.map glyphOf).flatMap glyphChars ++ ['"']) := by
  rw [ofText, glyphsOf, chars, stringChars, List.cons_append]

lemma readScalar_text (t : String) (rest : List Char) :
    readScalar ((ofText t).chars ++ rest) = (ofText t, rest) := by
  rw [text_chars, List.cons_append, readScalar, List.append_assoc, List.singleton_append,
    readString_glyphsOf]
  rfl

lemma text_readsThrough (t : String) : ReadsThrough (ofText t) := by
  refine readsThrough_of_readScalar (text_chars t) (by decide) (by decide) (by decide) rfl ?_
  intro rest _
  rw [← readScalar_text t rest, text_chars, List.cons_append]

lemma readScalar_digit {c : Char} (h : c.isDigit = true) (cs : List Char) :
    readScalar (c :: cs) = readNumber [] (c :: cs) := by
  unfold readScalar
  split <;> simp_all [Char.isDigit]

lemma not_structural_of_isDigit {c : Char} (h : c.isDigit = true) :
    isBlank c = false ∧ c ≠ ']' ∧ c ≠ '[' ∧ c ≠ '{' := by
  refine ⟨?_, ?_, ?_, ?_⟩
  · rw [← Bool.not_eq_true]
    intro hblank
    simp only [isBlank, Bool.or_eq_true, beq_iff_eq] at hblank
    rcases hblank with ((rfl | rfl) | rfl) | rfl <;> exact absurd h (by decide)
  all_goals
    rintro rfl
    exact absurd h (by decide)

lemma chars_ofInt (i : Int) : (ofInt i).chars = Text.ofInt i := by
  rw [ofInt, chars]

lemma integer_readsThrough (i : Int) : ReadsThrough (ofInt i) := by
  by_cases hi : i < 0
  · have hchars : (ofInt i).chars = '-' :: Text.ofNat i.natAbs := by
      rw [chars_ofInt, Text.ofInt, if_pos hi]
    refine readsThrough_of_readScalar hchars (by decide) (by decide) (by decide) rfl ?_
    intro rest hrest
    rw [readScalar, readNumber_ofNat hrest, ofInt, Text.ofInt, if_pos hi, List.singleton_append]
  · obtain ⟨d, ds, hds, hdigit, -⟩ := Text.ofNat_eq_cons i.natAbs
    have hchars : (ofInt i).chars = d :: ds := by
      rw [chars_ofInt, Text.ofInt, if_neg hi, hds]
    obtain ⟨hblank, -, harray, hobject⟩ := not_structural_of_isDigit hdigit
    refine readsThrough_of_readScalar hchars hblank harray hobject rfl ?_
    intro rest hrest
    rw [readScalar_digit hdigit, ← List.cons_append, ← hds, readNumber_ofNat hrest, ofInt,
      Text.ofInt, if_neg hi, List.nil_append]

lemma integer_beginsAsValue (i : Int) : BeginsAsValue (ofInt i) := by
  obtain ⟨d, ds, hds, hdigit, -⟩ := Text.ofNat_eq_cons i.natAbs
  obtain ⟨hblank, hclose, -⟩ := not_structural_of_isDigit hdigit
  by_cases hi : i < 0
  · exact ⟨_, _, by rw [chars_ofInt, Text.ofInt, if_pos hi], rfl, by decide⟩
  · exact ⟨d, ds, by rw [chars_ofInt, Text.ofInt, if_neg hi, hds], hblank, hclose⟩

/-! ## Lists -/

/-- Items that can be read are read into the list they stand in. -/
lemma items_lead {vs : List Json} (hv : v.ReadsThrough) (hvs : ∀ w ∈ vs, w.ReadsThrough)
    (before : List Json) (rest : List Char) (stack : List Frame) :
    State.Leads (.value (itemsChars (.ofList .done (v :: vs)) ++ ']' :: rest)
        (.inArray before :: stack))
      (.after (.array (.ofList .done (before.reverse ++ v :: vs))) rest stack) := by
  induction vs generalizing v before with
  | nil =>
    have hclose : State.Leads (.after v (']' :: rest) (.inArray before :: stack))
        (.after (.array (.ofList .done (before.reverse ++ [v]))) rest stack) :=
      .of_step (by rw [← List.reverse_cons]; rfl) (by simp [State.bound])
    rw [JsonItems.ofList, JsonItems.ofList, itemsChars]
    exact (hv _ _ (separated_bracket _)).trans hclose
  | cons w ws ih =>
    have hnext : State.Leads
        (.after v (',' :: (itemsChars (.ofList .done (w :: ws)) ++ ']' :: rest))
          (.inArray before :: stack))
        (.value (itemsChars (.ofList .done (w :: ws)) ++ ']' :: rest)
          (.inArray (v :: before) :: stack)) :=
      .of_step rfl (by simp only [State.bound, List.length_cons]; omega)
    have hrest := ih (hvs w (by simp)) (fun u hu => hvs u (by simp [hu])) (v :: before)
    rw [List.reverse_cons, List.append_assoc, List.singleton_append] at hrest
    rw [JsonItems.ofList, JsonItems.ofList, itemsChars, List.append_assoc, List.cons_append,
      ← JsonItems.ofList]
    · exact ((hv _ _ (separated_comma _)).trans hnext).trans hrest
    · exact fun h => nomatch h

lemma list_chars (items : List Json) (rest : List Char) :
    (list items).chars ++ rest = '[' :: (itemsChars (.ofList .done items) ++ ']' :: rest) := by
  simp [list, chars]

lemma list_readsThrough {items : List Json} (hbegin : ∀ v ∈ items, v.BeginsAsValue)
    (h : ∀ v ∈ items, v.ReadsThrough) : (list items).ReadsThrough := by
  intro rest stack _
  cases items with
  | nil => exact .of_step rfl (show 2 * rest.length + 1 < 2 * (rest.length + 2) + 2 by omega)
  | cons v vs =>
    obtain ⟨c, cs, hcs, hblank, hclose⟩ := hbegin v (by simp)
    obtain ⟨tail, htail⟩ : ∃ tail,
        itemsChars (.ofList .done (v :: vs)) ++ ']' :: rest = c :: tail := by
      cases vs with
      | nil => simp [JsonItems.ofList, itemsChars, hcs]
      | cons w ws => simp [JsonItems.ofList, itemsChars, hcs]
    have hopen : State.Leads
        (.value ('[' :: (itemsChars (.ofList .done (v :: vs)) ++ ']' :: rest)) stack)
        (.value (itemsChars (.ofList .done (v :: vs)) ++ ']' :: rest) (.inArray [] :: stack)) := by
      refine .of_step ?_ (by simp [State.bound])
      rw [htail]
      have hskip : skipBlanks ('[' :: c :: tail) = '[' :: c :: tail := skipBlanks_cons rfl _
      simp only [State.step, hskip, skipBlanks_cons hblank]
      split <;> simp_all
    rw [list_chars]
    exact hopen.trans (items_lead (h v (by simp)) (fun w hw => h w (by simp [hw])) [] rest stack)

/-! ## Records -/

lemma openMember_text (k : String) (cs : List Char) (before : List (Json × Json))
    (stack : List Frame) :
    openMember ((ofText k).chars ++ ':' :: cs) before stack =
      .value cs (.inObject before (ofText k) :: stack) := by
  have hskip : skipBlanks ((ofText k).chars ++ ':' :: cs) = (ofText k).chars ++ ':' :: cs := by
    rw [text_chars, List.cons_append]
    exact skipBlanks_cons rfl _
  have hkey : readKey ((ofText k).chars ++ ':' :: cs) = (ofText k, ':' :: cs) := by
    rw [← readScalar_text k (':' :: cs), text_chars, List.cons_append]
    rfl
  simp only [openMember, hskip, hkey]
  rfl

/-- The members by which a record is kept. -/
def keyed (members : List (String × Json)) : List (Json × Json) :=
  members.map fun (k, v) => (ofText k, v)

lemma membersChars_keyed_singleton (k : String) (v : Json) (rest : List Char) :
    membersChars (.ofList .done (keyed [(k, v)])) ++ rest =
      (ofText k).chars ++ ':' :: (v.chars ++ rest) := by
  simp [keyed, JsonMembers.ofList, membersChars]

lemma membersChars_keyed_cons (k : String) (v : Json) (m : String × Json)
    (members : List (String × Json)) (rest : List Char) :
    membersChars (.ofList .done (keyed ((k, v) :: m :: members))) ++ rest =
      (ofText k).chars ++ ':' ::
        (v.chars ++ ',' :: (membersChars (.ofList .done (keyed (m :: members))) ++ rest)) := by
  simp [keyed, JsonMembers.ofList, membersChars]

/-- A record takes up text before its first value, so opening it uses a step up. -/
lemma bound_openMember_keyed (k : String) (v : Json) (members : List (String × Json))
    (rest : List Char) (before : List (Json × Json)) (stack : List Frame) :
    (openMember (membersChars (.ofList .done (keyed ((k, v) :: members))) ++ rest)
        before stack).bound ≤
      2 * (membersChars (.ofList .done (keyed ((k, v) :: members))) ++ rest).length := by
  cases members with
  | nil =>
    rw [membersChars_keyed_singleton, openMember_text]
    simp only [State.bound, List.length_append, List.length_cons]
    omega
  | cons m members =>
    rw [membersChars_keyed_cons, openMember_text]
    simp only [State.bound, List.length_append, List.length_cons]
    omega

/-- Members that can be read are read into the record they stand in. -/
lemma members_lead {k : String} {members : List (String × Json)} (hv : v.ReadsThrough)
    (hmembers : ∀ m ∈ members, m.2.ReadsThrough) (before : List (Json × Json))
    (rest : List Char) (stack : List Frame) :
    State.Leads
      (openMember (membersChars (.ofList .done (keyed ((k, v) :: members))) ++ '}' :: rest)
        before stack)
      (.after (.object (.ofList .done (before.reverse ++ keyed ((k, v) :: members))))
        rest stack) := by
  induction members generalizing k v before with
  | nil =>
    have hclose : State.Leads (.after v ('}' :: rest) (.inObject before (ofText k) :: stack))
        (.after (.object (.ofList .done (before.reverse ++ keyed [(k, v)]))) rest stack) :=
      .of_step (by rw [keyed, List.map_singleton, ← List.reverse_cons]; rfl) (by simp [State.bound])
    rw [membersChars_keyed_singleton, openMember_text]
    exact (hv _ _ (separated_brace _)).trans hclose
  | cons m members ih =>
    obtain ⟨k', w⟩ := m
    have hbound := bound_openMember_keyed k' w members ('}' :: rest)
      ((ofText k, v) :: before) stack
    have hw : w.ReadsThrough := hmembers (k', w) (by simp)
    have hrest := ih (k := k') hw (fun u hu => hmembers u (by simp [hu]))
      ((ofText k, v) :: before)
    rw [List.reverse_cons, List.append_assoc, List.singleton_append] at hrest
    rw [membersChars_keyed_cons, openMember_text]
    refine (hv _ _ (separated_comma _)).trans (.trans (.of_step rfl ?_) hrest)
    exact lt_of_le_of_lt hbound (by simp only [State.bound, List.length_cons]; omega)

lemma record_chars (members : List (String × Json)) (rest : List Char) :
    (record members).chars ++ rest =
      '{' :: (membersChars (.ofList .done (keyed members)) ++ '}' :: rest) := by
  simp [record, chars, keyed]

lemma record_readsThrough {members : List (String × Json)}
    (h : ∀ m ∈ members, m.2.ReadsThrough) : (record members).ReadsThrough := by
  intro rest stack _
  cases members with
  | nil => exact .of_step rfl (show 2 * rest.length + 1 < 2 * (rest.length + 2) + 2 by omega)
  | cons m members =>
    obtain ⟨k, v⟩ := m
    have hlead := members_lead (k := k) (h (k, v) (by simp))
      (fun u (hu : u ∈ members) => h u (by simp [hu])) [] rest stack
    have hbound := bound_openMember_keyed k v members ('}' :: rest) [] stack
    obtain ⟨tail, htail⟩ : ∃ tail, membersChars (.ofList .done (keyed ((k, v) :: members))) ++
        '}' :: rest = '"' :: tail := by
      cases members with
      | nil => exact ⟨_, by rw [membersChars_keyed_singleton, text_chars, List.cons_append]⟩
      | cons m members => exact ⟨_, by rw [membersChars_keyed_cons, text_chars, List.cons_append]⟩
    rw [record_chars]
    rw [htail] at hlead hbound ⊢
    refine .trans (.of_step rfl ?_) hlead
    exact lt_of_le_of_lt hbound (by simp only [State.bound, List.length_cons]; omega)

/-! ## Documents -/

lemma Written.beginsAsValue (h : v.Written) : v.BeginsAsValue := by
  cases h with
  | word w => cases w <;> exact ⟨_, _, rfl, rfl, by decide⟩
  | integer i => exact integer_beginsAsValue i
  | text t => exact ⟨_, _, text_chars t, rfl, by decide⟩
  | list => exact ⟨_, _, rfl, rfl, by decide⟩
  | record => exact ⟨_, _, rfl, rfl, by decide⟩

/-- A written value is read wherever it stands. -/
lemma Written.readsThrough (h : v.Written) : v.ReadsThrough := by
  induction h with
  | word w => exact word_readsThrough w
  | integer i => exact integer_readsThrough i
  | text t => exact text_readsThrough t
  | list h ih => exact list_readsThrough (fun v hv => (h v hv).beginsAsValue) ih
  | record _ ih => exact record_readsThrough ih

/-- A document made from a written value holds that value and nothing else. -/
theorem Written.ofText_render (h : v.Written) : Document.ofText v.render = ⟨v, false⟩ := by
  have hvalue : State.Leads (.value v.chars []) (.after v [] []) := by
    simpa using h.readsThrough [] [] trivial
  have hfinal : State.Leads (.after v [] []) (.final v []) := .of_step rfl (by simp [State.bound])
  have hrun := (hvalue.trans hfinal).run
  rw [Document.ofText, render, String.toList_ofList]
  simp only [hrun]
  rfl

end TraceFold.Json
