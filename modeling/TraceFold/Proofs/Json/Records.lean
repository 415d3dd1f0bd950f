import TraceFold.Proofs.Json.Values

/-!
# Reading records

What reading a record comes to: some of its fields are read into the draft, one after another
(`Fills`).  If a record was read, whatever its form and the order of its members, all fields that
were read belong to it and every required one is among them (`filledWith_of_readRecord`), so a
property of drafts that these fields keep holds of the record (`Fills.keeps`).  In the other
direction a record that was written, with every field in its place, is read by reading just these
(`readRecord_record`), and if one of them cannot be read, neither can the record, for the same
reason (`readRecord_record_eq`).
-/

namespace TraceFold.Json

variable {σ τ α β : Type} {fields : List (Field σ)} {s s' : σ} {v : Json}

/-! ## Decoders in sequence -/

lemma bind_eq_ok {x : Decoded α} {f : α → Decoded β} {b : β} :
    (x >>= f) = .ok b ↔ ∃ a, x = .ok a ∧ f a = .ok b := by
  cases x <;> simp [bind, Except.bind]

lemma map_eq_ok {x : Decoded α} {f : α → β} {b : β} :
    x.map f = .ok b ↔ ∃ a, x = .ok a ∧ f a = b := by
  cases x <;> simp [Except.map]

lemma readOption_eq_ok {read : Json → Decoded α} {o : Option α} (h : readOption read v = .ok o) :
    ∀ a, o = some a → read v = .ok a := by
  unfold readOption at h
  split at h
  · cases h
    exact fun a ha => nomatch ha
  · cases h
  · obtain ⟨a, hread, rfl⟩ := map_eq_ok.1 h
    rintro b hb
    rw [hread, Option.some.inj hb]

/-! ## Fields -/

/-- The fields are read from their values one after another, and so the draft goes from the first
to the second. -/
inductive Fills : List (Field σ × Json) → σ → σ → Prop
  | nil (s : σ) : Fills [] s s
  | cons {f : Field σ} {v : Json} {entries : List (Field σ × Json)} {s t s' : σ}
      (hread : f.read v s = .ok t) (hrest : Fills entries t s') : Fills ((f, v) :: entries) s s'

/-- Read the fields from their values one after another, until one of them fails. -/
def fill : List (Field σ × Json) → σ → Decoded σ
  | [], s => .ok s
  | (f, v) :: entries, s => f.read v s >>= fill entries

lemma Fills.fill_eq {entries : List (Field σ × Json)} (h : Fills entries s s') :
    fill entries s = .ok s' := by
  induction h with
  | nil => rfl
  | cons hread _ ih => rw [fill, hread]; exact ih

lemma Field.read_require {name : String} {read : Json → Decoded α} {put : α → σ → σ} {a : α}
    (h : read v = .ok a) : (Field.require name read put).read v s = .ok (put a s) :=
  map_eq_ok.2 ⟨a, h, rfl⟩

lemma Field.read_optional {name : String} {read : Json → Decoded α} {put : α → σ → σ} {a : α}
    (h : read v = .ok a) : (Field.optional name read put).read v s = .ok (put a s) :=
  map_eq_ok.2 ⟨a, h, rfl⟩

lemma Fills.exists_read {entries : List (Field σ × Json)} (h : Fills entries s s')
    {e : Field σ × Json} (he : e ∈ entries) : ∃ t t', e.1.read e.2 t = .ok t' := by
  induction h with
  | nil => cases he
  | cons hread _ ih =>
    rcases List.mem_cons.1 he with rfl | he
    · exact ⟨_, _, hread⟩
    · exact ih he

/-- A property that every field keeps holds of the draft in the end. -/
lemma Fills.keeps {P : σ → Prop} {entries : List (Field σ × Json)} (h : Fills entries s s')
    (hkeep : ∀ e ∈ entries, ∀ v t t', e.1.read v t = .ok t' → P t → P t') (hs : P s) : P s' := by
  induction h with
  | nil => exact hs
  | cons hread _ ih =>
    exact ih (fun e he => hkeep e (List.mem_cons_of_mem _ he))
      (hkeep _ List.mem_cons_self _ _ _ hread hs)

/-! ## What was read -/

/-- One of the fields has the name, and it has to be there. -/
def Required (fields : List (Field σ)) (name : String) : Prop :=
  ∃ f ∈ fields, f.required = true ∧ f.name = name

/-- Some of the fields were read, and among them one of each name that is wanted. -/
def FilledWith (fields : List (Field σ)) (wanted : String → Prop) (s s' : σ) : Prop :=
  ∃ entries, Fills entries s s' ∧ (∀ e ∈ entries, e.1 ∈ fields) ∧
    ∀ name, wanted name → ∃ e ∈ entries, e.1.name = name

lemma FilledWith.nil {wanted : String → Prop} (h : ∀ name, ¬ wanted name) (s : σ) :
    FilledWith fields wanted s s :=
  ⟨[], .nil s, by simp, fun name hname => absurd hname (h name)⟩

lemma FilledWith.cons {wanted wanted' : String → Prop} {f : Field σ} {t : σ} (hf : f ∈ fields)
    (hread : f.read v s = .ok t) (h : FilledWith fields wanted t s')
    (hwanted : ∀ name, wanted' name → f.name = name ∨ wanted name) :
    FilledWith fields wanted' s s' := by
  obtain ⟨entries, hfills, hmem, hnames⟩ := h
  refine ⟨(f, v) :: entries, .cons hread hfills, fun e he => ?_, fun name hname => ?_⟩
  · rcases List.mem_cons.1 he with rfl | he
    · exact hf
    · exact hmem e he
  · rcases hwanted name hname with rfl | hname
    · exact ⟨_, List.mem_cons_self, rfl⟩
    · obtain ⟨e, he, heq⟩ := hnames name hname
      exact ⟨e, List.mem_cons_of_mem _ he, heq⟩

lemma FilledWith.weaken {wanted wanted' : String → Prop} (h : FilledWith fields wanted s s')
    (hwanted : ∀ name, wanted' name → wanted name) : FilledWith fields wanted' s s' := by
  obtain ⟨entries, hfills, hmem, hnames⟩ := h
  exact ⟨entries, hfills, hmem, fun name hname => hnames name (hwanted name hname)⟩

/-- An array fills the fields that are left, of which all the required ones are there. -/
lemma filledWith_of_readTuple {left : List (Field σ)} {items : JsonItems}
    (hleft : ∀ f ∈ left, f ∈ fields) (h : readTuple left items s = .ok s') :
    FilledWith fields (Required left) s s' := by
  induction left generalizing items s with
  | nil =>
    cases items <;> cases h
    exact .nil (by simp [Required]) _
  | cons f left ih =>
    obtain ⟨hf, hleft⟩ := List.forall_mem_cons.1 hleft
    cases items with
    | done =>
      rw [readTuple] at h
      split at h
      · cases h
      · rename_i hoptional
        exact (ih hleft h).weaken fun name hname => by simpa [Required, hoptional] using hname
    | cut f => cases h
    | item v rest =>
      obtain ⟨t, hread, hrest⟩ := bind_eq_ok.1 h
      refine (ih hleft hrest).cons hf hread ?_
      rintro name ⟨g, hg, hrequired, rfl⟩
      rcases List.mem_cons.1 hg with rfl | hg
      · exact .inl rfl
      · exact .inr ⟨g, hg, hrequired, rfl⟩

/-- An object fills the fields that were not yet seen, of which all the required ones are there. -/
theorem filledWith_of_readMembers : ∀ {members : JsonMembers} {seen : List String} {s : σ},
    readMembers fields members seen s = .ok s' →
      FilledWith fields (fun name => Required fields name ∧ name ∉ seen) s s'
  | .done, seen, s, h => by
    rw [readMembers] at h
    split at h
    · cases h
    · rename_i hnone
      cases h
      refine .nil ?_ _
      rintro name ⟨⟨f, hf, hrequired, rfl⟩, hseen⟩
      simpa [hrequired, hseen] using List.find?_eq_none.1 hnone f hf
  | .cut f, seen, s, h => by cases h
  | .member k v rest, seen, s, h => by
    obtain ⟨key, -, h⟩ := bind_eq_ok.1 h
    split at h
    · rename_i field hfind
      split at h
      · cases h
      · obtain ⟨t, hread, hrest⟩ := bind_eq_ok.1 h
        have hkey : field.name = key := by simpa using List.find?_some hfind
        refine (filledWith_of_readMembers hrest).cons (List.mem_of_find?_eq_some hfind) hread ?_
        rintro name ⟨hrequired, hseen⟩
        by_cases heq : name = key
        · exact .inl (hkey.trans heq.symm)
        · exact .inr ⟨hrequired, by simp [heq, hseen]⟩
    · split at h
      · cases h
      · exact filledWith_of_readMembers h

/-- A record that was read is its start with fields read into it, all the required ones among
them. -/
theorem filledWith_of_readRecord (h : readRecord (some fields) s v = .ok s') :
    FilledWith fields (Required fields) s s' := by
  cases v with
  | array items => exact filledWith_of_readTuple (fun _ hf => hf) h
  | object members =>
    exact (filledWith_of_readMembers h).weaken fun name hname => ⟨hname, by simp⟩
  | _ => cases h

/-- Without a level left no record is read. -/
lemma readRecord_none_ne_ok (v : Json) (s s' : σ) : readRecord none s v ≠ .ok s' := by
  unfold readRecord
  split <;> exact nofun

/-- What all fields of a record keep holds of every record that is read. -/
theorem readRecord_induction {P : σ → Prop} (h : readRecord (some fields) s v = .ok s')
    (hkeep : ∀ f ∈ fields, ∀ v t t', f.read v t = .ok t' → P t → P t') (hs : P s) : P s' := by
  obtain ⟨entries, hfills, hmem, -⟩ := filledWith_of_readRecord h
  exact hfills.keeps (fun e he => hkeep e.1 (hmem e he)) hs

/-- What stands at a place of a record that was empty at first was decoded itself, if every field
leaves the place as it is or puts there what it has decoded. -/
lemma exists_read_of_readRecord {place : σ → Option α} {read : Json → Decoded α}
    (h : readRecord (some fields) s v = .ok s') (hempty : place s = none)
    (hfields : ∀ f ∈ fields, ∀ w t t', f.read w t = .ok t' →
      place t' = place t ∨ readOption read w = .ok (place t')) :
    ∀ a, place s' = some a → ∃ w, read w = .ok a := by
  refine readRecord_induction (P := fun t => ∀ a, place t = some a → ∃ w, read w = .ok a) h
    (fun f hf w t t' hread hkept a ha => ?_) (fun a ha => nomatch hempty.symm.trans ha)
  rcases hfields f hf w t t' hread with hleft | hput
  · exact hkept a (hleft ▸ ha)
  · exact ⟨w, readOption_eq_ok hput a ha⟩

/-! ## What was written -/

lemma readKeyText_ofText (t : String) : readKeyText (ofText t) = .ok t := text_glyphsOf t

lemma find?_name {before todo : List (Field σ)} {f : Field σ}
    (hnodup : ((before ++ f :: todo).map Field.name).Nodup) :
    ((before ++ f :: todo).find? fun g => g.name == f.name) = some f := by
  have hbefore : (before.find? fun g => g.name == f.name) = none := by
    refine List.find?_eq_none.2 fun g hg => ?_
    simp only [List.map_append, List.map_cons, List.nodup_append] at hnodup
    simpa using hnodup.2.2 g.name (List.mem_map_of_mem hg) f.name List.mem_cons_self
  rw [List.find?_append, hbefore]
  simp

lemma readMembers_done {seen : List String} (h : ∀ f ∈ fields, f.name ∈ seen) :
    readMembers fields .done seen s = .ok s := by
  have hnone : (fields.find? fun f => f.required && !seen.contains f.name) = none :=
    List.find?_eq_none.2 fun f hf => by simp [h f hf]
  rw [readMembers, hnone]

lemma readMembers_member {f : Field σ} {seen : List String} (rest : JsonMembers)
    (hfind : (fields.find? fun g => g.name == f.name) = some f) (hnew : f.name ∉ seen) :
    readMembers fields (.member (ofText f.name) v rest) seen s =
      f.read v s >>= readMembers fields rest (f.name :: seen) := by
  have hcontains : seen.contains f.name = false := by simpa using hnew
  rw [readMembers, readKeyText_ofText]
  simp only [bind, Except.bind, hfind, hcontains, Bool.false_eq_true, if_false]

/-- Members in declared order, of the fields that are not yet read, are read one after another. -/
lemma readMembers_keyed (before : List (Field σ)) {todo : List (Field σ)}
    (hnodup : ((before ++ todo).map Field.name).Nodup) {members : List (String × Json)}
    (seen : List String) (hseen : ∀ name, name ∈ seen ↔ name ∈ before.map Field.name)
    (hnames : todo.map Field.name = members.map Prod.fst) (s : σ) :
    readMembers (before ++ todo) (.ofList .done (keyed members)) seen s =
      fill (todo.zip (members.map Prod.snd)) s := by
  induction todo generalizing before members seen s with
  | nil =>
    obtain rfl : members = [] := by simpa using hnames
    exact readMembers_done fun f hf => (hseen _).2 (List.mem_map_of_mem (by simpa using hf))
  | cons f todo ih =>
    obtain _ | ⟨⟨name, v⟩, members⟩ := members
    · cases hnames
    obtain ⟨rfl, htail⟩ : f.name = name ∧ todo.map Field.name = members.map Prod.fst := by
      simpa using hnames
    have hnew : f.name ∉ seen := by
      intro hmem
      simp only [List.map_append, List.map_cons, List.nodup_append] at hnodup
      exact hnodup.2.2 _ ((hseen _).1 hmem) _ List.mem_cons_self rfl
    have happend : before ++ f :: todo = (before ++ [f]) ++ todo := by simp
    have hrest := ih (before ++ [f]) (happend ▸ hnodup) (f.name :: seen)
      (fun name => by simp [hseen, or_comm]) htail
    rw [keyed, List.map_cons, JsonMembers.ofList, readMembers_member _ (find?_name hnodup) hnew,
      happend]
    exact congrArg (f.read v s >>= ·) (funext hrest)

/-- A record that was written with every field in its place is read as its fields are. -/
theorem readRecord_record_eq {members : List (String × Json)}
    (hnames : fields.map Field.name = members.map Prod.fst)
    (hnodup : (members.map Prod.fst).Nodup) (s : σ) :
    readRecord (some fields) s (record members) = fill (fields.zip (members.map Prod.snd)) s :=
  readMembers_keyed [] (hnames ▸ hnodup) [] (by simp) hnames s

/-- If all the fields can be read, so can the record. -/
theorem readRecord_record {members : List (String × Json)}
    (hnames : fields.map Field.name = members.map Prod.fst)
    (hnodup : (members.map Prod.fst).Nodup)
    (h : Fills (fields.zip (members.map Prod.snd)) s s') :
    readRecord (some fields) s (record members) = .ok s' :=
  (readRecord_record_eq hnames hnodup s).trans h.fill_eq

/-! ## Tagged values -/

lemma exists_content_of_readTagged {tags : List (String × τ)}
    {content? : Option (τ → Json → Decoded α)} {a : α} (h : readTagged tags content? v = .ok a) :
    ∃ content tag w, content? = some content ∧ content tag w = .ok a := by
  cases v with
  | object members =>
    obtain _ | content := content?
    · cases h
    obtain _ | f | ⟨k, w, rest⟩ := members
    · cases h
    · cases h
    · obtain ⟨name, -, h⟩ := bind_eq_ok.1 h
      obtain ⟨tag, -, h⟩ := bind_eq_ok.1 h
      obtain ⟨b, hcontent, h⟩ := bind_eq_ok.1 h
      cases rest <;> cases h
      exact ⟨content, tag, w, rfl, hcontent⟩
  | string gs e =>
    obtain ⟨name, -, h⟩ := bind_eq_ok.1 h
    obtain ⟨tag, -, h⟩ := bind_eq_ok.1 h
    cases h
  | _ => cases h

lemma readTagged_record {tags : List (String × τ)} {content : τ → Json → Decoded α} {name : String}
    {tag : τ} {a : α} (htag : readTag tags name = .ok tag) (h : content tag v = .ok a) :
    readTagged tags (some content) (record [(name, v)]) = .ok a := by
  rw [record, List.map_singleton, JsonMembers.ofList, JsonMembers.ofList, readTagged,
    readKeyText_ofText]
  simp only [bind, Except.bind, htag, h]

/-! ## Documents -/

lemma decode_render {read : Nat → Json → Decoded α} (h : v.Written) :
    decode read v.render = read maxLevels v := by
  rw [decode, h.ofText_render]
  cases read maxLevels v <;> rfl

end TraceFold.Json
