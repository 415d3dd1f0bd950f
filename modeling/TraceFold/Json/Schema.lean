import TraceFold.Json.Decode

/-!
# Records and tagged values

How the containers of a document are taken apart.  A record is written as an object, its fields in
any order, or as an array, its fields in declared order.  Fields are read in document order into a
draft that starts with the default of every field; what is not known is skipped; a field may not
come twice; and at the end the first required field that never came is missed.  In an array the
fields that may be left out may be left out at the end.

Containers may be nested to `maxLevels` levels.  Decoders of containers are given the number of
levels they may still open, and what is inside gets one less.  Containers that are skipped do not
count.
-/

namespace TraceFold.Json

/-- The number of containers that may be decoded inside one another. -/
def maxLevels : Nat := 127

/-! ## Lists -/

/-- The items of an array, in order. -/
def readItems {α : Type} (read : Json → Decoded α) : JsonItems → Decoded (List α)
  | .done => .ok []
  | .cut f => .error (.unreadable f)
  | .item v rest => do
    let a ← read v
    let as ← readItems read rest
    .ok (a :: as)

/-- An array.  `read?` decodes an item; it is `none` if no level is left for the array. -/
def readList {α : Type} (read? : Option (Json → Decoded α)) : Json → Decoded (List α)
  | .array items => match read? with
    | some read => readItems read items
    | none => .error .tooDeep
  | v => .error v.mismatch

/-! ## Records -/

/-- A field of a record with drafts in `σ`. -/
structure Field (σ : Type) where
  name : String
  required : Bool
  /-- Decode a value of the field and put it into the draft. -/
  read : Json → σ → Decoded σ

/-- A field that has to be there. -/
def Field.require {σ α : Type} (name : String) (read : Json → Decoded α) (put : α → σ → σ) :
    Field σ where
  name := name
  required := true
  read v s := (read v).map (put · s)

/-- A field that may be left out. -/
def Field.optional {σ α : Type} (name : String) (read : Json → Decoded α) (put : α → σ → σ) :
    Field σ where
  name := name
  required := false
  read v s := (read v).map (put · s)

/-- Fill a draft from the items of an array. -/
def readTuple {σ : Type} : List (Field σ) → JsonItems → σ → Decoded σ
  | [], .done, s => .ok s
  | [], .cut f, _ => .error (.unreadable f)
  | [], .item _ _, _ => .error .surplus
  | _ :: _, .cut f, _ => .error (.unreadable f)
  | field :: fields, .done, s =>
    if field.required then .error .tooShort else readTuple fields .done s
  | field :: fields, .item v rest, s => do
    let s ← field.read v s
    readTuple fields rest s

/-- The text of a key.  Nothing but a string can be one. -/
def readKeyText : Json → Decoded String
  | .string gs e => text gs e
  | .missing f => .error (.unreadable f)
  | _ => .error (.unreadable .malformed)

/-- Fill a draft from the members of an object; `seen` holds the names of the fields so far. -/
def readMembers {σ : Type} (fields : List (Field σ)) :
    JsonMembers → List String → σ → Decoded σ
  | .done, seen, s => match fields.find? fun f => f.required && !seen.contains f.name with
    | some f => .error (.missingField f.name)
    | none => .ok s
  | .cut f, _, _ => .error (.unreadable f)
  | .member k v rest, seen, s => do
    let name ← readKeyText k
    match fields.find? fun f => f.name == name with
    | some field =>
      if seen.contains name then .error (.duplicateField name)
      else
        let s ← field.read v s
        readMembers fields rest (name :: seen) s
    | none => match skip? v with
      | some f => .error (.unreadable f)
      | none => readMembers fields rest seen s

/-- A record.  `fields?` lists its fields; it is `none` if no level is left for the record. -/
def readRecord {σ : Type} (fields? : Option (List (Field σ))) (start : σ) : Json → Decoded σ
  | .array items => match fields? with
    | some fields => readTuple fields items start
    | none => .error .tooDeep
  | .object members => match fields? with
    | some fields => readMembers fields members [] start
    | none => .error .tooDeep
  | v => .error v.mismatch

/-! ## Tagged values -/

/-- Look up a tag by its name. -/
def readTag {τ : Type} (tags : List (String × τ)) (name : String) : Decoded τ :=
  match tags.find? fun t => t.1 == name with
  | some t => .ok t.2
  | none => .error (.unknownVariant name (tags.map Prod.fst))

/-- A tagged value: an object with one member, whose key is the tag.  `content?` decodes what
stands at a tag; it is `none` if no level is left for the object.  A bare string can only be a tag
without content, and no tag here has none. -/
def readTagged {τ α : Type} (tags : List (String × τ)) (content? : Option (τ → Json → Decoded α)) :
    Json → Decoded α
  | .object members => match content?, members with
    | none, _ => .error .tooDeep
    | some _, .done => .error .untagged
    | some _, .cut f => .error (.unreadable f)
    | some content, .member k v rest => do
      let name ← readKeyText k
      let tag ← readTag tags name
      let a ← content tag v
      match rest with
      | .done => .ok a
      | .cut f => .error (.unreadable f)
      | .member _ _ _ => .error .surplus
  | .string gs e => do
    let name ← text gs e
    let _ ← readTag tags name
    .error .wrongKind
  | .missing f => .error (.unreadable f)
  | _ => .error .untagged

/-! ## Documents -/

/-- Decode a whole document.  What follows the value is looked at last. -/
def decode {α : Type} (read : Nat → Json → Decoded α) (text : String) : Decoded α := do
  let doc := Document.ofText text
  let a ← read maxLevels doc.root
  if doc.trailing then .error .surplus else .ok a

end TraceFold.Json
