import Mathlib
import A2a.ErrorDetails
import A2a.Rest

/-!
# A2a.CardSchema

The schema a card is validated against (`a2acli/src/card_schema.rs`).

A bundle names its definitions by words, and refers to them by the names of
types or of files.  `buildSchema` makes one document of it: every reference is
redirected to a key made of the letters and digits of the name, and every
definition stands under its key.

`Value.mapRefs` is the bundle with every reference renamed and nothing else
changed; `retargetRefs_eq` says that this is what the loop does.
-/

namespace A2a

/-! ## references in a value -/

/-- The reference an object is. -/
def refOf (fields : List (String × Value)) : Option String :=
  match fields.lookup "$ref" with
  | some (.string reference) => some reference
  | _ => none

/-- `Map::insert`. -/
def insertField (key : String) (v : Value) : List (String × Value) → List (String × Value)
  | [] => [(key, v)]
  | field :: fields =>
      if field.1 = key then (key, v) :: fields else field :: insertField key v fields

mutual

/-- All references in a value, at any depth. -/
def Value.refs : Value → List String
  | .array items => Value.refsOfItems items
  | .object fields => (refOf fields).toList ++ Value.refsOfFields fields
  | _ => []

def Value.refsOfItems : List Value → List String
  | [] => []
  | v :: items => v.refs ++ Value.refsOfItems items

def Value.refsOfFields : List (String × Value) → List String
  | [] => []
  | (_, v) :: fields => v.refs ++ Value.refsOfFields fields

end

mutual

/-- A value with its references renamed. -/
def Value.mapRefs (f : String → String) : Value → Value
  | .array items => .array (Value.mapRefsOfItems f items)
  | .object fields =>
      .object (match refOf fields with
        | some reference =>
            insertField "$ref" (.string (f reference)) (Value.mapRefsOfFields f fields)
        | none => Value.mapRefsOfFields f fields)
  | v => v

def Value.mapRefsOfItems (f : String → String) : List Value → List Value
  | [] => []
  | v :: items => v.mapRefs f :: Value.mapRefsOfItems f items

def Value.mapRefsOfFields (f : String → String) : List (String × Value) → List (String × Value)
  | [] => []
  | (key, v) :: fields => (key, v.mapRefs f) :: Value.mapRefsOfFields f fields

end

/-- The definitions of a schema, where it has them. -/
def Value.definitions (v : Value) : Option (List (String × Value)) :=
  v.asObject.bind fun fields => (fields.lookup "definitions").bind Value.asObject

/-! ## building the schema -/

/-- `normalise`: the letters and digits of a name, in lower case. -/
def normalise (name : String) : String :=
  String.ofList ((name.toList.filter Char.isAlphanum).map Char.toLower)

/-- The normalised keys, each with the definition that has it. -/
abbrev SchemaIndex := Finmap fun _ : String => String

/-- `AGENT_CARD`. -/
def agentCardName : String := "Agent Card"

/-- `#/definitions/` -/
def definitionsPointer : String := "#/definitions/"

/-- The name of the type a reference is to. -/
def typeName (reference : String) : String :=
  let name := (stripPrefix definitionsPointer reference).getD reference
  let base := (stripSuffix ".jsonschema.json" name).getD name
  String.ofList ((base.toList.splitOn '.').getLast?.getD [])

/-- `definition_key`. -/
def definitionKey (reference : String) (index : SchemaIndex) : Option String :=
  let key := normalise (typeName reference)
  if key ∈ index then some key else none

mutual

/-- `retarget_refs`: the node, and the references that could not be placed. -/
def retargetRefs (index : SchemaIndex) : Value → List String → Value × List String
  | .object fields, unresolved =>
      let reference := refOf fields
      let key := reference.bind (definitionKey · index)
      let unresolved := unresolved ++ if key.isNone then reference.toList else []
      -- what stands under `$ref` is a text, which the loop over the values leaves alone
      let rest := retargetFields index fields unresolved
      (.object (match key with
        | some key => insertField "$ref" (.string (definitionsPointer ++ key)) rest.1
        | none => rest.1), rest.2)
  | .array items, unresolved =>
      let rest := retargetItems index items unresolved
      (.array rest.1, rest.2)
  | node, unresolved => (node, unresolved)

def retargetItems (index : SchemaIndex) : List Value → List String → List Value × List String
  | [], unresolved => ([], unresolved)
  | item :: items, unresolved =>
      let first := retargetRefs index item unresolved
      let rest := retargetItems index items first.2
      (first.1 :: rest.1, rest.2)

def retargetFields (index : SchemaIndex) :
    List (String × Value) → List String → List (String × Value) × List String
  | [], unresolved => ([], unresolved)
  | (key, v) :: fields, unresolved =>
      let first := retargetRefs index v unresolved
      let rest := retargetFields index fields first.2
      ((key, first.1) :: rest.1, rest.2)

end

/-- The index of the definitions there are. -/
def indexOf (definitions : List (String × Value)) : SchemaIndex :=
  mapOfFields (definitions.map fun definition => (normalise definition.1, definition.1))

/-- The document over definitions, rehoused under their keys. -/
def schemaDocument (cardKey : String) (definitions : List (String × Value)) : Value :=
  let rehoused := mapOfFields (definitions.map fun d => (normalise d.1, d.2))
  .object
    [("$ref", .string (definitionsPointer ++ cardKey)),
      ("$schema", .string "https://json-schema.org/draft/2020-12/schema"),
      ("definitions", .object (sortedFields rehoused))]

/-- `build_schema`. -/
def buildSchema (bundle : Value) : Except String Value :=
  match bundle.definitions with
  | none => .error "vendored schema has no definitions"
  | some original =>
      let index := indexOf original
      let cardKey := normalise agentCardName
      if cardKey ∉ index then .error s!"vendored schema has no {agentCardName} definition"
      else
        let retargeted := retargetRefs index bundle []
        if retargeted.2 ≠ [] then
          .error ("vendored schema has unplaceable references: " ++
            ", ".intercalate (retargeted.2.mergeSort (· ≤ ·)).dedup)
        else
          match retargeted.1.definitions with
          | none => .error "vendored schema has no definitions"
          | some definitions => .ok (schemaDocument cardKey definitions)

/-! ## the loop -/

/-- What becomes of a reference. -/
def retargeted (index : SchemaIndex) (reference : String) : String :=
  match definitionKey reference index with
  | some key => definitionsPointer ++ key
  | none => reference

/-- A reference that names no definition. -/
def unplaceable (index : SchemaIndex) (reference : String) : Bool :=
  (definitionKey reference index).isNone

/-- Inserting what is there changes nothing. -/
theorem insertField_self {fields : List (String × Value)} {key : String} {v : Value}
    (h : fields.lookup key = some v) : insertField key v fields = fields := by
  induction fields with
  | nil => contradiction
  | cons field fields ih =>
      rw [List.lookup_cons] at h
      rw [insertField]
      by_cases hkey : field.1 = key
      · rw [hkey, beq_self_eq_true] at h
        cases h
        rw [if_pos hkey, ← hkey]
      · rw [beq_false_of_ne (Ne.symm hkey)] at h
        rw [if_neg hkey, ih h]

/-- What was inserted is found. -/
@[simp] theorem lookup_insertField (key : String) (v : Value) (fields : List (String × Value)) :
    (insertField key v fields).lookup key = some v := by
  induction fields with
  | nil => simp [insertField]
  | cons field fields ih =>
      rw [insertField]
      split
      · simp
      next hkey => rw [List.lookup_cons, beq_false_of_ne (Ne.symm hkey), ih]

/-- Other fields are found as before. -/
theorem lookup_insertField_of_ne {key other : String} (h : other ≠ key) (v : Value)
    (fields : List (String × Value)) :
    (insertField key v fields).lookup other = fields.lookup other := by
  induction fields with
  | nil => simp [insertField, h]
  | cons field fields ih =>
      rw [insertField]
      split
      next hkey =>
        rw [List.lookup_cons, List.lookup_cons, beq_false_of_ne h, hkey, beq_false_of_ne h]
      next => rw [List.lookup_cons, List.lookup_cons, ih]

/-- A field is found with its references renamed. -/
theorem lookup_mapRefsOfFields (f : String → String) (fields : List (String × Value)) (key : String) :
    (Value.mapRefsOfFields f fields).lookup key = (fields.lookup key).map (Value.mapRefs f) := by
  induction fields with
  | nil => rfl
  | cons field fields ih =>
      obtain ⟨name, v⟩ := field
      rw [Value.mapRefsOfFields, List.lookup_cons, List.lookup_cons]
      split
      · rfl
      · exact ih

/-- A reference is the text under `$ref`. -/
theorem lookup_of_refOf {fields : List (String × Value)} {reference : String}
    (h : refOf fields = some reference) : fields.lookup "$ref" = some (.string reference) := by
  unfold refOf at h
  split at h
  next hfound =>
    cases h
    exact hfound
  next => contradiction

mutual

/-- **The loop renames every reference and changes nothing else**, and puts
aside the references it cannot place. -/
theorem retargetRefs_eq (index : SchemaIndex) (node : Value) (unresolved : List String) :
    retargetRefs index node unresolved =
      (node.mapRefs (retargeted index), unresolved ++ node.refs.filter (unplaceable index)) := by
  cases node with
  | object fields =>
      have hfields := fun unresolved => retargetFields_eq index fields unresolved
      rw [retargetRefs, Value.mapRefs, Value.refs, hfields]
      cases hown : refOf fields with
      | none => simp
      | some reference =>
          cases hkey : definitionKey reference index with
          | some key => simp [hkey, retargeted, unplaceable]
          | none =>
              have hsame : (Value.mapRefsOfFields (retargeted index) fields).lookup "$ref" =
                  some (.string reference) := by
                rw [lookup_mapRefsOfFields, lookup_of_refOf hown]
                rfl
              simp [hkey, retargeted, unplaceable, insertField_self hsame]
  | array items =>
      have hitems := fun unresolved => retargetItems_eq index items unresolved
      rw [retargetRefs, Value.mapRefs, Value.refs, hitems]
  | _ => simp [retargetRefs, Value.mapRefs, Value.refs]

theorem retargetItems_eq (index : SchemaIndex) (items : List Value) (unresolved : List String) :
    retargetItems index items unresolved = (Value.mapRefsOfItems (retargeted index) items,
      unresolved ++ (Value.refsOfItems items).filter (unplaceable index)) := by
  cases items with
  | nil => simp [retargetItems, Value.mapRefsOfItems, Value.refsOfItems]
  | cons item items =>
      have hitem := fun unresolved => retargetRefs_eq index item unresolved
      have hitems := fun unresolved => retargetItems_eq index items unresolved
      simp [retargetItems, Value.mapRefsOfItems, Value.refsOfItems, hitem, hitems]

theorem retargetFields_eq (index : SchemaIndex) (fields : List (String × Value))
    (unresolved : List String) :
    retargetFields index fields unresolved = (Value.mapRefsOfFields (retargeted index) fields,
      unresolved ++ (Value.refsOfFields fields).filter (unplaceable index)) := by
  cases fields with
  | nil => simp [retargetFields, Value.mapRefsOfFields, Value.refsOfFields]
  | cons field fields =>
      obtain ⟨key, v⟩ := field
      have hvalue := fun unresolved => retargetRefs_eq index v unresolved
      have hfields := fun unresolved => retargetFields_eq index fields unresolved
      simp [retargetFields, Value.mapRefsOfFields, Value.refsOfFields, hvalue, hfields]

end

/-! ## its result -/

/-- A text in the place of another holds no reference, as that did not. -/
theorem refsOfFields_insertField {fields : List (String × Value)} {key old : String} (new : String)
    (h : fields.lookup key = some (.string old)) :
    Value.refsOfFields (insertField key (.string new) fields) = Value.refsOfFields fields := by
  induction fields with
  | nil => contradiction
  | cons field fields ih =>
      obtain ⟨name, v⟩ := field
      rw [List.lookup_cons] at h
      rw [insertField]
      by_cases hkey : name = key
      · rw [hkey, beq_self_eq_true] at h
        cases h
        simp [hkey, Value.refsOfFields, Value.refs]
      · rw [beq_false_of_ne (Ne.symm hkey)] at h
        rw [if_neg hkey, Value.refsOfFields, Value.refsOfFields, ih h]

/-- A value that is no text becomes none. -/
theorem refOf_mapRefsOfFields {fields : List (String × Value)} (f : String → String)
    (h : refOf fields = none) : refOf (Value.mapRefsOfFields f fields) = none := by
  unfold refOf at h ⊢
  rw [lookup_mapRefsOfFields]
  cases hfound : fields.lookup "$ref" with
  | none => rfl
  | some v =>
      rw [hfound] at h
      cases v with
      | string reference => contradiction
      | object fields => simp [Value.mapRefs]
      | array items => simp [Value.mapRefs]
      | _ => rfl

mutual

/-- Renaming renames every reference, in place. -/
theorem refs_mapRefs (f : String → String) (v : Value) : (v.mapRefs f).refs = v.refs.map f := by
  cases v with
  | object fields =>
      have hfields := refsOfFields_mapRefs f fields
      rw [Value.mapRefs, Value.refs, Value.refs, List.map_append, ← hfields]
      cases hown : refOf fields with
      | none => simp [refOf_mapRefsOfFields f hown]
      | some reference =>
          have htext : (Value.mapRefsOfFields f fields).lookup "$ref" = some (.string reference) := by
            rw [lookup_mapRefsOfFields, lookup_of_refOf hown]
            rfl
          simp [refOf, refsOfFields_insertField _ htext]
  | array items =>
      have hitems := refsOfItems_mapRefs f items
      rw [Value.mapRefs, Value.refs, Value.refs, hitems]
  | _ => rfl

theorem refsOfItems_mapRefs (f : String → String) (items : List Value) :
    Value.refsOfItems (Value.mapRefsOfItems f items) = (Value.refsOfItems items).map f := by
  cases items with
  | nil => rfl
  | cons v items =>
      rw [Value.mapRefsOfItems, Value.refsOfItems, Value.refsOfItems, List.map_append,
        refs_mapRefs f v, refsOfItems_mapRefs f items]

theorem refsOfFields_mapRefs (f : String → String) (fields : List (String × Value)) :
    Value.refsOfFields (Value.mapRefsOfFields f fields) = (Value.refsOfFields fields).map f := by
  cases fields with
  | nil => rfl
  | cons field fields =>
      obtain ⟨key, v⟩ := field
      rw [Value.mapRefsOfFields, Value.refsOfFields, Value.refsOfFields, List.map_append,
        refs_mapRefs f v, refsOfFields_mapRefs f fields]

end

/-- A reference of a field is one of the object. -/
theorem mem_refsOfFields {fields : List (String × Value)} {key reference : String} {v : Value}
    (hv : (key, v) ∈ fields) (h : reference ∈ v.refs) : reference ∈ Value.refsOfFields fields := by
  induction fields with
  | nil => contradiction
  | cons field fields ih =>
      obtain ⟨name, w⟩ := field
      rw [Value.refsOfFields, List.mem_append]
      rcases List.mem_cons.mp hv with heq | hv
      · cases heq
        exact .inl h
      · exact .inr (ih hv)

/-- A reference of an object is one of some field. -/
theorem exists_of_mem_refsOfFields {fields : List (String × Value)} {reference : String}
    (h : reference ∈ Value.refsOfFields fields) :
    ∃ key v, (key, v) ∈ fields ∧ reference ∈ v.refs := by
  induction fields with
  | nil => contradiction
  | cons field fields ih =>
      obtain ⟨name, w⟩ := field
      rw [Value.refsOfFields, List.mem_append] at h
      rcases h with h | h
      · exact ⟨name, w, List.mem_cons_self, h⟩
      · obtain ⟨key, v, hv, h⟩ := ih h
        exact ⟨key, v, List.mem_cons_of_mem _ hv, h⟩

/-! ## what is built -/

/-- The definitions are renamed with the rest. -/
theorem definitions_mapRefs (f : String → String) (v : Value) :
    (v.mapRefs f).definitions = v.definitions.bind fun definitions =>
      ((Value.object definitions).mapRefs f).asObject := by
  cases v with
  | object fields =>
      have hkept : ∀ reference, (insertField "$ref" (.string (f reference))
          (Value.mapRefsOfFields f fields)).lookup "definitions" =
            (Value.mapRefsOfFields f fields).lookup "definitions" :=
        fun reference => lookup_insertField_of_ne (by decide) _ _
      have hlookup : ∀ fields', fields'.lookup "definitions" =
          (fields.lookup "definitions").map (Value.mapRefs f) →
            (Value.object fields').definitions = (Value.object fields).definitions.bind
              fun definitions => ((Value.object definitions).mapRefs f).asObject := by
        intro fields' hsame
        simp only [Value.definitions, Value.asObject, Option.bind_some, hsame]
        cases fields.lookup "definitions" with
        | none => rfl
        | some w => cases w <;> simp [Value.asObject, Value.mapRefs]
      rw [Value.mapRefs]
      apply hlookup
      split
      · rw [hkept, lookup_mapRefsOfFields]
      · rw [lookup_mapRefsOfFields]
  | array items => simp [Value.definitions, Value.mapRefs, Value.asObject]
  | _ => rfl

/-- The index has the keys of the definitions. -/
theorem mem_indexOf {definitions : List (String × Value)} {key : String} :
    key ∈ indexOf definitions ↔ ∃ d ∈ definitions, normalise d.1 = key := by
  rw [indexOf, ← Finmap.lookup_isSome, lookup_mapOfFields, List.lookup_isSome_iff]
  constructor
  · rintro ⟨entry, hentry, hkey⟩
    obtain ⟨d, hd, rfl⟩ := List.mem_map.mp (List.mem_reverse.mp hentry)
    exact ⟨d, hd, (beq_iff_eq.mp hkey).symm⟩
  · rintro ⟨d, hd, rfl⟩
    exact ⟨_, List.mem_reverse.mpr (List.mem_map_of_mem hd), beq_self_eq_true _⟩

/-- A reference to a definition there is. -/
def Placeable (definitions : List (String × Value)) (reference : String) : Prop :=
  ∃ d ∈ definitions, normalise d.1 = normalise (typeName reference)

/-- A reference cannot be placed if it names no definition. -/
theorem unplaceable_indexOf {definitions : List (String × Value)} {reference : String} :
    unplaceable (indexOf definitions) reference = true ↔ ¬ Placeable definitions reference := by
  rw [unplaceable, definitionKey, Placeable, ← mem_indexOf]
  by_cases hkey : normalise (typeName reference) ∈ indexOf definitions
  · simp [hkey]
  · simp [hkey]

/-- The definition last written under a key. -/
def lastNamed (key : String) (definitions : List (String × Value)) : Option Value :=
  (definitions.reverse.find? fun d => normalise d.1 = key).map Prod.snd

/-- Under a key is the last definition of it. -/
theorem lookup_rehoused (definitions : List (String × Value)) (key : String) :
    (sortedFields (mapOfFields (definitions.map fun d => (normalise d.1, d.2)))).lookup key =
      lastNamed key definitions := by
  rw [lookup_sortedFields, lookup_mapOfFields, ← List.map_reverse, lastNamed]
  induction definitions.reverse with
  | nil => rfl
  | cons d rest ih =>
      rw [List.map_cons, List.lookup_cons, List.find?_cons]
      by_cases hkey : normalise d.1 = key
      · simp [hkey]
      · rw [beq_false_of_ne (Ne.symm hkey), decide_eq_false hkey]
        exact ih

/-- Keys are letters and digits. -/
theorem normalise_chars (name : String) :
    ∀ c ∈ (normalise name).toList, c.isLower = true ∨ c.isDigit = true := by
  intro c hc
  rw [normalise, String.toList_ofList] at hc
  obtain ⟨d, hd, rfl⟩ := List.mem_map.mp hc
  have halnum := (List.mem_filter.mp hd).2
  have hascii : ∀ i : Fin 128, (Char.ofNat i.val).isAlphanum = true →
      (Char.ofNat i.val).toLower.isLower = true ∨ (Char.ofNat i.val).toLower.isDigit = true := by
    decide
  have hlt : d.toNat < 128 := by
    simp only [Char.isAlphanum, Char.isAlpha, Char.isUpper, Char.isLower, Char.isDigit,
      Bool.or_eq_true, Bool.and_eq_true, decide_eq_true_eq, ge_iff_le, UInt32.le_iff_toNat_le] at halnum
    have hvalue : d.toNat = d.val.toNat := rfl
    rw [hvalue]
    simp at halnum
    omega
  have hd := hascii ⟨d.toNat, hlt⟩
  rw [Char.ofNat_toNat] at hd
  exact hd halnum

/-- A schema that stands by itself: its references are to its own definitions,
and these are the bundle's, with references renamed. -/
structure SelfContained (bundle document : Value) (definitions : List (String × Value)) : Prop where
  root : ∃ fields, document = .object fields ∧
    refOf fields = some (definitionsPointer ++ normalise agentCardName)
  closed : ∀ reference ∈ document.refs, ∃ key schemas schema,
    reference = definitionsPointer ++ key ∧ (∀ c ∈ key.toList, c.isLower = true ∨ c.isDigit = true) ∧
      document.definitions = some schemas ∧ schemas.lookup key = some schema
  kept : ∃ schemas renamed, document.definitions = some schemas ∧
    (bundle.mapRefs (retargeted (indexOf definitions))).definitions = some renamed ∧
      ∀ key, schemas.lookup key = lastNamed key renamed

/-- A key is no keyword. -/
theorem refOf_rehoused (definitions : List (String × Value)) :
    refOf (sortedFields (mapOfFields (definitions.map fun d => (normalise d.1, d.2)))) = none := by
  unfold refOf
  rw [lookup_rehoused, lastNamed]
  have hnone : definitions.reverse.find? (fun d => normalise d.1 = "$ref") = none := by
    rw [List.find?_eq_none]
    intro d _ hkey
    have hdollar := normalise_chars d.1 '$' (by rw [of_decide_eq_true hkey]; decide)
    revert hdollar
    decide
  rw [hnone]
  rfl

/-- The document refers to the card, and to what the definitions refer to. -/
theorem refs_schemaDocument (cardKey : String) (definitions : List (String × Value)) :
    (schemaDocument cardKey definitions).refs = (definitionsPointer ++ cardKey) ::
      Value.refsOfFields (sortedFields (mapOfFields (definitions.map fun d => (normalise d.1, d.2)))) := by
  have hroot : refOf [("$ref", .string (definitionsPointer ++ cardKey)),
      ("$schema", .string "https://json-schema.org/draft/2020-12/schema"),
      ("definitions", .object (sortedFields (mapOfFields
        (definitions.map fun d => (normalise d.1, d.2)))))] = some (definitionsPointer ++ cardKey) := by
    simp [refOf]
  simp [schemaDocument, Value.refs, Value.refsOfFields, hroot, refOf_rehoused]

/-- The definitions of the document. -/
theorem definitions_schemaDocument (cardKey : String) (definitions : List (String × Value)) :
    (schemaDocument cardKey definitions).definitions =
      some (sortedFields (mapOfFields (definitions.map fun d => (normalise d.1, d.2)))) := by
  rfl

/-- References of the rehoused definitions are references of the bundle. -/
theorem mem_refs_of_rehoused {bundle : Value} {definitions : List (String × Value)}
    {reference : String} (hdefinitions : bundle.definitions = some definitions)
    (h : reference ∈ Value.refsOfFields
      (sortedFields (mapOfFields (definitions.map fun d => (normalise d.1, d.2))))) :
    reference ∈ bundle.refs := by
  obtain ⟨key, v, hv, hmem⟩ := exists_of_mem_refsOfFields h
  have hlast : lastNamed key definitions = some v := by
    rw [sortedFields] at hv
    obtain ⟨key', _, hentry⟩ := List.mem_filterMap.mp hv
    obtain ⟨w, hw, heq⟩ := Option.map_eq_some_iff.mp hentry
    cases heq
    rw [← lookup_rehoused, lookup_sortedFields, hw]
  obtain ⟨d, hd, rfl⟩ := Option.map_eq_some_iff.mp hlast
  have hwithin : reference ∈ Value.refsOfFields definitions :=
    mem_refsOfFields (List.mem_reverse.mp (List.mem_of_find?_eq_some hd)) hmem
  obtain ⟨fields, hfields, hfound⟩ := Option.bind_eq_some_iff.mp hdefinitions
  obtain ⟨w, hw, hobject⟩ := Option.bind_eq_some_iff.mp hfound
  cases bundle with
  | object fields' =>
      cases hfields
      cases w with
      | object definitions' =>
          cases hobject
          obtain ⟨before, after, rfl, _⟩ := List.lookup_eq_some_iff.mp hw
          rw [Value.refs]
          refine List.mem_append_right _ (mem_refsOfFields
            (List.mem_append_right _ List.mem_cons_self) ?_)
          rw [Value.refs]
          exact List.mem_append_right _ hwithin
      | _ => contradiction
  | _ => contradiction

theorem names_insertField {fields : List (String × Value)} {key : String} {old : Value} (new : Value)
    (h : fields.lookup key = some old) :
    (insertField key new fields).map Prod.fst = fields.map Prod.fst := by
  induction fields with
  | nil => contradiction
  | cons field fields ih =>
      rw [List.lookup_cons] at h
      rw [insertField]
      by_cases hkey : field.1 = key
      · rw [if_pos hkey, List.map_cons, List.map_cons, hkey]
      · rw [beq_false_of_ne (Ne.symm hkey)] at h
        rw [if_neg hkey, List.map_cons, List.map_cons, ih h]

/-- Renaming references renames no field. -/
theorem names_mapRefsOfFields (f : String → String) (fields : List (String × Value)) :
    (Value.mapRefsOfFields f fields).map Prod.fst = fields.map Prod.fst := by
  induction fields with
  | nil => rfl
  | cons field fields ih =>
      obtain ⟨key, v⟩ := field
      rw [Value.mapRefsOfFields, List.map_cons, List.map_cons, ih]

/-- Renamed definitions have the names they had. -/
theorem names_definitions {bundle : Value} {definitions renamed : List (String × Value)}
    {f : String → String} (hdefinitions : bundle.definitions = some definitions)
    (hrenamed : (bundle.mapRefs f).definitions = some renamed) :
    renamed.map Prod.fst = definitions.map Prod.fst := by
  rw [definitions_mapRefs, hdefinitions, Option.bind_some, Value.mapRefs] at hrenamed
  cases hown : refOf definitions with
  | none =>
      rw [hown] at hrenamed
      cases hrenamed
      exact names_mapRefsOfFields f definitions
  | some reference =>
      rw [hown] at hrenamed
      cases hrenamed
      have htext : (Value.mapRefsOfFields f definitions).lookup "$ref" =
          some ((Value.string reference).mapRefs f) := by
        rw [lookup_mapRefsOfFields, lookup_of_refOf hown, Option.map_some]
      rw [names_insertField _ htext, names_mapRefsOfFields]

/-- A key of some definition has a last one. -/
theorem exists_lastNamed {definitions : List (String × Value)} {key : String}
    (h : ∃ d ∈ definitions, normalise d.1 = key) : ∃ schema, lastNamed key definitions = some schema := by
  obtain ⟨d, hd, hkey⟩ := h
  cases hfound : definitions.reverse.find? fun d => normalise d.1 = key with
  | none =>
      have hnone := List.find?_eq_none.mp hfound d (List.mem_reverse.mpr hd)
      exact absurd (decide_eq_true hkey) hnone
  | some d => exact ⟨d.2, by rw [lastNamed, hfound]; rfl⟩

/-- The document of placed references is closed. -/
theorem selfContained_of_placed {bundle : Value} {definitions renamed : List (String × Value)}
    (hdefinitions : bundle.definitions = some definitions)
    (hcard : normalise agentCardName ∈ indexOf definitions)
    (hplaced : ∀ reference ∈ bundle.refs, Placeable definitions reference)
    (hrenamed : (bundle.mapRefs (retargeted (indexOf definitions))).definitions = some renamed) :
    SelfContained bundle (schemaDocument (normalise agentCardName) renamed) definitions := by
  have hdefined : ∀ key, (∃ d ∈ definitions, normalise d.1 = key) →
      ∃ schema, lastNamed key renamed = some schema := by
    rintro key ⟨d, hd, hkey⟩
    have hname : d.1 ∈ renamed.map Prod.fst := by
      rw [names_definitions hdefinitions hrenamed]
      exact List.mem_map_of_mem hd
    obtain ⟨d', hd', hsame⟩ := List.mem_map.mp hname
    exact exists_lastNamed ⟨d', hd', by rw [hsame, hkey]⟩
  have hkeyed : ∀ name, (∃ d ∈ definitions, normalise d.1 = normalise name) →
      ∃ key schemas schema, definitionsPointer ++ normalise name = definitionsPointer ++ key ∧
        (∀ c ∈ key.toList, c.isLower = true ∨ c.isDigit = true) ∧
          (schemaDocument (normalise agentCardName) renamed).definitions = some schemas ∧
            schemas.lookup key = some schema := by
    intro name hname
    obtain ⟨schema, hschema⟩ := hdefined _ hname
    exact ⟨_, _, schema, rfl, normalise_chars name, definitions_schemaDocument _ _,
      (lookup_rehoused _ _).trans hschema⟩
  refine ⟨⟨_, rfl, ?_⟩, fun reference hreference => ?_, _, renamed, definitions_schemaDocument _ _,
    hrenamed, lookup_rehoused _⟩
  · simp [refOf]
  rw [refs_schemaDocument, List.mem_cons] at hreference
  rcases hreference with rfl | hwithin
  · exact hkeyed agentCardName (mem_indexOf.mp hcard)
  · have hmem := mem_refs_of_rehoused hrenamed hwithin
    rw [refs_mapRefs] at hmem
    obtain ⟨original, horiginal, rfl⟩ := List.mem_map.mp hmem
    have hdefinition := hplaced original horiginal
    have hkey : definitionKey original (indexOf definitions) = some (normalise (typeName original)) :=
      if_pos (mem_indexOf.mpr hdefinition)
    rw [retargeted, hkey]
    exact hkeyed (typeName original) hdefinition

/-- **The schema stands by itself**: what is built of a bundle refers to its own
definitions only, under keys of letters and digits, and these are the bundle's,
the last of a key, with references renamed and nothing else changed.  It is
built if the bundle defines the card and all it refers to.  Else the error says
that the card is not defined, or, if it is, names every reference that is not,
each once. -/
theorem schema_selfContained (bundle : Value) (definitions : List (String × Value))
    (hdefinitions : bundle.definitions = some definitions) :
    (∀ document, buildSchema bundle = .ok document → SelfContained bundle document definitions) ∧
      ((∃ document, buildSchema bundle = .ok document) ↔
        (∃ d ∈ definitions, normalise d.1 = normalise agentCardName) ∧
          ∀ reference ∈ bundle.refs, Placeable definitions reference) ∧
      ((∃ d ∈ definitions, normalise d.1 = normalise agentCardName) →
        ∀ message, buildSchema bundle = .error message → ∃ names : List String,
          message = "vendored schema has unplaceable references: " ++ ", ".intercalate names ∧
            names.Nodup ∧ ∀ reference, reference ∈ names ↔
              reference ∈ bundle.refs ∧ ¬ Placeable definitions reference) ∧
      (¬ (∃ d ∈ definitions, normalise d.1 = normalise agentCardName) →
        buildSchema bundle = .error "vendored schema has no Agent Card definition") := by
  have hretargeted := retargetRefs_eq (indexOf definitions) bundle []
  have hplaced : bundle.refs.filter (unplaceable (indexOf definitions)) = [] ↔
      ∀ reference ∈ bundle.refs, Placeable definitions reference := by
    rw [List.filter_eq_nil_iff]
    simp only [unplaceable_indexOf, not_not]
  obtain ⟨renamed, hrenamed⟩ : ∃ renamed,
      (bundle.mapRefs (retargeted (indexOf definitions))).definitions = some renamed := by
    rw [definitions_mapRefs, hdefinitions, Option.bind_some, Value.mapRefs]
    exact ⟨_, rfl⟩
  unfold buildSchema
  simp only [hdefinitions, hretargeted, List.nil_append, hrenamed]
  by_cases hcard : normalise agentCardName ∈ indexOf definitions
  · have hdefined := mem_indexOf.mp hcard
    rw [if_neg (not_not.mpr hcard)]
    by_cases hall : ∀ reference ∈ bundle.refs, Placeable definitions reference
    · rw [if_neg (not_not.mpr (hplaced.mpr hall))]
      refine ⟨fun document hdocument => ?_, ⟨fun _ => ⟨hdefined, hall⟩, fun _ => ⟨_, rfl⟩⟩,
        fun _ message herror => (by cases herror), fun hundefined => absurd hdefined hundefined⟩
      cases hdocument
      exact selfContained_of_placed hdefinitions hcard hall hrenamed
    · rw [if_pos (mt hplaced.mp hall)]
      refine ⟨fun document hdocument => (by cases hdocument), ⟨?_, fun h => absurd h.2 hall⟩, ?_,
        fun hundefined => absurd hdefined hundefined⟩
      · rintro ⟨document, hdocument⟩
        contradiction
      · intro _ message herror
        cases herror
        refine ⟨_, rfl, List.nodup_dedup _, fun reference => ?_⟩
        rw [List.mem_dedup, List.mem_mergeSort, List.mem_filter, unplaceable_indexOf]
  · rw [if_pos hcard]
    have hundefined := mt mem_indexOf.mpr hcard
    refine ⟨fun document hdocument => (by cases hdocument), ⟨?_, fun h => absurd h.1 hundefined⟩,
      fun h => absurd h hundefined, fun _ => rfl⟩
    rintro ⟨document, hdocument⟩
    contradiction

/-- A card and a skill that refer to each other, as files and as definitions. -/
def skillDefinitions : List (String × Value) :=
  [("Agent Card", .object [("$ref", .string "a2a.v1.AgentSkill.jsonschema.json")]),
    ("Agent Skill", .object [("$ref", .string "#/definitions/Agent Card")])]

theorem schema_selfContained_skill :
    ∃ document, buildSchema (.object [("definitions", .object skillDefinitions)]) = .ok document ∧
      SelfContained (.object [("definitions", .object skillDefinitions)]) document
        skillDefinitions := by
  obtain ⟨hclosed, hbuilt, _⟩ := schema_selfContained
    (.object [("definitions", .object skillDefinitions)]) skillDefinitions rfl
  have hrefs : (Value.object [("definitions", .object skillDefinitions)]).refs =
      ["a2a.v1.AgentSkill.jsonschema.json", "#/definitions/Agent Card"] := rfl
  have hskill : normalise "Agent Skill" = normalise (typeName "a2a.v1.AgentSkill.jsonschema.json") := by
    decide
  have hcard : normalise "Agent Card" = normalise (typeName "#/definitions/Agent Card") := by decide
  obtain ⟨document, hdocument⟩ := hbuilt.mpr ⟨⟨_, List.mem_cons_self, rfl⟩, by
    rw [hrefs, List.forall_mem_cons, List.forall_mem_singleton]
    exact ⟨⟨_, List.mem_cons_of_mem _ List.mem_cons_self, hskill⟩, ⟨_, List.mem_cons_self, hcard⟩⟩⟩
  exact ⟨document, hdocument, hclosed document hdocument⟩

end A2a
