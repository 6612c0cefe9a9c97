import A2a.Types
import Mathlib.Data.Finset.Sort

/-!
# A2a.ErrorDetails

Typed error details (`a2a/src/errordetails.rs`) and the JSON objects they
are written as.  An object lists its entries in the order of their keys
(`sortedFields`), and reading the list gives the map back
(`mapOfFields_sortedFields`).

A detail's type travels under the key `@type` beside its own entries, so a
detail arrives as it is unless it has an entry of that name
(`TypedDetail.fromValue_toValue`).
-/

namespace A2a

/-! ## objects -/

section Objects

variable {α : Type}

/-- The entries of a map in the order of their keys. -/
def sortedFields (m : Finmap fun _ : String => α) : List (String × α) :=
  (m.keys.sort (· ≤ ·)).filterMap fun k => (m.lookup k).map (k, ·)

/-- A map read from a list of entries, the last of a key winning. -/
def mapOfFields (fields : List (String × α)) : Finmap fun _ : String => α :=
  fields.foldl (fun m field => m.insert field.1 field.2) ∅

/-- Inserting a map's entries one by one overwrites what was under their
keys. -/
theorem lookup_insertFields (m : Finmap fun _ : String => α) (keys : List String) (k : String)
    (start : Finmap fun _ : String => α) :
    ((keys.filterMap fun k => (m.lookup k).map (k, ·)).foldl
      (fun m field => m.insert field.1 field.2) start).lookup k =
        if k ∈ keys ∧ (m.lookup k).isSome then m.lookup k else start.lookup k := by
  induction keys generalizing start with
  | nil => simp
  | cons key keys ih =>
      cases hkey : m.lookup key with
      | none =>
          rw [List.filterMap_cons_none (by rw [hkey]; rfl), ih]
          by_cases hk : k = key
          · subst hk
            simp [hkey]
          · simp [hk]
      | some v =>
          rw [List.filterMap_cons_some (by rw [hkey]; rfl), List.foldl_cons, ih]
          by_cases hk : k = key
          · subst hk
            simp [hkey]
          · simp [hk, Finmap.lookup_insert_of_ne _ hk]

/-- **Reading what was written gives the map back.** -/
theorem mapOfFields_sortedFields (m : Finmap fun _ : String => α) :
    mapOfFields (sortedFields m) = m := by
  apply Finmap.ext_lookup
  intro k
  rw [mapOfFields, sortedFields, lookup_insertFields, Finmap.lookup_empty]
  cases hk : m.lookup k with
  | none => exact if_neg fun h => Bool.false_ne_true h.2
  | some v =>
      have hmem : k ∈ m.keys.sort (· ≤ ·) := by
        rw [Finset.mem_sort, Finmap.mem_keys, ← Finmap.lookup_isSome, hk]
        rfl
      exact if_pos ⟨hmem, rfl⟩

/-- The last of a key wins. -/
theorem lookup_mapOfFields (fields : List (String × α)) (k : String) :
    (mapOfFields fields).lookup k = fields.reverse.lookup k := by
  induction fields using List.reverseRecOn with
  | nil => rfl
  | append_singleton fields field ih =>
      have hlast : mapOfFields (fields ++ [field]) = (mapOfFields fields).insert field.1 field.2 := by
        rw [mapOfFields, List.foldl_append]
        rfl
      rw [hlast, List.reverse_append, List.reverse_singleton, List.singleton_append]
      by_cases hk : k = field.1
      · subst hk
        rw [Finmap.lookup_insert, List.lookup_cons_self]
      · have hfalse : (k == field.1) = false := beq_false_of_ne hk
        rw [Finmap.lookup_insert_of_ne _ hk, List.lookup_cons, hfalse, ih]

/-- A list reads by key as the map it was written for. -/
theorem lookup_sortedFields (m : Finmap fun _ : String => α) (k : String) :
    (sortedFields m).lookup k = m.lookup k := by
  have hwritten (keys : List String) :
      (keys.filterMap fun k => (m.lookup k).map (k, ·)).lookup k =
        if k ∈ keys then m.lookup k else none := by
    induction keys with
    | nil => rfl
    | cons key keys ih =>
        cases hkey : m.lookup key with
        | none =>
            rw [List.filterMap_cons_none (by rw [hkey]; rfl), ih]
            by_cases hk : k = key
            · subst hk
              simp [hkey]
            · simp [hk]
        | some v =>
            rw [List.filterMap_cons_some (by rw [hkey]; rfl)]
            by_cases hk : k = key
            · subst hk
              simp [hkey]
            · have hfalse : (k == key) = false := beq_false_of_ne hk
              simp [List.lookup_cons, hfalse, ih, hk]
  rw [sortedFields, hwritten]
  by_cases hk : k ∈ m.keys.sort (· ≤ ·)
  · rw [if_pos hk]
  · rw [if_neg hk, eq_comm, Finmap.lookup_eq_none]
    intro hmem
    apply hk
    rw [Finset.mem_sort, Finmap.mem_keys]
    exact hmem

theorem mem_sortedFields {m : Finmap fun _ : String => α} {k : String} {v : α} :
    (k, v) ∈ sortedFields m ↔ m.lookup k = some v := by
  rw [sortedFields, List.mem_filterMap]
  constructor
  · rintro ⟨key, -, hkey⟩
    obtain ⟨w, hw, heq⟩ := Option.map_eq_some_iff.mp hkey
    cases heq
    exact hw
  · intro h
    refine ⟨k, ?_, by rw [h]; rfl⟩
    rw [Finset.mem_sort, Finmap.mem_keys, ← Finmap.lookup_isSome, h]
    rfl

end Objects

namespace Value

/-- `Value::get`. -/
def get (v : Value) (key : String) : Option Value :=
  match v with
  | .object fields => fields.lookup key
  | _ => none

/-- `Value::as_str`. -/
def asStr : Value → Option String
  | .string s => some s
  | _ => none

/-- `Value::as_array`. -/
def asArray : Value → Option (List Value)
  | .array vs => some vs
  | _ => none

/-- `Value::as_object`. -/
def asObject : Value → Option (List (String × Value))
  | .object fields => some fields
  | _ => none

end Value

/-! ## details -/

def errorInfoType : String := "type.googleapis.com/google.rpc.ErrorInfo"

def badRequestType : String := "type.googleapis.com/google.rpc.BadRequest"

def structType : String := "type.googleapis.com/google.protobuf.Struct"

def protocolDomain : String := "a2a-protocol.org"

/-- An error in one field of a request. -/
structure FieldViolation where
  field : String
  description : String

def FieldViolation.toValue (v : FieldViolation) : Value :=
  .object [("description", .string v.description), ("field", .string v.field)]

/-- The violation a JSON value stands for: both of its texts are needed. -/
def FieldViolation.read (v : Value) : Option FieldViolation :=
  match (v.get "field").bind Value.asStr, (v.get "description").bind Value.asStr with
  | some field, some description => some ⟨field, description⟩
  | _, _ => none

theorem FieldViolation.read_toValue (v : FieldViolation) : read v.toValue = some v := rfl

namespace TypedDetail

/-- `TypedDetail::error_info`. -/
def errorInfo (reason domain : String) (metadata : Option (Finmap fun _ : String => String)) :
    TypedDetail where
  typeUrl := errorInfoType
  value :=
    let value : Metadata :=
      ((∅ : Metadata).insert "reason" (.string reason)).insert "domain" (.string domain)
    match metadata with
    | some metadata =>
        value.insert "metadata" (.object ((sortedFields metadata).map fun e => (e.1, .string e.2)))
    | none => value

/-- `TypedDetail::bad_request`. -/
def badRequest (violations : List FieldViolation) : TypedDetail where
  typeUrl := badRequestType
  value := (∅ : Metadata).insert "fieldViolations" (.array (violations.map FieldViolation.toValue))

/-- `TypedDetail::from_struct`. -/
def fromStruct (fields : Metadata) : TypedDetail := ⟨structType, fields⟩

/-- The violations a detail lists, those that can be read. -/
def violations (detail : TypedDetail) : List FieldViolation :=
  match (detail.value.lookup "fieldViolations").bind Value.asArray with
  | some violations => violations.filterMap FieldViolation.read
  | none => []

theorem violations_badRequest (violations : List FieldViolation) :
    (badRequest violations).violations = violations := by
  rw [TypedDetail.violations, badRequest, Finmap.lookup_insert]
  show (violations.map FieldViolation.toValue).filterMap FieldViolation.read = violations
  rw [List.filterMap_map]
  exact (List.filterMap_congr fun v _ => v.read_toValue).trans List.filterMap_some

/-- The entries `TypedDetail::serialize` writes; one of the detail's own
replaces the type. -/
def entries (detail : TypedDetail) : Metadata :=
  detail.value ∪ Finmap.singleton "@type" (.string detail.typeUrl)

/-- `TypedDetail::serialize`. -/
def toValue (detail : TypedDetail) : Value := .object (sortedFields detail.entries)

/-- `TypedDetail::deserialize`. -/
def fromValue : Value → Option TypedDetail
  | .object fields =>
      let map : Metadata := mapOfFields fields
      some ⟨((map.lookup "@type").bind Value.asStr).getD structType, map.erase "@type"⟩
  | _ => none

/-- What arrives of a detail. -/
def arrived (detail : TypedDetail) : TypedDetail :=
  ⟨((detail.entries.lookup "@type").bind Value.asStr).getD structType, detail.entries.erase "@type"⟩

theorem fromValue_toValue (detail : TypedDetail) :
    fromValue detail.toValue = some detail.arrived := by
  simp only [toValue, fromValue, mapOfFields_sortedFields]
  rfl

/-- A detail arrives as it is if none of its entries passes for its type. -/
theorem arrived_eq {detail : TypedDetail} (h : detail.value.lookup "@type" = none) :
    detail.arrived = detail := by
  have hmem : "@type" ∉ detail.value := by
    rw [← Finmap.lookup_eq_none]
    exact h
  have htype : detail.entries.lookup "@type" = some (.string detail.typeUrl) := by
    rw [entries, Finmap.lookup_union_right hmem, Finmap.lookup_singleton_eq]
  have hvalue : detail.entries.erase "@type" = detail.value := by
    apply Finmap.ext_lookup
    intro k
    by_cases hk : k = "@type"
    · subst hk
      rw [Finmap.lookup_erase, h]
    · rw [Finmap.lookup_erase_ne hk, entries]
      by_cases hin : k ∈ detail.value
      · rw [Finmap.lookup_union_left hin]
      · rw [Finmap.lookup_union_right hin, Finmap.lookup_eq_none.mpr hin, Finmap.lookup_eq_none,
          Finmap.mem_singleton]
        exact hk
  rw [arrived, htype, hvalue]
  rfl

end TypedDetail

end A2a
