import A2a.ErrorDetails

/-!
# A2a.Json

Typed values as JSON values, the way `serde` derives it.

A `Json α` writes a value and reads it back.  A struct is an object of its
fields, absent ones left out (`Value.struct`).  It is read by key, from an
object or from an array of its fields in order (`structFields`), with a
reader for each kind of field: `readRequired`, `readOptional`,
`readDefaulted`.  A union
is an object whose key tells the alternative
(`readUnion`).

A `NormalJson α` reads what it wrote in a normal form of it.

What is written reads as it was: `readRequired_written`, `readOptional_written`,
`readDefaulted_written`, `readUnion_single`.
-/

namespace A2a

/-- A type as JSON values. -/
structure Json (α : Type) where
  write : α → Value
  read : Value → Except String α
  read_write (a : α) : read (write a) = .ok a

/-- Nothing is written as `null`, which an optional field would not read. -/
def Json.Solid {α : Type} (c : Json α) : Prop := ∀ a, c.write a ≠ .null

namespace Json

variable {α : Type}

attribute [simp] Json.read_write

def string : Json String where
  write := .string
  read
    | .string s => .ok s
    | _ => .error "invalid type, expected a string"
  read_write _ := rfl

def bool : Json Bool where
  write := .bool
  read
    | .bool b => .ok b
    | _ => .error "invalid type, expected a boolean"
  read_write _ := rfl

/-- Any value, as it is. -/
def value : Json Value where
  write := id
  read := .ok
  read_write _ := rfl

/-- A sequence, by a reader of its elements. -/
def readList (read : Value → Except String α) : Value → Except String (List α)
  | .array vs => vs.mapM read
  | _ => .error "invalid type, expected a sequence"

/-- What each element is read as, the list is. -/
theorem readList_map {read : Value → Except String α} {write : α → Value} {f : α → α}
    (h : ∀ a, read (write a) = .ok (f a)) (as : List α) :
    readList read (.array (as.map write)) = .ok (as.map f) := by
  show (as.map write).mapM read = .ok (as.map f)
  induction as with
  | nil => rfl
  | cons a as ih =>
      rw [List.map_cons, List.mapM_cons, h, ih]
      rfl

def list (c : Json α) : Json (List α) where
  write as := .array (as.map c.write)
  read := readList c.read
  read_write as := by rw [readList_map (f := id) c.read_write, List.map_id]

/-- The entries of an object, read one by one. -/
def readEntries (read : Value → Except String α) (fields : List (String × Value)) :
    Except String (List (String × α)) :=
  fields.mapM fun field => (read field.2).map (field.1, ·)

theorem readEntries_write (c : Json α) (entries : List (String × α)) :
    readEntries c.read (entries.map fun e => (e.1, c.write e.2)) = .ok entries := by
  induction entries with
  | nil => rfl
  | cons e entries ih =>
      have hentry : (c.read (c.write e.2)).map (e.1, ·) = .ok e := by
        rw [c.read_write]
        rfl
      rw [readEntries, List.map_cons, List.mapM_cons, hentry]
      change (readEntries c.read (entries.map fun e => (e.1, c.write e.2)) >>= _) = _
      rw [ih]
      rfl

/-- `HashMap<String, _>`. -/
def map (c : Json α) : Json (Finmap fun _ : String => α) where
  write m := .object ((sortedFields m).map fun e => (e.1, c.write e.2))
  read
    | .object fields => (readEntries c.read fields).map mapOfFields
    | _ => .error "invalid type, expected a map"
  read_write m := by
    show (readEntries c.read ((sortedFields m).map fun e => (e.1, c.write e.2))).map mapOfFields =
      .ok m
    rw [readEntries_write, Except.map, mapOfFields_sortedFields]

end Json

/-- A type as JSON values that are read in a normal form. -/
structure NormalJson (α : Type) where
  write : α → Value
  read : Value → Except String α
  normal : α → α
  read_write (a : α) : read (write a) = .ok (normal a)
  write_ne_null (a : α) : write a ≠ .null

namespace NormalJson

variable {α : Type}

attribute [simp] NormalJson.read_write

def list (c : NormalJson α) : NormalJson (List α) where
  write as := .array (as.map c.write)
  read := Json.readList c.read
  normal as := as.map c.normal
  read_write := Json.readList_map c.read_write
  write_ne_null _ h := by contradiction

@[simp] theorem list_normal (c : NormalJson α) : c.list.normal = List.map c.normal := rfl

end NormalJson

namespace Json

variable {α : Type}

@[simp] theorem solid_string : string.Solid := fun _ h => by contradiction

@[simp] theorem solid_bool : bool.Solid := fun _ h => by contradiction

@[simp] theorem solid_list (c : Json α) : c.list.Solid := fun _ h => by contradiction

@[simp] theorem solid_map (c : Json α) : c.map.Solid := fun _ h => by contradiction

end Json

/-! ## structs -/

section Structs

variable {α : Type}

/-- The entries that are there, in the order of their keys. -/
def written (entries : List (String × Option Value)) : List (String × Value) :=
  sortedFields (mapOfFields (entries.filterMap fun e => e.2.map (e.1, ·)))

/-- A struct: its fields by key, absent ones left out. -/
def Value.struct (entries : List (String × Option Value)) : Value := .object (written entries)

/-- The fields a struct is read from; an array lists them in order. -/
def structFields (keys : List String) : Value → Except String (List (String × Value))
  | .object fields => .ok fields
  | .array vs => if vs.length ≤ keys.length then .ok (keys.zip vs) else .error "invalid length"
  | _ => .error "invalid type, expected a struct"

/-- A struct, by a reader of its fields. -/
def readStruct (keys : List String) (readFields : List (String × Value) → Except String α)
    (v : Value) : Except String α :=
  (structFields keys v).bind readFields

/-- A field that has to be there. -/
def readRequired (read : Value → Except String α) (key : String) (fields : List (String × Value)) :
    Except String α :=
  match fields.lookup key with
  | none => .error s!"missing field `{key}`"
  | some v => read v

/-- `Option`: absent or `null` is none. -/
def readOption (read : Value → Except String α) : Option Value → Except String (Option α)
  | none => .ok none
  | some .null => .ok none
  | some v => (read v).map some

def readOptional (read : Value → Except String α) (key : String) (fields : List (String × Value)) :
    Except String (Option α) :=
  readOption read (fields.lookup key)

/-- `#[serde(default)]`. -/
def readDefaulted (read : Value → Except String α) (default : α) (key : String)
    (fields : List (String × Value)) : Except String α :=
  match fields.lookup key with
  | none => .ok default
  | some v => read v

variable {entries : List (String × Option Value)} {key : String}

theorem lookup_present (hkeys : (entries.map (·.1)).Nodup) (key : String) :
    (entries.filterMap fun e => e.2.map (e.1, ·)).reverse.lookup key = (entries.lookup key).join := by
  induction entries with
  | nil => rfl
  | cons e entries ih =>
      obtain ⟨k, v⟩ := e
      rw [List.map_cons, List.nodup_cons] at hkeys
      have hnone (hk : key = k) : (entries.lookup key).join = none := by
        rw [List.lookup_eq_none_iff.mpr]
        · rfl
        · intro other hother
          have hne : key ≠ other.1 := fun heq =>
            hkeys.1 (List.mem_map.mpr ⟨other, hother, heq.symm.trans hk⟩)
          exact bne_iff_ne.mpr hne
      cases v with
      | none =>
          rw [List.filterMap_cons_none rfl, ih hkeys.2, List.lookup_cons]
          by_cases hk : key = k
          · rw [hnone hk, beq_iff_eq.mpr hk]
            rfl
          · rw [beq_false_of_ne hk]
      | some v =>
          have hpresent : ((k, some v) :: entries).filterMap (fun e => e.2.map (e.1, ·)) =
              (k, v) :: entries.filterMap fun e => e.2.map (e.1, ·) := rfl
          rw [hpresent, List.reverse_cons, List.lookup_append, ih hkeys.2, List.lookup_cons,
            List.lookup_cons]
          by_cases hk : key = k
          · rw [hnone hk, beq_iff_eq.mpr hk]
            rfl
          · rw [beq_false_of_ne hk]
            simp

/-- A field reads as it was written. -/
theorem lookup_written (hkeys : (entries.map (·.1)).Nodup) (key : String) :
    (written entries).lookup key = (entries.lookup key).join := by
  rw [written, lookup_sortedFields, lookup_mapOfFields, lookup_present hkeys]

/-- A value that is there is read as such. -/
theorem readOption_some (read : Value → Except String α) {v : Value} (h : v ≠ .null) :
    readOption read (some v) = (read v).map some := by
  cases v
  · contradiction
  all_goals rfl

@[simp] theorem readOption_normal (c : NormalJson α) (o : Option α) :
    readOption c.read (o.map c.write) = .ok (o.map c.normal) := by
  cases o with
  | none => rfl
  | some a =>
      rw [Option.map_some, readOption_some _ (c.write_ne_null a), c.read_write]
      rfl

@[simp] theorem readOption_map (c : Json α) (hc : c.Solid) (o : Option α) :
    readOption c.read (o.map c.write) = .ok o := by
  cases o with
  | none => rfl
  | some a =>
      rw [Option.map_some, readOption_some _ (hc a), c.read_write]
      rfl

theorem readStruct_struct (keys : List String)
    (readFields : List (String × Value) → Except String α) :
    readStruct keys readFields (.struct entries) = readFields (written entries) := rfl

theorem readRequired_written (hkeys : (entries.map (·.1)).Nodup) (read : Value → Except String α)
    (key : String) :
    readRequired read key (written entries) =
      (entries.lookup key).join.elim (.error s!"missing field `{key}`") read := by
  rw [readRequired, lookup_written hkeys]
  cases (entries.lookup key).join <;> rfl

theorem readOptional_written (hkeys : (entries.map (·.1)).Nodup) (read : Value → Except String α)
    (key : String) :
    readOptional read key (written entries) = readOption read (entries.lookup key).join := by
  rw [readOptional, lookup_written hkeys]

theorem readDefaulted_written (hkeys : (entries.map (·.1)).Nodup) (read : Value → Except String α)
    (default : α) (key : String) :
    readDefaulted read default key (written entries) =
      (entries.lookup key).join.elim (.ok default) read := by
  rw [readDefaulted, lookup_written hkeys]
  cases (entries.lookup key).join <;> rfl

/-- A struct as JSON. -/
def Json.ofStruct (entries : α → List (String × Option Value)) (read : Value → Except String α)
    (h : ∀ a, read (.struct (entries a)) = .ok a) : Json α :=
  ⟨fun a => .struct (entries a), read, h⟩

@[simp] theorem Json.solid_ofStruct (entries : α → List (String × Option Value))
    (read : Value → Except String α) (h : ∀ a, read (.struct (entries a)) = .ok a) :
    (Json.ofStruct entries read h).Solid := fun _ hnull => by contradiction

end Structs

/-! ## unions -/

section Unions

variable {α : Type}

/-- A union whose alternative is told by the key that is there: the first of
the alternatives whose key is. -/
def readUnion (unknown : String) (fields : List (String × Value)) :
    List (String × (Value → Except String α)) → Except String α
  | [] => .error unknown
  | (key, read) :: rest =>
      match fields.lookup key with
      | some v => read v
      | none => readUnion unknown fields rest

/-- An object with one key is read as its alternative. -/
theorem readUnion_single {unknown key : String} {v : Value} {read : Value → Except String α}
    {alternatives : List (String × (Value → Except String α))}
    (h : alternatives.lookup key = some read) :
    readUnion unknown [(key, v)] alternatives = read v := by
  induction alternatives with
  | nil => contradiction
  | cons alternative rest ih =>
      obtain ⟨k, r⟩ := alternative
      rw [readUnion, List.lookup_cons]
      rw [List.lookup_cons] at h
      by_cases hk : key = k
      · subst hk
        rw [beq_self_eq_true] at h ⊢
        obtain rfl := Option.some.inj h
        rfl
      · rw [beq_false_of_ne hk] at h
        rw [beq_false_of_ne (Ne.symm hk)]
        exact ih h

end Unions

end A2a
