import Mathlib.Data.Finmap

/-!
# A2a.Format

Conversions that may forget.  A `Format` writes values of one type as values
of another and reads them back; what it cannot write is lost on the way.
`Canonical` singles out the values that survive, and whatever is read back
is canonical, so the first trip loses all there is to lose
(`Format.norm_norm`).

Formats of records are assembled from formats of their fields: options,
lists, maps, and fields whose default stands for absence.
-/

namespace A2a

variable {α β κ : Type}

/-! ## maps -/

theorem keys_map_values (m : Finmap fun _ : κ => α) (f : α → β) :
    (m.entries.map fun e => (⟨e.1, f e.2⟩ : Sigma fun _ : κ => β)).NodupKeys := by
  refine Finmap.induction_on m fun a => ?_
  have hkeys : (a.entries.map fun e => (⟨e.1, f e.2⟩ : Sigma fun _ : κ => β)).keys = a.keys := by
    simp [List.keys, AList.keys, Function.comp_def]
  rw [AList.toFinmap_entries, Multiset.map_coe, Multiset.coe_nodupKeys, List.NodupKeys, hkeys]
  exact a.nodupKeys

/-- Apply `f` to every value. -/
def mapValues (f : α → β) (m : Finmap fun _ : κ => α) : Finmap fun _ : κ => β where
  entries := m.entries.map fun e => ⟨e.1, f e.2⟩
  nodupKeys := keys_map_values m f

theorem keys_filterMap_values (m : Finmap fun _ : κ => α) (f : α → Option β) :
    (m.entries.filterMap fun e =>
      (f e.2).map fun b => (⟨e.1, b⟩ : Sigma fun _ : κ => β)).NodupKeys := by
  refine Finmap.induction_on m fun a => ?_
  have hkeys : (a.entries.filterMap fun e =>
      (f e.2).map fun b => (⟨e.1, b⟩ : Sigma fun _ : κ => β)).keys.Sublist a.keys := by
    rw [AList.keys]
    induction a.entries with
    | nil => exact List.Sublist.slnil
    | cons e es ih =>
        cases hf : f e.2 with
        | none =>
            rw [List.filterMap_cons_none (by simp [hf])]
            exact ih.cons e.1
        | some b =>
            rw [List.filterMap_cons_some (by simp [hf]; rfl)]
            exact ih.cons_cons e.1
  rw [AList.toFinmap_entries, Multiset.filterMap_coe, Multiset.coe_nodupKeys, List.NodupKeys]
  exact hkeys.nodup a.keys_nodup

/-- Keep the values `f` is defined on, applied to each. -/
def filterMapValues (f : α → Option β) (m : Finmap fun _ : κ => α) : Finmap fun _ : κ => β where
  entries := m.entries.filterMap fun e => (f e.2).map fun b => ⟨e.1, b⟩
  nodupKeys := keys_filterMap_values m f

theorem mapValues_entries (f : α → β) (m : Finmap fun _ : κ => α) :
    (mapValues f m).entries = m.entries.map fun e => ⟨e.1, f e.2⟩ := rfl

theorem mem_mapValues {f : α → β} {m : Finmap fun _ : κ => α} {e : Sigma fun _ : κ => β}
    (he : e ∈ (mapValues f m).entries) : ∃ e₀ ∈ m.entries, e = ⟨e₀.1, f e₀.2⟩ := by
  obtain ⟨e₀, he₀, rfl⟩ := Multiset.mem_map.mp he
  exact ⟨e₀, he₀, rfl⟩

theorem lookup_mapValues [DecidableEq κ] (f : α → β) (m : Finmap fun _ : κ => α) (key : κ) :
    (mapValues f m).lookup key = (m.lookup key).map f := by
  refine Finmap.induction_on m fun a => ?_
  show (a.entries.map fun e => (⟨e.1, f e.2⟩ : Sigma fun _ : κ => β)).dlookup key =
    (a.entries.dlookup key).map f
  exact List.dlookup_map₂ (f := fun _ => f) key

/-- Mapping values that are fixed changes nothing. -/
theorem mapValues_of_fixed {f : α → α} {m : Finmap fun _ : κ => α}
    (h : ∀ e ∈ m.entries, f e.2 = e.2) : mapValues f m = m := by
  apply Finmap.ext
  rw [mapValues_entries]
  conv_rhs => rw [← Multiset.map_id m.entries]
  refine Multiset.map_congr rfl fun e he => ?_
  rw [h e he]
  rfl

theorem mapValues_mapValues {γ : Type} (g : β → γ) (f : α → β) (m : Finmap fun _ : κ => α) :
    mapValues g (mapValues f m) = mapValues (fun a => g (f a)) m := by
  apply Finmap.ext
  rw [mapValues_entries, mapValues_entries, Multiset.map_map, mapValues_entries]
  rfl

/-- Keeping what is defined everywhere is mapping. -/
theorem filterMapValues_mapValues {γ : Type} {g : β → Option γ} {f : α → β} {k : α → γ}
    (h : ∀ a, g (f a) = some (k a)) (m : Finmap fun _ : κ => α) :
    filterMapValues g (mapValues f m) = mapValues k m := by
  apply Finmap.ext
  have hcomp : ((fun e : Sigma fun _ : κ => β =>
        (g e.2).map fun c => (⟨e.1, c⟩ : Sigma fun _ : κ => γ)) ∘
      fun e : Sigma fun _ : κ => α => (⟨e.1, f e.2⟩ : Sigma fun _ : κ => β)) =
      some ∘ fun e : Sigma fun _ : κ => α => (⟨e.1, k e.2⟩ : Sigma fun _ : κ => γ) := by
    funext e
    simp [h]
  show Multiset.filterMap _ (Multiset.map _ m.entries) = _
  rw [Multiset.filterMap_map, hcomp, Multiset.filterMap_eq_map, mapValues_entries]

theorem card_mapValues (f : α → β) (m : Finmap fun _ : κ => α) :
    (mapValues f m).entries.card = m.entries.card := by
  rw [mapValues_entries, Multiset.card_map]

/-! ## formats -/

/-- A way to write an `α` as a `β` and to read it back. -/
structure Format (α β : Type) where
  encode : α → β
  decode : β → α
  /-- the values that survive -/
  Canonical : α → Prop
  roundTrip : ∀ x, Canonical x → decode (encode x) = x
  normal : ∀ x, Canonical (decode (encode x))

namespace Format

/-- What is left of `x` after a trip. -/
def norm (f : Format α β) (x : α) : α := f.decode (f.encode x)

/-- **The first trip loses all there is to lose.** -/
theorem norm_norm (f : Format α β) (x : α) : f.norm (f.norm x) = f.norm x :=
  f.roundTrip (f.norm x) (f.normal x)

/-- A field written as it is. -/
def same (α : Type) : Format α α := ⟨id, id, fun _ => True, fun _ _ => rfl, fun _ => trivial⟩

/-- An optional field without presence: absence is written as `d`, and `d`
is read as absence. -/
def defaulted [DecidableEq α] (d : α) : Format (Option α) α where
  encode x := x.getD d
  decode b := if b = d then none else some b
  Canonical x := x ≠ some d
  roundTrip x h := by
    cases x with
    | none => exact if_pos rfl
    | some a => exact if_neg fun ha => h (congrArg some ha)
  normal x := by
    split
    · exact nofun
    · next hne => exact fun h => hne (Option.some.inj h)

variable (f : Format α β)

/-- A repeated field. -/
def list : Format (List α) (List β) where
  encode xs := xs.map f.encode
  decode bs := bs.map f.decode
  Canonical xs := ∀ x ∈ xs, f.Canonical x
  roundTrip xs h := by
    rw [List.map_map]
    exact (List.map_congr_left fun x hx => f.roundTrip x (h x hx)).trans (List.map_id xs)
  normal xs := by
    intro x hx
    rw [List.map_map] at hx
    obtain ⟨y, _, rfl⟩ := List.mem_map.mp hx
    exact f.normal y

/-- An optional field with presence. -/
def option : Format (Option α) (Option β) where
  encode x := x.map f.encode
  decode b := b.map f.decode
  Canonical x := ∀ a, x = some a → f.Canonical a
  roundTrip x h := by
    cases x with
    | none => rfl
    | some a => exact congrArg some (f.roundTrip a (h a rfl))
  normal x := by
    intro a ha
    cases x with
    | none => contradiction
    | some y =>
        obtain rfl := Option.some.inj ha
        exact f.normal y

/-- An optional repeated field: no items and absence are written the same. -/
def items : Format (Option (List α)) (List β) where
  encode x := (x.map (·.map f.encode)).getD []
  decode bs := if bs.isEmpty then none else some (bs.map f.decode)
  Canonical x := x ≠ some [] ∧ ∀ xs, x = some xs → ∀ a ∈ xs, f.Canonical a
  roundTrip x h := by
    cases x with
    | none => rfl
    | some xs =>
        cases xs with
        | nil => exact absurd rfl h.1
        | cons a as => exact congrArg some (f.list.roundTrip (a :: as) (h.2 _ rfl))
  normal x := by
    cases x with
    | none => exact ⟨nofun, nofun⟩
    | some xs =>
        cases xs with
        | nil => exact ⟨nofun, nofun⟩
        | cons a as =>
            refine ⟨fun h => List.cons_ne_nil _ _ (Option.some.inj h), fun ys hys => ?_⟩
            obtain rfl := Option.some.inj hys
            exact f.list.normal (a :: as)

/-- A required field in a message where every field may be absent. -/
def required (d : α) : Format α (Option β) where
  encode x := some (f.encode x)
  decode b := (b.map f.decode).getD d
  Canonical := f.Canonical
  roundTrip x h := f.roundTrip x h
  normal x := f.normal x

/-- A map. -/
def map (κ : Type) : Format (Finmap fun _ : κ => α) (Finmap fun _ : κ => β) where
  encode m := mapValues f.encode m
  decode b := mapValues f.decode b
  Canonical m := ∀ e ∈ m.entries, f.Canonical e.2
  roundTrip m h := by
    rw [mapValues_mapValues]
    exact mapValues_of_fixed fun e he => f.roundTrip e.2 (h e he)
  normal m := by
    intro e he
    rw [mapValues_mapValues] at he
    obtain ⟨e₀, _, rfl⟩ := mem_mapValues he
    exact f.normal e₀.2

end Format

/-! ## formats whose reader may refuse -/

/-- A format whose reader may refuse, though never what the writer wrote. -/
structure PartialFormat (α β : Type) where
  encode : α → β
  decode : β → Option α
  /-- what is left of a value after a trip -/
  norm : α → α
  Canonical : α → Prop
  decode_encode : ∀ x, decode (encode x) = some (norm x)
  roundTrip : ∀ x, Canonical x → norm x = x
  normal : ∀ x, Canonical (norm x)

namespace PartialFormat

variable (f : PartialFormat α β)

theorem norm_norm (x : α) : f.norm (f.norm x) = f.norm x := f.roundTrip (f.norm x) (f.normal x)

/-- A canonical value comes back. -/
theorem decode_of_canonical {x : α} (h : f.Canonical x) : f.decode (f.encode x) = some x := by
  rw [f.decode_encode, f.roundTrip x h]

/-- A required field, with a default where the reader refuses. -/
def required (d : α) : Format α (Option β) where
  encode x := some (f.encode x)
  decode b := (b.bind f.decode).getD d
  Canonical := f.Canonical
  roundTrip x h := by
    rw [Option.bind_some, f.decode_of_canonical h]
    rfl
  normal x := by
    rw [Option.bind_some, f.decode_encode]
    exact f.normal x

/-- An optional map without presence, its refused values left out. -/
def entries (κ : Type) : Format (Option (Finmap fun _ : κ => α)) (Finmap fun _ : κ => β) where
  encode x := (x.map (mapValues f.encode)).getD ∅
  decode b := if b.entries.card = 0 then none else some (filterMapValues f.decode b)
  Canonical x := x ≠ some ∅ ∧ ∀ m, x = some m → ∀ e ∈ m.entries, f.Canonical e.2
  roundTrip x h := by
    cases x with
    | none => rfl
    | some m =>
        have hm : m.entries.card ≠ 0 := fun hz =>
          h.1 (congrArg some (Finmap.ext (Multiset.card_eq_zero.mp hz)))
        rw [Option.map_some, Option.getD_some, card_mapValues, if_neg hm,
          filterMapValues_mapValues f.decode_encode,
          mapValues_of_fixed fun e he => f.roundTrip e.2 (h.2 m rfl e he)]
  normal x := by
    cases x with
    | none => exact ⟨nofun, nofun⟩
    | some m =>
        rw [Option.map_some, Option.getD_some, card_mapValues,
          filterMapValues_mapValues f.decode_encode]
        split
        · exact ⟨nofun, nofun⟩
        · next hm =>
          constructor
          · intro h
            have hempty := congrArg (·.entries.card) (Option.some.inj h)
            rw [card_mapValues] at hempty
            exact hm hempty
          · intro m' hm' e he
            obtain rfl := Option.some.inj hm'
            obtain ⟨e₀, _, rfl⟩ := mem_mapValues he
            exact f.normal e₀.2

end PartialFormat

end A2a
