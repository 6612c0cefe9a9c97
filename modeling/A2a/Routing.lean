import A2a.PercentEncoding

/-!
# A2a.Routing

The path of an address: how it is split and freed of dot segments, and how a
table of routes finds the one it belongs to.

1. `urlSegments` parses: `/` separates, a segment that decodes to `.` or
   `..` goes, the latter with the one before it.
2. `resolve` walks a table: at each segment the routes that spell it out are
   tried first, then those that take it as a parameter, which is never
   empty.

A `Captured` text is one that some segment stands for.
-/

namespace A2a

/-! ## segments -/

/-- Whether a segment names its own directory. -/
def isSingleDot (seg : String) : Prop := percentDecode seg = some "."

/-- Whether a segment names the directory above. -/
def isDoubleDot (seg : String) : Prop := percentDecode seg = some ".."

instance (seg : String) : Decidable (isSingleDot seg) :=
  inferInstanceAs (Decidable (percentDecode seg = some "."))

instance (seg : String) : Decidable (isDoubleDot seg) :=
  inferInstanceAs (Decidable (percentDecode seg = some ".."))

/-- The segments without their dots; those before are kept in reverse. A dot
at the end leaves an empty segment. -/
def removeDots (before : List String) : List String → List String
  | [] => before.reverse
  | seg :: rest =>
      if isDoubleDot seg then
        removeDots (if rest = [] then "" :: before.tail else before.tail) rest
      else if isSingleDot seg then
        removeDots (if rest = [] then "" :: before else before) rest
      else removeDots (seg :: before) rest

/-- The segments of the path of an address, which `/` begins. -/
def urlSegments (path : String) : List String :=
  removeDots [] ((path.toList.splitOn '/').tail.map String.ofList)

/-- Segments as a path. -/
def slashed (segs : List String) : String := segs.foldr (fun seg rest => "/" ++ seg ++ rest) ""

/-! ## routes -/

/-- A part of a route: spelled out, or a parameter. -/
inductive PathPart
  | lit (text : String)
  | param (name : String)
deriving DecidableEq

/-- The parameters of a route, as the path has them. -/
abbrev Captures := List (String × String)

section resolve

variable {β : Type}

/-- A route that spells out the segment. -/
def literalStep (seg : String) : List PathPart × Captures × β → Option (List PathPart × Captures × β)
  | (.lit text :: parts, captures, target) =>
      if text = seg then some (parts, captures, target) else none
  | _ => none

/-- A route that takes the segment as a parameter. -/
def paramStep (seg : String) : List PathPart × Captures × β → Option (List PathPart × Captures × β)
  | (.param name :: parts, captures, target) =>
      if seg = "" then none else some (parts, captures ++ [(name, seg)], target)
  | _ => none

/-- The route a path belongs to. -/
def resolve : List String → List (List PathPart × Captures × β) → Option (Captures × β)
  | [], routes => (routes.find? (·.1 = [])).map (·.2)
  | seg :: segs, routes =>
      match resolve segs (routes.filterMap (literalStep seg)) with
      | some found => some found
      | none => resolve segs (routes.filterMap (paramStep seg))

/-- A path is of a route's shape. -/
inductive Fits : List PathPart → List String → Captures → Prop
  | nil : Fits [] [] []
  | lit {text : String} {parts : List PathPart} {segs : List String} {captures : Captures}
      (h : Fits parts segs captures) : Fits (.lit text :: parts) (text :: segs) captures
  | param {name seg : String} {parts : List PathPart} {segs : List String} {captures : Captures}
      (hne : seg ≠ "") (h : Fits parts segs captures) :
      Fits (.param name :: parts) (seg :: segs) ((name, seg) :: captures)

theorem literalStep_eq_some {seg : String} {route : List PathPart × Captures × β}
    {parts : List PathPart} {captures : Captures} {target : β}
    (h : literalStep seg route = some (parts, captures, target)) :
    route = (.lit seg :: parts, captures, target) := by
  unfold literalStep at h
  split at h
  · split at h
    · rename_i htext
      have heq := Option.some.inj h
      rw [Prod.mk.injEq, Prod.mk.injEq] at heq
      rw [htext, heq.1, heq.2.1, heq.2.2]
    · exact absurd h.symm (Option.some_ne_none _)
  · exact absurd h.symm (Option.some_ne_none _)

theorem paramStep_eq_some {seg : String} {route : List PathPart × Captures × β}
    {parts : List PathPart} {captures : Captures} {target : β}
    (h : paramStep seg route = some (parts, captures, target)) :
    seg ≠ "" ∧ ∃ name before, route = (.param name :: parts, before, target) ∧
      captures = before ++ [(name, seg)] := by
  unfold paramStep at h
  split at h
  · rename_i name rest before found
    split at h
    · exact absurd h.symm (Option.some_ne_none _)
    · rename_i hne
      have heq := Option.some.inj h
      rw [Prod.mk.injEq, Prod.mk.injEq] at heq
      refine ⟨hne, name, before, ?_, heq.2.1.symm⟩
      rw [heq.1, heq.2.2]
  · exact absurd h.symm (Option.some_ne_none _)

/-- **What a table finds has the path's shape.** -/
theorem resolve_sound (segs : List String) (routes : List (List PathPart × Captures × β))
    (captures : Captures) (target : β) (h : resolve segs routes = some (captures, target)) :
    ∃ parts before after, (parts, before, target) ∈ routes ∧ Fits parts segs after ∧
      captures = before ++ after := by
  induction segs generalizing routes with
  | nil =>
      rw [resolve, Option.map_eq_some_iff] at h
      obtain ⟨⟨parts, found⟩, hfind, heq⟩ := h
      have hmem := List.mem_of_find?_eq_some hfind
      have hnil := List.find?_some hfind
      have hparts : parts = [] := of_decide_eq_true hnil
      have hfound : found = (captures, target) := heq
      rw [hparts, hfound] at hmem
      exact ⟨[], captures, [], hmem, .nil, (List.append_nil _).symm⟩
  | cons seg segs ih =>
      rw [resolve] at h
      split at h
      · rename_i found hfound
        rw [h] at hfound
        obtain ⟨parts, before, after, hmem, hfits, hcaptures⟩ := ih _ hfound
        obtain ⟨route, hroute, hstep⟩ := List.mem_filterMap.mp hmem
        rw [literalStep_eq_some hstep] at hroute
        exact ⟨.lit seg :: parts, before, after, hroute, .lit hfits, hcaptures⟩
      · obtain ⟨parts, before, after, hmem, hfits, hcaptures⟩ := ih _ h
        obtain ⟨route, hroute, hstep⟩ := List.mem_filterMap.mp hmem
        obtain ⟨hne, name, earlier, heq, hbefore⟩ := paramStep_eq_some hstep
        rw [heq] at hroute
        refine ⟨.param name :: parts, earlier, (name, seg) :: after, hroute, .param hne hfits, ?_⟩
        rw [hcaptures, hbefore, List.append_assoc, List.singleton_append]

/-- A route that takes whatever segment as a parameter. -/
def takeParam (seg : String) : List PathPart × Captures × β → Option (List PathPart × Captures × β)
  | (.param name :: parts, captures, target) => some (parts, captures ++ [(name, seg)], target)
  | _ => none

theorem paramStep_of_ne {seg : String} (h : seg ≠ "") : @paramStep β seg = takeParam seg := by
  funext route
  unfold paramStep takeParam
  split
  · exact if_neg h
  · rfl

/-- Without a route of the path's shape nothing is found. -/
theorem resolve_eq_none {segs : List String} {routes : List (List PathPart × Captures × β)}
    (h : ∀ r ∈ routes, ∀ captures, ¬ Fits r.1 segs captures) : resolve segs routes = none := by
  rw [Option.eq_none_iff_forall_ne_some]
  intro found hfound
  obtain ⟨parts, before, after, hmem, hfits, -⟩ := resolve_sound _ _ found.1 found.2 hfound
  exact h _ hmem after hfits

/-- A route that spells the segment out comes first. -/
theorem resolve_of_literal_some {seg : String} {segs : List String}
    {routes : List (List PathPart × Captures × β)} {found : Captures × β}
    (h : resolve segs (routes.filterMap (literalStep seg)) = some found) :
    resolve (seg :: segs) routes = some found := by
  rw [resolve, h]

/-- Where no route that spells the segment out goes on, it is a parameter. -/
theorem resolve_of_literal_none {seg : String} {segs : List String}
    {routes : List (List PathPart × Captures × β)}
    (h : resolve segs (routes.filterMap (literalStep seg)) = none) :
    resolve (seg :: segs) routes = resolve segs (routes.filterMap (paramStep seg)) := by
  rw [resolve, h]

/-- A parameter is a segment, and not empty. -/
theorem Fits.captured {parts : List PathPart} {segs : List String} {captures : Captures}
    (h : Fits parts segs captures) {name seg : String} (hmem : (name, seg) ∈ captures) :
    seg ∈ segs ∧ seg ≠ "" := by
  induction h with
  | nil => exact absurd hmem List.not_mem_nil
  | lit _ ih =>
      have hin := ih hmem
      exact ⟨List.mem_cons_of_mem _ hin.1, hin.2⟩
  | param hne _ ih =>
      rcases List.mem_cons.mp hmem with heq | htail
      · rw [Prod.mk.injEq] at heq
        rw [heq.2]
        exact ⟨List.mem_cons_self, hne⟩
      · have hin := ih htail
        exact ⟨List.mem_cons_of_mem _ hin.1, hin.2⟩

end resolve

/-! ## dots -/

/-- Neither dot. -/
def Undotted (seg : String) : Prop := ¬ isSingleDot seg ∧ ¬ isDoubleDot seg

/-- No dot is left, though a segment may be empty. -/
theorem undotted_of_mem_removeDots {before segs : List String} {seg : String}
    (hbefore : ∀ s ∈ before, s = "" ∨ Undotted s) (h : seg ∈ removeDots before segs) :
    seg = "" ∨ Undotted seg := by
  induction segs generalizing before with
  | nil =>
      rw [removeDots, List.mem_reverse] at h
      exact hbefore seg h
  | cons s rest ih =>
      have htail : ∀ s ∈ before.tail, s = "" ∨ Undotted s :=
        fun s hs => hbefore s (List.mem_of_mem_tail hs)
      have hempty : ∀ kept : List String, (∀ s ∈ kept, s = "" ∨ Undotted s) →
          ∀ s ∈ if rest = [] then "" :: kept else kept, s = "" ∨ Undotted s := by
        intro kept hkept s hs
        split at hs
        · rcases List.mem_cons.mp hs with heq | hin
          · exact Or.inl heq
          · exact hkept s hin
        · exact hkept s hs
      rw [removeDots] at h
      split at h
      · exact ih (hempty _ htail) h
      · split at h
        · exact ih (hempty _ hbefore) h
        · rename_i hdouble hsingle
          refine ih ?_ h
          intro s' hs'
          rcases List.mem_cons.mp hs' with heq | hin
          · rw [heq]
            exact Or.inr ⟨hsingle, hdouble⟩
          · exact hbefore s' hin

/-- Without dots nothing goes. -/
theorem removeDots_of_undotted {before segs : List String} (h : ∀ s ∈ segs, Undotted s) :
    removeDots before segs = before.reverse ++ segs := by
  induction segs generalizing before with
  | nil => rw [removeDots, List.append_nil]
  | cons s rest ih =>
      have hs := h s List.mem_cons_self
      rw [removeDots, if_neg hs.2, if_neg hs.1, ih fun s hs => h s (List.mem_cons_of_mem _ hs),
        List.reverse_cons, List.append_assoc, List.singleton_append]

/-- What ends the segments, unless it is a dot, ends what is left. -/
theorem removeDots_append_singleton (before segs : List String) {seg : String} (h : Undotted seg) :
    ∃ kept, removeDots before (segs ++ [seg]) = kept ++ [seg] := by
  induction segs generalizing before with
  | nil =>
      rw [List.nil_append, removeDots_of_undotted fun s hs => by rwa [List.mem_singleton.mp hs]]
      exact ⟨_, rfl⟩
  | cons s rest ih =>
      rw [List.cons_append, removeDots]
      split
      · exact ih _
      · split
        · exact ih _
        · exact ih _

/-! ## texts as segments -/

theorem slash_splitOn (segs : List String) (h : ∀ s ∈ segs, '/' ∉ s.toList) (lead : List Char)
    (hlead : '/' ∉ lead) :
    (lead ++ (slashed segs).toList).splitOn '/' = lead :: segs.map String.toList := by
  induction segs generalizing lead with
  | nil =>
      rw [slashed, List.foldr_nil, String.toList_empty, List.append_nil,
        List.splitOn_eq_singleton hlead, List.map_nil]
  | cons s rest ih =>
      have htext : (slashed (s :: rest)).toList = '/' :: (s.toList ++ (slashed rest).toList) := by
        rw [slashed, List.foldr_cons, String.toList_append, String.toList_append]
        rfl
      rw [htext, List.splitOn_append_cons_self_of_not_mem hlead,
        ih (fun s hs => h s (List.mem_cons_of_mem _ hs)) s.toList (h s List.mem_cons_self),
        List.map_cons]

/-- Segments without slashes are split as they were put together. -/
theorem urlSegments_slashed {segs : List String} (h : ∀ s ∈ segs, '/' ∉ s.toList) :
    urlSegments (slashed segs) = removeDots [] segs := by
  have hsplit := slash_splitOn segs h [] List.not_mem_nil
  rw [List.nil_append] at hsplit
  rw [urlSegments, hsplit, List.tail_cons, List.map_map]
  have hid : String.ofList ∘ String.toList = id := funext fun s => String.ofList_toList
  rw [hid, List.map_id]

theorem undotted_of_decode {seg text : String} (h : percentDecode seg = some text)
    (hsingle : text ≠ ".") (hdouble : text ≠ "..") : Undotted seg := by
  constructor
  · intro hdot
    exact hsingle (Option.some.inj (h.symm.trans hdot))
  · intro hdot
    exact hdouble (Option.some.inj (h.symm.trans hdot))

/-- A text some segment that is not empty stands for. -/
def Captured (segs : List String) (text : String) : Prop :=
  ∃ seg ∈ segs, seg ≠ "" ∧ percentDecode seg = some text

/-- What dots leave stands for no dot, and for more than nothing. -/
theorem Captured.removeDots {segs : List String} {text : String}
    (h : Captured (removeDots [] segs) text) : text ≠ "" ∧ text ≠ "." ∧ text ≠ ".." := by
  obtain ⟨seg, hmem, hne, hdecode⟩ := h
  have hundotted : Undotted seg := by
    rcases undotted_of_mem_removeDots (fun s hs => absurd hs List.not_mem_nil) hmem with h | h
    · exact absurd h hne
    · exact h
  refine ⟨?_, ?_, ?_⟩
  · intro h
    rw [h] at hdecode
    exact percentDecode_ne_empty hne hdecode
  · intro h
    rw [h] at hdecode
    exact hundotted.1 hdecode
  · intro h
    rw [h] at hdecode
    exact hundotted.2 hdecode

end A2a
