import A2a.Bindings.Params

/-!
# A2a.Bindings.Portable

What `require_extensions` and `check_a2a_version` make of values that arrive
joined, and so when parameters mean the same on every binding.

The extensions are split at commas anyway, so joined they are the same.  The
version is read to its first dot: joined, a version that has one is the same
and any other is none.
-/

namespace A2a

/-! ## trimming -/

theorem isWhitespace_visible {c : Char} (h : isVisible c = true) : isWhitespace c = false := by
  have hc := isVisible_lt h
  rw [Bool.eq_false_iff]
  intro hspace
  simp only [isWhitespace, Bool.or_eq_true, Bool.and_eq_true, decide_eq_true_eq] at hspace
  omega

theorem trim_space (cs : List Char) : trim (' ' :: cs) = trim cs := rfl

/-- Space is trimmed behind a character that is none, wherever it is. -/
theorem trim_append_cons {front : List Char} {c : Char} (hfront : front.all isVisible = true)
    (hc : isWhitespace c = false) (back : List Char) :
    ∃ back', trim (front ++ c :: back) = front ++ c :: back' := by
  have hstart : (front ++ c :: back).dropWhile isWhitespace = front ++ c :: back := by
    cases front with
    | nil => exact List.dropWhile_cons_of_neg (by rw [hc]; exact Bool.false_ne_true)
    | cons first others =>
        rw [List.all_cons, Bool.and_eq_true] at hfront
        apply List.dropWhile_cons_of_neg
        rw [isWhitespace_visible hfront.1]
        exact Bool.false_ne_true
  have hend : (c :: front.reverse).dropWhile isWhitespace = c :: front.reverse :=
    List.dropWhile_cons_of_neg (by rw [hc]; exact Bool.false_ne_true)
  have hreverse : (front ++ c :: back).reverse = back.reverse ++ c :: front.reverse := by
    rw [List.reverse_append, List.reverse_cons, List.append_assoc]
    rfl
  rw [trim, hstart, hreverse, List.dropWhile_append]
  by_cases hback : (back.reverse.dropWhile isWhitespace).isEmpty = true
  · refine ⟨[], ?_⟩
    rw [if_pos hback, hend, List.reverse_cons, List.reverse_reverse]
  · refine ⟨(back.reverse.dropWhile isWhitespace).reverse, ?_⟩
    rw [if_neg hback, List.reverse_append, List.reverse_cons, List.reverse_reverse,
      List.append_assoc]
    rfl

theorem trim_visible {cs : List Char} (h : cs.all isVisible = true) : trim cs = cs := by
  have hdrop : ∀ text : List Char, text.all isVisible = true → text.dropWhile isWhitespace = text := by
    intro text htext
    cases text with
    | nil => rfl
    | cons first others =>
        rw [List.all_cons, Bool.and_eq_true] at htext
        apply List.dropWhile_cons_of_neg
        rw [isWhitespace_visible htext.1]
        exact Bool.false_ne_true
  have hreverse : cs.reverse.all isVisible = true := by
    rw [List.all_reverse]
    exact h
  rw [trim, hdrop cs h, hdrop cs.reverse hreverse, List.reverse_reverse]

/-! ## extensions -/

/-- The extensions of some values. -/
def activated (values : List String) : List (List Char) :=
  values.flatMap fun value => (value.toList.splitOn ',').map trim

theorem activatedExtensions_eq (params : ServiceParams) :
    activatedExtensions params = activated ((params.lookup "a2a-extensions").getD []) := rfl

/-- A space after a comma is trimmed. -/
theorem splitOn_space (cs : List Char) :
    ((' ' :: cs).splitOn ',').map trim = (cs.splitOn ',').map trim := by
  rw [List.splitOn_cons_eq_if_modifyHead, if_neg (by decide)]
  cases cs.splitOn ',' with
  | nil => rfl
  | cons first others =>
      rw [List.modifyHead_cons, List.map_cons, List.map_cons, trim_space]

/-- Joined, values have the extensions that they have one by one. -/
theorem activated_joined (first : String) (rest : List String) :
    activated [", ".intercalate (first :: rest)] = activated (first :: rest) := by
  induction rest generalizing first with
  | nil => rw [String.intercalate_singleton]
  | cons second rest ih =>
      have hjoined := ih second
      simp only [activated, List.flatMap_cons, List.flatMap_nil, List.append_nil] at hjoined ⊢
      have hlist : (", ".intercalate (first :: second :: rest)).toList =
          first.toList ++ ',' :: ' ' :: (", ".intercalate (second :: rest)).toList := by
        rw [String.intercalate_cons_cons, String.toList_append, String.toList_append,
          List.append_assoc]
        rfl
      rw [hlist, List.splitOn_append_cons_self, List.map_append, splitOn_space, hjoined]

/-- The requirement is decided by the extensions activated. -/
theorem requireExtensions_congr (handler : Handler) {params params' : ServiceParams}
    (h : activatedExtensions params = activatedExtensions params') :
    handler.requireExtensions params = handler.requireExtensions params' := by
  rw [Handler.requireExtensions, Handler.requireExtensions, h]

/-! ## the version -/

/-- The text a version's major number is read from. -/
theorem parseMajorVersion_eq (value : String) :
    parseMajorVersion value = parseU32 ((trim value.toList).takeWhile fun c => !(c == '.')) := by
  rw [parseMajorVersion, head?_splitOn]
  rfl

/-- A number has no comma. -/
theorem parseU32_comma {cs : List Char} (h : ',' ∈ cs) : parseU32 cs = none := by
  have hdigits : ∀ digits : List Char, ',' ∈ digits → ¬ (digits ≠ [] ∧ digits.all Char.isDigit = true) := by
    intro digits hmem hvalid
    have hcomma := List.all_eq_true.mp hvalid.2 ',' hmem
    revert hcomma
    decide
  unfold parseU32
  apply if_neg
  apply hdigits
  split
  · rcases List.mem_cons.mp h with heq | hrest
    · exact absurd heq (by decide)
    · exact hrest
  · exact h

section joined

variable {first : String} (hfirst : first.toList.all isVisible = true)

include hfirst

theorem trim_joined (second : String) (rest : List String) :
    ∃ back, trim (", ".intercalate (first :: second :: rest)).toList = first.toList ++ ',' :: back := by
  have hlist : (", ".intercalate (first :: second :: rest)).toList =
      first.toList ++ ',' :: ' ' :: (", ".intercalate (second :: rest)).toList := by
    rw [String.intercalate_cons_cons, String.toList_append, String.toList_append, List.append_assoc]
    rfl
  rw [hlist]
  exact trim_append_cons hfirst (by decide) _

/-- A version with a minor is read from the first of joined values. -/
theorem parseMajorVersion_joined_dot (hdot : '.' ∈ first.toList) (second : String)
    (rest : List String) :
    parseMajorVersion (", ".intercalate (first :: second :: rest)) = parseMajorVersion first := by
  obtain ⟨back, htrim⟩ := trim_joined hfirst second rest
  have hshort : ¬ (first.toList.takeWhile fun c => !(c == '.')).length = first.toList.length := by
    intro hlength
    have hall := List.all_takeWhile (p := fun c => !(c == '.')) (l := first.toList)
    rw [(List.takeWhile_prefix fun c => !(c == '.')).eq_of_length hlength] at hall
    have hno := List.all_eq_true.mp hall '.' hdot
    revert hno
    decide
  rw [parseMajorVersion_eq, parseMajorVersion_eq, htrim, trim_visible hfirst, List.takeWhile_append,
    if_neg hshort]

/-- Joined behind any other version, values are no version. -/
theorem parseMajorVersion_joined (hdot : '.' ∉ first.toList) (second : String)
    (rest : List String) :
    parseMajorVersion (", ".intercalate (first :: second :: rest)) = none := by
  obtain ⟨back, htrim⟩ := trim_joined hfirst second rest
  have hpos : ∀ c ∈ first.toList, (!(c == '.')) = true := by
    intro c hc
    rw [Bool.not_eq_true', beq_eq_false_iff_ne]
    intro heq
    rw [heq] at hc
    exact hdot hc
  rw [parseMajorVersion_eq, htrim, List.takeWhile_append_of_pos hpos]
  apply parseU32_comma
  rw [List.takeWhile_cons, if_pos (by decide)]
  exact List.mem_append_right _ List.mem_cons_self

end joined

theorem checkA2aVersion_isOk (params : ServiceParams) :
    (checkA2aVersion params).isOk = true ↔
      parseMajorVersion (requestedVersion params) = some supportedMajorVersion := by
  rw [checkA2aVersion]
  by_cases h : parseMajorVersion (requestedVersion params) = some supportedMajorVersion
  · rw [if_pos h]
    exact iff_of_true rfl h
  · rw [if_neg h]
    exact iff_of_false Bool.false_ne_true h

/-! ## portable parameters -/

section portable

variable {layers : Layers} (client : ClientParams layers)

/-- SLIMRPC keeps no name of its own that a parameter is looked up under. -/
theorem lowerKey_not_mem {key : String} (h : isReservedIdentityKey key = false) :
    lowerKey key ∉ reservedIdentityKeys := by
  intro hmem
  have hsame : ∀ reserved ∈ reservedIdentityKeys, lowerKey reserved = reserved := by
    intro reserved hreserved
    simp only [reservedIdentityKeys, List.mem_cons, List.not_mem_nil, or_false] at hreserved
    rcases hreserved with h | h | h
    all_goals rw [h]
    all_goals decide
  have hany : isReservedIdentityKey key = true := by
    rw [isReservedIdentityKey, List.any_eq_true]
    exact ⟨lowerKey key, hmem, eqIgnoreAsciiCase_iff.mpr (lowerKey_lowerKey key).symm⟩
  rw [h] at hany
  cases hany

/-- Whatever the orders, something arrives on each binding. -/
theorem arrives (order : Binding → AList fun _ : String => List String)
    (horder : ∀ binding, (order binding).toFinmap = client.params) :
    ∃ got : Binding → ServiceParams,
      (∀ binding, received layers binding (order binding).entries = some (got binding)) ∧
      (∀ binding, binding ≠ .slimrpc → ∀ name, name ∉ layers.reserved →
        (got binding).lookup name = asHeaders name (order binding).entries) ∧
      ∀ name, name ∉ reservedIdentityKeys →
        (got .slimrpc).lookup name = asJoined client.params name := by
  obtain ⟨http, hhttp, hhttpLookup⟩ := received_http client (horder .http)
  obtain ⟨grpc, hgrpc, hgrpcLookup⟩ := received_grpc client (horder .grpc)
  obtain ⟨slim, hslim, hslimLookup⟩ := received_slim client (horder .slimrpc)
  refine ⟨fun | .http => http | .grpc => grpc | .slimrpc => slim, ?_, ?_, hslimLookup⟩
  · intro binding
    cases binding with
    | http => exact hhttp
    | grpc => exact hgrpc
    | slimrpc => exact hslim
  · intro binding hbinding
    cases binding with
    | http => exact hhttpLookup
    | grpc => exact hgrpcLookup
    | slimrpc => exact absurd rfl hbinding

variable {client} (hportable : Portable client.params)

include hportable

/-- A portable parameter under a name in lower case has values. -/
theorem Portable.ne_nil {name : String} (hname : lowerKey name = name) {values : List String}
    (h : client.params.lookup name = some values) : values ≠ [] :=
  (hportable.lower name values h).mpr hname

/-- Over HTTP and gRPC portable parameters are as they were. -/
theorem Portable.asHeaders_eq {order : AList fun _ : String => List String}
    (horder : order.toFinmap = client.params) {name : String} (hname : lowerKey name = name) :
    asHeaders name order.entries = client.params.lookup name := by
  have hown : ∀ entry ∈ order.entries, lowerKey entry.1 = name → entry.2 ≠ [] → entry.1 = name := by
    intro entry hentry hkey hne
    have hlower := (hportable.lower entry.1 entry.2 ((mem_entries horder entry).mp hentry)).mp hne
    rw [← hlower]
    exact hkey
  cases hlookup : client.params.lookup name with
  | none =>
      have hempty : valuesAt name order.entries = [] := by
        apply valuesAt_eq_nil
        intro entry hentry hkey
        by_contra hne
        have hmem := (mem_entries horder entry).mp hentry
        rw [hown entry hentry hkey hne, hlookup] at hmem
        cases hmem
      rw [asHeaders, hempty]
  | some values =>
      have hmem : (⟨name, values⟩ : ParamEntry) ∈ order.entries :=
        (mem_entries horder ⟨name, values⟩).mpr hlookup
      have hnodup : order.entries.Nodup := order.nodupKeys.nodup
      have hvalues : valuesAt name order.entries = values := by
        apply valuesAt_eq hnodup hmem hname
        intro other hother hne hkey
        by_contra hsome
        have hsame := hown other hother hkey hsome
        have hlookup' := (mem_entries horder other).mp hother
        rw [hsame, hlookup, Option.some.injEq] at hlookup'
        apply hne
        rw [← hsame, hlookup']
      have hne := hportable.ne_nil hname hlookup
      rw [asHeaders, hvalues]
      cases values with
      | nil => exact absurd rfl hne
      | cons first rest => rfl

/-- As they were, portable parameters hold exactly. -/
theorem Portable.holds {got : ServiceParams}
    (hgot : ∀ key ∈ client.params, got.lookup (lowerKey key) = client.params.lookup (lowerKey key) ∨
      got.lookup (lowerKey key) = asJoined client.params (lowerKey key)) :
    HoldsExactly got client.params := by
  intro key values hlookup
  have hfound := hgot key (Finmap.mem_of_lookup_eq_some hlookup)
  by_cases hvalues : values = []
  · rw [if_pos hvalues]
    rw [hvalues] at hlookup
    have habsent := Finmap.lookup_eq_none.mpr (hportable.apart key hlookup)
    rw [asJoined, habsent] at hfound
    have hnone : got.lookup (lowerKey key) = none := by
      rcases hfound with h | h
      · exact h
      · exact h
    rw [hnone, Option.getD_none]
  · rw [if_neg hvalues]
    rw [(hportable.lower key values hlookup).mp hvalues] at hfound ⊢
    rw [asJoined, hlookup] at hfound
    exact hfound

/-- Joined or not, portable parameters activate the same extensions. -/
theorem Portable.activatedExtensions_eq {got : ServiceParams}
    (hgot : got.lookup "a2a-extensions" = asJoined client.params "a2a-extensions") :
    activatedExtensions got = activatedExtensions client.params := by
  rw [A2a.activatedExtensions_eq, A2a.activatedExtensions_eq, hgot, asJoined]
  cases hlookup : client.params.lookup "a2a-extensions" with
  | none => rfl
  | some values =>
      have hne := hportable.ne_nil (by decide) hlookup
      cases values with
      | nil => exact absurd rfl hne
      | cons first rest => exact activated_joined first rest

/-- Joined or not, portable parameters ask for a version alike. -/
theorem Portable.checkA2aVersion_eq {got : ServiceParams}
    (hgot : got.lookup "a2a-version" = asJoined client.params "a2a-version") :
    (checkA2aVersion got).isOk = (checkA2aVersion client.params).isOk := by
  have hversion := hportable.version
  rw [Bool.eq_iff_iff, checkA2aVersion_isOk, checkA2aVersion_isOk, requestedVersion,
    requestedVersion, hgot, asJoined]
  cases hlookup : client.params.lookup "a2a-version" with
  | none => exact Iff.rfl
  | some values =>
      have hvisible := client.visible _ _ hlookup
      have hne := hportable.ne_nil (by decide) hlookup
      cases values with
      | nil => exact absurd rfl hne
      | cons first others =>
          cases others with
          | nil =>
              change parseMajorVersion (", ".intercalate [first]) = _ ↔ parseMajorVersion first = _
              rw [String.intercalate_singleton]
          | cons second rest =>
              change parseMajorVersion (", ".intercalate (first :: second :: rest)) = _ ↔
                parseMajorVersion first = _
              have hfirst := hvisible first List.mem_cons_self
              by_cases hdot : '.' ∈ first.toList
              · rw [parseMajorVersion_joined_dot hfirst hdot]
              · have hunsupported := (hversion first second rest hlookup).resolve_left hdot
                rw [parseMajorVersion_joined hfirst hdot]
                exact iff_of_false (by decide) hunsupported

theorem Portable.meansTheSame : MeansTheSame layers client.params := by
  intro order horder
  obtain ⟨got, hgot, hheaders, hjoined⟩ := arrives client order horder
  have hsame : ∀ binding, binding ≠ .slimrpc → ∀ name, name ∉ layers.reserved →
      lowerKey name = name → (got binding).lookup name = client.params.lookup name := by
    intro binding hbinding name hname hlower
    rw [hheaders binding hbinding name hname, hportable.asHeaders_eq (horder binding) hlower]
  have hextensions : ∀ binding,
      activatedExtensions (got binding) = activatedExtensions client.params := by
    intro binding
    by_cases hbinding : binding = .slimrpc
    · rw [hbinding]
      exact hportable.activatedExtensions_eq (hjoined "a2a-extensions" (by decide))
    · rw [A2a.activatedExtensions_eq, A2a.activatedExtensions_eq,
        hsame binding hbinding "a2a-extensions" layers.extensions_free (by decide)]
  have hversion : ∀ binding,
      (checkA2aVersion (got binding)).isOk = (checkA2aVersion client.params).isOk := by
    intro binding
    by_cases hbinding : binding = .slimrpc
    · rw [hbinding]
      exact hportable.checkA2aVersion_eq (hjoined "a2a-version" (by decide))
    · rw [Bool.eq_iff_iff, checkA2aVersion_isOk, checkA2aVersion_isOk, requestedVersion,
        requestedVersion, hsame binding hbinding "a2a-version" layers.version_free (by decide)]
  refine ⟨got, hgot, ?_, ?_, ?_⟩
  · intro binding
    apply hportable.holds
    intro key hkey
    have hfree := client.not_reserved key hkey
    by_cases hbinding : binding = .slimrpc
    · rw [hbinding]
      exact Or.inr (hjoined _ (lowerKey_not_mem hfree.2))
    · exact Or.inl (hsame binding hbinding _ hfree.1 (lowerKey_lowerKey key))
  · intro handler b₁ b₂
    exact requireExtensions_congr handler ((hextensions b₁).trans (hextensions b₂).symm)
  · intro b₁ b₂
    exact (hversion b₁).trans (hversion b₂).symm

end portable

/-! ## parameters that mean the same -/

section same

variable {layers : Layers} {client : ClientParams layers}

/-- Parameters are walked in some order. -/
theorem exists_order (params : ServiceParams) :
    ∃ order : AList (fun _ : String => List String), order.toFinmap = params := by
  induction params using Finmap.induction_on with
  | _ order => exact ⟨order, rfl⟩

/-- What arrives of parameters that mean the same, in one order. -/
theorem MeansTheSame.arrives (h : MeansTheSame layers client.params) :
    ∃ (order : AList fun _ : String => List String) (http slim : ServiceParams),
      order.toFinmap = client.params ∧
      (∀ name, name ∉ layers.reserved → http.lookup name = asHeaders name order.entries) ∧
      (∀ name, name ∉ reservedIdentityKeys → slim.lookup name = asJoined client.params name) ∧
      HoldsExactly http client.params ∧ HoldsExactly slim client.params ∧
      (checkA2aVersion http).isOk = (checkA2aVersion slim).isOk := by
  obtain ⟨order, horder⟩ := exists_order client.params
  obtain ⟨got, hgot, hholds, -, hversion⟩ := h (fun _ => order) fun _ => horder
  obtain ⟨http, hhttp, hhttpLookup⟩ := received_http client horder
  obtain ⟨slim, hslim, hslimLookup⟩ := received_slim client horder
  have hhttpGot : http = got .http := Option.some.inj (hhttp.symm.trans (hgot .http))
  have hslimGot : slim = got .slimrpc := Option.some.inj (hslim.symm.trans (hgot .slimrpc))
  refine ⟨order, http, slim, horder, hhttpLookup, hslimLookup, ?_, ?_, ?_⟩
  · rw [hhttpGot]
    exact hholds .http
  · rw [hslimGot]
    exact hholds .slimrpc
  · rw [hhttpGot, hslimGot]
    exact hversion .http .slimrpc

/-- A parameter without values is not joined to an empty one. -/
theorem MeansTheSame.apart (h : MeansTheSame layers client.params) {key : String}
    (hlookup : client.params.lookup key = some []) : lowerKey key ∉ client.params := by
  obtain ⟨_, _, slim, _, _, hjoined, _, hslim, _⟩ := h.arrives
  intro hmem
  obtain ⟨values, hvalues⟩ := Finmap.mem_iff.mp hmem
  have hfree := client.not_reserved key (Finmap.mem_of_lookup_eq_some hlookup)
  have hempty := hslim key [] hlookup
  rw [if_pos rfl, hjoined _ (lowerKey_not_mem hfree.2), asJoined, hvalues] at hempty
  cases hempty

/-- Where headers hold exactly, the values of a name are one parameter's. -/
theorem HoldsExactly.valuesAt_eq {http : ServiceParams}
    {order : AList fun _ : String => List String}
    (hheaders : ∀ name, name ∉ layers.reserved → http.lookup name = asHeaders name order.entries)
    (hhttp : HoldsExactly http client.params) {key : String} {values : List String}
    (hlookup : client.params.lookup key = some values) (hvalues : values ≠ []) :
    valuesAt (lowerKey key) order.entries = values ∨
      valuesAt (lowerKey key) order.entries = [", ".intercalate values] := by
  have hfree := client.not_reserved key (Finmap.mem_of_lookup_eq_some hlookup)
  have hfound := hhttp key values hlookup
  rw [if_neg hvalues, hheaders _ hfree.1, asHeaders] at hfound
  cases hat : valuesAt (lowerKey key) order.entries with
  | nil =>
      rw [hat] at hfound
      rcases hfound with hfound | hfound
      · cases hfound
      · cases hfound
  | cons first rest =>
      rw [hat] at hfound
      rcases hfound with hfound | hfound
      · exact Or.inl (Option.some.inj hfound)
      · exact Or.inr (Option.some.inj hfound)

/-- A parameter that has values is found over SLIMRPC only under its own
name, and no other adds to it over HTTP. -/
theorem MeansTheSame.lower (h : MeansTheSame layers client.params) {key : String}
    {values : List String} (hlookup : client.params.lookup key = some values) (hvalues : values ≠ []) :
    lowerKey key = key := by
  obtain ⟨order, http, slim, horder, hheaders, hjoined, hhttp, hslim, _⟩ := h.arrives
  have hfree := client.not_reserved key (Finmap.mem_of_lookup_eq_some hlookup)
  have hfound := hslim key values hlookup
  rw [if_neg hvalues, hjoined _ (lowerKey_not_mem hfree.2), asJoined] at hfound
  cases hlower : client.params.lookup (lowerKey key) with
  | none =>
      rw [hlower] at hfound
      rcases hfound with hfound | hfound
      · cases hfound
      · cases hfound
  | some others =>
      by_contra hkey
      have hothers : others ≠ [] := by
        intro hempty
        rw [hempty] at hlower
        have hapart := h.apart hlower
        rw [lowerKey_lowerKey] at hapart
        exact hapart (Finmap.mem_of_lookup_eq_some hlower)
      have hin : (⟨key, values⟩ : ParamEntry) ∈ order.entries :=
        (mem_entries horder ⟨key, values⟩).mpr hlookup
      have hin' : (⟨lowerKey key, others⟩ : ParamEntry) ∈ order.entries :=
        (mem_entries horder ⟨lowerKey key, others⟩).mpr hlower
      have hne : (⟨key, values⟩ : ParamEntry) ≠ ⟨lowerKey key, others⟩ := by
        intro heq
        exact hkey (congrArg Sigma.fst heq).symm
      have hlength : values.length + others.length ≤
          (valuesAt (lowerKey key) order.entries).length :=
        length_valuesAt hin hin' hne rfl (lowerKey_lowerKey key)
      have hpos := List.length_pos_iff.mpr hvalues
      have hpos' := List.length_pos_iff.mpr hothers
      rcases hhttp.valuesAt_eq hheaders hlookup hvalues with hat | hat
      · rw [hat] at hlength
        omega
      · rw [hat, List.length_singleton] at hlength
        omega

theorem MeansTheSame.version (h : MeansTheSame layers client.params) {first second : String}
    {rest : List String}
    (hlookup : client.params.lookup "a2a-version" = some (first :: second :: rest)) :
    '.' ∈ first.toList ∨ parseMajorVersion first ≠ some supportedMajorVersion := by
  obtain ⟨order, http, slim, horder, hheaders, hjoined, hhttp, _, hversion⟩ := h.arrives
  have hlower : lowerKey "a2a-version" = "a2a-version" := by decide
  have hat : valuesAt "a2a-version" order.entries = first :: second :: rest := by
    have hin := (mem_entries horder ⟨"a2a-version", first :: second :: rest⟩).mpr hlookup
    have hlength := le_length_valuesAt hin hlower
    have hvalues := hhttp.valuesAt_eq hheaders hlookup (List.cons_ne_nil _ _)
    rw [hlower] at hvalues
    rcases hvalues with hat | hat
    · exact hat
    · rw [hat, List.length_singleton, List.length_cons, List.length_cons] at hlength
      omega
  by_contra hnot
  rw [not_or, not_not] at hnot
  have haccepted : (checkA2aVersion http).isOk = true := by
    rw [checkA2aVersion_isOk, requestedVersion, hheaders _ layers.version_free, asHeaders, hat]
    exact hnot.2
  rw [haccepted, eq_comm, checkA2aVersion_isOk, requestedVersion, hjoined _ (by decide), asJoined,
    hlookup] at hversion
  have hread : parseMajorVersion (", ".intercalate (first :: second :: rest)) =
      some supportedMajorVersion := hversion
  have hfirst := client.visible _ _ hlookup first List.mem_cons_self
  rw [parseMajorVersion_joined hfirst hnot.1] at hread
  cases hread

/-- **Parameters mean the same on every binding exactly if they are
portable.** -/
theorem meansTheSame_iff (layers : Layers) (client : ClientParams layers) :
    MeansTheSame layers client.params ↔ Portable client.params := by
  constructor
  · intro h
    refine ⟨?_, fun key hlookup => h.apart hlookup, fun _ _ _ hlookup => h.version hlookup⟩
    intro key values hlookup
    constructor
    · intro hvalues
      exact h.lower hlookup hvalues
    · intro hlower hempty
      rw [hempty] at hlookup
      have hapart := h.apart hlookup
      rw [hlower] at hapart
      exact hapart (Finmap.mem_of_lookup_eq_some hlookup)
  · intro hportable
    exact hportable.meansTheSame

end same

/-- Layers that put nothing into a request, over a `slim_rpc` of some keys. -/
def plainLayers : Layers where
  http := []
  grpc := []
  keys := ⟨"slimrpc-timeout", "slimrpc-code", "slimrpc-dir"⟩
  slim := []
  identity := ⟨none, none, none⟩
  reserved := []
  http_reserved := fun _ h => absurd h List.not_mem_nil
  grpc_reserved := fun _ h => absurd h List.not_mem_nil
  slim_internal := fun _ h => absurd h List.not_mem_nil
  version_free := List.not_mem_nil
  extensions_free := List.not_mem_nil

/-- The parameters an `A2AClient` sends by default. -/
def defaultParams : ServiceParams := Finmap.singleton svcParamVersion ["1.0"]

theorem key_defaultParams {key : String} (h : key ∈ defaultParams) : key = "A2A-Version" :=
  (Finmap.mem_singleton _ _ _).mp h

def defaultClient : ClientParams plainLayers where
  params := defaultParams
  header_names := by
    intro key h
    rw [key_defaultParams h]
    decide
  not_binary := by
    intro key h
    rw [key_defaultParams h]
    decide
  not_reserved := by
    intro key h
    rw [key_defaultParams h]
    exact ⟨List.not_mem_nil, by decide⟩
  not_internal := by
    intro key h
    rw [key_defaultParams h]
    decide
  visible := by
    intro key values h
    have hkey := key_defaultParams (Finmap.mem_of_lookup_eq_some h)
    have hvalues : some values = some ["1.0"] := by
      rw [← h, hkey]
      rfl
    rw [Option.some.inj hvalues]
    decide

/-- The version a client gives by default is another parameter over
SLIMRPC. -/
theorem defaultClient_differs : ¬ MeansTheSame plainLayers defaultClient.params := by
  intro h
  have hlookup : defaultClient.params.lookup "A2A-Version" = some ["1.0"] := rfl
  have hlower := h.lower hlookup (by decide)
  revert hlower
  decide

end A2a
