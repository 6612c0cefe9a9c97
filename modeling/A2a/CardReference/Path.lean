import A2a.CardReference.Scheme

/-!
# A2a.CardReference.Path

When a bare reference gets the right URL (`bareReference_iff`): the scheme
by its host, the well-known path by its own.

The code takes the host from the reference up to its first colon, path and
user info included, and a slash anywhere for the begin of a path.
-/

namespace A2a

open Whatwg

/-! ## paths -/

/-- A path of more than slashes. -/
def OwnPath (reference : List Char) : Prop := ∃ c ∈ path (input reference), slash c = false

/-- A URL's text after its scheme. -/
def afterScheme (text : List Char) : List Char := (text.dropWhile fun c => decide (c ≠ ':')).tail

/-- The well-known path is appended to a reference's path exactly if it has
none of its own. -/
def PathRight (scheme reference text : List Char) : Prop :=
  (OwnPath reference → text = scheme ++ schemeEnd ++ reference) ∧
    (¬OwnPath reference →
      path (input (afterScheme text)) =
        trimSlashes (path (input reference)) ++ wellKnownAgentCardPath)

/-- A slash with something after it is in the path of a reference that has
one, and nowhere in another; that one is a host without a query, and without
blanks after slashes. -/
def PlainPath (reference : List Char) : Prop :=
  (OwnPath reference ↔ '/' ∈ trimSlashes reference) ∧
    (¬OwnPath reference → afterPath (clean reference) = [] ∧ authority (clean reference) ≠ [] ∧
      ∀ c ∈ path (clean reference), slash c = true)

theorem afterScheme_eq {scheme : List Char} (hscheme : scheme = http ∨ scheme = https)
    (rest : List Char) : afterScheme (scheme ++ ':' :: rest) = rest := by
  rcases hscheme with rfl | rfl <;> rfl

theorem trimSlashes_of_not_mem {front slashes : List Char} (h : '/' ∉ front)
    (hall : ∀ c ∈ slashes, c = '/') : trimSlashes (front ++ slashes) = front := by
  have hfront : trimSlashes front = front := by
    apply rdropWhile_of_getLast
    intro c hc
    rw [decide_eq_false_iff_not]
    rintro rfl
    exact h (List.mem_of_getLast? hc)
  rw [trimSlashes_append hfront, trimSlashes, List.rdropWhile_eq_nil_iff.mpr, List.append_nil]
  intro c hc
  exact decide_eq_true (hall c hc)

/-- What ends in the well-known path is more than slashes. -/
theorem ownPath_of_wellKnown {reference : List Char} (front : List Char)
    (h : path (input reference) = front ++ wellKnownAgentCardPath) : OwnPath reference := by
  refine ⟨'w', ?_, by decide⟩
  rw [h]
  exact List.mem_append_right _ (by decide)

theorem clean_slashes {slashes : List Char} (hall : ∀ c ∈ slashes, c = '/') :
    clean slashes = slashes := by
  apply clean_of_not_ignored
  intro c hc
  rw [hall c hc]
  decide

/-- Nothing but slashes is before the well-known path, which then loses its
own. -/
theorem path_wellKnown_ne {front : List Char} (hne : afterSlashes front = []) (own : List Char) :
    path (front ++ wellKnownAgentCardPath) ≠ own ++ wellKnownAgentCardPath := by
  have hskipped : afterSlashes (front ++ wellKnownAgentCardPath) =
      afterSlashes wellKnownAgentCardPath := by
    unfold afterSlashes at hne ⊢
    exact List.dropWhile_append_of_pos (List.dropWhile_eq_nil_iff.mp hne)
  intro h
  have hlength := congrArg List.length h
  rw [List.length_append, path, afterAuthority, hskipped] at hlength
  have hshort : ((afterSlashes wellKnownAgentCardPath).dropWhile
      fun c => !endsAuthority c).length = 16 := rfl
  have hknown : wellKnownAgentCardPath.length = 28 := rfl
  have hle := (List.takeWhile_sublist (l := (afterSlashes wellKnownAgentCardPath).dropWhile
    fun c => !endsAuthority c) fun c => !endsPath c).length_le
  omega

section NoPath

variable {reference : List Char}

/-- A reference without a path of its own has at most slashes there. -/
theorem slash_of_not_ownPath (hown : ¬OwnPath reference) {c : Char}
    (hc : c ∈ path (input reference)) : slash c = true := by
  by_contra hno
  exact hown ⟨c, hc, Bool.eq_false_iff.mpr hno⟩

/-- With the blanks at its end it still has no letter. -/
theorem not_mem_path_clean (hown : ¬OwnPath reference) : 'w' ∉ path (clean reference) := by
  obtain ⟨blanks, hblank, hblanks⟩ := clean_eq_input_append reference
  intro hw
  rw [hblank] at hw
  obtain heq | heq := path_append_blanks hblanks (input reference)
  · rw [heq] at hw
    exact absurd (slash_of_not_ownPath hown hw) (by decide)
  · rw [heq] at hw
    obtain hw | hw := List.mem_append.mp hw
    · exact absurd (slash_of_not_ownPath hown hw) (by decide)
    · exact absurd (hblanks _ hw) (by decide)

/-- A path of slashes has no blanks at its end. -/
theorem path_input_eq_clean (honly : ∀ c ∈ path (clean reference), slash c = true) :
    path (input reference) = path (clean reference) := by
  obtain ⟨blanks, hblank, hblanks⟩ := clean_eq_input_append reference
  rw [hblank] at honly ⊢
  obtain heq | heq := path_append_blanks hblanks (input reference)
  · exact heq.symm
  · cases blanks with
    | nil => rw [heq, List.append_nil]
    | cons c blanks =>
        have hc := honly c (by rw [heq]; simp)
        have hnot := not_endsAuthority_of_isBlank (hblanks c List.mem_cons_self)
        rw [endsAuthority, hc, Bool.true_or] at hnot
        exact absurd hnot.symm Bool.false_ne_true

/-- Where no slash is before the end, the well-known path is the end of the
path exactly if there is a host, nothing after its path, and no blank in it. -/
theorem path_appended_iff (hown : ¬OwnPath reference) (hslash : '/' ∉ trimSlashes reference) :
    path (clean (trimSlashes reference) ++ wellKnownAgentCardPath) =
        trimSlashes (path (input reference)) ++ wellKnownAgentCardPath ↔
      afterPath (clean reference) = [] ∧ authority (clean reference) ≠ [] ∧
        ∀ c ∈ path (clean reference), slash c = true := by
  obtain ⟨slashes, hsplit, hall⟩ := trimSlashes_split reference
  have hclean : clean reference = clean (trimSlashes reference) ++ slashes := by
    conv => lhs; rw [hsplit]
    rw [clean_append, clean_slashes hall]
  have hfront : '/' ∉ clean (trimSlashes reference) := fun h => hslash (List.mem_filter.mp h).1
  have hhead : ∀ c ∈ slashes.head?, c = '/' := fun c hc => hall c (List.mem_of_mem_head? hc)
  have hends : ∀ c ∈ slashes, endsPath c = false := by
    intro c hc
    rw [hall c hc]
    decide
  have hknown : ∀ c ∈ wellKnownAgentCardPath.head?, c = '/' := by
    intro c hc
    exact (Option.some.inj hc).symm
  have hw := not_mem_path_clean hown
  have hsame : (∀ c ∈ path (clean reference), slash c = true) →
      path (input reference) = path (clean reference) := path_input_eq_clean
  rw [hclean] at hw hsame ⊢
  generalize clean (trimSlashes reference) = front at hfront hw hsame ⊢
  by_cases hne : afterSlashes front = []
  · refine iff_of_false (path_wellKnown_ne hne _) ?_
    rintro ⟨_, hauthority, _⟩
    apply hauthority
    have hnone : afterSlashes (front ++ slashes) = [] := by
      unfold afterSlashes at hne ⊢
      rw [List.dropWhile_eq_nil_iff] at hne ⊢
      refine List.forall_mem_append.mpr ⟨hne, fun c hc => ?_⟩
      rw [hall c hc]
      decide
    rw [authority, hnone]
    rfl
  · by_cases hquery : afterPath front = []
    · have hplain := path_append hne hquery hhead hends
      have hnone : wellKnownAgentCardPath.all (fun c => !endsPath c) = true := rfl
      have happended := path_append hne hquery hknown
        fun c hc => by simpa using List.all_eq_true.mp hnone c hc
      have hinside : '/' ∉ path front := by
        intro hmem
        have hsub := List.takeWhile_subset _ hmem
        have hsub := (List.dropWhile_suffix _).subset hsub
        exact hfront ((List.dropWhile_suffix _).subset hsub)
      rw [hplain.1] at hsame ⊢
      rw [happended.1]
      constructor
      · intro h
        refine ⟨hplain.2, authority_ne_nil hne hquery slashes, ?_⟩
        refine List.forall_mem_append.mpr ⟨fun c hc => ?_, fun c hc => ?_⟩
        · rw [List.append_cancel_right h] at hc
          exact slash_of_not_ownPath hown ((List.rdropWhile_prefix _ _).subset hc)
        · rw [hall c hc]
          decide
      · rintro ⟨_, _, honly⟩
        rw [hsame honly, trimSlashes_of_not_mem hinside hall]
    · have hplain := path_append_of_query hquery slashes
      have happended := path_append_of_query hquery wellKnownAgentCardPath
      refine iff_of_false ?_ fun h => hplain.2 h.1
      intro h
      rw [happended.1] at h
      rw [hplain.1, h] at hw
      exact hw (List.mem_append_right _ (by decide))

end NoPath

/-- A text after two slashes is read as it is without them. -/
theorem path_input_slashes (cs : List Char) :
    path (input ('/' :: '/' :: cs)) = path (input cs) := by
  have hkept : (['/', '/'] : List Char).rdropWhile isBlank = ['/', '/'] := by decide
  have hclean : clean ['/', '/'] = ['/', '/'] := by decide
  have hinput : input ('/' :: '/' :: cs) = ['/', '/'] ++ input cs := by
    have h := rdropWhile_append hkept cs
    rw [List.cons_append, List.cons_append, List.nil_append] at h
    rw [input, h, clean_append, hclean]
    rfl
  rw [hinput]
  rfl

/-- A reference that the well-known path is appended to is not left as it is. -/
theorem appended_ne (lead reference : List Char) :
    lead ++ trimSlashes reference ++ wellKnownAgentCardPath ≠ lead ++ reference := by
  intro h
  rw [List.append_assoc] at h
  have hreference := List.append_cancel_left h
  have hkept : trimSlashes wellKnownAgentCardPath = wellKnownAgentCardPath := by decide
  have hlength := congrArg (fun cs => (trimSlashes cs).length) hreference
  have hfront : trimSlashes (trimSlashes reference) = trimSlashes reference :=
    List.rdropWhile_idempotent _ _
  simp only [trimSlashes_append hfront, hkept, List.length_append] at hlength
  have hknown : 0 < wellKnownAgentCardPath.length := by decide
  omega

/-- The path of a URL that the well-known path was appended to. -/
theorem path_input_appended {scheme : List Char} (hscheme : scheme = http ∨ scheme = https)
    (reference : List Char) :
    path (input (afterScheme
        (scheme ++ schemeEnd ++ trimSlashes reference ++ wellKnownAgentCardPath))) =
      path (clean (trimSlashes reference) ++ wellKnownAgentCardPath) := by
  rw [List.append_assoc, List.append_assoc]
  change path (input (afterScheme (scheme ++ ':' :: '/' :: '/' ::
    (trimSlashes reference ++ wellKnownAgentCardPath)))) = _
  rw [afterScheme_eq hscheme, path_input_slashes]
  have hlast : wellKnownAgentCardPath.getLast? = some 'n' := rfl
  have hknown : clean wellKnownAgentCardPath = wellKnownAgentCardPath := by decide
  rw [input, rdropWhile_of_getLast, clean_append, hknown]
  intro c hc
  rw [List.getLast?_append, hlast] at hc
  obtain rfl := Option.some.inj hc
  decide

/-- **The path is right** exactly where the reference is plain. -/
theorem pathRight_iff {scheme reference : List Char} (hscheme : scheme = http ∨ scheme = https)
    (hslash : reference.head? ≠ some '/') :
    PathRight scheme reference (appendWellKnownPath (scheme ++ schemeEnd ++ reference)) ↔
      PlainPath reference := by
  by_cases hempty : reference = []
  · subst hempty
    have hown : ¬OwnPath [] := by
      rintro ⟨c, hc, _⟩
      cases hc
    have hno : path (input wellKnownAgentCardPath) ≠
        trimSlashes (path (input [])) ++ wellKnownAgentCardPath := by decide
    rw [appendWellKnownPath_nil hscheme]
    refine iff_of_false ?_ fun h => (h.2 hown).2.1 rfl
    intro h
    have hpath := h.2 hown
    rw [afterScheme_eq hscheme] at hpath
    exact hno hpath
  · have happend := appendWellKnownPath_eq hscheme hempty hslash
    unfold PathRight PlainPath
    by_cases hinside : '/' ∈ trimSlashes reference
    · rw [if_pos hinside] at happend
      rw [happend]
      constructor
      · rintro ⟨_, hpath⟩
        have hown : OwnPath reference := by
          by_contra hown
          have heq := hpath hown
          rw [List.append_assoc] at heq
          change path (input (afterScheme (scheme ++ ':' :: '/' :: '/' :: reference))) = _ at heq
          rw [afterScheme_eq hscheme, path_input_slashes] at heq
          exact hown (ownPath_of_wellKnown _ heq)
        exact ⟨iff_of_true hown hinside, fun h => absurd hown h⟩
      · rintro ⟨hown, _⟩
        exact ⟨fun _ => rfl, fun h => absurd (hown.mpr hinside) h⟩
    · rw [if_neg hinside] at happend
      rw [happend]
      have hread := path_input_appended hscheme reference
      rw [hread]
      constructor
      · rintro ⟨hleft, hpath⟩
        have hown : ¬OwnPath reference := fun h => appended_ne _ _ (hleft h)
        exact ⟨iff_of_false hown hinside, fun h => (path_appended_iff h hinside).mp (hpath h)⟩
      · rintro ⟨hiff, hhost⟩
        have hown : ¬OwnPath reference := fun h => hinside (hiff.mp h)
        exact ⟨fun h => absurd h hown, fun h => (path_appended_iff h hinside).mpr (hhost h)⟩

/-! ## the URL of a bare reference -/

/-- `http` for a loopback host, `https` for any other. -/
def SchemeRight (url : ParsedUrl) : Prop :=
  (url.scheme = http ↔ url.host.isLoopback = true) ∧
    (url.scheme = https ↔ url.host.isLoopback = false)

/-- A loopback host is what its reference begins with, as it is usually
written; and user info begins with one only if the host is one too. -/
def PlainHost (reference : List Char) (host : Host) : Prop :=
  (host.isLoopback = true → BeginsLoopback reference) ∧
    (BeginsLoopback reference → HasUserInfo reference → host.isLoopback = true)

variable {parser : Parser} {onDisk : List Char → Bool} {reference text : List Char}
  {url : ParsedUrl}

/-- What a reference that is neither a URL nor a file is made into. -/
theorem normalizeCardReference_bare (hbare : splitOnceText schemeEnd reference = none)
    (hfile : looksLikeFilePath onDisk reference = false) :
    normalizeCardReference onDisk reference =
      .url (appendWellKnownPath
        ((if isLoopbackHost reference then http else https) ++ schemeEnd ++ reference)) := by
  have hscheme : fileScheme.isPrefixOf reference = false := by
    rw [Bool.eq_false_iff]
    intro h
    obtain ⟨rest, rfl⟩ := List.isPrefixOf_iff_prefix.mp h
    have hsome : splitOnceText schemeEnd (fileScheme ++ rest) = some (fileScheme.take 4, rest) := rfl
    rw [hbare] at hsome
    cases hsome
  unfold normalizeCardReference
  rw [if_neg (by simp [hscheme]), if_pos (by simp [hbare]), if_neg (by simp [hfile])]

theorem head_of_not_file (hfile : looksLikeFilePath onDisk reference = false) :
    reference.head? ≠ some '/' := by
  intro hhead
  obtain ⟨rest, rfl⟩ := List.head?_eq_some_iff.mp hhead
  simp [looksLikeFilePath, pathShapes] at hfile

theorem schemeRight_iff (hparser : parser.Documented) (hscheme : url.scheme = http ∨ url.scheme = https)
    (hloop : url.scheme = http ↔ isLoopbackHost reference = true)
    (hparse : parser.parse (appendWellKnownPath (url.scheme ++ schemeEnd ++ reference)) = some url) :
    SchemeRight url ↔ PlainHost reference url.host := by
  have hbegins := isLoopbackHost_iff hparser hscheme hparse
  have hnot : url.scheme = https ↔ url.scheme ≠ http := by
    rcases hscheme with h | h <;> rw [h] <;> decide
  have hplain : BeginsLoopback reference → ¬HasUserInfo reference → url.host.isLoopback = true :=
    fun h huser => isLoopback_of_begins hparser hscheme h huser hparse
  unfold SchemeRight PlainHost
  rw [hnot, ne_eq, hloop, hbegins]
  cases hhost : url.host.isLoopback with
  | true => simp
  | false =>
      have huser : BeginsLoopback reference → HasUserInfo reference := by
        intro h
        by_contra huser
        rw [hplain h huser] at hhost
        cases hhost
      constructor
      · rintro ⟨h, _⟩
        exact ⟨fun h' => absurd h' (by simp), fun h' _ => h.mp h'⟩
      · rintro ⟨_, h⟩
        have hno : ¬BeginsLoopback reference := fun h' => absurd (h h' (huser h')) (by simp)
        simp [hno]

/-- **What a bare reference is made into**: where the URL is one, its scheme
is the one for its host and the well-known path is appended to a reference
without a path, exactly if a loopback host is plain, no user info passes for
one, and the path is plain. -/
theorem bareReference_iff (hparser : parser.Documented)
    (hbare : splitOnceText schemeEnd reference = none)
    (hfile : looksLikeFilePath onDisk reference = false)
    (hurl : normalizeCardReference onDisk reference = .url text)
    (hparse : parser.parse text = some url) :
    SchemeRight url ∧ PathRight url.scheme reference text ↔
      PlainHost reference url.host ∧ PlainPath reference := by
  rw [normalizeCardReference_bare hbare hfile] at hurl
  have htext := CardReference.url.inj hurl
  have hscheme : (if isLoopbackHost reference then http else https) = http ∨
      (if isLoopbackHost reference then http else https) = https := by
    split
    · exact .inl rfl
    · exact .inr rfl
  have hslash := head_of_not_file hfile
  have hread : url.scheme = if isLoopbackHost reference then http else https := by
    by_cases hempty : reference = []
    · rw [hempty, appendWellKnownPath_nil (hempty ▸ hscheme)] at htext
      rw [← htext] at hparse
      rw [hempty]
      exact hparser.scheme (hempty ▸ hscheme) hparse
    · rw [appendWellKnownPath_eq hscheme hempty hslash] at htext
      rw [← htext] at hparse
      split at hparse
      · rw [List.append_assoc] at hparse
        exact hparser.scheme hscheme hparse
      · rw [List.append_assoc, List.append_assoc] at hparse
        exact hparser.scheme hscheme hparse
  rw [← hread] at htext hscheme
  have hloop : url.scheme = http ↔ isLoopbackHost reference = true := by
    rw [hread]
    cases isLoopbackHost reference <;> decide
  rw [← htext] at hparse ⊢
  rw [schemeRight_iff hparser hscheme hloop hparse, pathRight_iff hscheme hslash]

/-! ## a parser -/

/-- The hosts that are plain names and addresses. -/
def readHost : List Char → Option Host
  | [] => none
  | c :: cs =>
      if c = '[' then
        if cs.getLast? = some ']' then
          (readIpv6Addr cs.dropLast).bind fun found =>
            if found.2 = [] then some (.ipv6 found.1) else none
        else none
      else if ((readIpv4Addr (c :: cs)).map (·.2)) = some [] then
        (readIpv4Addr (c :: cs)).map fun found => .ipv4 found.1
      else if (c :: cs).all fun c => c.isLower || decide (c = '.') then some (.domain (c :: cs))
      else none

/-- A URL of such a host, after its scheme. -/
def readUrl (scheme rest : List Char) : Option ParsedUrl :=
  let found := hostPort (authority (input rest))
  if (portText found).tail.all Char.isDigit then
    (readHost (hostText false found)).map fun host => ⟨scheme, host⟩
  else none

/-- A parser that takes no other hosts. -/
def plainParser : Parser where
  parse text :=
    if (http ++ [':']).isPrefixOf text then readUrl http (text.drop 5)
    else if (https ++ [':']).isPrefixOf text then readUrl https (text.drop 6)
    else none
  host := readHost

theorem plainParser_parse {scheme : List Char} (hscheme : scheme = http ∨ scheme = https)
    (rest : List Char) : plainParser.parse (scheme ++ ':' :: rest) = readUrl scheme rest := by
  unfold plainParser
  dsimp only
  rcases hscheme with rfl | rfl
  · have hfront : (http ++ [':']).isPrefixOf (http ++ ':' :: rest) = true := rfl
    have hrest : (http ++ ':' :: rest).drop 5 = rest := rfl
    rw [if_pos hfront, hrest]
  · have hother : (http ++ [':']).isPrefixOf (https ++ ':' :: rest) = false := rfl
    have hfront : (https ++ [':']).isPrefixOf (https ++ ':' :: rest) = true := rfl
    have hrest : (https ++ ':' :: rest).drop 6 = rest := rfl
    rw [if_neg (by rw [hother]; simp), if_pos hfront, hrest]

theorem readUrl_eq_some {scheme rest : List Char} {url : ParsedUrl}
    (h : readUrl scheme rest = some url) :
    url.scheme = scheme ∧
      readHost (hostText false (hostPort (authority (input rest)))) = some url.host ∧
      ∀ c ∈ (portText (hostPort (authority (input rest)))).tail, c.isDigit = true := by
  unfold readUrl at h
  dsimp only at h
  split at h
  · next hport =>
      obtain ⟨host, hhost, heq⟩ := Option.map_eq_some_iff.mp h
      subst heq
      exact ⟨rfl, hhost, List.all_eq_true.mp hport⟩
  · cases h

theorem plainParser_documented : plainParser.Documented where
  scheme hscheme hparse :=
    (readUrl_eq_some ((plainParser_parse hscheme _).symm.trans hparse)).1
  host hscheme hparse :=
    (readUrl_eq_some ((plainParser_parse hscheme _).symm.trans hparse)).2.1
  port hscheme hparse :=
    (readUrl_eq_some ((plainParser_parse hscheme _).symm.trans hparse)).2.2
  localhost := by decide
  ipv4 := by
    intro cs addr hread
    change readHost cs = _
    cases cs with
    | nil => exact absurd hread (by simp [show readIpv4Addr [] = none by decide])
    | cons c cs =>
        have hc : c ≠ '[' := by
          rintro rfl
          have hdotted := (readIpv4Addr_took _ addr [] hread).all '[' (by simp)
          exact absurd hdotted (by decide)
        rw [readHost, if_neg hc, hread]
        simp
  brackets := by
    intro cs host hhost
    change readHost ('[' :: cs) = _ at hhost
    rw [readHost, if_pos rfl] at hhost
    split at hhost
    · next hlast =>
        obtain ⟨found, hread, hfound⟩ := Option.bind_eq_some_iff.mp hhost
        split at hfound
        · next hrest =>
            refine ⟨cs.dropLast, found.1, ?_, ?_, (Option.some.inj hfound).symm⟩
            · exact (List.dropLast_append_getLast? _ hlast).symm
            · rw [hread, ← hrest]
        · cases hfound
    · cases hhost

/-- A host with a port is made the right URL. -/
theorem bareReference_port :
    SchemeRight ⟨http, .domain localhost⟩ ∧
      PathRight http "localhost:3000".toList
        "http://localhost:3000/.well-known/agent-card.json".toList := by
  have hfile : looksLikeFilePath (fun _ => false) "localhost:3000".toList = false := by decide
  refine (bareReference_iff plainParser_documented (by decide) hfile (by decide)
    (by decide)).mpr ⟨⟨fun _ => ?_, fun _ _ => rfl⟩, ?_⟩
  · exact BeginsLoopback.port (.inl rfl) (by decide) _
  · have hpath : path (input "localhost:3000".toList) = [] := by decide
    have hown : ¬OwnPath "localhost:3000".toList := by
      rintro ⟨c, hc, _⟩
      rw [hpath] at hc
      cases hc
    have hinside : (trimSlashes "localhost:3000".toList).contains '/' = false := rfl
    have hauthority : authority (clean "localhost:3000".toList) = "localhost:3000".toList := rfl
    refine ⟨iff_of_false hown ?_, fun _ => ⟨rfl, ?_, ?_⟩⟩
    · rw [← List.contains_iff_mem, hinside]
      simp
    · rw [hauthority]
      simp
    · have hnone : path (clean "localhost:3000".toList) = [] := rfl
      rw [hnone]
      simp

/-- **The card of a local agent, by its path, is looked for by `https`.** -/
theorem localCard_wrong :
    splitOnceText schemeEnd "localhost/card.json".toList = none ∧
      looksLikeFilePath (fun _ => false) "localhost/card.json".toList = false ∧
      normalizeCardReference (fun _ => false) "localhost/card.json".toList =
        .url "https://localhost/card.json".toList ∧
      plainParser.parse "https://localhost/card.json".toList = some ⟨https, .domain localhost⟩ ∧
      ¬SchemeRight ⟨https, .domain localhost⟩ := by
  refine ⟨by decide, by decide, by decide, by decide, ?_⟩
  intro h
  exact absurd (h.1.mpr rfl) (by decide)

/-- A password makes a host loopback: credentials go out in clear text. -/
example : normalizeCardReference (fun _ => false) "localhost:x@agent.example".toList =
      .url "http://localhost:x@agent.example/.well-known/agent-card.json".toList ∧
    plainParser.parse "http://localhost:x@agent.example/.well-known/agent-card.json".toList =
      some ⟨http, .domain "agent.example".toList⟩ := by
  decide

end A2a
