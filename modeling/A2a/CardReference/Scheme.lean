import A2a.CardReference

/-!
# A2a.CardReference.Scheme

The host of the URL that `a2acli` makes of a bare reference, against what
`is_loopback_host` takes for it.

The code looks at the begin of the reference.  Where the URL is one,
that is the begin of its authority too (`authority_built`), so a loopback
host found there is the URL's host unless it is the begin of user info
(`isLoopback_of_begins`).
-/

namespace A2a

open Whatwg

/-! ## the text that is made -/

/-- A text without the slashes at its end. -/
def trimSlashes (cs : List Char) : List Char := cs.rdropWhile fun c => decide (c = '/')

theorem splitOnceText_scheme {scheme : List Char} (hscheme : scheme = http ∨ scheme = https)
    (rest : List Char) : splitOnceText schemeEnd (scheme ++ schemeEnd ++ rest) = some (scheme, rest) := by
  rcases hscheme with rfl | rfl <;> rfl

theorem trimSlashes_append {front : List Char} (h : trimSlashes front = front) (cs : List Char) :
    trimSlashes (front ++ cs) = front ++ trimSlashes cs :=
  rdropWhile_append h cs

/-- What is kept is a front. -/
theorem trimSlashes_front (cs : List Char) : trimSlashes cs <+: cs :=
  List.rdropWhile_prefix _ cs

/-- What was cut off is slashes. -/
theorem trimSlashes_split (cs : List Char) :
    ∃ slashes, cs = trimSlashes cs ++ slashes ∧ ∀ c ∈ slashes, c = '/' := by
  refine ⟨(cs.reverse.takeWhile fun c => decide (c = '/')).reverse, ?_, ?_⟩
  · rw [trimSlashes, List.rdropWhile, ← List.reverse_append, List.takeWhile_append_dropWhile,
      List.reverse_reverse]
  · intro c hc
    have hall := List.all_takeWhile (p := fun c => decide (c = '/')) (l := cs.reverse)
    have hmem := List.all_eq_true.mp hall c (List.mem_reverse.mp hc)
    exact of_decide_eq_true hmem

theorem trimSlashes_ne_nil {reference : List Char} (hne : reference ≠ [])
    (hslash : reference.head? ≠ some '/') : trimSlashes reference ≠ [] := by
  intro hnil
  obtain ⟨slashes, heq, hall⟩ := trimSlashes_split reference
  rw [hnil, List.nil_append] at heq
  cases hs : slashes with
  | nil => exact hne (heq.trans hs)
  | cons c rest =>
      rw [heq, hs] at hslash
      rw [hs] at hall
      exact hslash (congrArg some (hall c (by simp)))

theorem trimSlashes_url {scheme reference : List Char} (hne : reference ≠ [])
    (hslash : reference.head? ≠ some '/') :
    trimSlashes (scheme ++ schemeEnd ++ reference) =
      scheme ++ schemeEnd ++ trimSlashes reference := by
  unfold trimSlashes List.rdropWhile
  rw [List.reverse_append, List.dropWhile_append]
  have hkept := trimSlashes_ne_nil hne hslash
  unfold trimSlashes List.rdropWhile at hkept
  cases hdrop : reference.reverse.dropWhile fun c => decide (c = '/') with
  | nil => simp [hdrop] at hkept
  | cons c rest => simp

/-- A bare reference that is left as it is has a slash with something after
it. -/
theorem appendWellKnownPath_eq {scheme reference : List Char}
    (hscheme : scheme = http ∨ scheme = https) (hne : reference ≠ [])
    (hslash : reference.head? ≠ some '/') :
    appendWellKnownPath (scheme ++ schemeEnd ++ reference) =
      if '/' ∈ trimSlashes reference then scheme ++ schemeEnd ++ reference
      else scheme ++ schemeEnd ++ trimSlashes reference ++ wellKnownAgentCardPath := by
  have htrim : (scheme ++ schemeEnd ++ reference).rdropWhile (fun c => decide (c = '/')) =
      scheme ++ schemeEnd ++ trimSlashes reference := trimSlashes_url hne hslash
  unfold appendWellKnownPath
  simp only [htrim, splitOnceText_scheme hscheme, Option.any_some, List.contains_iff_mem]

theorem appendWellKnownPath_nil {scheme : List Char} (hscheme : scheme = http ∨ scheme = https) :
    appendWellKnownPath (scheme ++ schemeEnd ++ []) = scheme ++ ':' :: wellKnownAgentCardPath := by
  rcases hscheme with rfl | rfl <;> decide

/-! ## its authority -/

theorem input_append {front : List Char} (h : front.rdropWhile isBlank = front) (cs : List Char) :
    input (front ++ cs) = clean front ++ input cs := by
  rw [input, rdropWhile_append h, clean_append]
  rfl

theorem input_wellKnown (cs : List Char) :
    input (cs ++ wellKnownAgentCardPath) = clean cs ++ wellKnownAgentCardPath := by
  have hkept : (cs ++ wellKnownAgentCardPath).rdropWhile isBlank = cs ++ wellKnownAgentCardPath := by
    apply rdropWhile_of_getLast
    intro c hc
    have hmem : c ∈ wellKnownAgentCardPath.getLast? := by
      rwa [List.getLast?_append_of_ne_nil _ (by decide)] at hc
    have hlast : c = 'n' := (Option.some.inj hmem).symm
    rw [hlast]
    decide
  have hclean : clean wellKnownAgentCardPath = wellKnownAgentCardPath := by decide
  rw [input, hkept, clean_append, hclean]

section Front

variable {front : List Char}

theorem rdropWhile_plain {p : Char → Bool} (hp : ∀ c, isPlain c = true → p c = false)
    (hplain : ∀ c ∈ front, isPlain c = true) (hne : front ≠ []) (before : List Char) :
    (before ++ front).rdropWhile p = before ++ front := by
  apply rdropWhile_of_getLast
  intro c hc
  exact hp c (hplain c (getLast?_mem_of_append before hne hc))

theorem input_plain (hplain : ∀ c ∈ front, isPlain c = true) (hne : front ≠ [])
    (cs : List Char) : input ('/' :: '/' :: (front ++ cs)) = '/' :: '/' :: (front ++ input cs) := by
  have hkept := rdropWhile_plain (fun _ => not_isBlank_of_isPlain) hplain hne ['/', '/']
  have hclean : clean (['/', '/'] ++ front) = ['/', '/'] ++ front := by
    rw [clean_append, clean_of_not_ignored fun c hc => not_ignored_of_isPlain (hplain c hc)]
    rfl
  have hinput := input_append hkept cs
  rw [hclean, List.append_assoc, List.append_assoc] at hinput
  exact hinput

theorem trimSlashes_plain (hplain : ∀ c ∈ front, isPlain c = true) (hne : front ≠ []) :
    trimSlashes front = front := by
  have hkept := rdropWhile_plain (p := fun c => decide (c = '/'))
    (fun c hc => decide_eq_false (ne_slash_of_isPlain hc)) hplain hne []
  exact hkept

/-- What is made of a reference with a plain front has it as the front of its
authority, and after it no more than the reference has. -/
theorem authority_built {scheme : List Char} (hscheme : scheme = http ∨ scheme = https)
    (hplain : ∀ c ∈ front, isPlain c = true) (hne : front ≠ []) (more : List Char) :
    ∃ rest others, appendWellKnownPath (scheme ++ schemeEnd ++ (front ++ more)) =
        scheme ++ ':' :: rest ∧
      authority (input rest) = front ++ others ∧
      ∀ c ∈ others, c ∈ (clean more).takeWhile fun c => !endsAuthority c := by
  have hslash : (front ++ more).head? ≠ some '/' := by
    cases hfront : front with
    | nil => contradiction
    | cons c cs =>
        intro hhead
        have hc := hplain c (by rw [hfront]; simp)
        exact ne_slash_of_isPlain hc (Option.some.inj hhead)
  have htrim := trimSlashes_append (trimSlashes_plain hplain hne) more
  have hnonempty : front ++ more ≠ [] := by simp [hne]
  have happend := appendWellKnownPath_eq hscheme hnonempty hslash
  by_cases hpath : '/' ∈ trimSlashes (front ++ more)
  · rw [if_pos hpath] at happend
    refine ⟨'/' :: '/' :: (front ++ more), (input more).takeWhile fun c => !endsAuthority c,
      ?_, ?_, ?_⟩
    · rw [happend, List.append_assoc]
      rfl
    · rw [input_plain hplain hne]
      exact authority_plain hne hplain (input more)
    · obtain ⟨cut, hcut⟩ := List.rdropWhile_prefix isBlank more
      have hclean : clean more = input more ++ clean cut := by
        conv => lhs; rw [← hcut]
        exact clean_append _ _
      rw [hclean]
      exact takeWhile_of_append _ _
  · rw [if_neg hpath, htrim] at happend
    refine ⟨'/' :: '/' :: (front ++ (trimSlashes more ++ wellKnownAgentCardPath)),
      (clean (trimSlashes more) ++ wellKnownAgentCardPath).takeWhile fun c => !endsAuthority c,
      ?_, ?_, ?_⟩
    · rw [happend, List.append_assoc, List.append_assoc, List.append_assoc]
      rfl
    · rw [input_plain hplain hne, input_wellKnown]
      exact authority_plain hne hplain _
    · obtain ⟨cut, hcut⟩ := trimSlashes_front more
      have hclean : clean more = clean (trimSlashes more) ++ clean cut := by
        conv => lhs; rw [← hcut]
        exact clean_append _ _
      have hstop : wellKnownAgentCardPath = '/' :: wellKnownAgentCardPath.tail := rfl
      rw [hclean, hstop, takeWhile_append_cons (by decide)]
      exact takeWhile_of_append _ _

end Front

/-! ## names of loopback hosts -/

/-- A loopback host as it is usually written. -/
def NamesLoopback (name : List Char) : Prop :=
  name = localhost ∨ ∃ ip, parseIpAddr name = some ip ∧ ip.isLoopback = true

/-- A reference that begins with one: that is nothing else, or with a colon
after it, or in brackets. -/
inductive BeginsLoopback : List Char → Prop
  | whole {name : List Char} (names : NamesLoopback name) (colon : ':' ∉ name) : BeginsLoopback name
  | port {name : List Char} (names : NamesLoopback name) (colon : ':' ∉ name) (more : List Char) :
      BeginsLoopback (name ++ ':' :: more)
  | brackets {name : List Char} (names : NamesLoopback name) (more : List Char) :
      BeginsLoopback ('[' :: (name ++ ']' :: more))

theorem isPlain_of_isSpelling {c : Char} (h : isSpelling c = true) :
    isPlain c = true ∧ c ≠ '[' ∧ c ≠ ']' := by
  have hother (other : Char) (hno : isSpelling other = false) : c ≠ other := by
    rintro rfl
    rw [h] at hno
    cases hno
  have hblank : isBlank c = false := by
    have hrange := isSpelling_range h
    exact decide_eq_false (by omega)
  refine ⟨?_, hother '[' (by decide), hother ']' (by decide)⟩
  unfold isPlain ignored endsAuthority slash endsPath
  rw [hblank]
  simp [hother '\t' (by decide), hother '\n' (by decide), hother '\r' (by decide),
    hother '/' (by decide), hother '\\' (by decide), hother '?' (by decide),
    hother '#' (by decide), hother '@' (by decide)]

section Names

variable {name : List Char}

theorem NamesLoopback.chars (h : NamesLoopback name) :
    ∀ c ∈ name, isPlain c = true ∧ c ≠ '[' ∧ c ≠ ']' := by
  rcases h with rfl | ⟨ip, hip, _⟩
  · have hall : localhost.all (fun c => isPlain c && c != '[' && c != ']') = true := by decide
    intro c hc
    have hc' := List.all_eq_true.mp hall c hc
    simpa [and_assoc] using hc'
  · exact fun c hc => isPlain_of_isSpelling (parseIpAddr_spelling hip c hc)

theorem NamesLoopback.ne_nil (h : NamesLoopback name) : name ≠ [] := by
  rintro rfl
  rcases h with h | ⟨ip, hip, _⟩
  · cases h
  · have hnone : parseIpAddr [] = none := by decide
    rw [hnone] at hip
    cases hip

theorem parseIpAddr_localhost (more : List Char) : parseIpAddr (localhost ++ more) = none := by
  rw [Option.eq_none_iff_forall_ne_some]
  intro ip hip
  have hl := parseIpAddr_spelling hip 'l' (by simp [localhost])
  exact absurd hl (by decide)

/-- A name without colons is a dotted address, or `localhost`. -/
theorem NamesLoopback.dotted (h : NamesLoopback name) (hcolon : ':' ∉ name) :
    name = localhost ∨ ∃ addr, readIpv4Addr name = some (addr, []) ∧ addr.isLoopback = true := by
  rcases h with h | ⟨ip, hip, hloop⟩
  · exact .inl h
  · rcases parseIpAddr_eq_some hip with ⟨addr, rfl, hread⟩ | ⟨addr, _, _, hread⟩
    · exact .inr ⟨addr, hread, hloop⟩
    · have hcount := readIpv6Addr_colons hread
      rw [List.count_eq_zero_of_not_mem hcolon] at hcount
      omega

end Names

/-- The host as the code cuts it out of a reference. -/
def hostPart : List Char → List Char
  | '[' :: rest => partBefore ']' rest
  | host => partBefore ':' host

theorem hostPart_eq {reference : List Char} (h : reference.head? ≠ some '[') :
    hostPart reference = partBefore ':' reference := by
  unfold hostPart
  split
  · contradiction
  · rfl

theorem isLoopbackHost_eq (reference : List Char) :
    isLoopbackHost reference = true ↔
      (∃ ip, parseIpAddr reference = some ip ∧ ip.isLoopback = true) ∨
        parseIpAddr reference = none ∧ NamesLoopback (hostPart reference) := by
  unfold isLoopbackHost
  split
  · next ip hip => simp [hip]
  · next hnone =>
      simp only [hnone, false_and, exists_false, true_and, false_or, reduceCtorEq, NamesLoopback]
      rw [Bool.or_eq_true, decide_eq_true_eq, Option.any_eq_true]
      rfl

/-- The code finds what a reference begins with. -/
theorem isLoopbackHost_of_begins {reference : List Char} (h : BeginsLoopback reference) :
    isLoopbackHost reference = true := by
  have hfirst {name : List Char} (names : NamesLoopback name) (more : List Char) :
      (name ++ more).head? ≠ some '[' := by
    cases hcs : name with
    | nil => exact absurd hcs names.ne_nil
    | cons c cs =>
        have hc := names.chars c (by rw [hcs]; simp)
        exact fun h => hc.2.1 (Option.some.inj h)
  rw [isLoopbackHost_eq]
  cases h with
  | whole names colon =>
      by_cases hnone : parseIpAddr reference = none
      · have hpart := hostPart_eq (by simpa using hfirst names [])
        rw [partBefore_self colon] at hpart
        exact .inr ⟨hnone, by rwa [hpart]⟩
      · rcases names with rfl | hip
        · exact absurd (parseIpAddr_localhost []) hnone
        · exact .inl hip
  | @port name names colon more =>
      have hnone : parseIpAddr (name ++ ':' :: more) = none := by
        rcases names.dotted colon with rfl | ⟨addr, hread, _⟩
        · exact parseIpAddr_localhost _
        · exact parseIpAddr_port hread more
      refine .inr ⟨hnone, ?_⟩
      rw [hostPart_eq (hfirst names _), partBefore_append colon]
      exact names
  | @brackets name names more =>
      have hnone : parseIpAddr ('[' :: (name ++ ']' :: more)) = none := by
        rw [Option.eq_none_iff_forall_ne_some]
        intro ip hip
        exact absurd (parseIpAddr_spelling hip '[' (by simp)) (by decide)
      have hclose : ']' ∉ name := fun hmem => (names.chars ']' hmem).2.2 rfl
      refine .inr ⟨hnone, ?_⟩
      show NamesLoopback (partBefore ']' (name ++ ']' :: more))
      rw [partBefore_append hclose]
      exact names

/-! ## the host that is read -/

section Parse

variable {parser : Parser} {scheme reference : List Char} {url : ParsedUrl}

/-- A reference's user info is in its authority. -/
def HasUserInfo (reference : List Char) : Prop := '@' ∈ authority (clean reference)

/-- The host and the port after a plain front, where there is no user info. -/
theorem host_of_parse (hparser : parser.Documented) (hscheme : scheme = http ∨ scheme = https)
    {front more : List Char} (hplain : ∀ c ∈ front, isPlain c = true) (hne : front ≠ [])
    (huser : ¬HasUserInfo (front ++ more))
    (hparse : parser.parse (appendWellKnownPath (scheme ++ schemeEnd ++ (front ++ more))) =
      some url) :
    ∃ others, parser.host (hostText false (front ++ others)) = some url.host ∧
      (∀ c ∈ (portText (front ++ others)).tail, c.isDigit = true) ∧ (more = [] → others = []) := by
  obtain ⟨rest, others, htext, hauthority, hmem⟩ := authority_built hscheme hplain hne more
  rw [htext] at hparse
  have hhost := hparser.host hscheme hparse
  have hport := hparser.port hscheme hparse
  have hat : '@' ∉ front ++ others := by
    rw [HasUserInfo, clean_append, clean_of_not_ignored fun c hc => not_ignored_of_isPlain (hplain c hc),
      authority_plain hne hplain, List.mem_append, not_or] at huser
    rw [List.mem_append, not_or]
    exact ⟨huser.1, fun h => huser.2 (hmem '@' h)⟩
  rw [hauthority, hostPort_of_not_mem hat] at hhost hport
  refine ⟨others, hhost, hport, ?_⟩
  rintro rfl
  rw [List.eq_nil_iff_forall_not_mem]
  intro c hc
  exact absurd (hmem c hc) (by simp [clean])

/-- The host of a name without colons. -/
theorem host_of_dotted (hparser : parser.Documented) {name : List Char} {host : Host}
    (names : NamesLoopback name) (colon : ':' ∉ name) (hhost : parser.host name = some host) :
    host.isLoopback = true := by
  rcases names.dotted colon with rfl | ⟨addr, hread, hloop⟩
  · rw [hparser.localhost] at hhost
    rw [← Option.some.inj hhost]
    rfl
  · rw [hparser.ipv4 hread] at hhost
    rw [← Option.some.inj hhost]
    exact hloop

theorem NamesLoopback.hostText {name : List Char} (names : NamesLoopback name)
    (colon : ':' ∉ name) (cs : List Char) :
    hostText false (name ++ cs) = name ++ hostText false cs := by
  apply hostText_name
  intro c hc
  refine ⟨?_, (names.chars c hc).2.1⟩
  rintro rfl
  exact colon hc

/-- A name in brackets that is read is an IPv6 address. -/
theorem inBrackets_of_host (hparser : parser.Documented) {name others : List Char} {host : Host}
    (hclose : ']' ∉ name)
    (hhost : parser.host (hostText false ('[' :: (name ++ ']' :: others))) = some host) :
    ∃ addr, readIpv6Addr name = some (addr, []) ∧ host = .ipv6 addr := by
  have htext : Whatwg.hostText false ('[' :: (name ++ ']' :: others)) =
      '[' :: (name ++ ']' :: Whatwg.hostText false others) := by
    have hne : ∀ c ∈ name, c ≠ ']' := by
      rintro c hc rfl
      exact hclose hc
    rw [Whatwg.hostText, if_neg (by simp)]
    simp only [decide_true, Bool.true_or]
    rw [hostText_inBrackets hne, Whatwg.hostText, if_neg (by simp)]
    simp
  rw [htext] at hhost
  obtain ⟨inner, addr, heq, hread, hhost⟩ := hparser.brackets hhost
  have hinner : ']' ∉ inner := by
    intro hmem
    exact absurd ((readIpv6Addr_spelling inner addr [] hread).all ']' hmem) (by decide)
  have hname := partBefore_append hclose (Whatwg.hostText false others)
  rw [heq, partBefore_append hinner []] at hname
  rw [← hname]
  exact ⟨addr, hread, hhost⟩

/-- Without user info, what begins with a loopback host has one. -/
theorem isLoopback_of_begins (hparser : parser.Documented)
    (hscheme : scheme = http ∨ scheme = https) (hbegins : BeginsLoopback reference)
    (huser : ¬HasUserInfo reference)
    (hparse : parser.parse (appendWellKnownPath (scheme ++ schemeEnd ++ reference)) = some url) :
    url.host.isLoopback = true := by
  cases hbegins with
  | whole names colon =>
      rw [← List.append_nil reference] at huser hparse
      obtain ⟨others, hhost, _, hnil⟩ := host_of_parse hparser hscheme
        (fun c hc => (names.chars c hc).1) names.ne_nil huser hparse
      rw [hnil rfl, names.hostText colon, hostText, List.append_nil] at hhost
      exact host_of_dotted hparser names colon hhost
  | @port name names colon more =>
      have hplain : ∀ c ∈ name ++ [':'], isPlain c = true := by
        intro c hc
        rcases List.mem_append.mp hc with hc | hc
        · exact (names.chars c hc).1
        · rw [List.mem_singleton] at hc
          rw [hc]
          decide
      have hsplit : name ++ ':' :: more = (name ++ [':']) ++ more := by simp
      rw [hsplit] at huser hparse
      obtain ⟨others, hhost, _, _⟩ := host_of_parse hparser hscheme hplain (by simp) huser hparse
      rw [List.append_assoc, names.hostText colon, List.singleton_append, hostText,
        if_pos ⟨rfl, rfl⟩, List.append_nil] at hhost
      exact host_of_dotted hparser names colon hhost
  | @brackets name names more =>
      have hplain : ∀ c ∈ '[' :: (name ++ [']']), isPlain c = true := by
        intro c hc
        rw [List.mem_cons, List.mem_append, List.mem_singleton] at hc
        rcases hc with rfl | hc | rfl
        · decide
        · exact (names.chars c hc).1
        · decide
      have hsplit : '[' :: (name ++ ']' :: more) = ('[' :: (name ++ [']'])) ++ more := by simp
      rw [hsplit] at huser hparse
      obtain ⟨others, hhost, _, _⟩ := host_of_parse hparser hscheme hplain (by simp) huser hparse
      have hshape : ('[' :: (name ++ [']'])) ++ others = '[' :: (name ++ ']' :: others) := by simp
      rw [hshape] at hhost
      have hclose : ']' ∉ name := fun hmem => (names.chars ']' hmem).2.2 rfl
      obtain ⟨addr, hread, hhost⟩ := inBrackets_of_host hparser hclose hhost
      rw [hhost]
      rcases names with rfl | ⟨ip, hip, hloop⟩
      · exact absurd ((readIpv6Addr_spelling _ addr [] hread).all 'l' (by decide)) (by decide)
      · rcases parseIpAddr_eq_some hip with ⟨dotted, _, hdotted⟩ | ⟨addr', rfl, _, hread'⟩
        · have hcount := readIpv6Addr_colons hread
          have hnone : ':' ∉ name := by
            intro hmem
            exact absurd ((readIpv4Addr_took name dotted [] hdotted).all ':' hmem) (by decide)
          rw [List.count_eq_zero_of_not_mem hnone] at hcount
          omega
        · rw [hread] at hread'
          rw [(Prod.mk.inj (Option.some.inj hread')).1]
          exact hloop

/-- Plain characters name no user. -/
theorem not_hasUserInfo {front : List Char} (hplain : ∀ c ∈ front, isPlain c = true) :
    ¬HasUserInfo front := by
  intro huser
  unfold HasUserInfo authority afterSlashes at huser
  have hmem := (List.dropWhile_suffix _).subset (List.takeWhile_subset _ huser)
  rw [clean_of_not_ignored fun c hc => not_ignored_of_isPlain (hplain c hc)] at hmem
  exact ne_at_of_isPlain (hplain '@' hmem) rfl

/-- An IPv6 address without brackets is not read: what follows its first
colon is no port. -/
theorem not_parse_of_ipv6 (hparser : parser.Documented) (hscheme : scheme = http ∨ scheme = https)
    {addr : Ipv6Addr} (hread : readIpv6Addr reference = some (addr, [])) :
    parser.parse (appendWellKnownPath (scheme ++ schemeEnd ++ reference)) = none := by
  rw [Option.eq_none_iff_forall_ne_some]
  intro url hparse
  have hspelled := (readIpv6Addr_spelling reference addr [] hread).all
  have hplain : ∀ c ∈ reference, isPlain c = true := fun c hc => (isPlain_of_isSpelling (hspelled c hc)).1
  have hcount := readIpv6Addr_colons hread
  have hne : reference ≠ [] := by
    rintro rfl
    simp at hcount
  have huser := not_hasUserInfo hplain
  rw [← List.append_nil reference] at huser hparse
  obtain ⟨others, _, hport, hnil⟩ := host_of_parse hparser hscheme hplain hne huser hparse
  rw [hnil rfl, List.append_nil] at hport
  obtain ⟨hbefore, hsplit⟩ := partBefore_split ':' reference
  generalize partBefore ':' reference = host at hbefore hsplit
  rcases hsplit with heq | ⟨after, heq⟩
  · rw [heq, List.count_eq_zero_of_not_mem hbefore] at hcount
    omega
  · have hhost : ∀ c ∈ host, c ≠ ':' ∧ c ≠ '[' := by
      intro c hc
      refine ⟨?_, (isPlain_of_isSpelling (hspelled c (by simp [heq, hc]))).2.1⟩
      rintro rfl
      exact hbefore hc
    have htext : hostText false (host ++ ':' :: after) = host := by
      rw [hostText_name hhost, hostText, if_pos ⟨rfl, rfl⟩, List.append_nil]
    rw [heq, portText, htext, List.drop_left, List.tail_cons] at hport
    rw [heq, List.count_append, List.count_eq_zero_of_not_mem hbefore, List.count_cons_self] at hcount
    have hcolon : ':' ∈ after := List.count_pos_iff.mp (by omega)
    exact absurd (hport ':' hcolon) (by decide)

/-- A bracket that is not closed is not read. -/
theorem not_parse_of_unclosed (hparser : parser.Documented)
    (hscheme : scheme = http ∨ scheme = https) {name : List Char}
    (hchars : ∀ c ∈ name, isPlain c = true ∧ c ≠ ']') :
    parser.parse (appendWellKnownPath (scheme ++ schemeEnd ++ '[' :: name)) = none := by
  rw [Option.eq_none_iff_forall_ne_some]
  intro url hparse
  have hplain : ∀ c ∈ '[' :: name, isPlain c = true :=
    List.forall_mem_cons.mpr ⟨by decide, fun c hc => (hchars c hc).1⟩
  have huser := not_hasUserInfo hplain
  rw [← List.append_nil ('[' :: name)] at huser hparse
  obtain ⟨others, hhost, _, hnil⟩ := host_of_parse hparser hscheme hplain (by simp) huser hparse
  have htext : hostText false ('[' :: name) = '[' :: name := by
    have hinside := hostText_inBrackets (fun c hc => (hchars c hc).2) []
    rw [List.append_nil, hostText, List.append_nil] at hinside
    rw [hostText, if_neg (by simp)]
    simp only [decide_true, Bool.true_or]
    rw [hinside]
  rw [hnil rfl, List.append_nil, htext] at hhost
  obtain ⟨inner, _, heq, _, _⟩ := hparser.brackets hhost
  exact (hchars ']' (by simp [heq])).2 rfl

/-- Where the URL is one, the code finds what its reference begins with, and
nothing else. -/
theorem isLoopbackHost_iff (hparser : parser.Documented) (hscheme : scheme = http ∨ scheme = https)
    (hparse : parser.parse (appendWellKnownPath (scheme ++ schemeEnd ++ reference)) = some url) :
    isLoopbackHost reference = true ↔ BeginsLoopback reference := by
  refine ⟨fun h => ?_, isLoopbackHost_of_begins⟩
  rcases (isLoopbackHost_eq reference).mp h with ⟨ip, hip, hloop⟩ | ⟨_, names⟩
  · rcases parseIpAddr_eq_some hip with ⟨addr, _, hread⟩ | ⟨addr, _, _, hread⟩
    · refine .whole (.inr ⟨ip, hip, hloop⟩) ?_
      intro hmem
      exact absurd ((readIpv4Addr_took reference addr [] hread).all ':' hmem) (by decide)
    · rw [not_parse_of_ipv6 hparser hscheme hread] at hparse
      cases hparse
  · by_cases hfirst : reference.head? = some '['
    · obtain ⟨rest, rfl⟩ := List.head?_eq_some_iff.mp hfirst
      change NamesLoopback (partBefore ']' rest) at names
      obtain ⟨_, hsplit⟩ := partBefore_split ']' rest
      generalize partBefore ']' rest = name at names hsplit
      rcases hsplit with rfl | ⟨more, rfl⟩
      · have hnone := not_parse_of_unclosed hparser hscheme
          fun c hc => ⟨(names.chars c hc).1, (names.chars c hc).2.2⟩
        rw [hnone] at hparse
        cases hparse
      · exact .brackets names more
    · rw [hostPart_eq hfirst] at names
      obtain ⟨hcolon, hsplit⟩ := partBefore_split ':' reference
      generalize partBefore ':' reference = name at names hcolon hsplit
      rcases hsplit with rfl | ⟨more, rfl⟩
      · exact .whole names hcolon
      · exact .port names hcolon more

end Parse

end A2a
