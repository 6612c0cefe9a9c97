import A2a.IpAddr.Spelling
import Mathlib.Data.List.DropRight

/-!
# A2a.Whatwg

How the URL standard takes the text of an `http` or `https` URL apart: tabs
and line breaks do not count, nor do controls and blanks at the end, slashes
of both kinds are skipped, the authority ends at the next slash, `?` or `#`,
the host is what follows its last `@`, up to a colon outside brackets.

What a host's text stands for is left to a parser; of it only what the
standard says of plain names and addresses is assumed (`Parser.Documented`).
-/

namespace A2a

namespace Whatwg

/-! ## the parts of a text -/

def slash (c : Char) : Bool := decide (c = '/') || decide (c = '\\')

def endsPath (c : Char) : Bool := decide (c = '?') || decide (c = '#')

def endsAuthority (c : Char) : Bool := slash c || endsPath c

def ignored (c : Char) : Bool := decide (c = '\t') || decide (c = '\n') || decide (c = '\r')

/-- A C0 control or a blank. -/
def isBlank (c : Char) : Bool := decide (c.toNat ≤ 0x20)

def clean (cs : List Char) : List Char := cs.filter fun c => !ignored c

/-- A text as it is read. -/
def input (cs : List Char) : List Char := clean (cs.rdropWhile isBlank)

/-- The skipped slashes left out. -/
def afterSlashes (cs : List Char) : List Char := cs.dropWhile slash

def authority (cs : List Char) : List Char := (afterSlashes cs).takeWhile fun c => !endsAuthority c

def afterAuthority (cs : List Char) : List Char :=
  (afterSlashes cs).dropWhile fun c => !endsAuthority c

def path (cs : List Char) : List Char := (afterAuthority cs).takeWhile fun c => !endsPath c

/-- The query and the fragment. -/
def afterPath (cs : List Char) : List Char := (afterAuthority cs).dropWhile fun c => !endsPath c

/-- An authority without the user info. -/
def hostPort (authority : List Char) : List Char :=
  (authority.reverse.takeWhile fun c => decide (c ≠ '@')).reverse

/-- The host, `inBrackets` or not. -/
def hostText (inBrackets : Bool) : List Char → List Char
  | [] => []
  | c :: cs =>
      if c = ':' ∧ inBrackets = false then []
      else c :: hostText (decide (c = '[') || (inBrackets && decide (c ≠ ']'))) cs

/-- The port, with its colon. -/
def portText (hostPort : List Char) : List Char := hostPort.drop (hostText false hostPort).length

/-! ## hosts -/

inductive Host
  | domain (name : List Char)
  | ipv4 (addr : Ipv4Addr)
  | ipv6 (addr : Ipv6Addr)
  deriving DecidableEq

def localhost : List Char := ['l', 'o', 'c', 'a', 'l', 'h', 'o', 's', 't']

def Host.isLoopback : Host → Bool
  | .domain name => decide (name = localhost)
  | .ipv4 addr => addr.isLoopback
  | .ipv6 addr => addr.isLoopback

structure ParsedUrl where
  scheme : List Char
  host : Host
  deriving DecidableEq

/-- A parser: of URLs, and of the text of a host. -/
structure Parser where
  parse : List Char → Option ParsedUrl
  host : List Char → Option Host

def http : List Char := ['h', 't', 't', 'p']

def https : List Char := ['h', 't', 't', 'p', 's']

/-- What the standard says of a parser. -/
structure Parser.Documented (parser : Parser) : Prop where
  scheme : ∀ {scheme rest url}, scheme = http ∨ scheme = https →
    parser.parse (scheme ++ ':' :: rest) = some url → url.scheme = scheme
  host : ∀ {scheme rest url}, scheme = http ∨ scheme = https →
    parser.parse (scheme ++ ':' :: rest) = some url →
      parser.host (hostText false (hostPort (authority (input rest)))) = some url.host
  port : ∀ {scheme rest url}, scheme = http ∨ scheme = https →
    parser.parse (scheme ++ ':' :: rest) = some url →
      ∀ c ∈ (portText (hostPort (authority (input rest)))).tail, c.isDigit = true
  localhost : parser.host localhost = some (.domain localhost)
  ipv4 : ∀ {cs addr}, readIpv4Addr cs = some (addr, []) → parser.host cs = some (.ipv4 addr)
  brackets : ∀ {cs host}, parser.host ('[' :: cs) = some host →
    ∃ inner addr, cs = inner ++ [']'] ∧ readIpv6Addr inner = some (addr, []) ∧ host = .ipv6 addr

/-! ## lists -/

section Lists

variable {p : Char → Bool} {front cs : List Char}

/-- What ends in something to keep is kept. -/
theorem rdropWhile_append (h : front.rdropWhile p = front) (cs : List Char) :
    (front ++ cs).rdropWhile p = front ++ cs.rdropWhile p := by
  unfold List.rdropWhile at h ⊢
  rw [List.reverse_append, List.dropWhile_append]
  cases hdrop : cs.reverse.dropWhile p with
  | nil => simpa using h
  | cons c rest => simp

theorem rdropWhile_of_getLast (h : ∀ c ∈ front.getLast?, p c = false) :
    front.rdropWhile p = front := by
  rw [List.rdropWhile_eq_self_iff]
  intro hne
  have hlast := h _ (List.getLast?_eq_some_getLast hne)
  rw [hlast]
  simp

theorem getLast?_mem_of_append {c : Char} (pre : List Char) (hne : front ≠ [])
    (h : c ∈ (pre ++ front).getLast?) : c ∈ front := by
  rw [List.getLast?_append_of_ne_nil _ hne] at h
  exact List.mem_of_getLast? h

/-- A front of a list has a front of what a longer one has. -/
theorem takeWhile_of_append (front more : List Char) :
    ∀ c ∈ front.takeWhile p, c ∈ (front ++ more).takeWhile p := by
  intro c hc
  rw [List.takeWhile_append]
  split
  · exact List.mem_append_left _ (List.takeWhile_subset _ hc)
  · exact hc

end Lists

@[simp] theorem clean_append (cs more : List Char) : clean (cs ++ more) = clean cs ++ clean more :=
  List.filter_append cs more

theorem clean_of_not_ignored {cs : List Char} (h : ∀ c ∈ cs, ignored c = false) :
    clean cs = cs := by
  rw [clean, List.filter_eq_self]
  intro c hc
  rw [h c hc]
  rfl

/-! ## the parts of a front -/

/-- A character that is read as it stands, in an authority that is only a
host and a port. -/
def isPlain (c : Char) : Bool :=
  !ignored c && !isBlank c && !endsAuthority c && decide (c ≠ '@')

section Plain

variable {c : Char} {front cs : List Char}

theorem not_ignored_of_isPlain (h : isPlain c = true) : ignored c = false := by
  unfold isPlain at h
  cases hc : ignored c <;> simp_all

theorem not_isBlank_of_isPlain (h : isPlain c = true) : isBlank c = false := by
  unfold isPlain at h
  cases hc : isBlank c <;> simp_all

theorem not_endsAuthority_of_isPlain (h : isPlain c = true) : endsAuthority c = false := by
  unfold isPlain at h
  cases hc : endsAuthority c <;> simp_all

theorem ne_slash_of_isPlain (h : isPlain c = true) : c ≠ '/' := by
  rintro rfl
  exact absurd h (by decide)

theorem ne_at_of_isPlain (h : isPlain c = true) : c ≠ '@' := by
  rintro rfl
  exact absurd h (by decide)

/-- A plain front is the front of the authority. -/
theorem authority_plain (hne : front ≠ []) (hplain : ∀ c ∈ front, isPlain c = true)
    (cs : List Char) :
    authority (front ++ cs) = front ++ cs.takeWhile fun c => !endsAuthority c := by
  have hends : ∀ c ∈ front, (!endsAuthority c) = true := by
    intro c hc
    rw [not_endsAuthority_of_isPlain (hplain c hc)]
    rfl
  have hslash : afterSlashes (front ++ cs) = front ++ cs := by
    cases front with
    | nil => contradiction
    | cons first front =>
        have hfirst := not_endsAuthority_of_isPlain (hplain first (by simp))
        unfold endsAuthority at hfirst
        rw [Bool.or_eq_false_iff] at hfirst
        rw [afterSlashes, List.cons_append, List.dropWhile_cons_of_neg (by simp [hfirst.1])]
  rw [authority, hslash, List.takeWhile_append_of_pos hends]

end Plain

theorem hostPort_of_not_mem {authority : List Char} (h : '@' ∉ authority) :
    hostPort authority = authority := by
  have hall : ∀ c ∈ authority.reverse, decide (c ≠ '@') = true := by
    intro c hc
    rw [decide_eq_true_eq]
    rintro rfl
    exact h (List.mem_reverse.mp hc)
  rw [hostPort, List.takeWhile_eq_self_iff.mpr hall, List.reverse_reverse]

section HostText

variable {name : List Char}

theorem hostText_name (h : ∀ c ∈ name, c ≠ ':' ∧ c ≠ '[') (cs : List Char) :
    hostText false (name ++ cs) = name ++ hostText false cs := by
  induction name with
  | nil => rfl
  | cons c name ih =>
      rw [List.forall_mem_cons] at h
      rw [List.cons_append, hostText, if_neg (fun hc => h.1.1 hc.1)]
      simp [h.1.2, ih h.2]

theorem hostText_inBrackets (h : ∀ c ∈ name, c ≠ ']') (cs : List Char) :
    hostText true (name ++ cs) = name ++ hostText true cs := by
  induction name with
  | nil => rfl
  | cons c name ih =>
      rw [List.forall_mem_cons] at h
      rw [List.cons_append, hostText, if_neg (by simp)]
      simp [h.1, ih h.2]

end HostText

/-! ## the parts of a text with an end -/

section End

variable {front cs : List Char}

theorem dropWhile_append_of_ne_nil {p : Char → Bool} (h : front.dropWhile p ≠ [])
    (cs : List Char) : (front ++ cs).dropWhile p = front.dropWhile p ++ cs := by
  rw [List.dropWhile_append, if_neg (by simpa using h)]

/-- What comes after the authority goes on after it. -/
theorem afterAuthority_append_of_ne_nil (h : afterAuthority front ≠ []) (cs : List Char) :
    afterAuthority (front ++ cs) = afterAuthority front ++ cs := by
  have hne : front.dropWhile slash ≠ [] := by
    intro hnil
    apply h
    rw [afterAuthority, afterSlashes, hnil]
    rfl
  unfold afterAuthority afterSlashes at h ⊢
  rw [dropWhile_append_of_ne_nil hne, dropWhile_append_of_ne_nil h]

theorem afterAuthority_append (hne : afterSlashes front ≠ []) (hcs : ∀ c ∈ cs.head?, c = '/') :
    afterAuthority (front ++ cs) = afterAuthority front ++ cs := by
  have hkept : cs.dropWhile (fun c => !endsAuthority c) = cs := by
    cases cs with
    | nil => rfl
    | cons c cs =>
        have hc : c = '/' := hcs c rfl
        rw [hc, List.dropWhile_cons_of_neg (by decide)]
  unfold afterAuthority
  unfold afterSlashes at hne ⊢
  rw [dropWhile_append_of_ne_nil hne, List.dropWhile_append, hkept]
  split
  · next hnil =>
      rw [List.isEmpty_iff.mp hnil, List.nil_append]
  · rfl

/-- An end without `?` or `#` belongs to the path, if the path is the last
part. -/
theorem path_append (hne : afterSlashes front ≠ []) (hquery : afterPath front = [])
    (hhead : ∀ c ∈ cs.head?, c = '/') (hcs : ∀ c ∈ cs, endsPath c = false) :
    path (front ++ cs) = path front ++ cs ∧ afterPath (front ++ cs) = [] := by
  have hall : ∀ c ∈ afterAuthority front, (!endsPath c) = true := by
    unfold afterPath at hquery
    exact List.dropWhile_eq_nil_iff.mp hquery
  have hcs' : ∀ c ∈ cs, (!endsPath c) = true := by
    intro c hc
    rw [hcs c hc]
    rfl
  have hpath : path front = afterAuthority front := List.takeWhile_eq_self_iff.mpr hall
  unfold path at hpath ⊢
  unfold afterPath
  rw [afterAuthority_append hne hhead, List.takeWhile_append_of_pos hall,
    List.dropWhile_append_of_pos hall, hpath, List.takeWhile_eq_self_iff.mpr hcs',
    List.dropWhile_eq_nil_iff.mpr hcs']
  exact ⟨rfl, rfl⟩

/-- It does not if there is a query or a fragment. -/
theorem path_append_of_query (hquery : afterPath front ≠ []) (cs : List Char) :
    path (front ++ cs) = path front ∧ afterPath (front ++ cs) ≠ [] := by
  have hauthority : afterAuthority front ≠ [] := by
    intro hnil
    apply hquery
    rw [afterPath, hnil]
    rfl
  unfold afterPath at hquery
  unfold path afterPath
  rw [afterAuthority_append_of_ne_nil hauthority, dropWhile_append_of_ne_nil hquery]
  refine ⟨?_, by simp [hquery]⟩
  rw [List.takeWhile_append, if_neg]
  intro hlength
  have hsplit := congrArg List.length
    (List.takeWhile_append_dropWhile (p := fun c => !endsPath c) (l := afterAuthority front))
  rw [List.length_append, hlength] at hsplit
  exact hquery (List.eq_nil_of_length_eq_zero (by omega))

theorem not_endsAuthority_of_isBlank {c : Char} (h : isBlank c = true) :
    endsAuthority c = false := by
  unfold endsAuthority slash endsPath
  rw [Bool.eq_false_iff]
  intro hends
  simp only [Bool.or_eq_true, decide_eq_true_eq] at hends
  obtain (rfl | rfl) | rfl | rfl := hends <;> exact absurd h (by decide)

/-- The blanks at the end that are not read. -/
theorem clean_eq_input_append (cs : List Char) :
    ∃ blanks, clean cs = input cs ++ blanks ∧ ∀ c ∈ blanks, isBlank c = true := by
  refine ⟨clean (cs.rtakeWhile isBlank), ?_, fun c hc => ?_⟩
  · rw [input, ← clean_append, List.rdropWhile_append_rtakeWhile]
  · exact List.mem_rtakeWhile_imp (List.mem_filter.mp hc).1

/-- Blanks at the end are in the path if one has begun. -/
theorem path_append_blanks {blanks : List Char} (hblanks : ∀ c ∈ blanks, isBlank c = true)
    (front : List Char) :
    path (front ++ blanks) = path front ∨ path (front ++ blanks) = path front ++ blanks := by
  have hends : ∀ c ∈ blanks, (!endsAuthority c) = true := by
    intro c hc
    rw [not_endsAuthority_of_isBlank (hblanks c hc)]
    rfl
  by_cases hnone : afterAuthority front = []
  · left
    have hauthority : afterAuthority (front ++ blanks) = [] := by
      unfold afterAuthority afterSlashes at hnone ⊢
      rw [List.dropWhile_eq_nil_iff] at hnone ⊢
      rw [List.dropWhile_append]
      split
      · exact fun c hc => hends c (List.dropWhile_subset _ hc)
      · exact List.forall_mem_append.mpr ⟨hnone, hends⟩
    rw [path, path, hauthority, hnone]
  · by_cases hquery : afterPath front = []
    · right
      have hall : ∀ c ∈ afterAuthority front, (!endsPath c) = true :=
        List.dropWhile_eq_nil_iff.mp hquery
      have hblank : ∀ c ∈ blanks, (!endsPath c) = true := by
        intro c hc
        have hboth := not_endsAuthority_of_isBlank (hblanks c hc)
        rw [endsAuthority, Bool.or_eq_false_iff] at hboth
        rw [hboth.2]
        rfl
      rw [path, path, afterAuthority_append_of_ne_nil hnone, List.takeWhile_append_of_pos hall,
        List.takeWhile_eq_self_iff.mpr hblank, List.takeWhile_eq_self_iff.mpr hall]
    · exact .inl (path_append_of_query hquery blanks).1

/-- There is a host or a user info where something else than a query is. -/
theorem authority_ne_nil (hne : afterSlashes front ≠ []) (hquery : afterPath front = [])
    (cs : List Char) : authority (front ++ cs) ≠ [] := by
  unfold afterSlashes at hne
  unfold authority afterSlashes
  rw [dropWhile_append_of_ne_nil hne]
  cases hdrop : front.dropWhile slash with
  | nil => contradiction
  | cons c rest =>
      have hslash : slash c = false := by
        have hhead := List.head_dropWhile_not slash (l := front) hne
        simpa [hdrop] using hhead
      have hpath : endsPath c = false := by
        cases hc : endsPath c with
        | false => rfl
        | true =>
            unfold afterPath afterAuthority afterSlashes at hquery
            rw [hdrop, List.dropWhile_cons_of_neg (by simp [endsAuthority, hc]),
              List.dropWhile_cons_of_neg (by simp [hc])] at hquery
            cases hquery
      rw [List.cons_append, List.takeWhile_cons_of_pos (by simp [endsAuthority, hslash, hpath])]
      simp

end End

end Whatwg

end A2a
