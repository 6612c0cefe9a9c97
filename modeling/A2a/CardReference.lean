import A2a.Dotenv
import A2a.Whatwg

/-!
# A2a.CardReference

How `a2acli` reads an `--agent-card` reference (`normalize_card_reference`
in `a2acli/src/lib.rs`): a file, or a URL to which a bare host is completed,
by a scheme that depends on whether the host is loopback and by the
well-known path if there is none.

Texts are lists of characters here.
-/

namespace A2a

/-- `str::split_once` of a text. -/
def splitOnceText (sep : List Char) : List Char → Option (List Char × List Char)
  | [] => if sep = [] then some ([], []) else none
  | c :: cs =>
      if sep.isPrefixOf (c :: cs) then some ([], (c :: cs).drop sep.length)
      else (splitOnceText sep cs).map fun found => (c :: found.1, found.2)

/-- `WELL_KNOWN_AGENT_CARD_PATH`. -/
def wellKnownAgentCardPath : List Char := "/.well-known/agent-card.json".toList

/-- `file://` -/
def fileScheme : List Char := ['f', 'i', 'l', 'e', ':', '/', '/']

/-- `://` -/
def schemeEnd : List Char := [':', '/', '/']

inductive CardReference
  | file (path : List Char)
  | url (text : List Char)
  deriving DecidableEq

/-- `has_windows_drive_prefix`. -/
def hasWindowsDrivePrefix : List Char → Bool
  | drive :: colon :: separator :: _ =>
      drive.isAlpha && decide (colon = ':') && (decide (separator = '\\') || decide (separator = '/'))
  | _ => false

/-- What the text of a path begins with. -/
def pathShapes : List (List Char) :=
  [['/'], ['.', '/'], ['.', '.', '/'], ['\\'], ['.', '\\'], ['.', '.', '\\']]

section Normalize

variable (onDisk : List Char → Bool) (reference : List Char)

/-- `looks_like_file_path`; `onDisk` says what names something on disk. -/
def looksLikeFilePath : Bool :=
  pathShapes.any (fun shape => shape.isPrefixOf reference) || hasWindowsDrivePrefix reference ||
    onDisk reference

/-- The part before a character, all if it is not there. -/
def partBefore (sep : Char) (cs : List Char) : List Char :=
  match splitOnce sep cs with
  | some (part, _) => part
  | none => cs

/-- `is_loopback_host`. -/
def isLoopbackHost (host : List Char) : Bool :=
  match parseIpAddr host with
  | some address => address.isLoopback
  | none =>
      let host :=
        match host with
        | '[' :: rest => partBefore ']' rest
        | host => partBefore ':' host
      decide (host = Whatwg.localhost) || (parseIpAddr host).any IpAddr.isLoopback

/-- `append_well_known_path`. -/
def appendWellKnownPath (url : List Char) : List Char :=
  let trimmed := url.rdropWhile fun c => decide (c = '/')
  let hasPath := (splitOnceText schemeEnd trimmed).any fun parts => parts.2.contains '/'
  if hasPath then url else trimmed ++ wellKnownAgentCardPath

/-- `normalize_card_reference`. -/
def normalizeCardReference : CardReference :=
  if fileScheme.isPrefixOf reference then
    let rest := reference.drop fileScheme.length
    match rest with
    | '/' :: withoutSlash =>
        if hasWindowsDrivePrefix withoutSlash then .file withoutSlash else .file rest
    | _ => .file rest
  else if (splitOnceText schemeEnd reference).isNone then
    if looksLikeFilePath onDisk reference then .file reference
    else
      let scheme := if isLoopbackHost reference then Whatwg.http else Whatwg.https
      .url (appendWellKnownPath (scheme ++ schemeEnd ++ reference))
  else .url (appendWellKnownPath reference)

end Normalize

example : normalizeCardReference (fun _ => false) "localhost:3000".toList =
    .url "http://localhost:3000/.well-known/agent-card.json".toList := by decide

/-! ## what the lookups find -/

theorem partBefore_eq (sep : Char) (cs : List Char) :
    partBefore sep cs = cs.takeWhile (· != sep) := by
  unfold partBefore splitOnce
  cases hdrop : cs.dropWhile (· != sep) with
  | nil =>
      have hsplit := List.takeWhile_append_dropWhile (p := (· != sep)) (l := cs)
      rw [hdrop, List.append_nil] at hsplit
      exact hsplit.symm
  | cons c rest => rfl

/-- A part of what is split off is up to the separator. -/
theorem partBefore_append {sep : Char} {front : List Char} (h : sep ∉ front) (rest : List Char) :
    partBefore sep (front ++ sep :: rest) = front := by
  rw [partBefore_eq, List.takeWhile_append_of_pos, List.takeWhile_cons_of_neg (by simp),
    List.append_nil]
  intro c hc
  rw [bne_iff_ne]
  rintro rfl
  exact h hc

theorem partBefore_self {sep : Char} {cs : List Char} (h : sep ∉ cs) : partBefore sep cs = cs := by
  rw [partBefore_eq, List.takeWhile_eq_self_iff]
  intro c hc
  rw [bne_iff_ne]
  rintro rfl
  exact h hc

/-- A text is the part before a character, and what that one begins. -/
theorem partBefore_split (sep : Char) (cs : List Char) :
    sep ∉ partBefore sep cs ∧
      (cs = partBefore sep cs ∨ ∃ rest, cs = partBefore sep cs ++ sep :: rest) := by
  have hsplit := List.takeWhile_append_dropWhile (p := (· != sep)) (l := cs)
  have hall := List.all_takeWhile (p := (· != sep)) (l := cs)
  rw [partBefore_eq]
  constructor
  · intro hmem
    have hne := List.all_eq_true.mp hall sep hmem
    simp at hne
  · cases hdrop : cs.dropWhile (· != sep) with
    | nil =>
        rw [hdrop, List.append_nil] at hsplit
        exact .inl hsplit.symm
    | cons c rest =>
        have hc : c = sep := by
          have hhead := List.head_dropWhile_not (· != sep) (l := cs) (by rw [hdrop]; simp)
          simpa [hdrop] using hhead
        rw [hdrop, hc] at hsplit
        exact .inr ⟨rest, hsplit.symm⟩

end A2a
