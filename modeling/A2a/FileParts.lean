import A2a.Handler

/-!
# A2a.FileParts

`--save-fileparts`: writing the raw file parts of an agent's responses to a
directory (`a2acli/src/fileparts.rs`), with every write succeeding.

A file name is one component of a path: `cleanName` leaves no separator in
it, and nothing the code adds has one.
-/

namespace A2a

/-! ## paths of one component -/

/-- What stands before and after the last dot. -/
def splitLastDot (cs : List Char) : Option (List Char × List Char) :=
  match cs.reverse.dropWhile (· != '.') with
  | [] => none
  | _ :: before => some (before.reverse, (cs.reverse.takeWhile (· != '.')).reverse)

/-- `Path::file_name` is none. -/
def isDots (name : String) : Bool := name = "" || name = "." || name = ".."

/-- `Path::file_stem`; a leading dot separates nothing. -/
def fileStem (name : String) : Option String :=
  if isDots name then none
  else
    match splitLastDot name.toList with
    | some ([], _) => some name
    | some (stem, _) => some (String.ofList stem)
    | none => some name

/-- `Path::extension`. -/
def extension (name : String) : Option String :=
  if isDots name then none
  else
    match splitLastDot name.toList with
    | some ([], _) => none
    | some (_, ext) => some (String.ofList ext)
    | none => none

/-- `numbered`: the name of the `n`th file of that name. -/
def numbered (name : String) (n : Nat) : String :=
  match fileStem name, extension name with
  | some stem, some ext => s!"{stem} ({n}).{ext}"
  | _, _ => s!"{name} ({n})"

/-! ## names of parts -/

/-- Without the characters at the end that `p` holds of. -/
def trimEndMatches (p : Char → Bool) (cs : List Char) : List Char :=
  (cs.reverse.dropWhile p).reverse

/-- `windows_safe`. -/
def windowsSafe (name : List Char) : List Char :=
  let safe := name.map fun c => if ['<', '>', ':', '"', '|', '?', '*'].contains c then '_' else c
  let safe := trimEndMatches ['.', ' '].contains safe
  let stem := (safe.takeWhile (· != '.')).map Char.toUpper
  let numberedDevice := (stem.take 3 == "COM".toList || stem.take 3 == "LPT".toList) &&
    stem.length == 4 && (stem.drop 3).all fun c => '1' ≤ c && c ≤ '9'
  if numberedDevice || ["CON", "PRN", "AUX", "NUL"].contains (String.ofList stem) then '_' :: safe
  else safe

/-- `clean_name_for`: the last component under either separator, if it can
name a file. -/
def cleanName (windows : Bool) (raw : String) : Option String :=
  let components := raw.toList.splitOnP fun c => c = '/' || c = '\\'
  match (components.reverse.map trim).find? (· ≠ []) with
  | none => none
  | some base =>
      if base = ['.'] || base = ['.', '.'] then none
      else
        let name := base.map fun c => if isControl c then '_' else c
        let name := if windows then windowsSafe name else name
        if name = [] then none else some (String.ofList name)

/-- `EXTENSIONS`. -/
def extensions : List (String × String) :=
  [("text/plain", ".txt"), ("text/html", ".html"), ("text/csv", ".csv"), ("text/markdown", ".md"),
    ("application/json", ".json"), ("application/pdf", ".pdf"), ("application/xml", ".xml"),
    ("application/zip", ".zip"), ("application/gzip", ".gz"), ("image/png", ".png"),
    ("image/jpeg", ".jpg"), ("image/gif", ".gif"), ("image/webp", ".webp"),
    ("image/svg+xml", ".svg"), ("audio/mpeg", ".mp3"), ("audio/wav", ".wav"),
    ("audio/ogg", ".ogg"), ("video/mp4", ".mp4"), ("video/webm", ".webm")]

/-- `extension_for`. -/
def extensionFor (mediaType : String) : Option String :=
  let essence := (trim (mediaType.toList.takeWhile (· != ';'))).map Char.toLower
  (extensions.find? fun known => known.1.toList = essence).map (·.2)

/-- `resolve_name`: the part's own filename, else `fallback`, else
`filepart`, with an extension from the media type when it has none. -/
def resolveName (windows : Bool) (part : Part) (fallback : String) : String :=
  let name := ((part.filename.bind (cleanName windows)).or (cleanName windows fallback)).getD "filepart"
  if (extension name).isNone then
    match part.mediaType.bind extensionFor with
    | some ext => name ++ ext
    | none => name
  else name

/-! ## the saver -/

/-- `PathBuf`: a file name joined to a directory. -/
structure PathBuf where
  dir : String
  fileName : String
  deriving DecidableEq

/-- The files written to. -/
abbrev Files := Finmap fun _ : PathBuf => List UInt8

/-- The path handed to one message or artifact. -/
structure Reserved where
  owner : String
  path : PathBuf

/-- `FilePartSaver`; `created` are the files first written and not yet
reported. -/
structure FilePartSaver where
  dir : String
  reserved : Finmap fun _ : String => List Reserved
  created : List PathBuf

/-- `FilePartSaver::new`. -/
def FilePartSaver.new (dir : String) : FilePartSaver := ⟨dir, ∅, []⟩

/-- The paths handed out for a name. -/
def FilePartSaver.taken (saver : FilePartSaver) (name : String) : List Reserved :=
  (saver.reserved.lookup name).getD []

/-- `reserve`: the path for `name` under `owner`, and whether it was just
reserved. -/
def FilePartSaver.reserve (saver : FilePartSaver) (owner name : String) :
    (PathBuf × Bool) × FilePartSaver :=
  let taken := saver.taken name
  match taken.find? (·.owner = owner) with
  | some existing => ((existing.path, false), { saver with reserved := saver.reserved.insert name taken })
  | none =>
      let fileName := if taken.isEmpty then name else numbered name taken.length
      let path := PathBuf.mk saver.dir fileName
      ((path, true), { saver with reserved := saver.reserved.insert name (taken ++ [⟨owner, path⟩]) })

/-- `write_file`. -/
def writeFile (files : Files) (path : PathBuf) (data : List UInt8) (append : Bool) : Files :=
  files.insert path (if append then (files.lookup path).getD [] ++ data else data)

/-- A saver and the files it writes to. -/
structure Saving where
  saver : FilePartSaver
  files : Files

/-- Add the bytes of one part to the files of a save. -/
def addBytes (name : String) (bytes : List UInt8) :
    List (String × List UInt8) → List (String × List UInt8)
  | [] => [(name, bytes)]
  | file :: files =>
      if file.1 = name then (file.1, file.2 ++ bytes) :: files else file :: addBytes name bytes files

/-- The first loop of `save`: the raw parts by name, those that share a name
joined. -/
def joined (windows : Bool) (fallback : String) (parts : List Part) : List (String × List UInt8) :=
  parts.foldl (fun files part =>
    match part.content with
    | .raw bytes => addBytes (resolveName windows part fallback) bytes files
    | _ => files) []

namespace Saving

/-- One turn of the second loop of `save`. -/
def saveFile (s : Saving) (owner : String) (append : Bool) (file : String × List UInt8) : Saving :=
  match s.saver.reserve owner file.1 with
  | ((path, isNew), saver) =>
      { saver := { saver with created := if isNew then saver.created ++ [path] else saver.created }
        files := writeFile s.files path file.2 (append && !isNew) }

/-- `save`. -/
def save (windows : Bool) (s : Saving) (owner fallback : String) (parts : List Part)
    (append : Bool) : Saving :=
  (joined windows fallback parts).foldl (fun s file => s.saveFile owner append file) s

/-- `save_message`. -/
def saveMessage (windows : Bool) (s : Saving) (message : Message) : Saving :=
  s.save windows ("msg:" ++ message.messageId) "status-msg" message.parts false

/-- The name the files of an artifact get if they have none of their own. -/
def fallbackName (artifact : Artifact) : String :=
  (artifact.name.filter (· ≠ "")).getD artifact.artifactId

/-- `save_artifact`. -/
def saveArtifact (windows : Bool) (s : Saving) (artifact : Artifact) (append : Bool) : Saving :=
  s.save windows ("art:" ++ artifact.artifactId) (fallbackName artifact) artifact.parts append

/-- `save_task`. -/
def saveTask (windows : Bool) (s : Saving) (task : Task) : Saving :=
  let s := (task.artifacts.getD []).foldl (fun s artifact => s.saveArtifact windows artifact false) s
  match task.status.message with
  | some message => s.saveMessage windows message
  | none => s

/-- `StreamResponse::save_to`. -/
def saveEvent (windows : Bool) (s : Saving) : StreamResponse → Saving
  | .task task => s.saveTask windows task
  | .message message => s.saveMessage windows message
  | .statusUpdate event =>
      match event.status.message with
      | some message => s.saveMessage windows message
      | none => s
  | .artifactUpdate event => s.saveArtifact windows event.artifact (event.append.getD false)

end Saving

end A2a
