import A2a.Sse

/-!
# A2a.Dotenv

How `a2acli` takes settings from `.env` files (`load_dotenv_config` in
`a2acli/src/lib.rs`), and what its HTTP client trusts.

A file's `A2ACLI_*` entries become environment variables before the command
line is parsed, the global file's first.  A `.env` found by walking up from
the working directory may not name what the CLI trusts, but one key that
decides this is missing from the list: `discovered_trust_iff` says when two
such files leave the same.

Variables are told apart by case, as they are on Unix.
-/

namespace A2a

/-! ## dotenv syntax -/

/-- `str::split_once`. -/
def splitOnce (sep : Char) (cs : List Char) : Option (List Char × List Char) :=
  match cs.dropWhile (· != sep) with
  | [] => none
  | _ :: after => some (cs.takeWhile (· != sep), after)

/-- One layer of a quote stripped. -/
def unquote (quote : Char) : List Char → Option (List Char)
  | [] => none
  | first :: rest =>
      if first = quote ∧ rest.getLast? = some quote then some rest.dropLast else none

def doubleQuote : Char := Char.ofNat 0x22

def singleQuote : Char := Char.ofNat 0x27

/-- An entry of a file: a key and its value. -/
abbrev DotenvEntry := String × String

/-- What a line of a file sets. -/
def parseDotenvLine (line : List Char) : Option DotenvEntry :=
  let line := trim line
  if line = [] ∨ line.head? = some '#' then none
  else
    let line := if "export ".toList.isPrefixOf line then line.drop 7 else line
    match splitOnce '=' line with
    | none => none
    | some (key, value) =>
        let value := trim value
        let value := ((unquote doubleQuote value).or (unquote singleQuote value)).getD value
        some (String.ofList (trim key), String.ofList value)

/-- `parse_dotenv`. -/
def parseDotenv (contents : String) : List DotenvEntry :=
  (linesFrom [] contents.toList).filterMap parseDotenvLine

/-! ## loading -/

abbrev Environment := Finmap fun _ : String => String

/-- An argument's text, none if it is not UTF-8. -/
abbrev OsString := Option String

/-- The files a setting can come from. -/
inductive ConfigSource
  | localFile
  | globalFile
  deriving DecidableEq

/-- The environment with what was injected, and from where. -/
structure Injected where
  env : Environment
  provenance : Finmap fun _ : String => ConfigSource

/-- `NOT_FROM_DISCOVERED_DOTENV`. -/
def notFromDiscoveredDotenv : List String := ["A2ACLI_CA_CERT", "A2ACLI_UNIX_SOCKET"]

/-- A key of the CLI's own. -/
def isCliKey (key : String) : Bool := "A2ACLI_".toList.isPrefixOf key.toList

/-- `std::env::set_var` panics on a NUL. -/
def settable (entry : DotenvEntry) : Bool :=
  !(entry.1.toList.contains (Char.ofNat 0)) && !(entry.2.toList.contains (Char.ofNat 0))

section Apply

variable (source : ConfigSource) (discovered : Bool) (realEnvKeys : Finset String)

/-- Whether an entry of a file is left out. -/
def skips (key : String) : Bool :=
  !isCliKey key || decide (key ∈ realEnvKeys) ||
    (discovered && notFromDiscoveredDotenv.contains key)

/-- The loop of `apply_dotenv_file`, none if it panics. -/
def applyEntries : List DotenvEntry → Injected → Option Injected
  | [], s => some s
  | entry :: entries, s =>
      if skips discovered realEnvKeys entry.1 then applyEntries entries s
      else if settable entry then
        applyEntries entries
          { env := s.env.insert entry.1 entry.2, provenance := s.provenance.insert entry.1 source }
      else none

/-- `apply_dotenv_file`; a file that cannot be read has no contents. -/
def applyDotenvFile (contents : Option String) (s : Injected) : Option Injected :=
  match contents with
  | none => some s
  | some contents => applyEntries source discovered realEnvKeys (parseDotenv contents) s

end Apply

/-- `find_flag_value`. -/
def findFlagValue (flag : String) : List OsString → Option String
  | [] => none
  | none :: args => findFlagValue flag args
  | some arg :: args =>
      if arg = flag then args.head?.join
      else
        match stripPrefix (flag ++ "=") arg with
        | some value => some value
        | none => findFlagValue flag args

/-- The files: the global one, the one a path names, and the one found by
walking up from the working directory; by their contents. -/
structure DotenvFiles where
  globalFile : Option String
  named : String → Option String
  discovered : Option String

/-- `load_dotenv_config`. -/
def loadDotenvConfig (args : List OsString) (files : DotenvFiles) (env : Environment) :
    Option Injected :=
  let realEnvKeys := env.keys.filter fun key => isCliKey key
  let explicit := findFlagValue "--config" args
  (applyDotenvFile .globalFile false realEnvKeys files.globalFile ⟨env, ∅⟩).bind fun s =>
    match explicit with
    | some path => applyDotenvFile .localFile false realEnvKeys (files.named path) s
    | none => applyDotenvFile .localFile true realEnvKeys files.discovered s

/-! ## the settings that decide trust -/

/-- `--insecure`, `--ca-cert` and `--unix-socket`. -/
structure TrustSettings where
  insecure : Bool
  caCert : Option String
  unixSocket : Option String
  deriving DecidableEq

/-- The parser of the command line: the flags it has, none if it is
refused, and whether everything else it and the environment say is taken. -/
structure Clap where
  flags : List OsString → Option TrustSettings
  others : List OsString → Environment → Bool

/-- A switch as a variable sets it. -/
def boolValue (text : String) : Option Bool :=
  if text = "true" then some true else if text = "false" then some false else none

/-- A path as a variable sets it. -/
def pathValue (text : String) : Option String := if text = "" then none else some text

/-- A switch: on if given, else as the variable says, else off. -/
def switchSetting (flag : Bool) (env : Option String) : Option Bool :=
  if flag then some true
  else
    match env with
    | none => some false
    | some text => boolValue text

/-- A path: as given, else as the variable says, else none. -/
def pathSetting (flag env : Option String) : Option (Option String) :=
  match flag, env with
  | some path, _ => some (some path)
  | none, none => some none
  | none, some text => (pathValue text).map some

/-- The settings of a command, none if its command line is refused. -/
def Clap.settings (clap : Clap) (args : List OsString) (env : Environment) : Option TrustSettings :=
  (clap.flags args).bind fun flags =>
    if clap.others args env then
      (switchSetting flags.insecure (env.lookup "A2ACLI_INSECURE")).bind fun insecure =>
        (pathSetting flags.caCert (env.lookup "A2ACLI_CA_CERT")).bind fun caCert =>
          (pathSetting flags.unixSocket (env.lookup "A2ACLI_UNIX_SOCKET")).map fun unixSocket =>
            ⟨insecure, caCert, unixSocket⟩
    else none

/-! ## the client -/

/-- What an HTTP client trusts, and where it sends. -/
structure HttpClient where
  acceptInvalidCerts : Bool
  /-- the only certificates trusted, in place of the system's -/
  certsOnly : Option (List String)
  unixSocket : Option String

/-- The build and the machine: whether it has TLS, whether it is Unix, and
the certificates of a PEM file. -/
structure Platform where
  tls : Bool
  unix : Bool
  readCerts : String → Except String (List String)

/-- `trust_only_ca_file`. -/
def trustOnlyCaFile (platform : Platform) (client : HttpClient) (path : String) :
    Except String HttpClient :=
  if platform.tls then
    match platform.readCerts path with
    | .error reason => .error s!"reading --ca-cert {path}: {reason}"
    | .ok [] => .error s!"reading --ca-cert {path}: no PEM certificates found"
    | .ok certs => .ok { client with certsOnly := some certs }
  else .error "--ca-cert needs TLS support, which this build does not include"

/-- `through_unix_socket`. -/
def throughUnixSocket (platform : Platform) (client : HttpClient) (path : String) :
    Except String HttpClient :=
  if platform.unix then .ok { client with unixSocket := some path }
  else .error "--unix-socket is only supported on Unix platforms"

/-- `build_http_client`. -/
def buildHttpClient (platform : Platform) (s : TrustSettings) : Except String HttpClient :=
  if s.insecure && s.caCert.isSome then
    .error ("--ca-cert and --insecure cannot be combined: --insecure turns certificate " ++
      "verification off, so the CA file would never be consulted")
  else
    let client : HttpClient := ⟨s.insecure && platform.tls, none, none⟩
    let trusting := match s.caCert with
      | some path => trustOnlyCaFile platform client path
      | none => .ok client
    match s.unixSocket with
    | some path => trusting.bind (throughUnixSocket platform · path)
    | none => trusting

/-- The settings of a command and the client it builds, none if it does not
get that far. -/
def runTrust (platform : Platform) (clap : Clap) (args : List OsString) (env : Environment)
    (files : DotenvFiles) : Option (TrustSettings × Except String HttpClient) :=
  (loadDotenvConfig args files env).bind fun injected =>
    (clap.settings args injected.env).map fun s => (s, buildHttpClient platform s)

end A2a
