import A2a.Dotenv

/-!
# A2a.Dotenv.Trust

What a `.env` found by walking up from the working directory can change of
what the CLI trusts (`discovered_trust_iff`): never the CA file or the
socket, but whether certificates are verified, unless the command line or
the real environment says so.
-/

namespace A2a

/-! ## what loading leaves of a variable -/

/-- The last value entries give a key. -/
def lastValue (key : String) (entries : List DotenvEntry) : Option String :=
  ((entries.filter fun entry => entry.1 = key).getLast?).map (·.2)

variable {source : ConfigSource} {discovered : Bool} {realEnvKeys : Finset String} {key : String}
  {s s' : Injected}

theorem lastValue_cons_self (value : String) (entries : List DotenvEntry) :
    lastValue key ((key, value) :: entries) = (lastValue key entries).or (some value) := by
  unfold lastValue
  rw [List.filter_cons_of_pos (by simp), List.getLast?_cons]
  cases (entries.filter fun entry => entry.1 = key).getLast? <;> rfl

theorem lastValue_cons_ne {other : String} (hne : other ≠ key) (value : String)
    (entries : List DotenvEntry) :
    lastValue key ((other, value) :: entries) = lastValue key entries := by
  unfold lastValue
  rw [List.filter_cons_of_neg (by simpa using hne)]

theorem lastValue_append (entries more : List DotenvEntry) :
    lastValue key (entries ++ more) = (lastValue key more).or (lastValue key entries) := by
  simp only [lastValue, List.filter_append, List.getLast?_append, Option.map_or]

/-- Entries leave of a variable what they last say of it, if it is not one
they skip. -/
theorem lookup_applyEntries {entries : List DotenvEntry}
    (h : applyEntries source discovered realEnvKeys entries s = some s') :
    s'.env.lookup key =
      if skips discovered realEnvKeys key then s.env.lookup key
      else (lastValue key entries).or (s.env.lookup key) := by
  induction entries generalizing s with
  | nil =>
      rw [← Option.some.inj h]
      simp [lastValue]
  | cons entry entries ih =>
      obtain ⟨other, value⟩ := entry
      unfold applyEntries at h
      split at h
      · next hskips =>
          have hrest := ih h
          by_cases hkey : other = key
          · subst hkey
            rw [hrest, if_pos hskips, if_pos hskips]
          · rw [hrest, lastValue_cons_ne hkey]
      · next hskips =>
          split at h
          · have hrest := ih h
            by_cases hkey : other = key
            · subst hkey
              simp only [Finmap.lookup_insert] at hrest
              rw [hrest, if_neg hskips, if_neg hskips, lastValue_cons_self]
              cases lastValue other entries <;> rfl
            · simp only [Finmap.lookup_insert_of_ne _ (Ne.symm hkey)] at hrest
              rw [hrest, lastValue_cons_ne hkey]
          · contradiction

/-- The entries of a file; one that cannot be read has none. -/
def entriesOf (contents : Option String) : List DotenvEntry := (contents.map parseDotenv).getD []

theorem lookup_applyDotenvFile {contents : Option String}
    (h : applyDotenvFile source discovered realEnvKeys contents s = some s') :
    s'.env.lookup key =
      if skips discovered realEnvKeys key then s.env.lookup key
      else (lastValue key (entriesOf contents)).or (s.env.lookup key) := by
  cases contents with
  | none =>
      rw [← Option.some.inj h]
      simp [entriesOf, lastValue]
  | some contents => exact lookup_applyEntries h

variable {args : List OsString} {env : Environment} {files : DotenvFiles}

/-- What a command without `--config` finds of one of its variables. -/
theorem lookup_loadDotenvConfig (hconfig : findFlagValue "--config" args = none)
    (hkey : isCliKey key = true) (h : loadDotenvConfig args files env = some s') :
    s'.env.lookup key =
      if key ∈ env then env.lookup key
      else if notFromDiscoveredDotenv.contains key then lastValue key (entriesOf files.globalFile)
      else lastValue key (entriesOf files.globalFile ++ entriesOf files.discovered) := by
  have hreal : key ∈ env.keys.filter (fun key => isCliKey key = true) ↔ key ∈ env := by
    rw [Finset.mem_filter, Finmap.mem_keys]
    exact ⟨fun h => h.1, fun h => ⟨h, hkey⟩⟩
  unfold loadDotenvConfig at h
  obtain ⟨loaded, hglobal, hlocal⟩ := Option.bind_eq_some_iff.mp h
  simp only [hconfig] at hlocal
  rw [lookup_applyDotenvFile hlocal, lookup_applyDotenvFile hglobal]
  by_cases hset : key ∈ env
  · simp [skips, hkey, hreal.mpr hset, hset]
  · have hnone : env.lookup key = none := Finmap.lookup_eq_none.mpr hset
    have hnot : key ∉ env.keys.filter (fun key => isCliKey key = true) := fun h => hset (hreal.mp h)
    simp only [skips, hkey, hnot, hset, hnone, lastValue_append, if_false, Bool.not_true, Bool.false_or,
      decide_false, Bool.false_and, Bool.true_and, Option.or_none, Bool.false_eq_true]

/-! ## the settings -/

/-- Whether the files turn verification off: what they last say of
`A2ACLI_INSECURE`, the local one over the global one. -/
def asksInsecure (files : DotenvFiles) : Bool :=
  lastValue "A2ACLI_INSECURE" (entriesOf files.globalFile ++ entriesOf files.discovered) ==
    some "true"

/-- Whether the command line or the real environment says if certificates
are verified. -/
def insecureGiven (clap : Clap) (args : List OsString) (env : Environment) : Bool :=
  (clap.flags args).any (·.insecure) || decide ("A2ACLI_INSECURE" ∈ env)

theorem switchSetting_eq {flag : Bool} {value : Option String} {on : Bool}
    (h : switchSetting flag value = some on) : on = (flag || value == some "true") := by
  unfold switchSetting at h
  cases flag with
  | true => simpa using h.symm
  | false =>
      cases value with
      | none => simpa using h.symm
      | some text =>
          simp only [boolValue, Bool.false_eq_true, if_false] at h
          by_cases htrue : text = "true"
          · simpa [htrue] using h.symm
          · rw [if_neg htrue] at h
            have hno : (some text == some "true") = false := by simpa using htrue
            rw [hno]
            split at h
            · simpa using h.symm
            · contradiction

/-- The settings of a command are those of its flags and its variables. -/
theorem settings_eq {clap : Clap} {settings : TrustSettings}
    (h : clap.settings args env = some settings) :
    ∃ flags, clap.flags args = some flags ∧
      settings.insecure = (flags.insecure || env.lookup "A2ACLI_INSECURE" == some "true") ∧
      pathSetting flags.caCert (env.lookup "A2ACLI_CA_CERT") = some settings.caCert ∧
      pathSetting flags.unixSocket (env.lookup "A2ACLI_UNIX_SOCKET") = some settings.unixSocket := by
  obtain ⟨flags, hflags, h⟩ := Option.bind_eq_some_iff.mp h
  split at h
  · obtain ⟨insecure, hinsecure, h⟩ := Option.bind_eq_some_iff.mp h
    obtain ⟨caCert, hca, h⟩ := Option.bind_eq_some_iff.mp h
    obtain ⟨unixSocket, hsocket, h⟩ := Option.map_eq_some_iff.mp h
    subst h
    exact ⟨flags, hflags, switchSetting_eq hinsecure, hca, hsocket⟩
  · contradiction

/-- The settings of a command without `--config`. -/
theorem runTrust_eq {platform : Platform} {clap : Clap}
    {trust : TrustSettings × Except String HttpClient}
    (hconfig : findFlagValue "--config" args = none)
    (h : runTrust platform clap args env files = some trust) :
    ∃ flags, clap.flags args = some flags ∧ trust.2 = buildHttpClient platform trust.1 ∧
      trust.1.insecure = (flags.insecure ||
        if "A2ACLI_INSECURE" ∈ env then env.lookup "A2ACLI_INSECURE" == some "true"
        else asksInsecure files) ∧
      pathSetting flags.caCert (if "A2ACLI_CA_CERT" ∈ env then env.lookup "A2ACLI_CA_CERT"
        else lastValue "A2ACLI_CA_CERT" (entriesOf files.globalFile)) = some trust.1.caCert ∧
      pathSetting flags.unixSocket (if "A2ACLI_UNIX_SOCKET" ∈ env then
          env.lookup "A2ACLI_UNIX_SOCKET"
        else lastValue "A2ACLI_UNIX_SOCKET" (entriesOf files.globalFile)) =
        some trust.1.unixSocket := by
  obtain ⟨injected, hload, h⟩ := Option.bind_eq_some_iff.mp h
  obtain ⟨settings, hsettings, h⟩ := Option.map_eq_some_iff.mp h
  subst h
  obtain ⟨flags, hflags, hinsecure, hca, hsocket⟩ := settings_eq hsettings
  have hlookup (key : String) (hkey : isCliKey key = true) :=
    lookup_loadDotenvConfig hconfig hkey hload
  refine ⟨flags, hflags, rfl, ?_, ?_, ?_⟩
  · rw [hinsecure, hlookup "A2ACLI_INSECURE" (by decide)]
    rw [if_neg (show ¬notFromDiscoveredDotenv.contains "A2ACLI_INSECURE" = true by decide)]
    split_ifs <;> rfl
  · rw [hlookup "A2ACLI_CA_CERT" (by decide)] at hca
    rwa [if_pos (show notFromDiscoveredDotenv.contains "A2ACLI_CA_CERT" = true by decide)] at hca
  · rw [hlookup "A2ACLI_UNIX_SOCKET" (by decide)] at hsocket
    rwa [if_pos (show notFromDiscoveredDotenv.contains "A2ACLI_UNIX_SOCKET" = true by decide)]
      at hsocket

/-- **What a discovered `.env` changes of what the CLI trusts**: two of them
leave the same settings and the same client exactly if verification is
decided elsewhere, or they agree on it. -/
theorem discovered_trust_iff (platform : Platform) (clap : Clap)
    (hconfig : findFlagValue "--config" args = none) {files files' : DotenvFiles}
    (hsame : files.globalFile = files'.globalFile)
    {trust trust' : TrustSettings × Except String HttpClient}
    (h : runTrust platform clap args env files = some trust)
    (h' : runTrust platform clap args env files' = some trust') :
    trust = trust' ↔
      insecureGiven clap args env = true ∨ asksInsecure files = asksInsecure files' := by
  obtain ⟨flags, hflags, hclient, hinsecure, hca, hsocket⟩ := runTrust_eq hconfig h
  obtain ⟨flags', hflags', hclient', hinsecure', hca', hsocket'⟩ := runTrust_eq hconfig h'
  obtain rfl := Option.some.inj (hflags.symm.trans hflags')
  rw [← hsame] at hca' hsocket'
  have hpaths : trust.1.caCert = trust'.1.caCert ∧ trust.1.unixSocket = trust'.1.unixSocket :=
    ⟨Option.some.inj (hca.symm.trans hca'), Option.some.inj (hsocket.symm.trans hsocket')⟩
  have hgiven : insecureGiven clap args env = (flags.insecure || decide ("A2ACLI_INSECURE" ∈ env)) := by
    rw [insecureGiven, hflags]
    rfl
  have hsettings : trust = trust' ↔ trust.1.insecure = trust'.1.insecure := by
    constructor
    · intro he
      rw [he]
    · intro he
      have hfirst : trust.1 = trust'.1 := by
        cases hs : trust.1
        cases hs' : trust'.1
        simp only [hs, hs'] at he hpaths
        rw [he, hpaths.1, hpaths.2]
      exact Prod.ext hfirst (by rw [hclient, hclient', hfirst])
  rw [hsettings, hinsecure, hinsecure', hgiven]
  by_cases hset : "A2ACLI_INSECURE" ∈ env
  · simp [hset]
  · cases flags.insecure <;> simp [hset]

/-- A parser that finds no flags and refuses nothing. -/
def plainClap : Clap where
  flags _ := some ⟨false, none, none⟩
  others _ _ := true

def plainPlatform : Platform where
  tls := true
  unix := true
  readCerts _ := .error "not found"

/-- The files of a command run in a cloned repository. -/
def cloned (contents : String) : DotenvFiles where
  globalFile := none
  named _ := none
  discovered := some contents

/-- `a2acli send hi`. -/
def sendHi : List (Option String) := [some "a2acli", some "send", some "hi"]

/-- Two that name a CA file leave the same. -/
theorem discovered_trust_caCert :
    ∃ trust trust', runTrust plainPlatform plainClap sendHi ∅ (cloned "A2ACLI_CA_CERT=a.pem") =
        some trust ∧
      runTrust plainPlatform plainClap sendHi ∅ (cloned "A2ACLI_CA_CERT=b.pem") = some trust' ∧
      trust = trust' := by
  have hfirst : (runTrust plainPlatform plainClap sendHi ∅
      (cloned "A2ACLI_CA_CERT=a.pem")).isSome := by decide
  have hsecond : (runTrust plainPlatform plainClap sendHi ∅
      (cloned "A2ACLI_CA_CERT=b.pem")).isSome := by decide
  obtain ⟨trust, htrust⟩ := Option.isSome_iff_exists.mp hfirst
  obtain ⟨trust', htrust'⟩ := Option.isSome_iff_exists.mp hsecond
  have hglobal : (cloned "A2ACLI_CA_CERT=a.pem").globalFile =
      (cloned "A2ACLI_CA_CERT=b.pem").globalFile := rfl
  refine ⟨trust, trust', htrust, htrust', ?_⟩
  exact (discovered_trust_iff plainPlatform plainClap (by decide) hglobal htrust htrust').mpr
    (.inr (by decide))

/-- **A cloned repository turns verification off.** -/
theorem cloned_insecure :
    findFlagValue "--config" sendHi = none ∧
      (runTrust plainPlatform plainClap sendHi ∅
        (cloned "A2ACLI_TENANT=acme")).map (·.1.insecure) = some false ∧
      (runTrust plainPlatform plainClap sendHi ∅
        (cloned "A2ACLI_INSECURE=true")).map (·.1.insecure) = some true := by
  decide

end A2a
