import A2a.Dotenv.Trust

/-!
# A2a.Dotenv.Precedence

Which source a setting of `a2acli` comes from: the real environment, then
the local `.env`, then the global one.

The local file is looked for before the command line is parsed, by a scan of
the raw arguments (`find_flag_value`).  The scan starts at the program's own
name, does not stop at `--` and takes the first `--config` it meets, so it
can read one where the parser reads none, or another one than the parser
does.  A NUL in a value ends the program instead.  `precedence_iff` says
when neither shows.
-/

namespace A2a

/-! ## what the files say -/

/-- The local file: the one `--config` names, else the discovered one. -/
def DotenvFiles.localFile (files : DotenvFiles) : Option String → Option String
  | some path => files.named path
  | none => files.discovered

/-- What the local file says of a key it may set. -/
def localValue (files : DotenvFiles) (config : Option String) (key : String) : Option String :=
  if config.isNone && notFromDiscoveredDotenv.contains key then none
  else lastValue key (entriesOf (files.localFile config))

/-- What the global file says of a key. -/
def globalValue (files : DotenvFiles) (key : String) : Option String :=
  lastValue key (entriesOf files.globalFile)

/-- The value of a setting: the environment's, else the local file's, else
the global file's. -/
def effectiveValue (files : DotenvFiles) (config : Option String) (env : Environment)
    (key : String) : Option String :=
  (env.lookup key).or ((localValue files config key).or (globalValue files key))

/-- The file that supplies it, none if it is the environment or no file. -/
def supplier (files : DotenvFiles) (config : Option String) (env : Environment) (key : String) :
    Option ConfigSource :=
  if isCliKey key = false ∨ key ∈ env then none
  else if (localValue files config key).isSome then some .localFile
  else if (globalValue files key).isSome then some .globalFile
  else none

/-- What loading leaves is what the sources say, in their order, and names
the file each setting is from. -/
structure Injected.Follows (s : Injected) (files : DotenvFiles) (config : Option String)
    (env : Environment) : Prop where
  values : ∀ key, isCliKey key = true → s.env.lookup key = effectiveValue files config env key
  sources : ∀ key, s.provenance.lookup key = supplier files config env key

/-! ## where the raw arguments spell a flag -/

/-- An argument spelled like a flag. -/
def spells (flag : String) : OsString → Bool
  | none => false
  | some arg => decide (arg = flag) || (stripPrefix (flag ++ "=") arg).isSome

/-- The value at the first argument spelled like a flag. -/
def firstSpelled (flag : String) (args : List OsString) : Option String :=
  match args.dropWhile fun arg => !spells flag arg with
  | some arg :: after => if arg = flag then after.head?.join else stripPrefix (flag ++ "=") arg
  | _ => none

theorem findFlagValue_of_not_spells {flag : String} {arg : OsString} (h : spells flag arg = false)
    (args : List OsString) : findFlagValue flag (arg :: args) = findFlagValue flag args := by
  cases arg with
  | none => rfl
  | some arg =>
      unfold spells at h
      rw [Bool.or_eq_false_iff, decide_eq_false_iff_not, Option.isSome_eq_false_iff,
        Option.isNone_iff_eq_none] at h
      rw [findFlagValue, if_neg h.1, h.2]

/-- The scan takes what is first spelled like the flag, wherever it stands. -/
theorem findFlagValue_eq_firstSpelled (flag : String) (args : List OsString) :
    findFlagValue flag args = firstSpelled flag args := by
  induction args with
  | nil => rfl
  | cons arg args ih =>
      cases hspells : spells flag arg with
      | false =>
          rw [findFlagValue_of_not_spells hspells, ih]
          unfold firstSpelled
          rw [List.dropWhile_cons_of_pos (by rw [hspells]; rfl)]
      | true =>
          unfold firstSpelled
          rw [List.dropWhile_cons_of_neg (by simp [hspells])]
          cases arg with
          | none => contradiction
          | some arg =>
              simp only [findFlagValue]
              split
              · rfl
              · next hne =>
                  simp only [spells, hne, decide_false, Bool.false_or] at hspells
                  obtain ⟨value, hvalue⟩ := Option.isSome_iff_exists.mp hspells
                  rw [hvalue]

theorem findFlagValue_append_of_not_spells {flag : String} {skipped : List OsString}
    (h : ∀ arg ∈ skipped, spells flag arg = false) (args : List OsString) :
    findFlagValue flag (skipped ++ args) = findFlagValue flag args := by
  induction skipped with
  | nil => rfl
  | cons arg skipped ih =>
      rw [List.forall_mem_cons] at h
      rw [List.cons_append, findFlagValue_of_not_spells h.1, ih h.2]

/-! ## the command lines the parser accepts -/

/-- What the parser reads before `--`: its `--config`, in either spelling,
or another argument. -/
inductive Argument
  | config (path : String) (joined : Bool)
  | other (arg : OsString)

def Argument.raw : Argument → List OsString
  | .config path true => [some ("--config=" ++ path)]
  | .config path false => [some "--config", some path]
  | .other arg => [arg]

def Argument.path? : Argument → Option String
  | .config path _ => some path
  | .other _ => none

/-- A path of its own is not spelled like a flag; no other argument is
spelled like this one or is `--`. -/
def Argument.WellFormed : Argument → Prop
  | .config path joined => joined = true ∨ path = "-" ∨ path.toList.head? ≠ some '-'
  | .other arg => arg ≠ some "--" ∧ spells "--config" arg = false

/-- The paths given as `--config`. -/
def configPaths (arguments : List Argument) : List String := arguments.filterMap Argument.path?

/-- A command line that is accepted: `--` ends the flags, and of several
`--config`, one to each command, one is read. -/
structure CommandLine where
  program : OsString
  arguments : List Argument
  wellFormed : ∀ argument ∈ arguments, argument.WellFormed
  /-- what follows `--`, if it is there -/
  escaped : Option (List OsString)
  /-- the path read as `--config` -/
  config : Option String
  config_none : config = none ↔ configPaths arguments = []
  config_mem : ∀ path ∈ config, path ∈ configPaths arguments

namespace CommandLine

variable (line : CommandLine)

/-- The end of the raw arguments. -/
def escapedArgs : List OsString :=
  match line.escaped with
  | none => []
  | some args => some "--" :: args

def args : List OsString :=
  line.program :: line.arguments.flatMap Argument.raw ++ line.escapedArgs

/-- The flag is spelled once, as itself; or never, `--` or not. -/
structure Straight : Prop where
  program : spells "--config" line.program = false
  once : (configPaths line.arguments).length ≤ 1
  escaped : configPaths line.arguments = [] →
    ∀ arg ∈ line.escaped.getD [], spells "--config" arg = false

end CommandLine

theorem stripPrefix_config (path : String) :
    stripPrefix ("--config" ++ "=") ("--config=" ++ path) = some path :=
  stripPrefix_eq_some.mpr rfl

theorem joined_ne_config (path : String) : "--config=" ++ path ≠ "--config" := by
  intro h
  have hlength := congrArg String.length h
  rw [String.length_append] at hlength
  have hflag : "--config=".length = 9 := rfl
  have hname : "--config".length = 8 := rfl
  omega

/-- The scan meets the first `--config` the parser reads, if there is one. -/
theorem findFlagValue_arguments {arguments : List Argument}
    (hwf : ∀ argument ∈ arguments, argument.WellFormed) (rest : List OsString) :
    findFlagValue "--config" (arguments.flatMap Argument.raw ++ rest) =
      match (configPaths arguments).head? with
      | some path => some path
      | none => findFlagValue "--config" rest := by
  induction arguments with
  | nil => rfl
  | cons argument arguments ih =>
      rw [List.forall_mem_cons] at hwf
      rw [List.flatMap_cons, List.append_assoc]
      cases argument with
      | config path joined =>
          cases joined with
          | true =>
              show findFlagValue "--config" (some ("--config=" ++ path) :: _) = some path
              rw [findFlagValue, if_neg (joined_ne_config path), stripPrefix_config]
          | false =>
              show findFlagValue "--config" (some "--config" :: some path :: _) = some path
              rw [findFlagValue, if_pos rfl]
              rfl
      | other arg =>
          have hskip := findFlagValue_of_not_spells hwf.1.2
            (arguments.flatMap Argument.raw ++ rest)
          exact hskip.trans (ih hwf.2)

/-- On a straight line the scan finds what the parser reads. -/
theorem firstSpelled_of_straight {line : CommandLine} (h : line.Straight) :
    firstSpelled "--config" line.args = line.config := by
  rw [← findFlagValue_eq_firstSpelled, CommandLine.args, List.cons_append,
    findFlagValue_of_not_spells h.program, findFlagValue_arguments line.wellFormed]
  cases hpaths : configPaths line.arguments with
  | nil =>
      rw [line.config_none.mpr hpaths]
      have hescaped := h.escaped hpaths
      show findFlagValue "--config" line.escapedArgs = none
      unfold CommandLine.escapedArgs
      cases he : line.escaped with
      | none => rfl
      | some args =>
          rw [he] at hescaped
          show findFlagValue "--config" (some "--" :: args) = none
          rw [findFlagValue_of_not_spells (by decide)]
          have hskipped := findFlagValue_append_of_not_spells hescaped []
          rwa [List.append_nil] at hskipped
  | cons path more =>
      have honce := h.once
      rw [hpaths, List.length_cons] at honce
      have hmore : more = [] := List.eq_nil_of_length_eq_zero (by omega)
      subst hmore
      cases hconfig : line.config with
      | none =>
          have hnil := line.config_none.mp hconfig
          rw [hpaths] at hnil
          contradiction
      | some read =>
          have hread := line.config_mem read hconfig
          rw [hpaths, List.mem_singleton] at hread
          rw [hread]
          rfl

/-! ## what loading does -/

section Apply

variable {source : ConfigSource} {discovered : Bool} {realEnvKeys : Finset String} {key : String}
  {s s' : Injected}

/-- Entries are taken unless one of them cannot be set. -/
theorem applyEntries_isSome_iff {entries : List DotenvEntry} :
    (applyEntries source discovered realEnvKeys entries s).isSome = true ↔
      ∀ entry ∈ entries, skips discovered realEnvKeys entry.1 = true ∨ settable entry = true := by
  induction entries generalizing s with
  | nil => simp [applyEntries]
  | cons entry entries ih =>
      rw [List.forall_mem_cons]
      unfold applyEntries
      by_cases hskips : skips discovered realEnvKeys entry.1 = true
      · rw [if_pos hskips, ih]
        simp [hskips]
      · rw [if_neg hskips]
        by_cases hset : settable entry = true
        · rw [if_pos hset, ih]
          simp [hset]
        · rw [if_neg hset]
          simp [hskips, hset]

/-- A key that is set is named as set by this file. -/
theorem provenance_applyEntries {entries : List DotenvEntry}
    (h : applyEntries source discovered realEnvKeys entries s = some s') :
    s'.provenance.lookup key =
      if skips discovered realEnvKeys key = false ∧ (lastValue key entries).isSome = true then
        some source
      else s.provenance.lookup key := by
  induction entries generalizing s with
  | nil =>
      rw [← Option.some.inj h]
      simp [lastValue]
  | cons entry entries ih =>
      obtain ⟨other, value⟩ := entry
      unfold applyEntries at h
      split at h
      · next hskips =>
          have hrest := ih h
          by_cases hkey : other = key
          · subst hkey
            simp only at hskips
            simp [hrest, hskips]
          · rw [hrest, lastValue_cons_ne hkey]
      · next hskips =>
          split at h
          · have hrest := ih h
            by_cases hkey : other = key
            · subst hkey
              have hisSome : ((lastValue other entries).or (some value)).isSome = true := by
                cases lastValue other entries <;> rfl
              have hno : skips discovered realEnvKeys other = false := by simpa using hskips
              rw [hrest, Finmap.lookup_insert, ite_self, lastValue_cons_self,
                if_pos ⟨hno, hisSome⟩]
            · rw [hrest, lastValue_cons_ne hkey, Finmap.lookup_insert_of_ne _ (Ne.symm hkey)]
          · contradiction

variable {contents : Option String}

theorem applyDotenvFile_eq :
    applyDotenvFile source discovered realEnvKeys contents s =
      applyEntries source discovered realEnvKeys (entriesOf contents) s := by
  cases contents <;> rfl

end Apply

/-- The settings that are real environment variables. -/
def cliKeys (env : Environment) : Finset String := env.keys.filter fun key => isCliKey key = true

variable {files : DotenvFiles} {env : Environment} {config : Option String} {key : String}

theorem mem_cliKeys (hkey : isCliKey key = true) : key ∈ cliKeys env ↔ key ∈ env := by
  unfold cliKeys
  rw [Finset.mem_filter, Finmap.mem_keys]
  exact ⟨fun h => h.1, fun h => ⟨h, hkey⟩⟩

/-- Every entry that is not skipped can be set. -/
def DotenvFiles.Settable (files : DotenvFiles) (config : Option String) (env : Environment) :
    Prop :=
  (∀ entry ∈ entriesOf files.globalFile,
      skips false (cliKeys env) entry.1 = true ∨ settable entry = true) ∧
    ∀ entry ∈ entriesOf (files.localFile config),
      skips config.isNone (cliKeys env) entry.1 = true ∨ settable entry = true

theorem loadDotenvConfig_eq (args : List OsString) :
    loadDotenvConfig args files env =
      (applyEntries .globalFile false (cliKeys env) (entriesOf files.globalFile) ⟨env, ∅⟩).bind
        (applyEntries .localFile (firstSpelled "--config" args).isNone (cliKeys env)
          (entriesOf (files.localFile (firstSpelled "--config" args)))) := by
  unfold loadDotenvConfig
  simp only [applyDotenvFile_eq, findFlagValue_eq_firstSpelled]
  cases firstSpelled "--config" args <;> rfl

theorem skips_of_mem (discovered : Bool) (hmem : key ∈ env) :
    skips discovered (cliKeys env) key = true := by
  cases hkey : isCliKey key with
  | false => simp [skips, hkey]
  | true => simp [skips, (mem_cliKeys hkey).mpr hmem]

theorem skips_of_not_mem (discovered : Bool) (hkey : isCliKey key = true) (hmem : key ∉ env) :
    skips discovered (cliKeys env) key = (discovered && notFromDiscoveredDotenv.contains key) := by
  have hnot : key ∉ cliKeys env := fun h => hmem ((mem_cliKeys hkey).mp h)
  simp [skips, hkey, hnot]

/-- What loading leaves follows the file the scan takes. -/
theorem follows_of_load {args : List OsString} {s : Injected}
    (h : loadDotenvConfig args files env = some s) :
    s.Follows files (firstSpelled "--config" args) env := by
  rw [loadDotenvConfig_eq] at h
  obtain ⟨loaded, hglobal, hlocal⟩ := Option.bind_eq_some_iff.mp h
  constructor
  · intro key hkey
    rw [lookup_applyEntries hlocal, lookup_applyEntries hglobal]
    by_cases hmem : key ∈ env
    · obtain ⟨value, hvalue⟩ := Finmap.mem_iff.mp hmem
      simp [skips_of_mem _ hmem, effectiveValue, hvalue]
    · have hnone : env.lookup key = none := Finmap.lookup_eq_none.mpr hmem
      rw [skips_of_not_mem _ hkey hmem, skips_of_not_mem _ hkey hmem, effectiveValue, localValue,
        globalValue, hnone]
      cases (firstSpelled "--config" args).isNone && notFromDiscoveredDotenv.contains key <;> simp
  · intro key
    rw [provenance_applyEntries hlocal, provenance_applyEntries hglobal, Finmap.lookup_empty]
    unfold supplier
    by_cases hreal : isCliKey key = false ∨ key ∈ env
    · have hskips (discovered : Bool) : skips discovered (cliKeys env) key = true := by
        rcases hreal with hkey | hmem
        · simp [skips, hkey]
        · exact skips_of_mem discovered hmem
      simp [hskips, hreal]
    · have hkey : isCliKey key = true := by simpa using fun h => hreal (.inl h)
      have hmem : key ∉ env := fun h => hreal (.inr h)
      rw [if_neg hreal, skips_of_not_mem _ hkey hmem, skips_of_not_mem _ hkey hmem, localValue,
        globalValue]
      cases (firstSpelled "--config" args).isNone && notFromDiscoveredDotenv.contains key <;> simp

theorem load_isSome_iff (args : List OsString) :
    (loadDotenvConfig args files env).isSome = true ↔
      files.Settable (firstSpelled "--config" args) env := by
  rw [loadDotenvConfig_eq, DotenvFiles.Settable]
  cases hglobal : applyEntries .globalFile false (cliKeys env) (entriesOf files.globalFile) ⟨env, ∅⟩ with
  | none =>
      have hnot := mt applyEntries_isSome_iff.mpr (by rw [hglobal]; simp)
      exact iff_of_false (by simp) fun h => hnot h.1
  | some loaded =>
      have hall := applyEntries_isSome_iff.mp (show Option.isSome _ = true by rw [hglobal]; rfl)
      rw [Option.bind_some, applyEntries_isSome_iff]
      exact ⟨fun h => ⟨hall, h⟩, fun h => h.2⟩

theorem supplier_eq_localFile (hkey : isCliKey key = true) (hmem : key ∉ env) :
    supplier files config env key = some .localFile ↔
      (localValue files config key).isSome = true := by
  unfold supplier
  rw [if_neg (by simp [hkey, hmem])]
  split
  · next hsome => exact iff_of_true rfl hsome
  · next hnone =>
      refine iff_of_false ?_ hnone
      split <;> simp

/-- What follows one file follows another exactly if they say the same. -/
theorem follows_iff {s : Injected} {spelled : Option String} (h : s.Follows files spelled env) :
    s.Follows files config env ↔
      ∀ key, isCliKey key = true → key ∉ env →
        localValue files spelled key = localValue files config key := by
  constructor
  · intro h' key hkey hmem
    have hvalue := (h.values key hkey).symm.trans (h'.values key hkey)
    have hsource := (h.sources key).symm.trans (h'.sources key)
    have hsome : (localValue files spelled key).isSome = true ↔
        (localValue files config key).isSome = true := by
      rw [← supplier_eq_localFile hkey hmem, ← supplier_eq_localFile hkey hmem, hsource]
    have hnone : env.lookup key = none := Finmap.lookup_eq_none.mpr hmem
    simp only [effectiveValue, hnone, Option.none_or] at hvalue
    cases hs : localValue files spelled key with
    | none =>
        rw [hs] at hsome
        symm
        simpa using hsome
    | some value =>
        rw [hs] at hsome hvalue
        obtain ⟨other, hother⟩ := Option.isSome_iff_exists.mp (hsome.mp rfl)
        rw [hother] at hvalue ⊢
        exact hvalue
  · intro hsame
    have hlocal (key : String) (hreal : ¬(isCliKey key = false ∨ key ∈ env)) :
        localValue files spelled key = localValue files config key :=
      hsame key (by simpa using fun h => hreal (.inl h)) fun h => hreal (.inr h)
    constructor
    · intro key hkey
      rw [h.values key hkey, effectiveValue, effectiveValue]
      by_cases hmem : key ∈ env
      · obtain ⟨value, hvalue⟩ := Finmap.mem_iff.mp hmem
        rw [hvalue, Option.some_or, Option.some_or]
      · rw [hsame key hkey hmem]
    · intro key
      rw [h.sources key, supplier, supplier]
      split
      · rfl
      · next hreal => rw [hlocal key hreal]

/-- **Where a setting comes from**: each one is what the environment, the
local file and the global file say, in this order, exactly if no value to be
set has a NUL and the command line is straight, or else the file where the
flag is first spelled says what the right one does. -/
theorem precedence_iff (line : CommandLine) (files : DotenvFiles) (env : Environment) :
    (∃ s, loadDotenvConfig line.args files env = some s ∧ s.Follows files line.config env) ↔
      files.Settable (firstSpelled "--config" line.args) env ∧
        (line.Straight ∨ ∀ key, isCliKey key = true → key ∉ env →
          localValue files (firstSpelled "--config" line.args) key =
            localValue files line.config key) := by
  rw [← load_isSome_iff]
  constructor
  · rintro ⟨s, hload, hfollows⟩
    refine ⟨by rw [hload]; rfl, .inr ?_⟩
    exact (follows_iff (follows_of_load hload)).mp hfollows
  · rintro ⟨hsome, h⟩
    obtain ⟨s, hload⟩ := Option.isSome_iff_exists.mp hsome
    refine ⟨s, hload, (follows_iff (follows_of_load hload)).mpr ?_⟩
    rcases h with hstraight | hsame
    · rw [firstSpelled_of_straight hstraight]
      intro key _ _
      rfl
    · exact hsame

theorem sendArguments_wellFormed :
    ∀ argument ∈ [Argument.other (some "send")], argument.WellFormed := by
  intro argument hargument
  rw [List.mem_singleton] at hargument
  subst hargument
  exact ⟨by decide, by decide⟩

/-- `a2acli send -- --config=notes`: a message to send, not a flag. -/
def escapedLine : CommandLine where
  program := some "a2acli"
  arguments := [.other (some "send")]
  wellFormed := sendArguments_wellFormed
  escaped := some [some "--config=notes"]
  config := none
  config_none := iff_of_true rfl rfl
  config_mem _ h := nomatch h

/-- **A message turns the local file off.** -/
theorem escapedLine_not_followed :
    ¬∃ s, loadDotenvConfig escapedLine.args (cloned "A2ACLI_TENANT=acme") ∅ = some s ∧
      s.Follows (cloned "A2ACLI_TENANT=acme") escapedLine.config ∅ := by
  rintro ⟨s, hload, hfollows⟩
  have hcode : (loadDotenvConfig escapedLine.args (cloned "A2ACLI_TENANT=acme") ∅).map
      (fun s => s.env.lookup "A2ACLI_TENANT") = some none := by decide
  have hclaim : effectiveValue (cloned "A2ACLI_TENANT=acme") escapedLine.config ∅ "A2ACLI_TENANT" =
      some "acme" := by decide
  rw [hload, Option.map_some, hfollows.values "A2ACLI_TENANT" (by decide), hclaim] at hcode
  simp at hcode

end A2a
