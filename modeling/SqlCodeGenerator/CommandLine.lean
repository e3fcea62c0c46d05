import SqlCodeGenerator.ConfigReaders

/-!
# The configuration of the server

`cfg_load` of `server.c`: the defaults, the file whose path `CONFIG_PATH` and `-c` give,
the environment, and the arguments, which `cfg_read_config_path` and `cfg_apply_args` go
through one after the other.  What is printed on `stderr` is left out.

* `cfg_load_status`: which command lines are accepted, and which ask for the usage;
* `cfg_load_precedence`: the last option for a key comes before the environment, and that
  before the file;
* `cfg_load_bounds`: whatever is given, the ports and the timeout are in bounds.
-/

namespace SqlCodeGenerator

open Library

/-! ## The functions -/

/-- The size of `config_path`. -/
abbrev pathSize : Nat := 256

/-- The variables that `getenv` is asked for. -/
structure ServerEnvironment where
  configPath : Option CString
  serverPort : Option CString
  adminPort : Option CString
  adminTimeout : Option CString

/-- The body of `cfg_load_file` that is compiled, with what the files hold. -/
inductive ConfigSource where
  | libconfig (configReadFile : CString → Option (CString → Option Int))
  | fallback (fopen : CString → Option CString)

/-- `cfg_load_file`. -/
def cfgLoadFile (source : ConfigSource) (path : CString) (cfg : RuntimeConfig) : RuntimeConfig :=
  match source with
  | .libconfig configReadFile => cfgLoadFileLibconfig (configReadFile path) cfg
  | .fallback fopen => cfgLoadFileFallback (fopen path) cfg

/-- Is it one of two words? -/
def isWord (short long : CString) (arg : CString) : Bool := arg = short || arg = long

abbrev isConfigWord : CString → Bool := isWord (lit "-c") (lit "--config")

/-- The loop of `cfg_read_config_path`. -/
def readConfigPath (path : CString) : List CString → CString
  | arg :: operand :: rest =>
      if isConfigWord arg then
        readConfigPath (cut pathSize operand) rest
      else
        readConfigPath path (operand :: rest)
  | _ => path

/-- `cfg_read_config_path`. -/
def cfgReadConfigPath (env : ServerEnvironment) (args : List CString) : CString :=
  let path :=
    match env.configPath with
    | some envPath => if envPath ≠ [] then cut pathSize envPath else lit "config.cfg"
    | none => lit "config.cfg"
  readConfigPath path args

/-- `cfg_apply_env`. -/
def cfgApplyEnv (env : ServerEnvironment) (cfg : RuntimeConfig) : RuntimeConfig :=
  let cfg :=
    match env.serverPort with
    | some value => { cfg with serverPort := applyPortValue value cfg.serverPort }
    | none => cfg
  let cfg :=
    match env.adminPort with
    | some value => { cfg with adminPort := applyPortValue value cfg.adminPort }
    | none => cfg
  match env.adminTimeout with
  | some value => { cfg with adminTimeoutSec := applyTimeoutValue value cfg.adminTimeoutSec }
  | none => cfg

/-- What `cfg_apply_args` returns: 0, 1 or -1. -/
inductive ArgsStatus where
  | ready
  | help
  | misuse
  deriving DecidableEq

/-- `cfg_apply_args`. -/
def cfgApplyArgs (cfg : RuntimeConfig) : List CString → ArgsStatus × RuntimeConfig
  | [] => (.ready, cfg)
  | [arg] =>
      if isWord (lit "-h") (lit "--help") arg then (.help, cfg)
      else if isConfigWord arg then (.ready, cfg)
      else (.misuse, cfg)
  | arg :: value :: rest =>
      if isWord (lit "-h") (lit "--help") arg then
        (.help, cfg)
      else if isConfigWord arg then
        cfgApplyArgs cfg rest
      else if isWord (lit "-p") (lit "--port") arg then
        cfgApplyArgs { cfg with serverPort := applyPortValue value cfg.serverPort } rest
      else if isWord (lit "-a") (lit "--admin-port") arg then
        cfgApplyArgs { cfg with adminPort := applyPortValue value cfg.adminPort } rest
      else if isWord (lit "-t") (lit "--admin-timeout") arg then
        cfgApplyArgs
          { cfg with adminTimeoutSec := applyTimeoutValue value cfg.adminTimeoutSec } rest
      else
        (.misuse, cfg)

/-- `cfg_load`, with the arguments behind the name of the program: the status, the values
and the path of the file. -/
def cfgLoad (source : ConfigSource) (env : ServerEnvironment) (args : List CString) :
    (ArgsStatus × RuntimeConfig) × CString :=
  let path := cfgReadConfigPath env args
  let cfg := cfgLoadFile source path cfgDefaults
  let cfg := cfgApplyEnv env cfg
  (cfgApplyArgs cfg args, path)

/-! ## Options -/

/-- An option with its operand, under its short or its long name. -/
inductive ServerOption where
  | config (long : Bool) (path : CString)
  | set (key : ConfigKey) (long : Bool) (value : CString)

def configWord (long : Bool) : CString := if long then lit "--config" else lit "-c"

def helpWord (long : Bool) : CString := if long then lit "--help" else lit "-h"

/-- The names of the option that sets a key. -/
def ConfigKey.word (k : ConfigKey) (long : Bool) : CString :=
  match k, long with
  | .port, false => lit "-p"
  | .port, true => lit "--port"
  | .adminPort, false => lit "-a"
  | .adminPort, true => lit "--admin-port"
  | .adminTimeout, false => lit "-t"
  | .adminTimeout, true => lit "--admin-timeout"

namespace ServerOption

/-- The arguments that make the option. -/
def words : ServerOption → List CString
  | config long path => [configWord long, path]
  | set key long value => [key.word long, value]

/-- The path that the option gives. -/
def path? : ServerOption → Option CString
  | config _ path => some path
  | set _ _ _ => none

/-- The number that the option gives a key, if it is accepted. -/
def accepted? (k : ConfigKey) : ServerOption → Option Int
  | config _ _ => none
  | set key _ value => if key = k then parseNumber value 1 key.most else none

/-- The operand is not taken for the name of the file. -/
def Plain : ServerOption → Bool
  | config _ _ => true
  | set _ _ value => !isConfigWord value

end ServerOption

/-- A command line: options, and a `-c` without its operand, if there is one. -/
def commandLine (options : List ServerOption) (bare : Option Bool) : List CString :=
  options.flatMap ServerOption.words ++ bare.toList.map configWord

/-- The variable of a key. -/
def ServerEnvironment.value? (env : ServerEnvironment) : ConfigKey → Option CString
  | .port => env.serverPort
  | .adminPort => env.adminPort
  | .adminTimeout => env.adminTimeout

/-- The number that the environment gives a key, if it is accepted. -/
def ServerEnvironment.accepted? (env : ServerEnvironment) (k : ConfigKey) : Option Int :=
  (env.value? k).bind fun value => parseNumber value 1 k.most

/-- The path that the environment gives. -/
def ServerEnvironment.path (env : ServerEnvironment) : CString :=
  (env.configPath.filter (· ≠ [])).elim (lit "config.cfg") (cut pathSize)

/-! ## One value -/

/-- What a value does to a key: it is set, if the number is accepted. -/
def ConfigKey.store (k : ConfigKey) (value : CString) (cfg : RuntimeConfig) : RuntimeConfig :=
  ((parseNumber value 1 k.most).map (cfg.set k)).getD cfg

theorem store_port (value : CString) (cfg : RuntimeConfig) :
    { cfg with serverPort := applyPortValue value cfg.serverPort } =
      ConfigKey.port.store value cfg := by
  unfold ConfigKey.store applyPortValue
  simp only [ConfigKey.most]
  cases parseNumber value 1 65535 with
  | none => rfl
  | some n => rfl

theorem store_adminPort (value : CString) (cfg : RuntimeConfig) :
    { cfg with adminPort := applyPortValue value cfg.adminPort } =
      ConfigKey.adminPort.store value cfg := by
  unfold ConfigKey.store applyPortValue
  simp only [ConfigKey.most]
  cases parseNumber value 1 65535 with
  | none => rfl
  | some n => rfl

theorem store_adminTimeout (value : CString) (cfg : RuntimeConfig) :
    { cfg with adminTimeoutSec := applyTimeoutValue value cfg.adminTimeoutSec } =
      ConfigKey.adminTimeout.store value cfg := by
  unfold ConfigKey.store applyTimeoutValue
  simp only [ConfigKey.most]
  cases parseNumber value 1 86400 with
  | none => rfl
  | some n => rfl

/-- A key that is stored has the number that is accepted, and the others stay. -/
theorem get_store (k k' : ConfigKey) (value : CString) (cfg : RuntimeConfig) :
    (k.store value cfg).get k' =
      (if k = k' then parseNumber value 1 k.most else none).getD (cfg.get k') := by
  unfold ConfigKey.store
  cases hparse : parseNumber value 1 k.most with
  | none =>
      rw [ite_self]
      rfl
  | some n =>
      have hbounds := parseNumber_bounds hparse
      have hport : k ≠ .adminTimeout → n ≤ 65535 := by
        intro hne
        cases k with
        | port => exact hbounds.2
        | adminPort => exact hbounds.2
        | adminTimeout => exact absurd rfl hne
      rw [Option.map_some, Option.getD_some, RuntimeConfig.get_set (by omega) hport]
      split
      · rfl
      · rfl

/-! ## The environment -/

theorem get_cfgApplyEnv (env : ServerEnvironment) (cfg : RuntimeConfig) (k : ConfigKey) :
    (cfgApplyEnv env cfg).get k = (env.accepted? k).getD (cfg.get k) := by
  have hstored : cfgApplyEnv env cfg =
      ([ConfigKey.port, ConfigKey.adminPort, ConfigKey.adminTimeout].foldl (fun cfg k =>
        (env.value? k).elim cfg fun value => k.store value cfg) cfg) := by
    unfold cfgApplyEnv
    simp only [List.foldl_cons, List.foldl_nil, ServerEnvironment.value?, ← store_port,
      ← store_adminPort, ← store_adminTimeout]
    cases env.serverPort <;> cases env.adminPort <;> cases env.adminTimeout <;> rfl
  have hstep : ∀ (k' : ConfigKey) (cfg : RuntimeConfig),
      ((env.value? k').elim cfg fun value => k'.store value cfg).get k =
        (if k' = k then env.accepted? k' else none).getD (cfg.get k) := by
    intro k' cfg
    unfold ServerEnvironment.accepted?
    cases env.value? k' with
    | none =>
        rw [Option.bind_none, ite_self]
        rfl
    | some value => exact get_store k' k value cfg
  rw [hstored]
  simp only [List.foldl_cons, List.foldl_nil, hstep]
  cases k <;> simp

/-! ## The arguments -/

/-- What an option does. -/
def ServerOption.apply (cfg : RuntimeConfig) : ServerOption → RuntimeConfig
  | config _ _ => cfg
  | set key _ value => key.store value cfg

theorem get_apply (o : ServerOption) (cfg : RuntimeConfig) (k : ConfigKey) :
    (o.apply cfg).get k = (o.accepted? k).getD (cfg.get k) := by
  cases o with
  | config long path => rfl
  | set key long value => exact get_store key k value cfg

theorem cfgApplyArgs_words (cfg : RuntimeConfig) (o : ServerOption) (rest : List CString) :
    cfgApplyArgs cfg (o.words ++ rest) = cfgApplyArgs (o.apply cfg) rest := by
  cases o with
  | config long path =>
      cases long <;> rfl
  | set key long value =>
      simp only [ServerOption.words, List.cons_append, List.nil_append, cfgApplyArgs,
        ServerOption.apply, store_port, store_adminPort, store_adminTimeout]
      cases key <;> cases long <;> rfl

/-- The arguments of a command line are its options, one after the other. -/
theorem cfgApplyArgs_options (cfg : RuntimeConfig) (options : List ServerOption)
    (rest : List CString) :
    cfgApplyArgs cfg (options.flatMap ServerOption.words ++ rest) =
      cfgApplyArgs (options.foldl ServerOption.apply cfg) rest := by
  induction options generalizing cfg with
  | nil => rfl
  | cons o options ih =>
      rw [List.flatMap_cons, List.append_assoc, cfgApplyArgs_words, ih, List.foldl_cons]

theorem cfgApplyArgs_bare (cfg : RuntimeConfig) (bare : Option Bool) :
    cfgApplyArgs cfg (bare.toList.map configWord) = (.ready, cfg) := by
  rcases bare with - | - | - <;> rfl

theorem cfgApplyArgs_help (cfg : RuntimeConfig) (long : Bool) (rest : List CString) :
    cfgApplyArgs cfg (helpWord long :: rest) = (.help, cfg) := by
  cases rest <;> cases long <;> rfl

theorem get_foldl_apply (options : List ServerOption) (cfg : RuntimeConfig) (k : ConfigKey) :
    (options.foldl ServerOption.apply cfg).get k =
      ((options.filterMap (ServerOption.accepted? k)).getLast?).getD (cfg.get k) := by
  rw [← foldl_getD]
  induction options generalizing cfg with
  | nil => rfl
  | cons o options ih => rw [List.foldl_cons, List.foldl_cons, ih, get_apply]

/-! ## Which command lines are accepted -/

theorem exists_word {short long arg : CString} (h : isWord short long arg = true) :
    ∃ b : Bool, arg = if b then long else short := by
  rw [isWord, Bool.or_eq_true, decide_eq_true_eq, decide_eq_true_eq] at h
  rcases h with h | h
  · exact ⟨false, h⟩
  · exact ⟨true, h⟩

/-- What the arguments are, by what `cfg_apply_args` returns. -/
inductive ArgsRead : ArgsStatus → List CString → Prop where
  | ready (options : List ServerOption) (bare : Option Bool) :
      ArgsRead .ready (commandLine options bare)
  | help (options : List ServerOption) (long : Bool) (rest : List CString) :
      ArgsRead .help (options.flatMap ServerOption.words ++ helpWord long :: rest)
  | misuse (args : List CString) : ArgsRead .misuse args

theorem ArgsRead.option {status : ArgsStatus} {rest : List CString} (h : ArgsRead status rest)
    (o : ServerOption) : ArgsRead status (o.words ++ rest) := by
  cases h with
  | ready options bare =>
      have hmore := ArgsRead.ready (o :: options) bare
      rwa [commandLine, List.flatMap_cons, List.append_assoc] at hmore
  | help options long rest =>
      have hmore := ArgsRead.help (o :: options) long rest
      rwa [List.flatMap_cons, List.append_assoc] at hmore
  | misuse => exact .misuse _

theorem cfgApplyArgs_read (cfg : RuntimeConfig) (args : List CString) :
    ArgsRead (cfgApplyArgs cfg args).1 args := by
  fun_induction cfgApplyArgs cfg args with
  | case1 cfg => exact .ready [] none
  | case2 cfg arg hhelp =>
      obtain ⟨long, rfl⟩ := exists_word hhelp
      exact .help [] long []
  | case3 cfg arg hhelp hconfig =>
      obtain ⟨long, rfl⟩ := exists_word hconfig
      exact .ready [] (some long)
  | case4 => exact .misuse _
  | case5 cfg arg value rest hhelp =>
      obtain ⟨long, rfl⟩ := exists_word hhelp
      exact .help [] long (value :: rest)
  | case6 cfg arg value rest hhelp hconfig ih =>
      obtain ⟨long, rfl⟩ := exists_word hconfig
      exact ih.option (.config long value)
  | case7 cfg arg value rest hhelp hconfig hport ih =>
      obtain ⟨long, rfl⟩ := exists_word hport
      cases long with
      | false => exact ih.option (.set .port false value)
      | true => exact ih.option (.set .port true value)
  | case8 cfg arg value rest hhelp hconfig hport hadminPort ih =>
      obtain ⟨long, rfl⟩ := exists_word hadminPort
      cases long with
      | false => exact ih.option (.set .adminPort false value)
      | true => exact ih.option (.set .adminPort true value)
  | case9 cfg arg value rest hhelp hconfig hport hadminPort htimeout ih =>
      obtain ⟨long, rfl⟩ := exists_word htimeout
      cases long with
      | false => exact ih.option (.set .adminTimeout false value)
      | true => exact ih.option (.set .adminTimeout true value)
  | case10 => exact .misuse _

/-- Options, and perhaps a `-c` without its operand. -/
def Accepted (args : List CString) : Prop := ∃ options bare, args = commandLine options bare

/-- `-h` or `--help` behind options. -/
def AsksForHelp (args : List CString) : Prop :=
  ∃ (options : List ServerOption) (long : Bool) (rest : List CString),
    args = options.flatMap ServerOption.words ++ helpWord long :: rest

theorem cfgApplyArgs_ready_iff (cfg : RuntimeConfig) (args : List CString) :
    (cfgApplyArgs cfg args).1 = .ready ↔ Accepted args := by
  constructor
  · intro hready
    have hread := cfgApplyArgs_read cfg args
    rw [hready] at hread
    cases hread with
    | ready options bare => exact ⟨options, bare, rfl⟩
  · rintro ⟨options, bare, rfl⟩
    rw [commandLine, cfgApplyArgs_options, cfgApplyArgs_bare]

theorem cfgApplyArgs_help_iff (cfg : RuntimeConfig) (args : List CString) :
    (cfgApplyArgs cfg args).1 = .help ↔ AsksForHelp args := by
  constructor
  · intro hhelp
    have hread := cfgApplyArgs_read cfg args
    rw [hhelp] at hread
    cases hread with
    | help options long rest => exact ⟨options, long, rest, rfl⟩
  · rintro ⟨options, long, rest, rfl⟩
    rw [cfgApplyArgs_options, cfgApplyArgs_help]

/-- Whatever the file and the environment hold: the arguments are accepted exactly if they are
options with their operands, with at most a `-c` without its own behind them, the usage is asked
for exactly by `-h` or `--help` behind options, and everything else is refused. -/
theorem cfg_load_status (source : ConfigSource) (env : ServerEnvironment) (args : List CString) :
    ((cfgLoad source env args).1.1 = .ready ↔ Accepted args) ∧
    ((cfgLoad source env args).1.1 = .help ↔ AsksForHelp args) ∧
    ((cfgLoad source env args).1.1 = .misuse ↔ ¬ Accepted args ∧ ¬ AsksForHelp args) := by
  have hready := cfgApplyArgs_ready_iff
    (cfgApplyEnv env (cfgLoadFile source (cfgReadConfigPath env args) cfgDefaults)) args
  have hhelp := cfgApplyArgs_help_iff
    (cfgApplyEnv env (cfgLoadFile source (cfgReadConfigPath env args) cfgDefaults)) args
  refine ⟨hready, hhelp, ?_⟩
  rw [← hready, ← hhelp]
  show (cfgApplyArgs _ args).1 = .misuse ↔ _
  generalize (cfgApplyArgs _ args).1 = status
  cases status <;> decide

/-! ## Which value is taken -/

theorem path_cfgReadConfigPath (env : ServerEnvironment) (args : List CString) :
    cfgReadConfigPath env args = readConfigPath env.path args := by
  unfold cfgReadConfigPath ServerEnvironment.path
  cases env.configPath with
  | none => rfl
  | some envPath =>
      dsimp only
      by_cases hempty : envPath = []
      · rw [if_neg (not_not_intro hempty), hempty]
        rfl
      · rw [if_pos hempty, Option.filter_some_pos (by simpa using hempty)]
        rfl

theorem readConfigPath_words {o : ServerOption} (hplain : o.Plain = true) (path : CString)
    (rest : List CString) :
    readConfigPath path (o.words ++ rest) =
      readConfigPath ((o.path?.map (cut pathSize)).getD path) rest := by
  cases o with
  | config long operand => cases long <;> rfl
  | set key long value =>
      have hvalue : ¬ isConfigWord value = true := by
        simpa [ServerOption.Plain] using hplain
      have hword : readConfigPath path ([key.word long, value] ++ rest) =
          readConfigPath path (value :: rest) := by
        cases key <;> cases long <;> rfl
      refine hword.trans ?_
      cases rest with
      | nil => rfl
      | cons arg rest =>
          rw [readConfigPath, if_neg hvalue]
          rfl

/-- The last path that an option gives is taken. -/
theorem readConfigPath_commandLine {options : List ServerOption}
    (hplain : ∀ o ∈ options, o.Plain = true) (bare : Option Bool) (path : CString) :
    readConfigPath path (commandLine options bare) =
      ((options.filterMap fun o => o.path?.map (cut pathSize)).getLast?).getD path := by
  rw [← foldl_getD]
  induction options generalizing path with
  | nil => rcases bare with - | - | - <;> rfl
  | cons o options ih =>
      have hrest := ih fun o' h => hplain o' (List.mem_cons_of_mem o h)
      rw [commandLine, List.flatMap_cons, List.append_assoc,
        readConfigPath_words (hplain o List.mem_cons_self), List.foldl_cons]
      exact hrest _

/-- On a command line that is accepted, and on which no number is written `-c` or `--config`, the
file is the one that the last `-c` names, else the one of the environment, and each key has the
number that the options give it last, else that of the environment, else that of the file. -/
theorem cfg_load_precedence (source : ConfigSource) (env : ServerEnvironment)
    (options : List ServerOption) (hplain : ∀ o ∈ options, o.Plain = true) (bare : Option Bool) :
    (cfgLoad source env (commandLine options bare)).2 =
      ((options.filterMap fun o => o.path?.map (cut pathSize)).getLast?).getD env.path ∧
    ∀ k, (cfgLoad source env (commandLine options bare)).1.2.get k =
      ((options.filterMap (ServerOption.accepted? k)).getLast?).getD
        ((env.accepted? k).getD
          ((cfgLoadFile source (cfgLoad source env (commandLine options bare)).2
            cfgDefaults).get k)) := by
  constructor
  · exact (path_cfgReadConfigPath env _).trans (readConfigPath_commandLine hplain bare env.path)
  · intro k
    have hargs : (cfgLoad source env (commandLine options bare)).1.2 =
        options.foldl ServerOption.apply (cfgApplyEnv env
          (cfgLoadFile source (cfgLoad source env (commandLine options bare)).2 cfgDefaults)) := by
      show (cfgApplyArgs _ (options.flatMap ServerOption.words ++ _)).2 = _
      rw [cfgApplyArgs_options, cfgApplyArgs_bare]
      rfl
    rw [hargs, get_foldl_apply, get_cfgApplyEnv]

/-- The three layers: a port from the options, of which the last is not accepted, the other from
the environment, and the timeout from the file. -/
theorem cfg_load_precedence_layers :
    let source : ConfigSource := .libconfig fun path =>
      if path = lit "a.cfg" then some fun _ => some 7 else none
    let env : ServerEnvironment := ⟨some (lit "b.cfg"), some (lit "8000"), some (lit "8001"), none⟩
    let args := [lit "-c", lit "a.cfg", lit "--port", lit "9000", lit "-p", lit "70000"]
    (cfgLoad source env args).2 = lit "a.cfg" ∧
      (cfgLoad source env args).1.2 = ⟨9000, 8001, 7⟩ := by
  intro source env args
  obtain ⟨hpath, hkeys⟩ := cfg_load_precedence source env
    [.config false (lit "a.cfg"), .set .port true (lit "9000"), .set .port false (lit "70000")]
    (by decide) none
  have hfile : (cfgLoad source env args).2 = lit "a.cfg" := hpath.trans (by decide)
  refine ⟨hfile, RuntimeConfig.ext_get fun k => (hkeys k).trans ?_⟩
  show Option.getD _ (Option.getD _ ((cfgLoadFile source (cfgLoad source env args).2 _).get k)) = _
  rw [hfile]
  cases k <;> decide

/-! ## The bounds of the values -/

/-- Every key is in the bounds of its type: a port, or a positive `int`. -/
def RuntimeConfig.Bounded (cfg : RuntimeConfig) : Prop :=
  ∀ k, 0 < cfg.get k ∧ cfg.get k ≤ k.limit

/-- What `config_lookup_int` gives is an `int`. -/
def ConfigSource.FitsInt : ConfigSource → Prop
  | .libconfig configReadFile => ∀ path lookup name n,
      configReadFile path = some lookup → lookup name = some n → fitsInt n = true
  | .fallback _ => True

theorem ConfigKey.most_le_limit (k : ConfigKey) : k.most ≤ k.limit := by
  cases k <;> decide

theorem parseNumber_limit {value : CString} {k : ConfigKey} {n : Int}
    (h : parseNumber value 1 k.most = some n) : 0 < n ∧ n ≤ k.limit := by
  have hbounds := parseNumber_bounds h
  have hlimit := k.most_le_limit
  omega

namespace RuntimeConfig.Bounded

variable {cfg : RuntimeConfig}

theorem store (h : cfg.Bounded) (k : ConfigKey) (value : CString) :
    (k.store value cfg).Bounded := by
  intro k'
  rw [get_store]
  split
  · next heq =>
      subst heq
      cases hparse : parseNumber value 1 k.most with
      | none => exact h k
      | some n => exact parseNumber_limit hparse
  · exact h k'

theorem applyEnv (h : cfg.Bounded) (env : ServerEnvironment) : (cfgApplyEnv env cfg).Bounded := by
  intro k
  rw [get_cfgApplyEnv]
  cases haccepted : env.accepted? k with
  | none => exact h k
  | some n =>
      obtain ⟨value, -, hparse⟩ := Option.bind_eq_some_iff.mp haccepted
      exact parseNumber_limit hparse

/-- Also where the arguments are refused. -/
theorem applyArgs (h : cfg.Bounded) (args : List CString) : (cfgApplyArgs cfg args).2.Bounded := by
  fun_induction cfgApplyArgs cfg args with
  | case1 => exact h
  | case2 => exact h
  | case3 => exact h
  | case4 => exact h
  | case5 => exact h
  | case6 cfg arg value rest hhelp hconfig ih => exact ih h
  | case7 cfg arg value rest hhelp hconfig hport ih =>
      exact ih (store_port value cfg ▸ h.store .port value)
  | case8 cfg arg value rest hhelp hconfig hport hadminPort ih =>
      exact ih (store_adminPort value cfg ▸ h.store .adminPort value)
  | case9 cfg arg value rest hhelp hconfig hport hadminPort htimeout ih =>
      exact ih (store_adminTimeout value cfg ▸ h.store .adminTimeout value)
  | case10 => exact h

theorem applyLine (h : cfg.Bounded) (line : CString) : (applyLine cfg line).Bounded := by
  intro k
  rw [get_applyLine]
  cases hsetting : lineSetting line with
  | none => exact h k
  | some setting =>
      obtain ⟨k', n⟩ := setting
      have hbounds := lineSetting_bounds hsetting
      have hlimit := k'.most_le_limit
      show 0 < (if k' = k then n else cfg.get k) ∧ (if k' = k then n else cfg.get k) ≤ k.limit
      split
      · next heq =>
          subst heq
          omega
      · exact h k

theorem applyLines (h : cfg.Bounded) (lines : List CString) :
    (lines.foldl SqlCodeGenerator.applyLine cfg).Bounded := by
  induction lines generalizing cfg with
  | nil => exact h
  | cons line lines ih => exact ih (h.applyLine line)

theorem lookedUpPort_bounds (found : Option Int) {target : UInt16}
    (h : 0 < (target.toNat : Int) ∧ (target.toNat : Int) ≤ 65535) :
    0 < ((lookedUpPort found target).toNat : Int) ∧
      ((lookedUpPort found target).toNat : Int) ≤ 65535 := by
  cases found with
  | none => exact h
  | some value =>
      simp only [lookedUpPort]
      split
      · next hvalue =>
          rw [RuntimeConfig.toNat_port hvalue.1 hvalue.2]
          exact hvalue
      · exact h

theorem loadFile (h : cfg.Bounded) {source : ConfigSource} (hints : source.FitsInt)
    (path : CString) : (cfgLoadFile source path cfg).Bounded := by
  cases source with
  | libconfig configReadFile =>
      simp only [cfgLoadFile]
      cases hread : configReadFile path with
      | none => exact h
      | some lookup =>
          intro k
          cases k with
          | port => exact lookedUpPort_bounds (lookup (lit "server.port")) (h .port)
          | adminPort => exact lookedUpPort_bounds (lookup (lit "server.admin_port")) (h .adminPort)
          | adminTimeout =>
              simp only [cfgLoadFileLibconfig, RuntimeConfig.get, lookedUpTimeout]
              cases hfound : lookup (lit "server.admin_timeout") with
              | none => exact h .adminTimeout
              | some value =>
                  have hfits := hints path lookup _ value hread hfound
                  simp only [fitsInt, Bool.and_eq_true, decide_eq_true_eq] at hfits
                  dsimp only
                  split
                  · next hpos => exact ⟨hpos, hfits.2⟩
                  · exact h .adminTimeout
  | fallback fopen =>
      simp only [cfgLoadFile, cfgLoadFileFallback]
      cases fopen path with
      | none => exact h
      | some f =>
          simp only [cfgLoadLines_eq]
          exact h.applyLines (pieces f)

end RuntimeConfig.Bounded

theorem length_cut_lt (text : CString) : (cut pathSize text).length < pathSize :=
  Nat.lt_of_le_of_lt (List.length_take_le _ _) (by decide)

theorem length_readConfigPath_lt {path : CString} (h : path.length < pathSize)
    (args : List CString) : (readConfigPath path args).length < pathSize := by
  fun_induction readConfigPath path args with
  | case1 path arg operand rest hword ih => exact ih (length_cut_lt operand)
  | case2 path arg operand rest hword ih => exact ih h
  | case3 => exact h

/-- Whatever the file, the environment and the arguments hold, and whether or not the server
starts: the ports and the timeout are in bounds, and the path fits its buffer. -/
theorem cfg_load_bounds (source : ConfigSource) (hints : source.FitsInt) (env : ServerEnvironment)
    (args : List CString) :
    (cfgLoad source env args).1.2.Bounded ∧ (cfgLoad source env args).2.length < pathSize := by
  have hdefaults : cfgDefaults.Bounded := by
    intro k
    cases k <;> decide
  constructor
  · exact ((hdefaults.loadFile hints _).applyEnv env).applyArgs args
  · have henv : env.path.length < pathSize := by
      unfold ServerEnvironment.path
      cases env.configPath.filter (· ≠ []) with
      | none => decide
      | some envPath => exact length_cut_lt envPath
    show (cfgReadConfigPath env args).length < pathSize
    rw [path_cfgReadConfigPath]
    exact length_readConfigPath_lt henv args

/-- The largest timeout that libconfig can give, and arguments that are refused. -/
theorem cfg_load_bounds_wide :
    let source : ConfigSource := .libconfig fun _ => some fun _ => some 2147483647
    let loaded := cfgLoad source ⟨none, none, none, none⟩ [lit "-p", lit "9000", lit "9001"]
    loaded.1 = (.misuse, ⟨9000, 18082, 2147483647⟩) ∧ loaded.1.2.Bounded ∧
      loaded.2.length < pathSize := by
  intro source loaded
  have hints : source.FitsInt := by
    intro path lookup name n hread hfound
    obtain rfl := Option.some.inj hread
    obtain rfl := Option.some.inj hfound
    decide
  exact ⟨by decide, cfg_load_bounds source hints _ _⟩

end SqlCodeGenerator
