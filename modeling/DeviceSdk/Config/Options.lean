import DeviceSdk.Config.CmdLine
import DeviceSdk.Config.Typed

/-!
# The options of a service

`devsdk_service_new` calls `processCmdLine` for a service that has no options yet. What the scan of
the command line finds is overridden by the environment, and the text for the remote hosts is
parsed.

## Main definitions

- `checkEnv`, `checkEnvBool` — an option from the environment
- `processCmdLine`, `CmdLine` — the options of a service
- `CmdLine.startOptions` — what the service starts with
- `SettingsRight` — where each option comes from

## Main results

- `processCmdLine_isSome_iff` — the command lines that are accepted
- `processCmdLine_right`
- `startedConfig_eq` — the start of a service with these options
-/

namespace DeviceSdk

open Buffers (Ptr Mem)

section Environment

variable (getenv : String → Option String)

/-- `checkEnv`. -/
def checkEnv (setting : Option String) (varname : String) : Option String :=
  match getenv varname with
  | some val => some val
  | none => setting

/-- `checkEnvBool`. -/
def checkEnvBool (setting : Bool) (varname : String) : Bool :=
  match getenv varname with
  | some val => if val = "true" then true else if val = "false" then false else setting
  | none => setting

end Environment

/-- The variables of the environment that override an option. -/
def ValueOption.varname : ValueOption → String
  | regURL => "EDGEX_CONFIG_PROVIDER"
  | commonconffile => "EDGEX_COMMON_CONFIG"
  | name => "EDGEX_INSTANCE_NAME"
  | profile => "EDGEX_PROFILE"
  | confdir => "EDGEX_CONFIG_DIR"
  | conffile => "EDGEX_CONFIG_FILE"
  | remotehosts => "EDGEX_REMOTE_SERVICE_HOSTS"

def BoolOption.varname : BoolOption → Option String
  | usereg => some "EDGEX_USE_REGISTRY"
  | devmode => some "EDGEX_DEV_MODE"
  | overwriteconfig => none
  | overwritedevices => none
  | overwriteprofiles => none

/-- A service after `processCmdLine`: the arguments that are left, the options and the hosts. -/
structure CmdLine where
  argv : ℕ → Ptr
  argc : ℕ
  setting : ValueOption → Option String
  flag : BoolOption → Bool
  hosts : ServiceHosts

section Options

variable (getenv : String → Option String) (s : ScanState)

/-- The options that take a value, with the environment. -/
def envSetting (o : ValueOption) : Option String :=
  checkEnv getenv ((s.value o).map fun v => String.ofList (argText s.mem v)) o.varname

/-- The others. -/
def envFlag (o : BoolOption) : Bool :=
  match o.varname with
  | some varname => checkEnvBool getenv (s.flag o) varname
  | none => s.flag o

/-- A service that is to use a registry, and was not told which, has an empty URL for it. -/
def registrySetting : ValueOption → Option String :=
  if envFlag getenv s .usereg ∧ envSetting getenv s .regURL = none then
    Function.update (envSetting getenv s) .regURL (some "")
  else envSetting getenv s

end Options

/-- `processCmdLine`, for a service that is new. None where it fails. -/
def processCmdLine (mem : Mem Char) (argv : ℕ → Ptr) (argc : ℕ)
    (getenv : String → Option String) : Option CmdLine := do
  let s := scanOptions mem argv argc (fun _ => none) (fun _ => false)
  let hosts ← processRemoteHosts (registrySetting getenv s .remotehosts)
  if s.result then
    some ⟨s.argv, s.argc, registrySetting getenv s, envFlag getenv s, hosts⟩
  else none

/-- The options that decide on the configuration map, with the address for the developer mode. -/
def CmdLine.startOptions (c : CmdLine) (localIp : String) : StartOptions where
  devmode := c.flag .devmode
  localIp := if c.flag .devmode then some localIp else none
  remotehosts := c.setting .remotehosts

/-- Where each option comes from: the environment, or else the last place on the command line that
    gives it. -/
structure SettingsRight (mem : Mem Char) (argv : ℕ → Ptr) (argc : ℕ)
    (getenv : String → Option String) (c : CmdLine) : Prop where
  remaining : (List.range c.argc).map c.argv =
    ((List.range argc).filter (Remains mem argv ·)).map argv
  env : ∀ o v, getenv (ValueOption.varname o) = some v → c.setting o = some v
  last : ∀ (o : ValueOption) (i : ℕ), getenv o.varname = none → i < argc →
    Occurs mem argv o.names i → (∀ j < argc, i < j → ¬Occurs mem argv o.names j) →
      c.setting o = some (String.ofList (valueAt mem argv i))
  absent : ∀ o : ValueOption, getenv o.varname = none → (∀ i < argc, ¬Occurs mem argv o.names i) →
    c.setting o = if o = .regURL ∧ c.flag .usereg = true then some "" else none
  flags : ∀ o : BoolOption, c.flag o = true ↔ o.varname.bind getenv = some "true" ∨
    o.varname.bind getenv ≠ some "false" ∧ ∃ i < argc, Occurs mem argv o.names i

-- ════════════════════════════════════════════════════════════════════════
-- The environment
-- ════════════════════════════════════════════════════════════════════════

section Options

variable {getenv : String → Option String} {s : ScanState}

theorem checkEnvBool_iff (setting : Bool) (varname : String) :
    checkEnvBool getenv setting varname = true ↔
      getenv varname = some "true" ∨ getenv varname ≠ some "false" ∧ setting = true := by
  rw [checkEnvBool]
  cases getenv varname with
  | none => simp
  | some val =>
    by_cases htrue : val = "true"
    · simp [htrue]
    · by_cases hfalse : val = "false" <;> simp [htrue, hfalse]

theorem envFlag_iff (o : BoolOption) :
    envFlag getenv s o = true ↔ o.varname.bind getenv = some "true" ∨
      o.varname.bind getenv ≠ some "false" ∧ s.flag o = true := by
  rw [envFlag]
  cases o.varname with
  | none => simp
  | some varname => exact checkEnvBool_iff (s.flag o) varname

theorem envSetting_of_env {o : ValueOption} {v : String} (h : getenv o.varname = some v) :
    envSetting getenv s o = some v := by
  rw [envSetting, checkEnv, h]

theorem envSetting_of_none {o : ValueOption} (h : getenv o.varname = none) :
    envSetting getenv s o = (s.value o).map fun v => String.ofList (argText s.mem v) := by
  rw [envSetting, checkEnv, h]

/-- The registry has no say in an option that is there. -/
theorem registrySetting_of_some {o : ValueOption} {v : String}
    (h : envSetting getenv s o = some v) : registrySetting getenv s o = some v := by
  rw [registrySetting]
  split
  · next hreg =>
    have hne : o ≠ .regURL := by
      rintro rfl
      rw [hreg.2] at h
      cases h
    rw [Function.update_of_ne hne, h]
  · exact h

theorem registrySetting_of_none {o : ValueOption} (h : envSetting getenv s o = none) :
    registrySetting getenv s o =
      if o = .regURL ∧ envFlag getenv s .usereg = true then some "" else none := by
  rw [registrySetting]
  by_cases ho : o = .regURL
  · subst ho
    by_cases hreg : envFlag getenv s .usereg = true
    · simp [hreg, h]
    · simp [hreg, h]
  · split
    · rw [Function.update_of_ne ho, h, if_neg fun hc => ho hc.1]
    · rw [h, if_neg fun hc => ho hc.1]

end Options

-- ════════════════════════════════════════════════════════════════════════
-- The command line
-- ════════════════════════════════════════════════════════════════════════

section CommandLine

variable (mem : Mem Char) (argv : ℕ → Ptr) (argc : ℕ) (getenv : String → Option String)

/-- The scan for a service that is new. -/
def newScan : ScanState := scanOptions mem argv argc (fun _ => none) fun _ => false

/-- A command line is accepted where each option that takes a value has one, and the text for the
    remote hosts is one. -/
theorem processCmdLine_isSome_iff :
    (processCmdLine mem argv argc getenv).isSome ↔
      (∀ (o : ValueOption) (i : ℕ), i < argc → Occurs mem argv o.names i →
        Supplied mem argv argc i) ∧
      (processRemoteHosts
        (registrySetting getenv (newScan mem argv argc) .remotehosts)).isSome := by
  rw [← scanOptions_result_iff mem argv argc (fun _ => none) fun _ => false]
  show Option.isSome ((processRemoteHosts _).bind _) = true ↔ _
  rw [← newScan]
  cases processRemoteHosts (registrySetting getenv (newScan mem argv argc) .remotehosts) with
  | none => simp
  | some hosts => cases (newScan mem argv argc).result <;> simp

variable {mem argv argc getenv} {c : CmdLine}

theorem processCmdLine_inv (h : processCmdLine mem argv argc getenv = some c) :
    (newScan mem argv argc).result = true ∧
      processRemoteHosts (registrySetting getenv (newScan mem argv argc) .remotehosts) =
        some c.hosts ∧
      c = ⟨(newScan mem argv argc).argv, (newScan mem argv argc).argc,
        registrySetting getenv (newScan mem argv argc), envFlag getenv (newScan mem argv argc),
        c.hosts⟩ := by
  obtain ⟨hosts, hhosts, hc⟩ := Option.bind_eq_some_iff.mp h
  rw [← newScan] at hc hhosts
  by_cases hres : (newScan mem argv argc).result = true
  · rw [if_pos hres] at hc
    obtain rfl := Option.some.inj hc
    exact ⟨hres, hhosts, rfl⟩
  · rw [if_neg hres] at hc
    cases hc

theorem processCmdLine_right (h : processCmdLine mem argv argc getenv = some c) :
    SettingsRight mem argv argc getenv c := by
  obtain ⟨hres, -, hc⟩ := processCmdLine_inv h
  obtain ⟨hmem, hremaining⟩ := scanOptions_vector mem argv argc _ _ hres
  have hset := scanOptions_options mem argv argc _ _ hres
  rw [← newScan] at hmem hremaining hset
  rw [hc]
  constructor
  · exact hremaining
  · exact fun o v hv => registrySetting_of_some (envSetting_of_env hv)
  · intro o i hnone hi hocc hlast
    have hvalue := hset.last o i hi hocc hlast
    refine registrySetting_of_some ?_
    rw [envSetting_of_none hnone, hmem]
    obtain ⟨v, hv, htext⟩ := Option.map_eq_some_iff.mp hvalue
    rw [hv, Option.map_some, htext]
  · intro o hnone hno
    refine registrySetting_of_none ?_
    rw [envSetting_of_none hnone, hset.absent o hno]
    rfl
  · intro o
    rw [envFlag_iff, hset.flags]
    simp

/-- The start of a service with the options of its command line. -/
theorem startedConfig_eq (h : processCmdLine mem argv argc getenv = some c) (s : Startup)
    (localIp : String) :
    startedConfig s (c.startOptions localIp) = (serviceStart s).map fun r =>
      applyRemoteHosts s.svcname c.hosts (applyDevMode (c.startOptions localIp) r.configmap) := by
  obtain ⟨-, hhosts, hc⟩ := processCmdLine_inv h
  have hsetting : c.setting .remotehosts =
      registrySetting getenv (newScan mem argv argc) .remotehosts := by rw [hc]
  rw [startedConfig, CmdLine.startOptions, hsetting, hhosts]
  cases serviceStart s <;> rfl

end CommandLine

end DeviceSdk
