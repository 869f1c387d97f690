import DeviceSdk.Command.Put

/-!
# Commands

`edgex_device_v2impl`, for commands over REST, and `edgex_device_v3impl`, for commands on
the message bus, with the get requests that they make. Both work on a device that was
found, and release it: a function here takes the device and its profile, and its trace
has the release where the source has it.

## Main definitions

- `runget2`, `runget3` — get requests
- `runCommand` — the lookup of a command, and the checks on it
- `v2impl`, `v3impl`, `v3dispatch` — commands, after the device was found

## Main results

- `runCommand_cases` — a command is turned down, or run as it was found
-/

namespace DeviceSdk

variable (sdk : Sdk)

/-- The size check of an event, which is made only if there is a limit. -/
def sizeCheck : List Effect := if sdk.device.maxeventsize = 0 then [] else [.eventSize]

/-- The message for an event that is too large. -/
def tooLargeMessage (ev : Event) : String :=
  "Event size (" ++ toString (ev.size sdk.libs / 1024) ++ " KiB) exceeds configured MaxEventSize"

/-- The first request of a command whose resource is not readable. -/
def unreadable (cmd : CmdInfo) : Option CmdReq := cmd.reqs.find? fun r => !r.pval.readable

/-- `edgex_data_process_event`, with the settings of the service. -/
def cookEvent (dev : DeviceObj) (cmd : CmdInfo) (values : ℕ → CommandResult)
    (tags : Option IotData) : Option Event :=
  processEvent sdk.libs sdk.stamp dev.dev cmd values tags sdk.device.datatransform
    sdk.reducedEvents

/-- `edgex_device_runget2`. The message for a failure of the driver has no place for
    the exception. -/
def runget2 (dev : DeviceObj) (cmd : CmdInfo) (params : Option IotData) (reply : HttpReply) :
    Step (Option Event × HttpReply) :=
  match unreadable cmd with
  | some r =>
    { val := (none, errorResponse httpMethodNotAllowed
        ("Attempt to read unreadable value " ++ r.req.resource.name))
      dev
      trace := [.inspect] }
  | none =>
    let a := obtainAddress sdk dev
    match a.val.1 with
    | none =>
      { val := (none, errorResponse httpInternalServerError
          ("Address parsing failed for device " ++ dev.dev.name ++ ": " ++
            exceptionText sdk.libs a.val.2))
        dev := a.dev
        trace := [.inspect] ++ a.trace ++ [.inspect] }
    | some address =>
      let before := [.inspect] ++ a.trace ++
        [Effect.gethandler (some address) cmd.reqs params]
      match sdk.driver.gethandler (some address) (cmd.reqs.map CmdReq.req) params with
      | .error _ =>
        { val := (none, errorResponse httpInternalServerError
            ("Driver for " ++ dev.dev.name ++ " failed on GET: "))
          dev := a.dev
          trace := before ++ [.inspect] }
      | .ok (values, tags) =>
        match cookEvent sdk a.dev cmd values tags with
        | none =>
          { val := (none, errorResponse httpInternalServerError
              ("Assertion failed for device " ++ dev.dev.name ++ ". Marking as down."))
            dev := a.dev
            trace := before ++ [.processEvent, .inspect, .setOpstate dev.dev.name .down] }
        | some ev =>
          { val := if ev.tooLarge sdk.libs sdk.device.maxeventsize then
              (none, errorResponse httpInternalServerError (tooLargeMessage sdk ev))
              else (some ev, reply)
            dev := a.dev
            trace := before ++ [.processEvent] ++ updateLastConnected sdk dev.dev.name ++
              sizeCheck sdk }

/-- `edgex_device_runget3`. -/
def runget3 (dev : DeviceObj) (cmd : CmdInfo) (params : Option IotData) :
    Step (Option Event × Option Body) :=
  match unreadable cmd with
  | some _ =>
    { val := (none, v3ErrorResponse "Attempt to read unreadable value %s")
      dev
      trace := [.inspect] }
  | none =>
    let a := obtainAddress sdk dev
    match a.val.1 with
    | none =>
      { val := (none, v3ErrorResponse "Address parsing failed for device %s: %s")
        dev := a.dev
        trace := [.inspect] ++ a.trace ++ [.inspect] }
    | some address =>
      let before := [.inspect] ++ a.trace ++
        [Effect.gethandler (some address) cmd.reqs params]
      match sdk.driver.gethandler (some address) (cmd.reqs.map CmdReq.req) params with
      | .error _ =>
        let q := requestFailed sdk a.dev
        { val := (none, v3ErrorResponse "Driver for %s failed on GET: %s")
          dev := q.dev
          trace := before ++ [.inspect] ++ q.trace }
      | .ok (values, tags) =>
        match cookEvent sdk a.dev cmd values tags with
        | none =>
          { val := (none, v3ErrorResponse "Assertion failed for device %s. Marking as down.")
            dev := a.dev
            trace := before ++ [.processEvent, .inspect, .setOpstate dev.dev.name .down] }
        | some ev =>
          let q := requestSucceeded sdk a.dev
          { val := if ev.tooLarge sdk.libs sdk.device.maxeventsize then
              (none, v3ErrorResponse "Event size (%d KiB) exceeds configured MaxEventSize")
              else (some ev, none)
            dev := q.dev
            trace := before ++ [.processEvent] ++ updateLastConnected sdk dev.dev.name ++
              sizeCheck sdk ++ q.trace }

/-- Why a command is refused before it is run. -/
inductive Refusal
  | locked
  | down
  | tooManyOps
  deriving DecidableEq

namespace Refusal

/-- The status code of a refusal. -/
def code : Refusal → ℕ
  | locked | down => httpLocked
  | tooManyOps => httpInternalServerError

/-- The format of the message. -/
def format : Refusal → String
  | locked => "Device %s is locked"
  | down => "Device %s is down"
  | tooManyOps => "MaxCmdOps (%d) exceeded (%d) for command %s"

/-- The message, for a device and a command. -/
def message (devname : String) (maxcmdops nreqs : ℕ) (cmdname : String) : Refusal → String
  | locked => "Device " ++ devname ++ " is locked"
  | down => "Device " ++ devname ++ " is down"
  | tooManyOps => "MaxCmdOps (" ++ toString maxcmdops ++ ") exceeded (" ++ toString nreqs ++
    ") for command " ++ cmdname

end Refusal

/-- The number of requests of a command is within `MaxCmdOps`. -/
def withinMaxCmdOps (nreqs : ℕ) : Bool :=
  decide (sdk.device.maxcmdops = 0) || decide (nreqs ≤ sdk.device.maxcmdops.toNat)

/-- The checks on a command that was found. -/
def refusal (dev : DeviceObj) (cmd : CmdInfo) : Option Refusal :=
  if dev.dev.adminState = .locked then some .locked
  else if dev.dev.operatingState = .down then some .down
  else if withinMaxCmdOps sdk cmd.nreqs then none
  else some .tooManyOps

/-- `DS_PUSH` and `DS_RETURN`. -/
def dsPush : String := "ds-pushevent"

def dsReturn : String := "ds-returnevent"

/-- The payload of a REST request: none, one that does not parse, or data. -/
inductive Payload
  | empty
  | malformed
  | data (rdata : ReqData)

/-- The parts of `devsdk_http_request` that a command uses. -/
structure HttpRequest where
  name : String
  cmd : String
  isGet : Bool
  qparams : Option IotData := none
  payload : Payload := .empty

/-- The command that a request names, in its own direction or in the other. -/
inductive Found
  | command (cmd : CmdInfo)
  | wrongMethod
  | missing

/-- The lookup of a command, with the profile as it leaves it. -/
def lookupCommand (prof : DeviceProfile) (name : String) (isGet : Bool) :
    DeviceProfile × Found × List Effect :=
  let f := findcommand sdk.driver.createRes prof name isGet
  match f.2 with
  | some cmd => (f.1, .command cmd, [.findcommand name isGet])
  | none =>
    let g := findcommand sdk.driver.createRes f.1 name (!isGet)
    (g.1, if g.2.isSome then .wrongMethod else .missing,
      [.findcommand name isGet, .findcommand name !isGet])

/-- Which flags of a REST request are set: `ds-pushevent`, and `ds-returnevent`. -/
def pushes2 (qparams : Option IotData) : Bool :=
  decide (IotData.stringMapGetString qparams dsPush = some "true")

def returns2 (qparams : Option IotData) : Bool :=
  !decide (IotData.stringMapGetString qparams dsReturn = some "false")

/-- What a command handler answers when it does not run a command. -/
structure Answers (ρ : Type) where
  wrongMethod : ρ
  missing : ρ
  refused : Refusal → CmdInfo → ρ

/-- The frame that `edgex_device_v2impl` and `edgex_device_v3impl` share: the command is
    looked up and checked, and `run` is what they do with it. -/
def runCommand {ρ : Type} (answers : Answers ρ) (run : CmdInfo → Step ρ) (cmdname : String)
    (isGet : Bool) (dev : DeviceObj) (prof : DeviceProfile) : Step (ρ × DeviceProfile) :=
  let found := lookupCommand sdk prof cmdname isGet
  match found.2.1 with
  | .wrongMethod =>
    { val := (answers.wrongMethod, found.1), dev, trace := found.2.2 ++ [.release] }
  | .missing =>
    { val := (answers.missing, found.1), dev, trace := found.2.2 ++ [.inspect, .release] }
  | .command cmd =>
    match refusal sdk dev cmd with
    | some why =>
      { val := (answers.refused why cmd, found.1), dev
        trace := found.2.2 ++ [.inspect, .release] }
    | none =>
      { val := ((run cmd).val, found.1)
        dev := (run cmd).dev
        trace := found.2.2 ++ [.inspect] ++ (run cmd).trace }

/-- What `edgex_device_v2impl` does with an event. -/
def deliver2 (qparams : Option IotData) (ev : Event) : HttpReply × List Effect :=
  ({ code := httpOk
     body := some (if returns2 qparams then .event ev
      else if pushes2 qparams then .base "Event generated successfully"
      else .base "Reading performed successfully") },
    (if pushes2 qparams then [.publish ev] else []) ++
      if returns2 qparams then [.writeEvent ev] else [])

/-- The get branch of `edgex_device_v2impl`. -/
def get2 (req : HttpRequest) (dev : DeviceObj) (cmd : CmdInfo) : Step HttpReply :=
  let g := runget2 sdk dev cmd req.qparams {}
  match g.val.1 with
  | none => { val := g.val.2, dev := g.dev, trace := g.trace ++ [.release] }
  | some ev =>
    { val := (deliver2 req.qparams ev).1
      dev := g.dev
      trace := g.trace ++ [.release] ++ (deliver2 req.qparams ev).2 }

/-- The set branch of `edgex_device_v2impl`. -/
def put2 (req : HttpRequest) (dev : DeviceObj) (cmd : CmdInfo) : Step HttpReply :=
  match req.payload with
  | .empty =>
    { val := errorResponse httpBadRequest "PUT command recieved with no data", dev,
      trace := [.release] }
  | .malformed =>
    { val := errorResponse httpBadRequest "Unable to parse payload for device PUT command", dev,
      trace := [.release] }
  | .data rdata =>
    let p := runput2 sdk dev cmd req.qparams rdata
    { p with trace := p.trace ++ [.release] }

/-- `edgex_device_v2impl`. -/
def v2impl (req : HttpRequest) (dev : DeviceObj) (prof : DeviceProfile) :
    Step (HttpReply × DeviceProfile) :=
  runCommand sdk
    { wrongMethod := errorResponse httpMethodNotAllowed ("Wrong method for command " ++ req.cmd ++
        " (operation is " ++ (if req.isGet then "write" else "read") ++ "-only)")
      missing := errorResponse httpNotFound
        ("No command " ++ req.cmd ++ " for device " ++ dev.dev.name)
      refused := fun why cmd => errorResponse why.code
        (why.message dev.dev.name sdk.device.maxcmdops.toNat cmd.nreqs req.cmd) }
    (if req.isGet then get2 sdk req dev else put2 sdk req dev) req.cmd req.isGet dev prof

/-- What `edgex_device_v3impl` does with an event. The event becomes the reply as it is. -/
def deliver3 (params : Option IotData) (ev : Event) : (ℕ × Option Body) × List Effect :=
  let pushv := IotData.stringMapGetBool params dsPush false
  let retv := IotData.stringMapGetBool params dsReturn true
  ((0, some (if retv then .event ev
      else .base (if pushv then "Event generated successfully"
        else "Reading performed successfully"))),
    if pushv then [.publish ev] else [])

/-- A command on the message bus. -/
structure BusRequest where
  device : String
  cmd : String
  op : String
  request : Option IotData := none
  params : Option IotData := none

/-- The get branch of `edgex_device_v3impl`. -/
def get3 (req : BusRequest) (dev : DeviceObj) (cmd : CmdInfo) : Step (ℕ × Option Body) :=
  let g := runget3 sdk dev cmd req.params
  match g.val.1 with
  | none => { val := (1, g.val.2), dev := g.dev, trace := g.trace ++ [.release] }
  | some ev =>
    { val := (deliver3 req.params ev).1
      dev := g.dev
      trace := g.trace ++ [.release] ++ (deliver3 req.params ev).2 }

/-- The set branch of `edgex_device_v3impl`. -/
def put3 (req : BusRequest) (dev : DeviceObj) (cmd : CmdInfo) : Step (ℕ × Option Body) :=
  let p := runput3 sdk dev cmd req.request req.params
  { p with trace := p.trace ++ [.release] }

/-- `edgex_device_v3impl`. -/
def v3impl (req : BusRequest) (isGet : Bool) (dev : DeviceObj) (prof : DeviceProfile) :
    Step ((ℕ × Option Body) × DeviceProfile) :=
  runCommand sdk
    { wrongMethod := (httpMethodNotAllowed,
        v3ErrorResponse "Wrong method for command %s (operation is %s-only)")
      missing := (httpNotFound, v3ErrorResponse "No command %s for device %s")
      refused := fun why _ => (why.code, v3ErrorResponse why.format) }
    (if isGet then get3 sdk req dev else put3 sdk req dev) req.cmd isGet dev prof

/-- The part of `edgex_device_handler_devicev3` after the device was found. An operation
    other than get and set is turned down on the spot. -/
def v3dispatch (req : BusRequest) (dev : DeviceObj) (prof : DeviceProfile) :
    Step ((ℕ × Option Body) × DeviceProfile) :=
  if req.op = "get" then v3impl sdk req true dev prof
  else if req.op = "set" then v3impl sdk req false dev prof
  else
    { val := ((httpMethodNotAllowed,
        v3ErrorResponse "device: only get and set operations allowed"), prof)
      dev
      trace := [] }

theorem AdminState.ne_locked_iff {st : AdminState} : st ≠ .locked ↔ st = .unlocked := by
  cases st <;> simp

/-- A command that is not refused is one that may be run, as far as the device goes. -/
theorem refusal_eq_none_iff (dev : DeviceObj) (cmd : CmdInfo) :
    refusal sdk dev cmd = none ↔ dev.dev.adminState = .unlocked ∧
      dev.dev.operatingState ≠ .down ∧ withinMaxCmdOps sdk cmd.nreqs = true := by
  rw [← AdminState.ne_locked_iff, refusal]
  by_cases hl : dev.dev.adminState = .locked
  · simp [hl]
  by_cases hd : dev.dev.operatingState = .down
  · simp [hl, hd]
  · simp [hl, hd]

@[simp] theorem seen_sizeCheck : seen (sizeCheck sdk) = [] := by
  rw [sizeCheck]
  split <;> rfl

@[simp] theorem seen_lookupCommand (prof : DeviceProfile) (name : String) (isGet : Bool) :
    seen (lookupCommand sdk prof name isGet).2.2 = [] := by
  simp only [lookupCommand]
  split <;> rfl

/-- A command is turned down, and the device released; or it was found, passed the checks,
    and is run. -/
theorem runCommand_cases {ρ : Type} (answers : Answers ρ) (run : CmdInfo → Step ρ)
    (cmdname : String) (isGet : Bool) (dev : DeviceObj) (prof : DeviceProfile) :
    let found := lookupCommand sdk prof cmdname isGet
    let c := runCommand sdk answers run cmdname isGet dev prof
    ((∀ cmd, found.2.1 = .command cmd → refusal sdk dev cmd ≠ none) ∧ c.dev = dev ∧
      (c.val.1 = answers.wrongMethod ∨ c.val.1 = answers.missing ∨
        ∃ why cmd, c.val.1 = answers.refused why cmd) ∧
      (c.trace = found.2.2 ++ [.release] ∨ c.trace = found.2.2 ++ [.inspect] ++ [.release])) ∨
    ∃ cmd, found.2.1 = .command cmd ∧ refusal sdk dev cmd = none ∧
      c = { val := ((run cmd).val, found.1), dev := (run cmd).dev,
            trace := found.2.2 ++ [.inspect] ++ (run cmd).trace } := by
  dsimp only
  rw [runCommand]
  cases hf : (lookupCommand sdk prof cmdname isGet).2.1 with
  | wrongMethod => exact Or.inl ⟨by simp, rfl, Or.inl rfl, Or.inl rfl⟩
  | missing => exact Or.inl ⟨by simp, rfl, Or.inr (Or.inl rfl), Or.inr (by simp)⟩
  | command cmd =>
    dsimp only
    cases hr : refusal sdk dev cmd with
    | some why =>
      refine Or.inl ⟨?_, rfl, Or.inr (Or.inr ⟨why, cmd, rfl⟩), Or.inr (by simp)⟩
      rintro cmd' he
      cases he
      simp [hr]
    | none => exact Or.inr ⟨cmd, rfl, hr, rfl⟩

end DeviceSdk
