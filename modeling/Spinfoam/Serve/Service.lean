import Spinfoam.Build.Request
import Spinfoam.Build.Result
import Spinfoam.Json.Records
import Spinfoam.Runtime.Inventory

/-!
# The service

`Service::handle`: what the first poll of a request comes to. A request is
answered at once, or it calls the runtime or the compiler, which may answer later.
-/

namespace Spinfoam.Serve

open Spinfoam.Json Spinfoam.Std Spinfoam.Outbox Spinfoam.Guest

/-- The records that parameters are decoded to. -/
inductive Record where
  | init | load | id | list | event | build

/-- What the handlers use of other crates, and what the build of the program fixes. -/
structure Environment extends Build.Encoders where
  /-- What `serde` says about parameters that are not of this record. -/
  explain : Record → Value → String
  /-- `STANDARD.decode`, or what it says about text that it refuses. -/
  decode : String → Except String (List UInt8)
  /-- `OS` and `ARCH`. -/
  target : String
  /-- The compiler's object, the SDK and the revision of the loader. -/
  toolchain : List UInt8
  /-- `--enable-builds`. -/
  builds : Bool

def asyncEbpfRevision : String := "7e8a7cbce195d68a1d579608b7a28b55f6fce7fd"

def compilerRevision : String := "7069256d9287e8f6fcacd575fcbb0b83f2300058"

section Parameters

open Reader

def readInit (params : Value) : Option Nat := do
  let [version] ← fieldsOf ["protocol_version"] params | none
  required (unsigned 32) version

def readCapability (value : Value) : Option Capability := do
  let [name, arguments] ← fieldsOf ["name", "arguments"] value | none
  return {
    name := ← required Value.asStr name
    arguments := ← withDefault [] (Reader.map some) arguments }

structure LoadParams where
  elf : String
  config : Value
  capabilities : List Capability

def readLoad (params : Value) : Option LoadParams := do
  let [elf, config, capabilities] ← fieldsOf ["elf", "config", "capabilities"] params | none
  return {
    elf := ← required Value.asStr elf
    config := ← withDefault .null some config
    capabilities := ← withDefault [] (list readCapability) capabilities }

/-- `object_id`. -/
def readId (params : Value) : Option String := do
  let [id] ← fieldsOf ["object_id"] params | none
  required Value.asStr id

structure ListParams where
  after : Option String
  limit : Nat

def readList (params : Value) : Option ListParams := do
  let [after, limit] ← fieldsOf ["after", "limit"] params | none
  return {
    after := ← withDefault none (optional Value.asStr) after
    limit := ← withDefault 100 (unsigned 64) limit }

structure EventParams where
  objectId : String
  eventId : String
  topic : String
  payload : Value
deriving DecidableEq

def readEvent (params : Value) : Option EventParams := do
  let [objectId, eventId, topic, payload] ←
    fieldsOf ["object_id", "event_id", "topic", "payload"] params | none
  return {
    objectId := ← required Value.asStr objectId
    eventId := ← required Value.asStr eventId
    topic := ← required Value.asStr topic
    payload := ← required some payload }

def readBuild (params : Value) : Option Build.Request := do
  let [version, files, entry] ← fieldsOf ["sdk_version", "files", "entry"] params | none
  return {
    sdkVersion := ← required (unsigned 32) version
    files := Map.insertAll ∅ (← required (Reader.map Value.asStr) files)
    entry := ← required Value.asStr entry }

/-- `empty`: an object without members. -/
def isEmpty (params : Value) : Bool :=
  match params with
  | .object [] => true
  | _ => false

end Parameters

/-- `sf.stats`. -/
def stats (runtime : Runtime) (uptime : Nat) : Value :=
  .object [
    ("execution_threads", .number (.int 1)),
    ("host", .object [
      ("ignored_host_responses", .number (.int runtime.host.ignored)),
      ("pending_host_calls", .number (.int runtime.host.pending.entries.length))]),
    ("objects", .number (.int runtime.objects.entries.length)),
    ("output", .object [
      ("dropped_data_notifications", .number (.int runtime.host.out.dropped)),
      ("queued_control_frames", .number (.int runtime.host.out.queues.control.length)),
      ("queued_object_bytes", .number (.int runtime.host.out.queues.bytes))]),
    ("uptime_ms", .number (.int uptime))]

namespace Environment

variable (env : Environment)

/-- `Builds::info`. -/
def buildsInfo : Value :=
  .object [
    ("available", .bool env.builds),
    ("embedded", .bool true),
    ("fingerprint", .string (env.sha256 env.toolchain)),
    ("name", .string "tinycc-in-ebpf"),
    ("reason", if env.builds then .null
      else .string "pass --enable-builds to enable compilation"),
    ("revision", .string compilerRevision),
    ("target", .string "bpfel")]

/-- The answer to `sf.initialize`. -/
def welcome (runtime : Runtime) : Value :=
  .object [
    ("async_ebpf_revision", .string asyncEbpfRevision),
    ("compiler", env.buildsInfo),
    ("limits", .object [
      ("frame_bytes", .number (.int maxFrame)),
      ("handles", .number (.int 128)),
      ("mailbox_bytes", .number (.int 32768)),
      ("mailbox_entries", .number (.int 32)),
      ("value_bytes", .number (.int maxValueBytes))]),
    ("memory_target_bytes", .number (.int 1000000)),
    ("memory_target_enforced", .bool false),
    ("protocol_version", .number (.int 1)),
    ("sdk_version", .number (.int 1)),
    ("session_id", .string runtime.host.session),
    ("target", .string env.target)]

end Environment

/-- What the first poll of a handler comes to. -/
inductive Handling where
  | answered (result : RpcResult)
  /-- A call into the runtime. If that does not answer at once, the handler waits. -/
  | calling (action : Runtime.Action)
  | compiling (request : Build.Request)

/-- What the environment decides about the first poll of a handler: the age of the
session, and the order of the pending calls of an object. -/
structure Moment where
  uptime : Nat
  order : List String

namespace Environment

variable (env : Environment)

/-- `decode`: go on with the parameters, or say why they are refused. -/
def decoded {Params : Type} (record : Record) (read : Value → Option Params) (params : Value)
    (go : Params → Handling) : Handling :=
  match read params with
  | none => .answered (.error (.params (env.explain record params)))
  | some decoded => go decoded

/-- `sf.initialize`, and whether the session is initialized behind it. -/
def init (initialized : Bool) (runtime : Runtime) (params : Value) : Handling × Bool :=
  match readInit params with
  | none => (.answered (.error (.params (env.explain .init params))), initialized)
  | some version =>
    if version ≠ 1 then
      (.answered (.error (.params "supported protocol_version is 1")), initialized)
    else if initialized then (.answered (.error (.busy "already initialized")), true)
    else (.answered (.ok (env.welcome runtime)), true)

/-- The methods of an initialized session. `number` tells the request apart. -/
def dispatch (runtime : Runtime) (number : Nat) (moment : Moment) (method : String)
    (params : Value) : Handling :=
  match method with
  | "sf.object.load" =>
    env.decoded .load readLoad params fun load =>
      match env.decode load.elf with
      | .error error => .answered (.error (.params error))
      | .ok bytes =>
        .calling (.load number (env.sha256 bytes) load.config load.capabilities)
  | "sf.object.start" => env.decoded .id readId params fun id => .calling (.start id)
  | "sf.object.stop" =>
    env.decoded .id readId params fun id => .calling (.stop number id false moment.order)
  | "sf.object.unload" =>
    env.decoded .id readId params fun id => .calling (.stop number id true moment.order)
  | "sf.object.get" => env.decoded .id readId params fun id => .calling (.status id)
  | "sf.object.list" =>
    env.decoded .list readList params fun list => .answered (runtime.list list.after list.limit)
  | "sf.event.deliver" =>
    env.decoded .event readEvent params fun event =>
      .calling (.deliver event.objectId event.eventId event.topic event.payload)
  | "sf.stats" =>
    .answered (if isEmpty params then .ok (stats runtime moment.uptime)
      else .error (.params "expected empty parameters"))
  | "sf.shutdown" =>
    .answered (if isEmpty params then .ok (.object [("shutdown", .bool true)])
      else .error (.params "expected empty parameters"))
  | "sf.build.compile" =>
    env.decoded .build readBuild params fun request =>
      match request.validate with
      | .error error => .answered (.error error)
      | .ok () =>
        if env.builds then .compiling request
        else
          .answered (.error (.new (-32020) "SANDBOX_UNAVAILABLE"
            "pass --enable-builds to enable compilation"))
  | _ => .answered (.error (.new (-32601) "METHOD_NOT_FOUND" "unknown method"))

/-- The first poll of `Service::handle`. -/
def handle (initialized : Bool) (runtime : Runtime) (number : Nat) (moment : Moment)
    (method : String) (params : Value) : Handling × Bool :=
  if method = "sf.initialize" then env.init initialized runtime params
  else if !initialized then
    (.answered (.error (.new (-32000) "NOT_INITIALIZED" "call sf.initialize first")), false)
  else (env.dispatch runtime number moment method params, true)

end Environment

end Spinfoam.Serve
