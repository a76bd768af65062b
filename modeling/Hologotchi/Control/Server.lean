import Hologotchi.Inputs
import Hologotchi.Library.Raising
import Hologotchi.Memory.PetState
import Hologotchi.Presence.Log
import Hologotchi.Protocol

/-! The control server of the host: what `do_POST` does with a request (`host/control.py`). -/
namespace Hologotchi.Control

open Python Library Library.Raising Inputs Presence Memory

def maxRequestBytes : ℤ := 4096
def foregroundAppMaxLen : ℕ := 64
def presenceSourceMaxLen : ℕ := 32
def maxTtlSeconds : Double := .finite 3600

/-- What the handlers share; features may be disabled. -/
structure Server where
  queue : HostInputQueue := {}
  mailbox : Option SignalMailbox := none
  memory : Option Database := none

/-- What a handler raises: the exceptions `do_POST` catches, with their texts, and others. -/
inductive Raised
  | featureDisabled (text : Str)
  | inputError (text : Str)
  | valueError (text : Str)
  | overflowError
  /-- Whatever else `json.loads` raises, such as a `RecursionError`. -/
  | other

abbrev Handler := EStateM Raised Server

def valueError (text : String) : Raised := .valueError (str text)

abbrev Fields := List (Str × Json)

inductive Status
  | ok
  | accepted
  | badRequest
  | notFound
  | serviceUnavailable
  deriving DecidableEq

def Status.value : Status → ℕ
  | .ok => 200
  | .accepted => 202
  | .badRequest => 400
  | .notFound => 404
  | .serviceUnavailable => 503

structure Response where
  status : Status
  payload : Fields

/-- `_send_error`. -/
def errorResponse (status : Status) (text : Str) : Response where
  status := status
  payload := [(str "ok", .bool false), (str "error", .str text)]

def optionalStr (payload : Fields) (field : String) : Except Raised (Option Str) :=
  match Json.get payload field with
  | .null => .ok none
  | .str value =>
    let cleaned := joinWords value
    .ok (if cleaned = [] then none else some cleaned)
  | _ => .error (valueError (field ++ " must be a string"))

def optionalNumber (payload : Fields) (field : String) : Except Raised (Option Double) :=
  match Json.get payload field with
  | .null => .ok none
  | .int n => if fitsFloat n then .ok (some (Double.ofInt n)) else .error .overflowError
  | .float x => .ok (some x)
  | _ => .error (valueError (field ++ " must be a number"))

/-- The check of `screen_locked`. -/
def optionalBool (payload : Fields) (field : String) : Except Raised (Option Bool) :=
  match Json.get payload field with
  | .null => .ok none
  | .bool value => .ok (some value)
  | _ => .error (valueError (field ++ " must be a boolean"))

inductive Endpoint
  | message
  | build
  | test
  | alert
  | touch
  | presence
  | memoryForget
  | memoryReset
  | memoryWrites
  deriving DecidableEq

namespace Endpoint

def path : Endpoint → String
  | .message => "/message"
  | .build => "/build"
  | .test => "/test"
  | .alert => "/alert"
  | .touch => "/touch"
  | .presence => "/presence"
  | .memoryForget => "/memory/forget"
  | .memoryReset => "/memory/reset"
  | .memoryWrites => "/memory/writes"

def all : List Endpoint :=
  [.message, .build, .test, .alert, .touch, .presence, .memoryForget, .memoryReset, .memoryWrites]

/-- The endpoint `do_POST` finds under a path. -/
def ofPath (path : Str) : Option Endpoint := all.find? (str ·.path = path)

end Endpoint

def submitError : SubmitError → Raised
  | .input text => .inputError (str text)
  | .overflow => .overflowError

/-- Submit to the queue, which raises before it changes. -/
def submit (item : HostInputQueue → Except SubmitError (HostInput × HostInputQueue)) :
    Handler HostInput := fun s =>
  match item s.queue with
  | .ok (item, queue) => .ok item { s with queue }
  | .error e => .error (submitError e) s

def submitMessage (payload : Fields)
    (item : HostInputQueue → Str → Except SubmitError (HostInput × HostInputQueue)) :
    Handler HostInput :=
  match Json.get payload "text" with
  | .str text => submit (item · text)
  | _ => throw (.inputError (str "text must be a string"))

def submitResult (payload : Fields) (kind : ResultKind) : Handler HostInput :=
  match Json.get payload "ok" with
  | .bool ok =>
    match Json.get payload "text" with
    | .null => submit (·.submitBuildTestResult kind ok none)
    | .str text => submit (·.submitBuildTestResult kind ok (some text))
    | _ => throw (.inputError (str "text must be a string"))
  | _ => throw (.inputError (str "ok must be a boolean"))

def submitTouch (payload : Fields) : Handler HostInput :=
  match Json.get payload "gesture" with
  | .str gesture =>
    match Json.get payload "duration_ms" with
    | .null => submit (·.submitTouch (.str gesture) .null)
    | .int n => submit (·.submitTouch (.str gesture) (.int n))
    | .float x => submit (·.submitTouch (.str gesture) (.float x))
    | _ => throw (.inputError (str "duration_ms must be a number"))
  | _ => throw (.inputError (str "gesture must be a string"))

/-- Status and payload after an accepted input. -/
def accepted (item : HostInput) : Response where
  status := .accepted
  payload := [(str "ok", .bool true), (str "id", .str item.id)]

/-- `min(x, y)` of floats. -/
def minDouble (x y : Double) : Double := if y.lt x then y else x

def presenceTtl (payload : Fields) : Except Raised (Option Double) := do
  match ← optionalNumber payload "ttl_seconds" with
  | none => .ok none
  | some ttl =>
    if ttl.le (.finite 0) then .error (valueError "ttl_seconds must be positive")
    else .ok (some (minDouble ttl maxTtlSeconds))

def parsePresenceSignals (payload : Fields) : Except Raised PresenceSignals := do
  let idleSeconds ← optionalNumber payload "idle_seconds"
  if idleSeconds.any (·.lt (.finite 0)) then .error (valueError "idle_seconds must not be negative")
  else
    let screenLocked ← optionalBool payload "screen_locked"
    let foregroundApp ← optionalStr payload "foreground_app"
    .ok {
      idleSeconds := idleSeconds
      screenLocked := screenLocked
      foregroundApp := foregroundApp.map (·.take foregroundAppMaxLen) }

/-- `_apply_presence_payload`: what is posted, before the mailbox changes. -/
def presencePost (payload : Fields) (now : ℚ) : Except Raised Post :=
  match payload.lookup (str "present") with
  | some (.bool present) => do
    match ← optionalStr payload "source" with
    | none => .error (valueError "source is required for explicit presence")
    | some source =>
      let ttl ← presenceTtl payload
      .ok (.presence (source.take presenceSourceMaxLen) present
        (ttl.getD defaultPresenceTtlSeconds) now)
  | some _ => .error (valueError "present must be a boolean")
  | none => do
    let signals ← parsePresenceSignals payload
    let ttl ← presenceTtl payload
    .ok (.activity signals ttl now)

def handlePresence (payload : Fields) (now : ℚ) : Handler Response := do
  let s ← get
  match s.mailbox with
  | none => throw (.featureDisabled (str "presence signals are not enabled"))
  | some mailbox => do
    let post ← check (presencePost payload now)
    let (mailbox, changed) := mailbox.post post
    set { s with mailbox := some mailbox }
    if changed then modify fun s => { s with queue := s.queue.submitPresenceSignal }
    pure { status := .accepted, payload := [(str "ok", .bool true)] }

/-- The text of the `UnicodeEncodeError` of a text with lone surrogates. -/
def encodeErrorText (text : Str) : Str :=
  let hex (c : ℕ) : Str :=
    [c / 4096, c / 256 % 16, c / 16 % 16, c % 16].map fun d => if d < 10 then 48 + d else 87 + d
  let start := text.findIdx isSurrogate
  let run := (text.drop start).takeWhile isSurrogate
  let place :=
    if run.length = 1 then
      str "character '\\u" ++ run.flatMap hex ++ str "' in position " ++ FlatJson.decimal start
    else
      str "characters in position " ++ FlatJson.decimal start ++ str "-" ++
        FlatJson.decimal (start + run.length - 1)
  str "'utf-8' codec can't encode " ++ place ++ str ": surrogates not allowed"

/-- What the store raises; forgetting knows no kinds. -/
def memoryError : Memory.Error → Raised
  | .unknownKind kind => .valueError (str "unknown memory kind: " ++ kind)
  | .unusableTag => valueError "tag must contain at least one usable character"
  | .noFilter => valueError "forget_by requires at least one filter"
  | .surrogate text => .valueError (encodeErrorText text)
  | .overflow _ => .overflowError

/-- `_require_memory`. -/
def requireMemory : Handler Database := do
  match (← get).memory with
  | some memory => pure memory
  | none => throw (.featureDisabled (str "memory is not enabled"))

def setMemory (memory : Database) : Handler Unit :=
  modify fun s => { s with memory := some memory }

/-- A deletion by the store, which raises before it deletes. -/
def remove (memory : Database) (deleted : Except Memory.Error (ℕ × Store)) : Handler Response := do
  let (removed, store) ← check (deleted.mapError memoryError)
  setMemory { memory with store }
  pure { status := .ok, payload := [(str "ok", .bool true), (str "removed", .int removed)] }

/-- The filter of a `forget` request without an id. -/
def forgetFilter (payload : Fields) : Except Raised ForgetFilter := do
  let tag ← optionalStr payload "tag"
  let source ← optionalStr payload "source"
  let before ← optionalNumber payload "before"
  let after ← optionalNumber payload "after"
  if tag.isNone && source.isNone && before.isNone && after.isNone then
    .error (valueError "forget requires id, tag, source, before, or after")
  else .ok { tag, source, before, after }

def handleMemoryForget (payload : Fields) : Handler Response := do
  let memory ← requireMemory
  match Json.get payload "id" with
  | .null => do
    let filter ← check (forgetFilter payload)
    remove memory (memory.store.forgetBy filter)
  | .int memoryId => remove memory (memory.store.forget memoryId)
  | _ => throw (valueError "id must be an integer")

def handleMemoryReset : Handler Response := do
  let memory ← requireMemory
  setMemory memory.reset
  pure { status := .ok, payload := [(str "ok", .bool true)] }

def handleMemoryWrites (payload : Fields) : Handler Response := do
  let memory ← requireMemory
  match Json.get payload "enabled" with
  | .bool enabled => do
    setMemory (memory.mapStore (·.setWritesEnabled enabled))
    pure {
      status := .ok
      payload := [(str "ok", .bool true), (str "writes_enabled", .bool enabled)] }
  | _ => throw (valueError "enabled must be a boolean")

/-- The bytes after the headers: no UTF-8, or a text as `json.loads` takes it. -/
inductive Body
  | notUtf8
  | text (loaded : Except Protocol.LoadError Json)

structure Request where
  path : Str
  contentLength : Option Str
  body : Body

def readJsonBody (r : Request) (required : Bool) : Except Raised Fields :=
  match r.contentLength with
  | none => if required then .error (valueError "Content-Length is required") else .ok []
  | some rawLength =>
    match parseInt rawLength with
    | none => .error (valueError "Content-Length must be an integer")
    | some length =>
      if length < 1 then
        if required then .error (valueError "request body must not be empty") else .ok []
      else if maxRequestBytes < length then
        .error (valueError "request body must be at most 4096 bytes")
      else
        match r.body with
        | .notUtf8 => .error (valueError "request body must be UTF-8")
        | .text (.error (.decode _)) => .error (valueError "request body must be a JSON object")
        | .text (.error .other) => .error .other
        | .text (.ok (.obj payload)) => .ok payload
        | .text (.ok _) => .error (valueError "request body must be a JSON object")

/-- `_submit_input`, or the handler of the path. -/
def handle (endpoint : Endpoint) (payload : Fields) (now : ℚ) : Handler Response :=
  match endpoint with
  | .message => do pure (accepted (← submitMessage payload (·.submitDirectMessage ·)))
  | .build => do pure (accepted (← submitResult payload .build))
  | .test => do pure (accepted (← submitResult payload .test))
  | .alert => do pure (accepted (← submitMessage payload (·.submitImportantAlert ·)))
  | .touch => do pure (accepted (← submitTouch payload))
  | .presence => handlePresence payload now
  | .memoryForget => handleMemoryForget payload
  | .memoryReset => handleMemoryReset
  | .memoryWrites => handleMemoryWrites payload

def answer (r : Request) (endpoint : Endpoint) (now : ℚ) : Handler Response := do
  let payload ← check (readJsonBody r (endpoint ≠ .memoryReset))
  handle endpoint payload now

/-- What became of a request: the server, the responses sent, and an exception nobody caught. -/
structure Posted where
  server : Server
  sent : List Response
  escaped : Option Raised

def doPost (s : Server) (r : Request) (now : ℚ) : Posted :=
  match Endpoint.ofPath r.path with
  | none => ⟨s, [errorResponse .notFound (str "not found")], none⟩
  | some endpoint =>
    match answer r endpoint now s with
    | .ok response t => ⟨t, [response], none⟩
    | .error (.featureDisabled text) t => ⟨t, [errorResponse .serviceUnavailable text], none⟩
    | .error (.inputError text) t => ⟨t, [errorResponse .badRequest text], none⟩
    | .error (.valueError text) t => ⟨t, [errorResponse .badRequest text], none⟩
    | .error e t => ⟨t, [], some e⟩

end Hologotchi.Control
