import Katherine.Lib.Runs
import Katherine.Lib.Text

/-!
# The chat hook

`useChat` of the frontend, on the desktop transport. The hook keeps what is on the screen
in React state and everything that decides who may still change it in refs: a token for
the request it owns, a generation of the screen, the generation each message was sent in,
a version of the local messages, and an in-flight flag.

One `Input` is one thing that happens to the hook: an effect, a click, a promise that
settles, a timer. Between two of them no code of the hook runs, so each is one step. A
click is handled by the callbacks of some render, and these close over the state of that
render (`View`), not over the current one; the refs are always current.

The id strings are built as the hook builds them. That no two of them coincide is proved
here, from their first and last characters.
-/

namespace Katherine.Desktop

open Py Runs

/-! ## Messages -/

/-- A JavaScript value, as far as the hook can tell them apart. -/
inductive JsVal
  | undefined
  | null
  | bool (b : Bool)
  /-- A number without a fraction. -/
  | integer (i : Int)
  | string (s : PyStr)
  /-- Any other number, or an object. -/
  | other (n : Nat)
deriving DecidableEq

/-- A text literal as a value. -/
def js (s : String) : JsVal := .string (py s)

/-- `isPersistedId`: a non-empty string or a safe integer. -/
def isPersistedId : JsVal → Bool
  | .string s => !s.isEmpty
  | .integer i => decide (i.natAbs < 2 ^ 53)
  | _ => false

/-- `typeof id` and `String(id)`, of a persisted id. -/
def identity : JsVal → PyStr
  | .string s => py "string:" ++ s
  | .integer i => py "number:" ++ intText i
  | _ => []

def persistedLocalId (id : JsVal) : PyStr := py "server:" ++ identity id

/-- The id that `nextLocalId(kind)` returns when the counter reaches `n`. -/
def nextLocalId (kind : PyStr) (n : Nat) : PyStr := py "local:" ++ kind ++ py ":" ++ natText n

/-- The id of the user's message of a request. -/
def userLocalId (requestId : PyStr) : PyStr := py "local:" ++ requestId ++ py ":user"

/-- The id of the answer to it. -/
def assistantLocalId (requestId : PyStr) : PyStr := py "local:" ++ requestId ++ py ":assistant"

/-! ### No two ids coincide -/

theorem userLocalId_injective {r r' : PyStr} (h : userLocalId r = userLocalId r') : r = r' :=
  List.append_cancel_left (List.append_cancel_right h)

theorem assistantLocalId_injective {r r' : PyStr} (h : assistantLocalId r = assistantLocalId r') :
    r = r' :=
  List.append_cancel_left (List.append_cancel_right h)

theorem getLast?_userLocalId (r : PyStr) : (userLocalId r).getLast? = some (cp 'r') := by
  rw [userLocalId, List.getLast?_append]
  rfl

theorem getLast?_assistantLocalId (r : PyStr) : (assistantLocalId r).getLast? = some (cp 't') := by
  rw [assistantLocalId, List.getLast?_append]
  rfl

theorem getLast?_nextLocalId (kind : PyStr) (n : Nat) :
    ∃ c, (nextLocalId kind n).getLast? = some c ∧ isDigit c = true := by
  obtain ⟨c, hc⟩ := List.getLast?_isSome.mpr (natText_ne_nil n) |> Option.isSome_iff_exists.mp
  refine ⟨c, ?_, natText_all_digit n c (List.mem_of_getLast? hc)⟩
  rw [nextLocalId, List.getLast?_append, hc]
  rfl

theorem userLocalId_ne_assistantLocalId (r r' : PyStr) : userLocalId r ≠ assistantLocalId r' := by
  intro h
  have hlast := getLast?_userLocalId r
  rw [h, getLast?_assistantLocalId] at hlast
  exact absurd (Option.some.inj hlast) (by decide)

theorem nextLocalId_ne_userLocalId (kind r : PyStr) (n : Nat) : nextLocalId kind n ≠ userLocalId r := by
  intro h
  obtain ⟨c, hc, hdigit⟩ := getLast?_nextLocalId kind n
  rw [h, getLast?_userLocalId] at hc
  rw [← Option.some.inj hc] at hdigit
  exact absurd hdigit (by decide)

theorem nextLocalId_ne_assistantLocalId (kind r : PyStr) (n : Nat) :
    nextLocalId kind n ≠ assistantLocalId r := by
  intro h
  obtain ⟨c, hc, hdigit⟩ := getLast?_nextLocalId kind n
  rw [h, getLast?_assistantLocalId] at hc
  rw [← Option.some.inj hc] at hdigit
  exact absurd hdigit (by decide)

theorem nextLocalId_injective {kind : PyStr} {n n' : Nat} (h : nextLocalId kind n = nextLocalId kind n') :
    n = n' :=
  natText_injective (List.append_cancel_left h)

theorem nextLocalId_history_ne_system (n n' : Nat) :
    nextLocalId (py "history") n ≠ nextLocalId (py "system") n' := by
  intro h
  have hseventh := congrArg (fun l => l[6]?) h
  exact absurd (Option.some.inj hseventh) (by decide)

theorem persistedLocalId_ne_local (id : JsVal) (rest : PyStr) :
    persistedLocalId id ≠ py "local:" ++ rest := by
  intro h
  have hfirst := congrArg List.head? h
  exact absurd (Option.some.inj hfirst) (by decide)

theorem identity_of_persistedLocalId {id id' : JsVal} (h : persistedLocalId id = persistedLocalId id') :
    identity id = identity id' :=
  List.append_cancel_left h

/-- A message on the screen. A field is `none` where the object does not have it. What else a
history row may bring along is never read. -/
structure Message where
  localId : PyStr
  serverId : JsVal
  requestId : Option JsVal := none
  role : Option JsVal := none
  content : Option JsVal := none
  deliveryStatus : Option JsVal := none
  retryable : Option JsVal := none
  errorMessage : Option JsVal := none
deriving DecidableEq

/-- A row of the history, whatever it is: the fields it has of those above. -/
structure Row where
  id : Option JsVal := none
  requestId : Option JsVal := none
  role : Option JsVal := none
  content : Option JsVal := none
  retryable : Option JsVal := none
  errorMessage : Option JsVal := none

/-- `{ ...row, localId, serverId, deliveryStatus: 'sent' }`. -/
def Row.message (row : Row) (localId : PyStr) (serverId : JsVal) : Message where
  localId := localId
  serverId := serverId
  requestId := row.requestId
  role := row.role
  content := row.content
  deliveryStatus := some (js "sent")
  retryable := row.retryable
  errorMessage := row.errorMessage

/-- `normalizeHistory`, from the ids seen so far and the counter of local ids; the messages and
the new counter. -/
def normalizeHistory (seen : List PyStr) (sequence : Nat) : List Row → List Message × Nat
  | [] => ([], sequence)
  | row :: rows =>
      match row.id.filter isPersistedId with
      | some id =>
          if identity id ∈ seen then normalizeHistory seen sequence rows
          else
            let rest := normalizeHistory (identity id :: seen) sequence rows
            (row.message (persistedLocalId id) id :: rest.1, rest.2)
      | none =>
          let rest := normalizeHistory seen (sequence + 1) rows
          (row.message (nextLocalId (py "history") (sequence + 1)) .null :: rest.1, rest.2)

/-- `{ ...message, ...candidate }`. -/
def Message.assign (message candidate : Message) : Message where
  localId := candidate.localId
  serverId := candidate.serverId
  requestId := candidate.requestId <|> message.requestId
  role := candidate.role <|> message.role
  content := candidate.content <|> message.content
  deliveryStatus := candidate.deliveryStatus <|> message.deliveryStatus
  retryable := candidate.retryable <|> message.retryable
  errorMessage := candidate.errorMessage <|> message.errorMessage

/-- The message that `upsertMessage` would replace by the candidate. -/
def Message.matches (candidate message : Message) : Bool :=
  decide (message.localId = candidate.localId)
    || (decide (candidate.serverId ≠ .null) && decide (candidate.serverId ≠ .undefined)
      && decide (message.serverId = candidate.serverId))

/-- `upsertMessage`: the first match is replaced, or the candidate is added. -/
def upsertMessage (candidate : Message) : List Message → List Message
  | [] => [candidate]
  | message :: messages =>
      if candidate.matches message then message.assign candidate :: messages
      else message :: upsertMessage candidate messages

/-! ## The hook's state -/

/-- A call of `sendMessage` that has not settled, with what its callback closes over. -/
structure Request where
  token : Nat
  generation : Nat
  intent : Message
deriving DecidableEq

/-- The history fetch of the mount effect. -/
inductive Fetch
  | idle
  | pending (versionAtStart : Nat)
  | closed
deriving DecidableEq

structure Chat where
  messages : List Message := []
  input : PyStr := []
  isLoading : Bool := false
  /-- What `validateEmotionState` made of the last answer; `null` for nothing. -/
  emotionState : JsVal := .null
  /-- The request whose controller is in `abortControllerRef`. -/
  abortController : Option Nat := none
  /-- The request whose timer is in `timerIdRef`. -/
  timerId : Option Nat := none
  requestToken : Nat := 0
  mounted : Bool := true
  inFlight : Bool := false
  localMessagesVersion : Nat := 0
  localMessageSequence : Nat := 0
  screenGeneration : Nat := 0
  intentGeneration : List (PyStr × Nat) := []
  history : Fetch := .idle
  /-- Requests that have not settled. -/
  outstanding : List Request := []
  /-- Requests whose timer is running. -/
  timers : List Nat := []
  /-- Requests whose controller has been aborted. Only the transport looks at the signal. -/
  aborted : List Nat := []

/-- What a render's callbacks close over. -/
structure View where
  messages : List Message
  input : PyStr
  isLoading : Bool

def Chat.view (s : Chat) : View := ⟨s.messages, s.input, s.isLoading⟩

/-- What a step hands to `transport.sendMessage`, and for which message. -/
structure Attempt where
  localId : PyStr
  requestId : Option JsVal
  content : Option JsVal
deriving DecidableEq

def Chat.generationOf (s : Chat) (localId : PyStr) : Option Nat := s.intentGeneration.lookup localId

/-- `intentGenerationRef.current.delete(localId)`. -/
def Chat.forget (s : Chat) (localId : PyStr) : Chat :=
  { s with intentGeneration := s.intentGeneration.filter (·.1 ≠ localId) }

/-- `clearTimeout(timerId)`, and the ref. -/
def Chat.clearTimer (s : Chat) (token : Nat) : Chat :=
  { s with timers := s.timers.filter (· ≠ token), timerId := none }

/-- `controller.abort()`. -/
def Chat.abort (s : Chat) (token : Nat) : Chat := { s with aborted := token :: s.aborted }

def Chat.cleanupRequest (s : Chat) : Chat :=
  let s := match s.timerId with
    | some token => s.clearTimer token
    | none => s
  match s.abortController with
  | some token => { s.abort token with abortController := none }
  | none => s

/-- `message.localId === localId ? { ...message, deliveryStatus, … } : message`. -/
def Message.deliver (localId : PyStr) (deliveryStatus retryable errorMessage : JsVal)
    (message : Message) : Message :=
  if message.localId = localId then
    { message with
      deliveryStatus := some deliveryStatus
      retryable := some retryable
      errorMessage := some errorMessage }
  else message

/-! ## Sending -/

/-- The message of an intent while it is being sent. -/
def Message.sending (intent : Message) : Message :=
  if intent.deliveryStatus.getD .undefined = .undefined then intent
  else { intent with
    deliveryStatus := some (js "pending")
    retryable := some (.bool false)
    errorMessage := some .null }

/-- The state while the new request is out. -/
def Chat.start (s : Chat) (intent : Message) (generation : Nat) : Chat :=
  let s := { s with
    inFlight := true
    localMessagesVersion := s.localMessagesVersion + 1
    messages := upsertMessage intent.sending s.messages
    isLoading := true }
  let s := s.cleanupRequest
  let token := s.requestToken + 1
  { s with
    requestToken := token
    abortController := some token
    timerId := some token
    timers := token :: s.timers
    outstanding := s.outstanding ++ [⟨token, generation, intent⟩] }

/-- `sendIntent`, up to its `await`. -/
def Chat.sendIntent (s : Chat) (intent : Message) : Option Attempt × Chat :=
  if !s.mounted || s.inFlight then (none, s)
  else
    match s.generationOf intent.localId with
    | none => (none, s)
    | some generation =>
        if generation ≠ s.screenGeneration then (none, s)
        else (some ⟨intent.localId, intent.requestId, intent.content⟩, s.start intent generation)

/-- White space of `String.prototype.trim`. -/
def isJsSpace (c : CodePoint) : Bool :=
  decide (9 ≤ c.val ∧ c.val ≤ 13) || decide (0x2000 ≤ c.val ∧ c.val ≤ 0x200A)
    || decide (c.val ∈ [0x20, 0xA0, 0x1680, 0x2028, 0x2029, 0x202F, 0x205F, 0x3000, 0xFEFF])

def jsTrim (s : PyStr) : PyStr := ((s.dropWhile isJsSpace).reverse.dropWhile isJsSpace).reverse

/-- `SYSTEM_MESSAGES.REQUEST_ID_UNAVAILABLE`. -/
def requestIdUnavailable : JsVal := js "Não foi possível iniciar um envio seguro neste navegador."

/-- `SYSTEM_MESSAGES.ERROR_SENDING`. -/
def errorSending : JsVal := js "Erro ao falar com a Katherine. Tente novamente."

/-- The intent of a new message. -/
def newIntent (requestId content : PyStr) : Message where
  localId := userLocalId requestId
  serverId := .null
  requestId := some (.string requestId)
  role := some (js "user")
  content := some (.string content)
  deliveryStatus := some (js "pending")
  retryable := some (.bool false)
  errorMessage := some .null

/-- `handleSend` of a render; `requestId` is what `randomUUID` returns, or `none` where it is missing
or throws. -/
def Chat.handleSend (s : Chat) (view : View) (requestId : Option PyStr) : Option Attempt × Chat :=
  if (jsTrim view.input).isEmpty || view.isLoading || s.inFlight then (none, s)
  else
    match requestId with
    | none =>
        let n := s.localMessageSequence + 1
        let system : Message :=
          { localId := nextLocalId (py "system") n
            serverId := .null
            role := some (js "system")
            content := some requestIdUnavailable }
        (none, { s with
          localMessagesVersion := s.localMessagesVersion + 1
          localMessageSequence := n
          messages := s.messages ++ [system] })
    | some requestId =>
        let intent := newIntent requestId (jsTrim view.input)
        let s := s.forget intent.localId
        let s := { s with
          intentGeneration := (intent.localId, s.screenGeneration) :: s.intentGeneration
          input := [] }
        s.sendIntent intent

/-- A message that can be sent again. -/
def Message.canRetry (m : Message) (localId : PyStr) : Bool :=
  decide (m.localId = localId) && decide (m.role = some (js "user"))
    && (decide (m.deliveryStatus = some (js "failed"))
      || decide (m.deliveryStatus = some (js "unknown")))
    && decide (m.retryable = some (.bool true))

/-- `retryMessage` of a render. -/
def Chat.retryMessage (s : Chat) (view : View) (localId : PyStr) : Option Attempt × Chat :=
  if view.isLoading || s.inFlight then (none, s)
  else
    match view.messages.find? (·.canRetry localId) with
    | none => (none, s)
    | some intent => s.sendIntent intent

def Chat.clearScreen (s : Chat) : Chat :=
  { s with
    localMessagesVersion := s.localMessagesVersion + 1
    screenGeneration := s.screenGeneration + 1
    intentGeneration := []
    messages := []
    emotionState := .null }

/-! ## Settling -/

/-- What `sendMessage` resolves to. -/
structure Data where
  messageId : JsVal
  response : JsVal
  /-- `validateEmotionState(data.emotion_state)`. -/
  emotion : JsVal

/-- `CHAT_ERROR_TYPES`. -/
inductive ChatErrorType
  | timeout
  | rateLimited
  | serviceUnavailable
  | validation
  | requestReplay
  | requestConflict
  | configuration
  | unknown
deriving DecidableEq

/-- `!NON_RETRYABLE_DESKTOP_ERRORS.has(errorType)`. -/
def ChatErrorType.retryable : ChatErrorType → Bool
  | .configuration => false
  | .requestReplay => false
  | .validation => false
  | _ => true

def ChatErrorType.deliveryStatus : ChatErrorType → JsVal
  | .timeout => js "unknown"
  | .unknown => js "unknown"
  | .serviceUnavailable => js "unknown"
  | .requestConflict => js "unknown"
  | _ => js "failed"

/-- How a call of `sendMessage` ends. -/
inductive Settlement
  | resolved (data : Data)
  /-- With `null`, or anything else whose fields cannot be read. -/
  | resolvedToNothing
  | chatError (type : ChatErrorType) (message : JsVal)
  | otherError

/-- The `errorType` of the `catch` block and its message. -/
def Settlement.error : Settlement → ChatErrorType × JsVal
  | .chatError type message => (type, message)
  | _ => (.unknown, errorSending)

def Chat.ownsVisibleIntent (s : Chat) (q : Request) : Bool :=
  s.mounted && decide (q.token = s.requestToken) && decide (q.generation = s.screenGeneration)

/-- The answer as it is shown. -/
def answer (q : Request) (data : Data) : Message where
  -- the id of a message that was sent is a string that `randomUUID` returned
  localId := assistantLocalId (match q.intent.requestId with | some (.string r) => r | _ => [])
  serverId := if isPersistedId data.messageId then data.messageId else .null
  requestId := q.intent.requestId
  role := some (js "assistant")
  content := some data.response
  deliveryStatus := some (js "sent")

/-- The rest of the `try` block. -/
def Chat.succeed (s : Chat) (q : Request) (data : Data) : Chat :=
  let s := s.clearTimer q.token
  let userUpdated := s.messages.map (Message.deliver q.intent.localId (js "sent") (.bool false) .null)
  let s := { s with messages := upsertMessage (answer q data) userUpdated }
  { s.forget q.intent.localId with emotionState := data.emotion }

/-- The `catch` block. -/
def Chat.fail (s : Chat) (q : Request) (type : ChatErrorType) (message : JsVal) : Chat :=
  let s := s.clearTimer q.token
  let s := { s with
    messages := s.messages.map
      (Message.deliver q.intent.localId type.deliveryStatus (.bool type.retryable) message) }
  if type.retryable then s else s.forget q.intent.localId

/-- The `finally` block. -/
def Chat.release (s : Chat) (q : Request) : Chat :=
  if s.mounted && decide (q.token = s.requestToken) then
    { s with isLoading := false, inFlight := false, abortController := none, timerId := none }
  else s

/-- The rest of `sendIntent`, once its request `token` settles. -/
def Chat.settle (s : Chat) (token : Nat) (r : Settlement) : Chat :=
  match s.outstanding.find? (·.token = token) with
  | none => s
  | some q =>
      let s := { s with outstanding := s.outstanding.filter (·.token ≠ token) }
      let s :=
        if s.ownsVisibleIntent q then
          match r with
          | .resolved data => s.succeed q data
          | r => s.fail q r.error.1 r.error.2
        else s
      s.release q

/-! ## Effects -/

/-- The mount effects: the history is asked for, once. -/
def Chat.mount (s : Chat) : Chat :=
  match s.history with
  | .idle => { s with mounted := true, history := .pending s.localMessagesVersion }
  | _ => s

/-- The history arrives; `none` is an answer without an array. -/
def Chat.receiveHistory (s : Chat) (rows : Option (List Row)) : Chat :=
  match s.history with
  | .pending versionAtStart =>
      let s := { s with history := .closed }
      if !s.mounted || decide (versionAtStart ≠ s.localMessagesVersion) then s
      else
        match rows with
        | none => s
        | some rows =>
            let normalized := normalizeHistory [] s.localMessageSequence rows
            { s with messages := normalized.1, localMessageSequence := normalized.2 }
  | _ => s

/-- The fetch rejects, which is only logged. -/
def Chat.historyFailed (s : Chat) : Chat :=
  match s.history with
  | .pending _ => { s with history := .closed }
  | _ => s

/-- The guard timer of a request fires. -/
def Chat.timerFires (s : Chat) (token : Nat) : Chat :=
  if token ∈ s.timers then { s.abort token with timers := s.timers.filter (· ≠ token) } else s

/-- The cleanups of the mount effects. -/
def Chat.unmount (s : Chat) : Chat :=
  let s := { s with
    mounted := false
    requestToken := s.requestToken + 1
    inFlight := false
    history := .closed }
  s.cleanupRequest

/-- What can happen to the hook. -/
inductive Input
  | mount
  | history (rows : Option (List Row))
  | historyFailed
  /-- `setInput`. -/
  | type (text : PyStr)
  | send (view : View) (requestId : Option PyStr)
  | retry (view : View) (localId : PyStr)
  | clearScreen
  | settled (token : Nat) (r : Settlement)
  | timer (token : Nat)
  | unmount

/-- One step, with the request it starts. -/
def step : Input → Chat → Option Attempt × Chat
  | .mount, s => (none, s.mount)
  | .history rows, s => (none, s.receiveHistory rows)
  | .historyFailed, s => (none, s.historyFailed)
  | .type text, s => (none, { s with input := text })
  | .send view requestId, s => s.handleSend view requestId
  | .retry view localId, s => s.retryMessage view localId
  | .clearScreen, s => (none, s.clearScreen)
  | .settled token r, s => (none, s.settle token r)
  | .timer token, s => (none, s.timerFires token)
  | .unmount, s => (none, s.unmount)

end Katherine.Desktop
