import Katherine.Desktop.Bridge
import Katherine.Desktop.ChatScreen
import Katherine.Runtime.Answers

/-!
# The conversation, from the click to the ledger

The chat hook, the calls of the bridge and the turns of the runtime as one machine. The hook hands a
message to `send_message`; the bridge runs it on a thread of its own, beside every other one; the
page waits for it no longer than its timer runs, and may ask again with the same id while the first
call is still at work. The store is closed and opened, trimmed, erased, imported into as it was
before. `Step` is one step of any of the three.

The fields of `Conversation` after `world` are for the proofs. No step looks at them, but for the ids
that are not drawn twice.
-/

namespace Katherine.Desktop

open Py

/-! ## Calls -/

/-- How far the bridge has come with a call. -/
inductive Stage
  /-- The page has made it. -/
  | asked
  /-- The runtime is at its turn with this number. -/
  | running (turn : Nat)
  | answered (payload : List (PyKey × PyVal))

/-- A call of `send_message`. -/
structure SendCall where
  /-- The request of the hook that waits for it. -/
  token : Nat
  attempt : Attempt
  stage : Stage
  /-- What the hook waits for has settled, by the payload or without it. -/
  settled : Bool

/-- The arguments, as the bridge gets them. -/
def SendCall.args (q : SendCall) : List PyVal :=
  [ofJs (q.attempt.requestId.getD .undefined), ofJs (q.attempt.content.getD .undefined)]

/-- The page, the bridge and the runtime; the last three fields are what the proofs remember. -/
structure Conversation where
  chat : Chat
  calls : List SendCall
  /-- What `load_history` has returned. -/
  fetched : List (List Local.HistoryRow)
  world : Runtime.World
  log : Log
  /-- The message ids that commits have used. -/
  spent : List PyStr
  /-- The contents of the store that a connection has seen. -/
  seen : List Local.Db

def Conversation.init : Conversation := ⟨{}, [], [], .init, ⟨[], [], []⟩, [], []⟩

def Conversation.setCall (c : Conversation) (k : Nat) (q : SendCall) : Conversation :=
  { c with calls := c.calls.set k q }

/-- The hook settles the request of a call. -/
def Conversation.settle (c : Conversation) (k : Nat) (q : SendCall) (r : Settlement) : Conversation :=
  { c.setCall k { q with settled := true } with
    chat := c.chat.settle q.token r
    log := c.log.extend (.settled q.token r) none c.chat }

/-! ### What the runtime makes of the store's replies -/

/-- The turn that a reservation begins, if it does. -/
def admittedTurn (id : PyStr) (opened : Nat) : Except Local.Err Local.Reply → List Runtime.Turn
  | .ok (.outcome o) =>
      match Runtime.afterReservation id o with
      | .admitted g => [⟨id, g, opened, .admitted⟩]
      | _ => []
  | _ => []

/-- Where a call is after its reservation. -/
def reserveStage (id : PyStr) (turn : Nat) : Except Local.Err Local.Reply → Stage
  | .ok (.outcome o) =>
      match Runtime.afterReservation id o with
      | .returned r => .answered (sendPayload (successPayload r))
      | .raised e => .answered (sendPayload (failurePayload (storeErrorCode e)))
      | .admitted _ => .running turn
  | .ok _ => .answered (sendPayload (failurePayload .unknown))
  | .error e => .answered (sendPayload (failurePayload (storeErrorCode e)))

/-- Where a call is after its commit: if that raised, the release is ahead. -/
def commitStage (turn durationMs : Nat) : Except Local.Err Local.Reply → Stage
  | .ok (.committed res) =>
      match Runtime.dictOf res.emotionState with
      | some emotionState => .answered (sendPayload (successPayload
          { response := res.response, emotionState, messageId := res.messageId, revision := res.revision,
            durationMs := some durationMs }))
      | none => .answered (sendPayload (failurePayload .unknown))
  | _ => .running turn

/-- What happens on the page without the bridge. -/
def Input.isPage : Input → Bool
  | .history _ => false
  | .settled _ _ => false
  | _ => true

/-! ## Steps -/

section

variable {ι : Type} (next : Local.LoadedUserState → ι → Option (EmotionalStateV1 × RelationshipStateV1))

/- What the page makes of an `emotion_state`. -/
variable (emotion : PyVal → JsVal)

variable (sha256 : PyStr → PyStr)

/-- **One step** of the page, of the bridge, of a turn or of the rest of the application. -/
inductive Step (c : Conversation) : Conversation → Prop
  /-- Whatever the hook does on its own. A message that it sends becomes a call. -/
  | page {i : Input} {r : Option Attempt} {chat : Chat} (hinput : i.isPage = true)
      (hadmitted : Admitted c.log i c.chat) (hstep : step i c.chat = (r, chat)) :
      Step c { c with
        chat
        log := c.log.extend i r c.chat
        calls := c.calls ++ (r.map fun a => ⟨chat.requestToken, a, .asked, false⟩).toList }
  /-- `load_history` reads the store. -/
  | fetch {thread : Nat} {limit : PyVal} {rows : List Local.HistoryRow}
      (hread : Local.loadRecentHistory limit (c.world.store.view thread) = .ok rows) :
      Step c { c with fetched := rows :: c.fetched, seen := c.world.store.view thread :: c.seen }
  /-- What it returned arrives. -/
  | history {rows : List Local.HistoryRow} (hrows : rows ∈ c.fetched) :
      Step c { c with
        chat := c.chat.receiveHistory (some (rows.map historyRow))
        log := c.log.extend (.history (some (rows.map historyRow))) none c.chat }
  /-- The bridge refuses a call: its arguments, its origin, or no runtime. -/
  | refuse {k : Nat} {q : SendCall} {e : ApiError} (hq : c.calls[k]? = some q) (hasked : q.stage = .asked) :
      Step c (c.setCall k { q with stage := .answered e.payload })
  /-- The runtime does, before it reaches the store. -/
  | raise {k : Nat} {q : SendCall} {code : Lifecycle.LocalErrorCode} (hq : c.calls[k]? = some q)
      (hasked : q.stage = .asked) :
      Step c (c.setCall k { q with stage := .answered (sendPayload (failurePayload code)) })
  | reserve {k : Nat} {q : SendCall} {id message : PyStr} {env : Local.Env} {r : Except Local.Err Local.Reply}
      {s : Local.LocalStore} (hq : c.calls[k]? = some q) (hasked : q.stage = .asked)
      (hargs : sendArguments q.args = .ok (.str id, .str message))
      (hexec : Local.exec sha256 env (.reserveRequest (.str id) (.str message)) c.world.store = (r, s)) :
      Step c { c.setCall k { q with stage := reserveStage id c.world.turns.length r } with
        world := ⟨s, c.world.opened, c.world.turns ++ admittedTurn id c.world.opened r⟩
        seen := s.db :: c.seen }
  /-- The turn of a call loads its state, or something that it does before the commit raises. -/
  | turn {k i : Nat} {q : SendCall} {a : Runtime.Action} {world : Runtime.World} (hq : c.calls[k]? = some q)
      (hrunning : q.stage = .running i) (ha : a = .load i ∨ a = .fail i)
      (hstep : Runtime.Step sha256 c.world a world) : Step c { c with world }
  /-- It commits what it computed from what it loaded. -/
  | commit {k i : Nat} {q : SendCall} {id message : PyStr} {t : Runtime.Turn} {state : Local.LoadedUserState}
      {x : ι} {new : EmotionalStateV1 × RelationshipStateV1} {out : Runtime.TurnOutput} {env : Local.Env}
      {r : Except Local.Err Local.Reply} {s : Local.LocalStore} (hq : c.calls[k]? = some q)
      (hrunning : q.stage = .running i) (hargs : sendArguments q.args = .ok (.str id, .str message))
      (ht : c.world.turns[i]? = some t) (hloaded : t.phase = .loaded state) (hlive : t.opened = c.world.opened)
      (hnext : next state x = some new) (hfresh : out.messageId ∉ c.spent)
      (hexec : Local.exec sha256 env (t.commitCall (Runtime.turnArgs state new message out)) c.world.store = (r, s)) :
      Step c { c.setCall k { q with stage := commitStage i out.durationMs r } with
        world := Runtime.World.move ⟨s, c.world.opened, c.world.turns⟩ i
          (t.to (if r.isOk then .finished else .failed))
        spent := out.messageId :: c.spent
        seen := s.db :: c.seen }
  /-- The reservation of a turn that failed is released, and the failure is the answer. -/
  | release {k i : Nat} {q : SendCall} {code : Lifecycle.LocalErrorCode} {world : Runtime.World}
      (hq : c.calls[k]? = some q) (hrunning : q.stage = .running i)
      (hstep : Runtime.Step sha256 c.world (.release i) world) :
      Step c { c.setCall k { q with stage := .answered (sendPayload (failurePayload code)) } with
        world
        seen := world.store.db :: c.seen }
  /-- Any other operation of the store, or its end and its next opening. -/
  | other {a : Runtime.Action} {world : Runtime.World} (ha : a = .reopen ∨ ∃ call, a = .other call)
      (hstep : Runtime.Step sha256 c.world a world) :
      Step c { c with world, seen := world.store.db :: c.seen }
  /-- The payload arrives. -/
  | deliver {k : Nat} {q : SendCall} {payload : List (PyKey × PyVal)} (hq : c.calls[k]? = some q)
      (hanswered : q.stage = .answered payload) (hopen : q.settled = false) :
      Step c (c.settle k q (settlementOf emotion payload))
  /-- The signal of the request aborts first. The call goes on. -/
  | abort {k : Nat} {q : SendCall} (hq : c.calls[k]? = some q) (hopen : q.settled = false)
      (haborted : q.token ∈ c.chat.aborted) : Step c (c.settle k q (chatError .timeout))
  /-- There is no bridge, or its promise is rejected. -/
  | reject {k : Nat} {q : SendCall} (hq : c.calls[k]? = some q) (hopen : q.settled = false) :
      Step c (c.settle k q (chatError .unknown))

/-- The conversations that some order of steps leads to. -/
inductive Reaches : Conversation → Prop
  | init : Reaches .init
  | step {c c' : Conversation} (h : Reaches c) (hstep : Step next emotion sha256 c c') : Reaches c'

end

end Katherine.Desktop
