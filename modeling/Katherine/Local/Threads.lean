import Katherine.Lib.Linear
import Katherine.Lib.Runs
import Katherine.Lib.TransactSteps
import Katherine.Local.Invariant
import Mathlib.Logic.Function.Basic

/-!
# The store under threads

`LocalStorage` in `backend/local_storage/storage.py` as its threads run it. A write takes the lock, passes
the gate of `_connection`, and runs its transaction on its own connection; a read passes the gate under
the lock and then reads without it; `close` sets `_closed` under the lock and closes the connections, one
after the other. What one thread does between two accesses to anything shared is one step here, and the
steps of the threads interleave in any order.

`Local.exec` is a call as nobody else sees the store. The log lists the writes in the order in which they
took effect, and `Inv` says that `exec` alone, call by call, gives the same replies and the same contents.
-/

namespace Katherine.Local.Threads

open Py Sql Linear

/-! ## Writes -/

/-- A write behind the checks of its arguments: it may answer from what its connection sees, or else runs
its block. -/
structure Method where
  early : Db → Option (Except Err Reply)
  block : Block Db Err Reply

/-- The write with nobody else about. -/
def Method.exec (env : Env) (m : Method) (s : LocalStore) : Except Err Reply × LocalStore :=
  match m.early (s.view env.thread) with
  | some r => (r, s)
  | none => m.block.run .sqlite env.thread env.fault s

/-- A write that does nothing before its block. -/
def checked {α β : Type} (args : Except Err β) (block : β → Block Db Err α) (reply : α → Reply) :
    Except Err Method :=
  args.map fun b => ⟨fun _ => none, (block b).map reply⟩

/-- What `commit_turn` answers before its transaction. -/
def earlyCommit (env : Env) (c : CommitInput) (hash : PyStr) (db : Db) : Option (Except Err Reply) :=
  if env.fault = .read then some (.error .sqlite)
  else
    match db.turnRequests.get? c.requestId with
    | none => none
    | some row =>
        match row.status with
        | .pending => none
        | .completed =>
            if row.payloadHash ≠ hash then some (.error (c.conflict .requestPayloadConflict
              "Request id was already completed with a different payload."))
            else some ((committedFromRow row).map .committed)
        | .failed => some (.error (c.conflict .requestReplayUnavailable
            "Request cannot be replayed or recommitted."))

section

variable (sha256 : PyStr → PyStr)

/-- The method a call is of, with its arguments checked. `reopen` is none. -/
def method (env : Env) : Call → Option (Except Err Method)
  | .reserveRequest requestId userMessage => some <|
      checked (both (validateRequestId requestId) (validateMessage userMessage "user_message"))
        (fun p => reserveBlock p.1 p.2 env.clock) .outcome
  | .commitTurn a => some <| (commitInput sha256 a).map fun p =>
      ⟨earlyCommit env p.1 p.2, (commitBlock p.1 p.2 env.clock).map .committed⟩
  | .releaseRequest requestId historyGeneration => some <|
      checked (both (validateRequestId requestId) (validateHistoryGeneration historyGeneration))
        (fun p => releaseBlock p.1 p.2) (fun _ => .released)
  | .storeMemory content metadata => some <|
      checked (both (validateMessage content "memory content")
          (orRaise metadata.items? (.validation .invalidMetadata "metadata must be a mapping")))
        (fun p => storeMemoryBlock p.1 (.dict p.2) env.clock) .memory
  | .deleteHistory => some <| checked (.ok ()) (fun _ => deleteHistoryBlock env.clock) .report
  | .deleteMemories => some <| checked (.ok ()) (fun _ => deleteMemoriesBlock env.clock) .report
  | .reset field neutral => some <|
      checked (field.validateNeutral neutral) (fun _ => resetBlock field env.clock) .report
  | .trimHistory keepLast => some <|
      checked (orRaise (PyVal.nat? keepLast)
        (.validation .invalidKeepLast "keep_last must be a non-negative int")) trimBlock .trimmed
  | .importLegacyFixture fixture => some <|
      checked (validateLegacyFixture fixture) (fun turns => importBlock sha256 turns env.clock) .imported
  | .reopen => none

/-- A call is refused for its arguments, or its method runs. -/
def runMethod (env : Env) (s : LocalStore) : Except Err Method → Except Err Reply × LocalStore
  | .error e => (.error e, s)
  | .ok m => m.exec env s

omit sha256 in
theorem perform_eq {α β : Type} (env : Env) (args : Except Err β) (block : β → Block Db Err α)
    (reply : α → Reply) (s : LocalStore) :
    perform env args block reply s = runMethod env s (checked args block reply) := by
  cases args with
  | error e => rfl
  | ok b => exact (Block.run_map reply .sqlite env.thread env.fault (block b) s).symm

theorem commitTurn_eq (env : Env) (a : CommitArgs) (s : LocalStore) :
    exec sha256 env (.commitTurn a) s = runMethod env s ((commitInput sha256 a).map fun p =>
      ⟨earlyCommit env p.1 p.2, (commitBlock p.1 p.2 env.clock).map .committed⟩) := by
  simp only [exec, commitTurn]
  cases commitInput sha256 a with
  | error e => rfl
  | ok p =>
      obtain ⟨c, hash⟩ := p
      have hblock := Block.run_map Reply.committed .sqlite env.thread env.fault (commitBlock c hash env.clock) s
      simp only [Except.map, runMethod, Method.exec, earlyCommit]
      by_cases hfault : env.fault = .read
      · simp only [if_pos hfault]
      · simp only [if_neg hfault]
        cases (s.view env.thread).turnRequests.get? c.requestId with
        | none => exact hblock.symm
        | some row =>
            cases hstatus : row.status with
            | pending =>
                simp only [hstatus]
                exact hblock.symm
            | completed =>
                simp only [hstatus]
                by_cases hhash : row.payloadHash ≠ hash
                · simp only [if_pos hhash]
                · simp only [if_neg hhash]
            | failed => simp only [hstatus]

/-- **A call is its method.** -/
theorem exec_eq_method {env : Env} {call : Call} {x : Except Err Method} (h : method sha256 env call = some x)
    (s : LocalStore) : exec sha256 env call s = runMethod env s x := by
  cases call with
  | reopen => cases h
  | commitTurn a =>
      obtain rfl := Option.some.inj h
      exact commitTurn_eq sha256 env a s
  | deleteHistory =>
      obtain rfl := Option.some.inj h
      exact perform_eq env (.ok ()) (fun _ => deleteHistoryBlock env.clock) .report s
  | deleteMemories =>
      obtain rfl := Option.some.inj h
      exact perform_eq env (.ok ()) (fun _ => deleteMemoriesBlock env.clock) .report s
  | _ =>
      obtain rfl := Option.some.inj h
      exact perform_eq env _ _ _ s

end

/-! ## Reads -/

inductive Answer
  | outcome (o : ReplayOutcome)
  | state (u : LoadedUserState)
  | history (rows : List HistoryRow)
  | memories (rows : List (PyStr × List (PyKey × PyVal)))

/-- A read: what it answers, or a `select` and what comes after it. -/
inductive Reads
  | done (r : Except Err Answer)
  | select (next : Db → Reads)

/-- These contents were there for the selects, one after the other, and this is the answer. -/
inductive Reads.Saw : Reads → List Db → Except Err Answer → Prop
  | done (r : Except Err Answer) : (Reads.done r).Saw [] r
  | select {next : Db → Reads} {db : Db} {dbs : List Db} {r : Except Err Answer} (h : (next db).Saw dbs r) :
      (Reads.select next).Saw (db :: dbs) r

inductive Query
  | replay (requestId : PyVal)
  | checkRequest (requestId userMessage : PyVal)
  | loadUserState (clock : Clock)
  | loadRecentHistory (limit : PyVal)
  | loadRecentMemories (limit : PyVal)

/-- The checks of the arguments, then the first select. -/
def afterChecks {β : Type} (args : Except Err β) (next : β → Db → Reads) : Reads :=
  match args with
  | .error e => .done (.error e)
  | .ok b => .select (next b)

/-- Only `check_request` selects twice. -/
def Query.reads : Query → Reads
  | .replay requestId =>
      afterChecks (validateRequestId requestId) fun _ db => .done ((Local.replay requestId db).map .outcome)
  | .checkRequest requestId userMessage =>
      afterChecks (both (validateRequestId requestId) (validateMessage userMessage "user_message")) fun p db =>
        match db.turnRequests.get? p.1 with
        | none => .done (.ok (.outcome { status := .fresh }))
        | some row =>
            match row.status with
            | .completed => .select fun db' => .done ((answerCompleted db' row p.2).map .outcome)
            | _ => .done (.ok (.outcome { status := .conflict }))
  | .loadUserState clock => .select fun db => .done ((Local.loadUserState clock db).map .state)
  | .loadRecentHistory limit =>
      afterChecks (validateLimit limit) fun _ db => .done ((Local.loadRecentHistory limit db).map .history)
  | .loadRecentMemories limit =>
      afterChecks (validateLimit limit) fun _ db => .done ((Local.loadRecentMemories limit db).map .memories)

/-- The read with nobody else about. -/
def Query.answer (db : Db) : Query → Except Err Answer
  | .replay requestId => (Local.replay requestId db).map .outcome
  | .checkRequest requestId userMessage => (Local.checkRequest requestId userMessage db).map .outcome
  | .loadUserState clock => (Local.loadUserState clock db).map .state
  | .loadRecentHistory limit => (Local.loadRecentHistory limit db).map .history
  | .loadRecentMemories limit => (Local.loadRecentMemories limit db).map .memories

theorem saw_done {r r' : Except Err Answer} {dbs : List Db} (h : (Reads.done r).Saw dbs r') : r' = r ∧ dbs = [] := by
  cases h
  exact ⟨rfl, rfl⟩

theorem saw_select {next : Db → Reads} {dbs : List Db} {r : Except Err Answer} (h : (Reads.select next).Saw dbs r) :
    ∃ db rest, dbs = db :: rest ∧ (next db).Saw rest r := by
  cases h with
  | select h => exact ⟨_, _, rfl, h⟩

theorem saw_afterChecks {β : Type} {args : Except Err β} {next : β → Db → Reads} {dbs : List Db}
    {r : Except Err Answer} (h : (afterChecks args next).Saw dbs r) :
    (∃ e, args = .error e ∧ r = .error e ∧ dbs = []) ∨
      ∃ b db rest, args = .ok b ∧ dbs = db :: rest ∧ (next b db).Saw rest r := by
  cases args with
  | error e =>
      obtain ⟨rfl, rfl⟩ := saw_done h
      exact .inl ⟨e, rfl, rfl, rfl⟩
  | ok b =>
      obtain ⟨db, rest, rfl, hrest⟩ := saw_select h
      exact .inr ⟨b, db, rest, rfl, rfl, hrest⟩

/-- One select between the checks and the answer. -/
theorem saw_once {β : Type} {args : Except Err β} {answer : Db → Except Err Answer} {dbs : List Db}
    {r : Except Err Answer} (h : (afterChecks args fun _ db => .done (answer db)).Saw dbs r) {db : Db}
    (hsame : ∀ d ∈ dbs, d = db) (herror : ∀ e, args = .error e → answer db = .error e) : r = answer db := by
  rcases saw_afterChecks h with ⟨e, hargs, rfl, -⟩ | ⟨b, d, rest, -, rfl, hrest⟩
  · exact (herror e hargs).symm
  · rw [(saw_done hrest).1, hsame d List.mem_cons_self]

/-- **Contents that stay are read as one.** -/
theorem saw_same {q : Query} {dbs : List Db} {r : Except Err Answer} (h : q.reads.Saw dbs r) {db : Db}
    (hsame : ∀ d ∈ dbs, d = db) : r = q.answer db := by
  cases q with
  | replay requestId =>
      refine saw_once h hsame fun e he => ?_
      rw [Local.replay, he]
      rfl
  | checkRequest requestId userMessage =>
      simp only [Query.answer, Local.checkRequest]
      rcases saw_afterChecks h with ⟨e, hargs, rfl, -⟩ | ⟨⟨id, message⟩, d, rest, hargs, rfl, hrest⟩
      · cases hid : validateRequestId requestId with
        | error e' =>
            rw [both, hid] at hargs
            cases hargs
            rfl
        | ok id =>
            cases hmessage : validateMessage userMessage "user_message" with
            | error e' =>
                rw [both, hid, hmessage] at hargs
                cases hargs
                rfl
            | ok message =>
                rw [both, hid, hmessage] at hargs
                cases hargs
      · simp only [both, bind_eq_ok] at hargs
        obtain ⟨id', hid, message', hmessage, hpair⟩ := hargs
        cases hpair
        obtain rfl := hsame d List.mem_cons_self
        simp only [hid, hmessage, ok_bind]
        cases hrow : d.turnRequests.get? id with
        | none =>
            simp only [hrow] at hrest
            exact (saw_done hrest).1
        | some row =>
            simp only [hrow] at hrest
            cases hstatus : row.status with
            | completed =>
                simp only [hstatus] at hrest ⊢
                obtain ⟨d', rest', rfl, hrest'⟩ := saw_select hrest
                obtain rfl := hsame d' (List.mem_cons_of_mem _ List.mem_cons_self)
                exact (saw_done hrest').1
            | _ =>
                simp only [hstatus] at hrest ⊢
                exact (saw_done hrest).1
  | loadUserState clock =>
      obtain ⟨d, rest, rfl, hrest⟩ := saw_select h
      obtain rfl := hsame d List.mem_cons_self
      exact (saw_done hrest).1
  | loadRecentHistory limit =>
      refine saw_once h hsame fun e he => ?_
      rw [Local.loadRecentHistory, he]
      rfl
  | loadRecentMemories limit =>
      refine saw_once h hsame fun e he => ?_
      rw [Local.loadRecentMemories, he]
      rfl

/-- **`check_request` is not one read.** A history deleted between its two selects turns a replay into a
conflict, which neither of the two contents gives. -/
theorem torn_check {requestId userMessage : PyVal} {id message : PyStr} (hid : validateRequestId requestId = .ok id)
    (hmessage : validateMessage userMessage "user_message" = .ok message) {db : Db} {row : TurnRequest}
    (hrow : db.turnRequests.get? id = some row) (hcompleted : row.status = .completed)
    (hstored : storedMessageIs db row message = true) :
    (Query.checkRequest requestId userMessage).reads.Saw [db, db.clearHistory]
        (.ok (.outcome { status := .conflict })) ∧
      Query.answer db (.checkRequest requestId userMessage) =
        (committedFromRow row).map (fun c => .outcome { status := .replay, committed := some c }) ∧
      Query.answer db.clearHistory (.checkRequest requestId userMessage) = .ok (.outcome { status := .fresh }) := by
  have hboth : both (validateRequestId requestId) (validateMessage userMessage "user_message") = .ok (id, message) := by
    rw [both, hid, hmessage]
    rfl
  obtain ⟨hchats, hturns⟩ := clearHistory_empty db
  have hgone : db.clearHistory.turnRequests.get? id = none := by
    rw [Table.get?, hturns]
    rfl
  refine ⟨?_, ?_, ?_⟩
  · rw [Query.reads, hboth]
    refine .select ?_
    simp only [hrow, hcompleted]
    refine .select ?_
    have hlost : storedMessageIs db.clearHistory row message = false := by
      have hnone : ∀ i, db.clearHistory.chatLogs.get? i = none := fun i => by
        rw [AutoTable.get?, hchats]
        rfl
      rw [storedMessageIs]
      cases row.userMessageId with
      | none => rfl
      | some i => rw [Option.bind_some, hnone]
    rw [answerCompleted, hlost]
    exact .done _
  · simp only [Query.answer, Local.checkRequest, hid, hmessage, ok_bind, hrow, hcompleted, answerCompleted, hstored]
    cases committedFromRow row <;> rfl
  · simp only [Query.answer, Local.checkRequest, hid, hmessage, ok_bind, hgone]
    rfl

/-! ## The threads -/

/-- A write under way: the how manieth call of its thread, and how many calls had taken effect when it
was made. -/
structure Ticket where
  number : Nat
  env : Env
  call : Call
  start : Nat

def Ticket.id (k : Ticket) : Nat × Nat := (k.env.thread, k.number)

/-- The write with its reply. -/
def Ticket.effect (k : Ticket) (r : Except Err Reply) : Effect (Nat × Nat) (Env × Call) (Except Err Reply) :=
  ⟨k.id, (k.env, k.call), r⟩

/-- A read under way, and how many calls had taken effect when it was made and at each of its selects. -/
structure Question where
  thread : Nat
  query : Query
  start : Nat
  seen : List Nat

def Question.saw (k : Question) (n : Nat) : Question := { k with seen := k.seen ++ [n] }

/-- Where a thread is. -/
inductive Phase
  | idle
  /-- At `with self._lock`. -/
  | waiting (k : Ticket) (m : Method)
  /-- In the lock, with its connection. -/
  | locked (k : Ticket) (m : Method)
  /-- Behind `BEGIN` and the statements, with nothing committed. -/
  | inside (k : Ticket) (m : Method) (o : Outcome Db Err Reply)
  /-- At the end of the `with`. -/
  | leaving (k : Ticket) (r : Except Err Reply)
  /-- At `_connection`, for the next select. -/
  | asking (k : Question) (reads : Reads)
  /-- With its connection, at the select. -/
  | selecting (k : Question) (next : Db → Reads)
  /-- `close`, at `with self._lock`. -/
  | closing
  /-- `close`, in its loop. -/
  | shutting (left : List Nat)

/-- In the lock. -/
def Phase.holds : Phase → Bool
  | .locked _ _ => true
  | .inside _ _ _ => true
  | .leaving _ _ => true
  | .shutting _ => true
  | _ => false

/-- The write that it is at, as long as that has not taken effect. -/
def Phase.ticket : Phase → Option Ticket
  | .waiting k _ => some k
  | .locked k _ => some k
  | .inside k _ _ => some k
  | _ => none

/-- Not past the gate, and with nothing to answer but an error of the arguments. -/
def Phase.IsBarred : Phase → Prop
  | .asking k (.done r) => k.query.reads = .done r
  | .selecting _ _ => False
  | _ => True

/-- The store object and its threads. -/
structure World where
  store : LocalStore
  /-- The thread in the lock. -/
  lock : Option Nat
  closed : Bool
  /-- The threads whose connection is open. -/
  conns : List Nat
  /-- The threads whose connection `close` could not close. -/
  kept : List Nat
  phase : Nat → Phase
  /-- How many calls each thread has made. -/
  made : Nat → Nat
  log : List (Effect (Nat × Nat) (Env × Call) (Except Err Reply))

/-- `LocalStorage(path)` returned, on thread `t`. -/
def World.opened (t : Nat) (db : Db) : World where
  store := ⟨db, none⟩
  lock := none
  closed := false
  conns := [t]
  kept := []
  phase _ := .idle
  made _ := 0
  log := []

def World.to (w : World) (t : Nat) (p : Phase) : World := { w with phase := Function.update w.phase t p }

/-- The connection of `t`, which is opened if there is none. -/
def World.connect (w : World) (t : Nat) : World := { w with conns := List.insert t w.conns }

/-- A connection is closed, and its transaction rolled back. -/
def World.disconnect (w : World) (t : Nat) : World :=
  { w with
    store := ⟨w.store.db, w.store.tx.filter fun tx => tx.1 ≠ t⟩
    conns := w.conns.filter fun u => u ≠ t }

/-- A write takes effect. -/
def World.effect (w : World) (t : Nat) (k : Ticket) (out : Except Err Reply × LocalStore) : World :=
  { w with store := out.2, log := w.log ++ [k.effect out.1] }.to t (.leaving k out.1)

/-- What a thread does next. -/
inductive Act
  | call (clock : Clock) (fault : Fault) (call : Call)
  | ask (query : Query)
  | close
  | proceed
  /-- The driver raises: at `connect` or a `PRAGMA` behind it, at a select, or at `close`. -/
  | fail (pragma : Bool)

/-- What its caller notices. -/
inductive Said
  | nothing
  | called (k : Ticket)
  | returned (k : Ticket) (r : Except Err Reply)
  | asked (k : Question)
  | answered (k : Question) (r : Except Err Answer)
  /-- `PersistenceError("storage_unavailable")`. -/
  | unavailable (k : Ticket ⊕ Question)
  | closed

/-- A write or a read is over. -/
def Said.ends : Said → Bool
  | .returned _ _ => true
  | .answered _ _ => true
  | _ => false

def storageClosed : Err := .persistence .storageClosed "storage is closed"

section

variable (sha256 : PyStr → PyStr)

/-- An idle thread. -/
def begin (t : Nat) (w : World) : Act → Said × World
  | .call clock fault call =>
      let k : Ticket := ⟨w.made t, ⟨t, clock, fault⟩, call, w.log.length⟩
      match method sha256 k.env call with
      | none => (.nothing, w)
      | some (.error e) => (.returned k (.error e), { w with made := Function.update w.made t (w.made t + 1) })
      | some (.ok m) =>
          (.called k, { w with made := Function.update w.made t (w.made t + 1) }.to t (.waiting k m))
  | .ask query =>
      let k : Question := ⟨t, query, w.log.length, []⟩
      (.asked k, w.to t (.asking k query.reads))
  | .close => (.nothing, w.to t .closing)
  | _ => (.nothing, w)

omit sha256 in
/-- A thread goes on. At the lock it waits until the lock is free. -/
def proceed (t : Nat) (w : World) : Phase → Said × World
  | .idle => (.nothing, w)
  | .waiting k m =>
      if w.lock = none then
        if w.closed then (.returned k (.error storageClosed), w.to t .idle)
        else (.nothing, { w.connect t with lock := some t }.to t (.locked k m))
      else (.nothing, w)
  | .locked k m =>
      match m.early (w.store.view t) with
      | some r => (.nothing, w.effect t k (r, w.store))
      | none =>
          match m.block.start .sqlite t k.env.fault w.store with
          | .inl out => (.nothing, w.effect t k out)
          | .inr o => (.nothing, w.to t (.inside k m o))
  | .inside k m o => (.nothing, w.effect t k (m.block.finish .sqlite t k.env.fault w.store o))
  | .leaving k r => (.returned k r, { w with lock := none }.to t .idle)
  | .asking k (.done r) => (.answered k r, w.to t .idle)
  | .asking k (.select next) =>
      if w.lock = none then
        if w.closed then (.answered k (.error storageClosed), w.to t .idle)
        else (.nothing, (w.connect t).to t (.selecting k next))
      else (.nothing, w)
  | .selecting k next =>
      if t ∈ w.conns then (.nothing, w.to t (.asking (k.saw w.log.length) (next (w.store.view t))))
      else (.answered k (.error databaseError), w.to t .idle)
  | .closing =>
      if w.lock = none then
        if w.closed then (.closed, w.to t .idle)
        else (.nothing, { w with lock := some t, closed := true }.to t (.shutting w.conns))
      else (.nothing, w)
  | .shutting [] => (.closed, { w with lock := none }.to t .idle)
  | .shutting (u :: left) => (.nothing, (w.disconnect u).to t (.shutting left))

omit sha256 in
/-- The driver raises, where it can. A connection that does not close stays, and `close` goes on. -/
def fail (t : Nat) (pragma : Bool) (w : World) : Phase → Said × World
  | .waiting k _ =>
      if w.lock = none ∧ w.closed = false ∧ t ∉ w.conns then
        (if pragma then .returned k (.error .sqlite) else .unavailable (.inl k), w.to t .idle)
      else (.nothing, w)
  | .asking k (.select _) =>
      if w.lock = none ∧ w.closed = false ∧ t ∉ w.conns then
        (if pragma then .answered k (.error databaseError) else .unavailable (.inr k), w.to t .idle)
      else (.nothing, w)
  | .selecting k _ => (.answered k (.error databaseError), w.to t .idle)
  | .shutting (u :: left) => (.nothing, { w with kept := u :: w.kept }.to t (.shutting left))
  | _ => (.nothing, w)

/-- Only an idle thread makes a call. -/
def makes (t : Nat) (w : World) (act : Act) : Phase → Said × World
  | .idle => begin sha256 t w act
  | _ => (.nothing, w)

/-- One step of one thread. -/
def step (x : Nat × Act) (w : World) : Said × World :=
  match x.2 with
  | .proceed => proceed x.1 w (w.phase x.1)
  | .fail pragma => fail x.1 pragma w (w.phase x.1)
  | act => makes sha256 x.1 w act (w.phase x.1)

/-! ## The invariant -/

/-- `exec`, of one of the writes. -/
def execCall (x : Env × Call) (s : LocalStore) : Except Err Reply × LocalStore := exec sha256 x.1 x.2 s

/-- The store after the first `n` writes of the log, one after the other. -/
def World.past (w : World) (db : Db) (n : Nat) : LocalStore :=
  after (execCall sha256) ⟨db, none⟩ (w.log.take n)

/-- The store after all of them. -/
def World.logged (w : World) (db : Db) : LocalStore := after (execCall sha256) ⟨db, none⟩ w.log

/-- What a read found at its selects. -/
def Question.contents (k : Question) (w : World) (db : Db) : List Db :=
  k.seen.map fun n => (w.past sha256 db n).view k.thread

/-- A write that has not taken effect. -/
structure Pending (w : World) (t : Nat) (k : Ticket) (m : Method) : Prop where
  thread : k.env.thread = t
  method : method sha256 k.env k.call = some (.ok m)
  start : k.start ≤ w.log.length
  number : k.number < w.made t
  fresh : ∀ e ∈ w.log, e.id ≠ k.id

omit sha256 in
/-- The selects of a read stand in order, behind its start. -/
structure Question.InOrder (k : Question) (w : World) : Prop where
  sorted : (k.start :: k.seen).Pairwise (· ≤ ·)
  bounded : ∀ n ∈ k.start :: k.seen, n ≤ w.log.length

/-- A read that is at `reads`. -/
structure Asked (db : Db) (w : World) (t : Nat) (k : Question) (reads : Reads) : Prop where
  thread : k.thread = t
  order : k.InOrder w
  rest : ∀ dbs r, reads.Saw dbs r → k.query.reads.Saw (k.contents sha256 w db ++ dbs) r

def PhaseOk (db : Db) (w : World) (t : Nat) : Phase → Prop
  | .idle => True
  | .waiting k m => Pending sha256 w t k m
  | .locked k m => Pending sha256 w t k m ∧ w.closed = false
  | .inside k m o => Pending sha256 w t k m ∧ w.closed = false ∧ m.early (w.store.view t) = none ∧
      m.block.start .sqlite t k.env.fault w.store = .inr o
  | .leaving k r => k.env.thread = t ∧ Placed k.start (k.effect r) w.log ∧ w.closed = false
  | .asking k reads => Asked sha256 db w t k reads
  | .selecting k next => Asked sha256 db w t k (.select next)
  | .closing => True
  | .shutting left => w.closed = true ∧ ∀ u ∈ w.conns, u ∈ left ∨ u ∈ w.kept

/-- **The invariant.** -/
structure Inv (db : Db) (w : World) : Prop where
  sequential : Sequential (execCall sha256) ⟨db, none⟩ w.log
  once : (w.log.map Effect.id).Nodup
  numbered : ∀ e ∈ w.log, e.id.2 < w.made e.id.1
  contents : w.closed = false → w.store = w.logged sha256 db
  committed : w.store.db = (w.logged sha256 db).db
  views : ∀ t ∈ w.conns, w.store.view t = (w.logged sha256 db).view t
  holder : ∀ t, (w.phase t).holds = true ↔ w.lock = some t
  shut : w.closed = true → w.lock = none → ∀ t ∈ w.conns, t ∈ w.kept
  threads : ∀ t, PhaseOk sha256 db w t (w.phase t)

variable {sha256 : PyStr → PyStr} {db : Db} {w w' : World} {t : Nat}

/-! ### What the others keep -/

theorem past_of_append {more : List (Effect (Nat × Nat) (Env × Call) (Except Err Reply))}
    (hlog : w'.log = w.log ++ more) {n : Nat} (hn : n ≤ w.log.length) :
    w'.past sha256 db n = w.past sha256 db n := by
  rw [World.past, World.past, hlog, List.take_append_of_le_length hn]

theorem Pending.frame {k : Ticket} {m : Method} (h : Pending sha256 w t k m)
    {more : List (Effect (Nat × Nat) (Env × Call) (Except Err Reply))} (hlog : w'.log = w.log ++ more)
    (hmore : ∀ e ∈ more, e.id.1 ≠ t) (hmade : w.made t ≤ w'.made t) : Pending sha256 w' t k m where
  thread := h.thread
  method := h.method
  start := by
    rw [hlog, List.length_append]
    exact Nat.le_add_right_of_le h.start
  number := Nat.lt_of_lt_of_le h.number hmade
  fresh := by
    intro e he hid
    rw [hlog] at he
    rcases List.mem_append.mp he with he | he
    · exact h.fresh e he hid
    · exact hmore e he (by rw [hid]; exact h.thread)

theorem Asked.frame {k : Question} {reads : Reads} (h : Asked sha256 db w t k reads)
    {more : List (Effect (Nat × Nat) (Env × Call) (Except Err Reply))} (hlog : w'.log = w.log ++ more) :
    Asked sha256 db w' t k reads where
  thread := h.thread
  order := by
    refine ⟨h.order.sorted, fun n hn => ?_⟩
    rw [hlog, List.length_append]
    exact Nat.le_add_right_of_le (h.order.bounded n hn)
  rest := by
    have hcontents : k.contents sha256 w' db = k.contents sha256 w db := by
      refine List.map_congr_left fun n hn => ?_
      rw [past_of_append hlog (h.order.bounded n (List.mem_cons_of_mem _ hn))]
    rw [hcontents]
    exact h.rest

/-- Out of the lock, a thread is where it was when others have taken effect. -/
theorem PhaseOk.frame {p : Phase} (h : PhaseOk sha256 db w t p) (hp : p.holds = false)
    {more : List (Effect (Nat × Nat) (Env × Call) (Except Err Reply))} (hlog : w'.log = w.log ++ more)
    (hmore : ∀ e ∈ more, e.id.1 ≠ t) (hmade : w.made t ≤ w'.made t) : PhaseOk sha256 db w' t p := by
  cases p with
  | idle => trivial
  | waiting k m => exact Pending.frame h hlog hmore hmade
  | asking k reads => exact Asked.frame h hlog
  | selecting k next => exact Asked.frame h hlog
  | closing => trivial
  | _ => cases hp

/-- Anywhere, it is where it was if the others have changed nothing it relies on. -/
theorem PhaseOk.quiet {p : Phase} (h : PhaseOk sha256 db w t p) (hstore : w'.store = w.store)
    (hclosed : w'.closed = w.closed) (hlog : w'.log = w.log) (hmade : w.made t ≤ w'.made t)
    (hconns : ∀ u ∈ w'.conns, u ∈ w.conns ∨ w.closed = false) (hkept : ∀ u ∈ w.kept, u ∈ w'.kept) :
    PhaseOk sha256 db w' t p := by
  have happend : w'.log = w.log ++ [] := by rw [hlog, List.append_nil]
  have hpending : ∀ {k m}, Pending sha256 w t k m → Pending sha256 w' t k m :=
    fun hk => hk.frame happend (by simp) hmade
  cases p with
  | locked k m => exact ⟨hpending h.1, by rw [hclosed]; exact h.2⟩
  | inside k m o =>
      obtain ⟨hk, hopen, hearly, hstart⟩ := h
      exact ⟨hpending hk, by rw [hclosed]; exact hopen, by rw [hstore]; exact hearly, by rw [hstore]; exact hstart⟩
  | leaving k r =>
      obtain ⟨hthread, hplaced, hopen⟩ := h
      exact ⟨hthread, by rw [hlog]; exact hplaced, by rw [hclosed]; exact hopen⟩
  | shutting left =>
      obtain ⟨hshut, hleft⟩ := h
      refine ⟨by rw [hclosed]; exact hshut, fun u hu => ?_⟩
      rcases hconns u hu with hu | hopen
      · exact (hleft u hu).imp_right (hkept u)
      · rw [hshut] at hopen
        cases hopen
  | _ => exact PhaseOk.frame h rfl happend (by simp) hmade

/-! ### Who is in the lock -/

section

variable {phase : Nat → Phase} {lock : Option Nat} {p : Phase}

theorem holders_same (h : ∀ u, (phase u).holds = true ↔ lock = some u) (hp : p.holds = (phase t).holds) (u : Nat) :
    (Function.update phase t p u).holds = true ↔ lock = some u := by
  by_cases hu : u = t
  · subst hu
    rw [Function.update_self, hp]
    exact h u
  · rw [Function.update_of_ne hu]
    exact h u

theorem holders_taken (h : ∀ u, (phase u).holds = true ↔ lock = some u) (hfree : lock = none)
    (hp : p.holds = true) (u : Nat) :
    (Function.update phase t p u).holds = true ↔ some t = some u := by
  by_cases hu : u = t
  · subst hu
    simp [hp]
  · rw [Function.update_of_ne hu, h u, hfree]
    simp [Ne.symm hu]

theorem holders_released (h : ∀ u, (phase u).holds = true ↔ lock = some u) (ht : (phase t).holds = true)
    (hp : p.holds = false) (u : Nat) :
    (Function.update phase t p u).holds = true ↔ none = some u := by
  by_cases hu : u = t
  · subst hu
    simp [hp]
  · rw [Function.update_of_ne hu, h u, (h t).mp ht]
    simp [Ne.symm hu]

end

/-! ### Steps of each kind -/

@[simp] theorem to_phase (w : World) (t : Nat) (p : Phase) : (w.to t p).phase = Function.update w.phase t p := rfl

@[simp] theorem to_self (w : World) (t : Nat) (p : Phase) : (w.to t p).phase t = p := by
  rw [to_phase, Function.update_self]

theorem to_other (w : World) {t u : Nat} (hu : u ≠ t) (p : Phase) : (w.to t p).phase u = w.phase u := by
  rw [to_phase, Function.update_of_ne hu]

theorem Inv.here {p : Phase} (h : Inv sha256 db w) (hphase : w.phase t = p) : PhaseOk sha256 db w t p :=
  hphase ▸ h.threads t

theorem Inv.free (h : Inv sha256 db w) (hholds : (w.phase t).holds = true) {u : Nat} (hu : u ≠ t) :
    (w.phase u).holds = false := by
  cases hp : (w.phase u).holds with
  | false => rfl
  | true =>
      have hlock := (h.holder t).mp hholds
      rw [(h.holder u).mp hp] at hlock
      exact absurd (Option.some.inj hlock) hu

/-- A step of `t` that leaves the store and the log as they are. -/
theorem Inv.quiet (h : Inv sha256 db w) (t : Nat) (hstore : w'.store = w.store) (hclosed : w'.closed = w.closed)
    (hlog : w'.log = w.log) (hmade : ∀ u, w.made u ≤ w'.made u) (hothers : ∀ u, u ≠ t → w'.phase u = w.phase u)
    (hconns : ∀ u ∈ w'.conns, u ∈ w.conns ∨ w.closed = false) (hkept : ∀ u ∈ w.kept, u ∈ w'.kept)
    (hholder : ∀ u, (w'.phase u).holds = true ↔ w'.lock = some u)
    (hshut : w'.closed = true → w'.lock = none → ∀ u ∈ w'.conns, u ∈ w'.kept)
    (hok : PhaseOk sha256 db w' t (w'.phase t)) : Inv sha256 db w' := by
  have hlogged : w'.logged sha256 db = w.logged sha256 db := by rw [World.logged, World.logged, hlog]
  constructor
  · rw [hlog]
    exact h.sequential
  · rw [hlog]
    exact h.once
  · rw [hlog]
    exact fun e he => Nat.lt_of_lt_of_le (h.numbered e he) (hmade _)
  · rw [hlogged, hstore, hclosed]
    exact h.contents
  · rw [hlogged, hstore]
    exact h.committed
  · intro u hu
    rw [hlogged, hstore]
    rcases hconns u hu with hu | hopen
    · exact h.views u hu
    · rw [h.contents hopen]
  · exact hholder
  · exact hshut
  · intro u
    by_cases hu : u = t
    · rw [hu]
      exact hok
    · rw [hothers u hu]
      exact (h.threads u).quiet hstore hclosed hlog (hmade u) hconns hkept

/-- A step of `t` that only moves it on. -/
theorem Inv.moved {p : Phase} (h : Inv sha256 db w) (hp : p.holds = (w.phase t).holds)
    (hok : PhaseOk sha256 db w t p) : Inv sha256 db (w.to t p) := by
  refine h.quiet t rfl rfl rfl (fun _ => Nat.le_refl _) (fun u hu => to_other w hu p)
    (fun _ => .inl) (fun _ => id) (holders_same h.holder hp) h.shut ?_
  rw [to_self]
  exact hok.quiet rfl rfl rfl (Nat.le_refl _) (fun _ => .inl) fun _ => id

/-- **A write takes effect** where `exec` alone would have given the same. -/
theorem Inv.effect (h : Inv sha256 db w) (hholds : (w.phase t).holds = true) (hopen : w.closed = false)
    {k : Ticket} {m : Method} (hk : Pending sha256 w t k m) {out : Except Err Reply × LocalStore}
    (hout : m.exec k.env w.store = out) : Inv sha256 db (w.effect t k out) := by
  have hexec : execCall sha256 (k.env, k.call) (w.logged sha256 db) = out := by
    rw [← h.contents hopen, execCall, exec_eq_method sha256 hk.method]
    exact hout
  have hlogged : (w.effect t k out).logged sha256 db = out.2 := by
    rw [← hexec]
    exact after_snoc _ _ _
  constructor
  · exact h.sequential.snoc (by rw [← hexec]; rfl)
  · show ((w.log ++ [k.effect out.1]).map Effect.id).Nodup
    rw [List.map_append]
    refine List.nodup_append.mpr ⟨h.once, List.nodup_singleton _, ?_⟩
    intro a ha b hb hab
    obtain ⟨e, he, rfl⟩ := List.mem_map.mp ha
    rw [List.mem_singleton.mp hb] at hab
    exact hk.fresh e he hab
  · intro e he
    rcases List.mem_append.mp he with he | he
    · exact h.numbered e he
    · rw [List.mem_singleton.mp he]
      show k.number < w.made k.env.thread
      rw [hk.thread]
      exact hk.number
  · exact fun _ => hlogged.symm
  · rw [hlogged]
    rfl
  · intro u _
    rw [hlogged]
    rfl
  · exact holders_same h.holder hholds.symm
  · intro hshut
    exact absurd hshut (ne_true_of_eq_false hopen)
  · intro u
    by_cases hu : u = t
    · subst hu
      show PhaseOk sha256 db _ u ((w.effect u k out).phase u)
      rw [World.effect, to_self]
      exact ⟨hk.thread, placed_last hk.start _, hopen⟩
    · have hfree := h.free hholds hu
      rw [World.effect, to_other _ hu]
      refine (h.threads u).frame hfree rfl (fun e he => ?_) (Nat.le_refl _)
      rw [List.mem_singleton.mp he]
      show k.env.thread ≠ u
      rw [hk.thread]
      exact Ne.symm hu

/-- `close` shuts the gate. -/
theorem Inv.shuts (h : Inv sha256 db w) (hphase : w.phase t = .closing) (hfree : w.lock = none) :
    Inv sha256 db ({ w with lock := some t, closed := true }.to t (.shutting w.conns)) where
  sequential := h.sequential
  once := h.once
  numbered := h.numbered
  contents := by
    intro hopen
    cases hopen
  committed := h.committed
  views := h.views
  holder := holders_taken h.holder hfree rfl
  shut := by
    intro _ hlock
    cases hlock
  threads := by
    intro u
    by_cases hu : u = t
    · subst hu
      rw [to_self]
      exact ⟨rfl, fun _ => .inl⟩
    · have hout : (w.phase u).holds = false := by
        cases hp : (w.phase u).holds with
        | false => rfl
        | true => exact absurd ((h.holder u).mp hp) (by rw [hfree]; simp)
      rw [to_other _ hu]
      exact (h.threads u).frame hout (List.append_nil _).symm (by simp) (Nat.le_refl _)

theorem view_disconnect (s : LocalStore) {t u : Nat} (hu : t ≠ u) :
    (⟨s.db, s.tx.filter fun tx => tx.1 ≠ u⟩ : LocalStore).view t = s.view t := by
  obtain ⟨db, tx⟩ := s
  cases tx with
  | none => rfl
  | some held =>
      by_cases howner : held.1 = u
      · have hother : t ≠ held.1 := by rw [howner]; exact hu
        simp [Store.view, Option.filter, howner, hu]
      · simp [Store.view, Option.filter, howner]

/-- `close` closes a connection. -/
theorem Inv.disconnects (h : Inv sha256 db w) {u : Nat} {left : List Nat} (hphase : w.phase t = .shutting (u :: left)) :
    Inv sha256 db ((w.disconnect u).to t (.shutting left)) := by
  have hholds : (w.phase t).holds = true := by rw [hphase]; rfl
  obtain ⟨hshut, hleft⟩ := h.here hphase
  constructor
  · exact h.sequential
  · exact h.once
  · exact h.numbered
  · intro hopen
    exact absurd hshut (ne_true_of_eq_false hopen)
  · exact h.committed
  · intro v hv
    obtain ⟨hv, hne⟩ := List.mem_filter.mp hv
    exact (view_disconnect w.store (of_decide_eq_true hne)).trans (h.views v hv)
  · exact holders_same h.holder hholds.symm
  · intro _ hlock
    exact absurd (((h.holder t).mp hholds).symm.trans hlock) (by simp)
  · intro v
    by_cases hv : v = t
    · subst hv
      rw [to_self]
      refine ⟨hshut, fun x hx => ?_⟩
      obtain ⟨hx, hne⟩ := List.mem_filter.mp hx
      rcases hleft x hx with hx | hx
      · rcases List.mem_cons.mp hx with rfl | hx
        · exact absurd rfl (of_decide_eq_true hne)
        · exact .inl hx
      · exact .inr hx
    · rw [to_other _ hv]
      exact (h.threads v).frame (h.free hholds hv) (List.append_nil _).symm (by simp) (Nat.le_refl _)

/-! ### What a step says -/

section

variable (sha256)

/-- A write ends without effect: for its arguments, at the gate of a closed store, or without a connection. -/
inductive Refused (w : World) (k : Ticket) : Except Err Reply → Prop
  | arguments {e : Err} (hidle : w.phase k.env.thread = .idle) (h : method sha256 k.env k.call = some (.error e)) :
      Refused w k (.error e)
  | closed {m : Method} (hwaiting : w.phase k.env.thread = .waiting k m) (h : w.closed = true) :
      Refused w k (.error storageClosed)
  | connect {m : Method} (hwaiting : w.phase k.env.thread = .waiting k m) (h : w.closed = false) :
      Refused w k (.error .sqlite)

omit sha256 in
/-- A read ends at the gate, or with an error of the driver. -/
inductive Failed (w : World) : Except Err Answer → Prop
  | closed (h : w.closed = true) : Failed w (.error storageClosed)
  | driver : Failed w (.error databaseError)

omit sha256 in
/-- The write with this id is over, and not in the log. -/
structure Gone (w : World) (id : Nat × Nat) : Prop where
  numbered : id.2 < w.made id.1
  logged : ∀ e ∈ w.log, e.id ≠ id
  ended : ∀ k, (w.phase id.1).ticket = some k → k.id ≠ id

/-- What its caller notices is so: a write returns what it has in the log, behind the place it was made at,
or has no effect, and a read answers from what its selects found, one after the other. -/
def SaidOk (db : Db) (w w' : World) : Said → Prop
  | .nothing => True
  | .called k => k.start = w.log.length
  | .returned k r => (Refused sha256 w k r ∧ Gone w' k.id) ∨
      (¬ Refused sha256 w k r ∧ Placed k.start (k.effect r) w.log)
  | .asked k => k.start = w.log.length ∧ k.seen = []
  | .answered k r => Failed w r ∨ (k.InOrder w ∧ k.query.reads.Saw (k.contents sha256 w db) r)
  | .unavailable (.inl k) => w.closed = false ∧ Gone w' k.id
  | .unavailable (.inr _) => w.closed = false
  | .closed => w'.closed = true ∧ ∀ t ∈ w'.conns, t ∈ w'.kept

/-- A closed store stays as it is, and a write is refused. -/
structure StaysClosed (w w' : World) (said : Said) : Prop where
  closed : w'.closed = true
  log : w'.log = w.log
  committed : w'.store.db = w.store.db
  conns : w'.conns ⊆ w.conns
  kept : w.kept ⊆ w'.kept
  writes : ∀ k r, said = .returned k r → Refused sha256 w k r

/-- What a step keeps. -/
structure Kept (db : Db) (w w' : World) (said : Said) : Prop where
  inv : Inv sha256 db w'
  log : w.log <+: w'.log
  honest : SaidOk sha256 db w w' said
  closed : w.closed = true → StaysClosed sha256 w w' said

end

theorem Kept.plain {said : Said} (hinv : Inv sha256 db w') (hlog : w'.log = w.log) (hstore : w'.store.db = w.store.db)
    (hclosed : w.closed = true → w'.closed = true) (hconns : w.closed = true → w'.conns ⊆ w.conns)
    (hkept : w.kept ⊆ w'.kept) (hends : said.ends = false) (hsaid : SaidOk sha256 db w w' said) :
    Kept sha256 db w w' said where
  inv := hinv
  log := hlog ▸ List.prefix_refl _
  honest := hsaid
  closed hshut := {
    closed := hclosed hshut
    log := hlog
    committed := hstore
    conns := hconns hshut
    kept := hkept
    writes := by
      intro k r h
      rw [h] at hends
      cases hends }

theorem Kept.stays (h : Inv sha256 db w) : Kept sha256 db w w .nothing :=
  .plain h rfl rfl id (fun _ => List.Subset.refl _) (List.Subset.refl _) rfl trivial

theorem Kept.moved {p : Phase} {said : Said} (h : Inv sha256 db w) (hp : p.holds = (w.phase t).holds)
    (hok : PhaseOk sha256 db w t p) (hends : said.ends = false)
    (hsaid : SaidOk sha256 db w (w.to t p) said) : Kept sha256 db w (w.to t p) said :=
  .plain (h.moved hp hok) rfl rfl id (fun _ => List.Subset.refl _) (List.Subset.refl _) hends hsaid

/-- A write is refused. -/
theorem Kept.refused {k : Ticket} {r : Except Err Reply} (hinv : Inv sha256 db w') (hlog : w'.log = w.log)
    (hstore : w'.store = w.store) (hclosed : w'.closed = w.closed) (hconns : w'.conns = w.conns)
    (hkept : w'.kept = w.kept) (hr : Refused sha256 w k r) (hgone : Gone w' k.id) :
    Kept sha256 db w w' (.returned k r) where
  inv := hinv
  log := hlog ▸ List.prefix_refl _
  honest := .inl ⟨hr, hgone⟩
  closed hshut := {
    closed := hclosed.trans hshut
    log := hlog
    committed := by rw [hstore]
    conns := by rw [hconns]; exact List.Subset.refl _
    kept := by rw [hkept]; exact List.Subset.refl _
    writes := by
      intro k' r' h
      cases h
      exact hr }

/-- A read ends. -/
theorem Kept.answered {k : Question} {r : Except Err Answer} (h : Inv sha256 db w) (hp : (w.phase t).holds = false)
    (hr : Failed w r ∨ (k.InOrder w ∧ k.query.reads.Saw (k.contents sha256 w db) r)) :
    Kept sha256 db w (w.to t .idle) (.answered k r) where
  inv := h.moved hp.symm trivial
  log := List.prefix_refl _
  honest := hr
  closed hshut := {
    closed := hshut
    log := rfl
    committed := rfl
    conns := List.Subset.refl _
    kept := List.Subset.refl _
    writes := by
      intro k' r' h
      cases h }

theorem Kept.failed {k : Question} {r : Except Err Answer} (h : Inv sha256 db w) (hp : (w.phase t).holds = false)
    (hr : Failed w r) : Kept sha256 db w (w.to t .idle) (.answered k r) :=
  .answered h hp (.inl hr)

theorem Kept.effect {k : Ticket} {m : Method} {out : Except Err Reply × LocalStore} (h : Inv sha256 db w)
    (hholds : (w.phase t).holds = true) (hopen : w.closed = false) (hk : Pending sha256 w t k m)
    (hout : m.exec k.env w.store = out) : Kept sha256 db w (w.effect t k out) .nothing where
  inv := h.effect hholds hopen hk hout
  log := List.prefix_append _ _
  honest := trivial
  closed hshut := absurd hshut (ne_true_of_eq_false hopen)

theorem made_le (made : Nat → Nat) (t u : Nat) : made u ≤ Function.update made t (made t + 1) u := by
  by_cases hu : u = t
  · subst hu
    rw [Function.update_self]
    exact Nat.le_succ _
  · rw [Function.update_of_ne hu]

/-- Thread `t` makes a call. -/
theorem Inv.calls (h : Inv sha256 db w) (hphase : w.phase t = .idle) {p : Phase} (hp : p.holds = false)
    (hok : PhaseOk sha256 db { w with made := Function.update w.made t (w.made t + 1) } t p) :
    Inv sha256 db ({ w with made := Function.update w.made t (w.made t + 1) }.to t p) := by
  have hidle : p.holds = (w.phase t).holds := by rw [hp, hphase]; rfl
  refine h.quiet t rfl rfl rfl (made_le w.made t) (fun u hu => to_other _ hu p)
    (fun _ => .inl) (fun _ => id) (holders_same h.holder hidle) h.shut ?_
  rw [to_self]
  exact hok.quiet rfl rfl rfl (Nat.le_refl _) (fun _ => .inl) fun _ => id

theorem kept_begin (h : Inv sha256 db w) (hphase : w.phase t = .idle) (act : Act) :
    Kept sha256 db w (begin sha256 t w act).2 (begin sha256 t w act).1 := by
  have hout : (w.phase t).holds = false := by rw [hphase]; rfl
  cases act with
  | call clock fault call =>
      simp only [begin]
      cases hmethod : method sha256 ⟨t, clock, fault⟩ call with
      | none => exact .stays h
      | some x =>
          cases x with
          | error e =>
              have hinv : Inv sha256 db { w with made := Function.update w.made t (w.made t + 1) } := by
                refine h.quiet t rfl rfl rfl (made_le w.made t) (fun _ _ => rfl) (fun _ => .inl) (fun _ => id)
                  h.holder h.shut ?_
                show PhaseOk sha256 db _ t (w.phase t)
                rw [hphase]
                trivial
              have hrefused : Refused sha256 w ⟨w.made t, ⟨t, clock, fault⟩, call, w.log.length⟩ (.error e) :=
                .arguments hphase hmethod
              refine .refused hinv rfl rfl rfl rfl rfl hrefused ⟨?_, fun e he hid => ?_, fun k hk => ?_⟩
              · show w.made t < Function.update w.made t (w.made t + 1) t
                rw [Function.update_self]
                exact Nat.lt_succ_self _
              · have hnumber := h.numbered e he
                rw [hid] at hnumber
                exact Nat.lt_irrefl _ hnumber
              · have hidle : (w.phase t).ticket = some k := hk
                rw [hphase] at hidle
                cases hidle
          | ok m =>
              have hpending : Pending sha256 { w with made := Function.update w.made t (w.made t + 1) } t
                  ⟨w.made t, ⟨t, clock, fault⟩, call, w.log.length⟩ m := by
                refine ⟨rfl, hmethod, Nat.le_refl _, ?_, ?_⟩
                · show w.made t < Function.update w.made t (w.made t + 1) t
                  rw [Function.update_self]
                  exact Nat.lt_succ_self _
                · intro e he hid
                  have hnumber := h.numbered e he
                  rw [hid] at hnumber
                  exact Nat.lt_irrefl _ hnumber
              exact .plain (h.calls hphase rfl hpending) rfl rfl id
                (fun _ => List.Subset.refl _) (List.Subset.refl _) rfl rfl
  | ask query =>
      have hasked : PhaseOk sha256 db w t (.asking ⟨t, query, w.log.length, []⟩ query.reads) := by
        refine ⟨rfl, ⟨List.pairwise_singleton _ _, fun n hn => ?_⟩, fun dbs r hsaw => hsaw⟩
        rw [List.mem_singleton.mp hn]
      exact .moved h hout.symm hasked rfl ⟨rfl, rfl⟩
  | close => exact .moved h hout.symm trivial rfl trivial
  | proceed => exact .stays h
  | fail pragma => exact .stays h

/-- Thread `t` is in its transaction, and the store is as it was behind `BEGIN`. -/
theorem exec_of_start {env : Env} {m : Method} {s : LocalStore} (hearly : m.early (s.view env.thread) = none) :
    m.exec env s = m.block.run .sqlite env.thread env.fault s := by
  rw [Method.exec, hearly]

/-- A write that gives up at the lock. -/
theorem Pending.gone {k : Ticket} {m : Method} (h : Pending sha256 w t k m) : Gone (w.to t .idle) k.id where
  numbered := by
    show k.number < w.made k.env.thread
    rw [h.thread]
    exact h.number
  logged := h.fresh
  ended := by
    intro k' hk'
    have hidle : (w.to t .idle).phase k.id.1 = .idle := by
      show Function.update w.phase t .idle k.env.thread = .idle
      rw [h.thread, Function.update_self]
    rw [hidle] at hk'
    cases hk'

theorem kept_waiting (h : Inv sha256 db w) {k : Ticket} {m : Method} (hphase : w.phase t = .waiting k m) :
    Kept sha256 db w (proceed t w (.waiting k m)).2 (proceed t w (.waiting k m)).1 := by
  have hok := h.here hphase
  have hout : (w.phase t).holds = false := by rw [hphase]; rfl
  simp only [proceed]
  by_cases hfree : w.lock = none
  · rw [if_pos hfree]
    cases hclosed : w.closed with
    | true =>
        have hwaiting : w.phase k.env.thread = .waiting k m := by rw [Pending.thread hok, hphase]
        exact .refused (h.moved hout.symm trivial) rfl rfl rfl rfl rfl (.closed hwaiting hclosed) (Pending.gone hok)
    | false =>
        show Kept sha256 db w ({ w.connect t with lock := some t }.to t (.locked k m)) .nothing
        refine .plain ?_ rfl rfl id (fun hshut => absurd hshut (ne_true_of_eq_false hclosed))
          (List.Subset.refl _) rfl trivial
        refine h.quiet t rfl rfl rfl (fun _ => Nat.le_refl _) (fun u hu => to_other _ hu _)
          (fun _ _ => .inr hclosed) (fun _ => id) (holders_taken h.holder hfree rfl) ?_ ?_
        · intro hshut
          exact absurd hshut (ne_true_of_eq_false hclosed)
        · rw [to_self]
          refine PhaseOk.quiet  ⟨hok, hclosed⟩ rfl rfl rfl (Nat.le_refl _) (fun _ _ => .inr hclosed) fun _ => id
  · rw [if_neg hfree]
    exact .stays h

theorem kept_locked (h : Inv sha256 db w) {k : Ticket} {m : Method} (hphase : w.phase t = .locked k m) :
    Kept sha256 db w (proceed t w (.locked k m)).2 (proceed t w (.locked k m)).1 := by
  obtain ⟨hk, hopen⟩ := h.here hphase
  have hholds : (w.phase t).holds = true := by rw [hphase]; rfl
  have hthread := hk.thread
  subst hthread
  simp only [proceed]
  cases hearly : m.early (w.store.view k.env.thread) with
  | some r =>
      refine .effect h hholds hopen hk ?_
      rw [Method.exec, hearly]
  | none =>
      cases hstart : m.block.start .sqlite k.env.thread k.env.fault w.store with
      | inl out =>
          refine .effect h hholds hopen hk ?_
          rw [exec_of_start hearly]
          exact Block.run_of_start_inl hstart
      | inr o => exact .moved h hholds.symm ⟨hk, hopen, hearly, hstart⟩ rfl trivial

theorem kept_inside (h : Inv sha256 db w) {k : Ticket} {m : Method} {o : Outcome Db Err Reply}
    (hphase : w.phase t = .inside k m o) :
    Kept sha256 db w (proceed t w (.inside k m o)).2 (proceed t w (.inside k m o)).1 := by
  obtain ⟨hk, hopen, hearly, hstart⟩ := h.here hphase
  have hholds : (w.phase t).holds = true := by rw [hphase]; rfl
  have hthread := hk.thread
  subst hthread
  refine .effect h hholds hopen hk ?_
  rw [exec_of_start hearly]
  exact Block.run_of_start_inr hstart

theorem kept_leaving (h : Inv sha256 db w) {k : Ticket} {r : Except Err Reply} (hphase : w.phase t = .leaving k r) :
    Kept sha256 db w (proceed t w (.leaving k r)).2 (proceed t w (.leaving k r)).1 := by
  obtain ⟨hthread, hplaced, hopen⟩ := h.here hphase
  have hholds : (w.phase t).holds = true := by rw [hphase]; rfl
  have hinv : Inv sha256 db ({ w with lock := none }.to t .idle) := by
    refine h.quiet t rfl rfl rfl (fun _ => Nat.le_refl _) (fun u hu => to_other _ hu _)
      (fun _ => .inl) (fun _ => id) (holders_released h.holder hholds rfl) ?_ ?_
    · intro hshut
      exact absurd hshut (ne_true_of_eq_false hopen)
    · rw [to_self]
      trivial
  have hnot : ¬ Refused sha256 w k r := by
    subst hthread
    intro hrefused
    cases hrefused with
    | arguments hidle => cases hphase.symm.trans hidle
    | closed hwaiting => cases hphase.symm.trans hwaiting
    | connect hwaiting => cases hphase.symm.trans hwaiting
  exact ⟨hinv, List.prefix_refl _, .inr ⟨hnot, hplaced⟩, fun hshut => absurd hshut (ne_true_of_eq_false hopen)⟩

theorem kept_asking (h : Inv sha256 db w) {k : Question} {reads : Reads} (hphase : w.phase t = .asking k reads) :
    Kept sha256 db w (proceed t w (.asking k reads)).2 (proceed t w (.asking k reads)).1 := by
  have hok := h.here hphase
  have hout : (w.phase t).holds = false := by rw [hphase]; rfl
  cases reads with
  | done r =>
      have hsaw := hok.rest [] r (.done r)
      rw [List.append_nil] at hsaw
      exact .answered h hout (.inr ⟨hok.order, hsaw⟩)
  | select next =>
      simp only [proceed]
      by_cases hfree : w.lock = none
      · rw [if_pos hfree]
        cases hclosed : w.closed with
        | true => exact .failed h hout (.closed hclosed)
        | false =>
            show Kept sha256 db w ((w.connect t).to t (.selecting k next)) .nothing
            refine .plain ?_ rfl rfl id (fun hshut => absurd hshut (ne_true_of_eq_false hclosed))
              (List.Subset.refl _) rfl trivial
            refine h.quiet t rfl rfl rfl (fun _ => Nat.le_refl _) (fun u hu => to_other _ hu _)
              (fun _ _ => .inr hclosed) (fun _ => id) (holders_same h.holder hout.symm) ?_ ?_
            · intro hshut
              exact absurd hshut (ne_true_of_eq_false hclosed)
            · rw [to_self]
              exact PhaseOk.quiet  hok rfl rfl rfl (Nat.le_refl _) (fun _ _ => .inr hclosed) fun _ => id
      · rw [if_neg hfree]
        exact .stays h

theorem kept_selecting (h : Inv sha256 db w) {k : Question} {next : Db → Reads}
    (hphase : w.phase t = .selecting k next) :
    Kept sha256 db w (proceed t w (.selecting k next)).2 (proceed t w (.selecting k next)).1 := by
  have hok := h.here hphase
  have hout : (w.phase t).holds = false := by rw [hphase]; rfl
  simp only [proceed]
  by_cases hconn : t ∈ w.conns
  · rw [if_pos hconn]
    -- what it finds is what the log has come to
    have hview : (w.past sha256 db w.log.length).view k.thread = w.store.view t := by
      rw [World.past, List.take_length, hok.thread, h.views t hconn]
      rfl
    refine .moved h hout.symm ⟨hok.thread, ⟨?_, ?_⟩, ?_⟩ rfl trivial
    · show ((k.start :: k.seen) ++ [w.log.length]).Pairwise (· ≤ ·)
      refine List.pairwise_append.mpr ⟨hok.order.sorted, List.pairwise_singleton _ _, fun n hn n' hn' => ?_⟩
      rw [List.mem_singleton.mp hn']
      exact hok.order.bounded n hn
    · intro n hn
      rcases List.mem_append.mp (show n ∈ (k.start :: k.seen) ++ [w.log.length] from hn) with hn | hn
      · exact hok.order.bounded n hn
      · rw [List.mem_singleton.mp hn]
    · intro dbs r hsaw
      have hcontents : (k.saw w.log.length).contents sha256 w db = k.contents sha256 w db ++ [w.store.view t] := by
        rw [Question.contents, Question.saw, List.map_append, List.map_singleton, hview]
        rfl
      rw [hcontents, List.append_assoc]
      exact hok.rest _ _ (.select hsaw)
  · rw [if_neg hconn]
    exact .failed h hout .driver

theorem kept_closing (h : Inv sha256 db w) (hphase : w.phase t = .closing) :
    Kept sha256 db w (proceed t w .closing).2 (proceed t w .closing).1 := by
  have hout : (w.phase t).holds = false := by rw [hphase]; rfl
  simp only [proceed]
  by_cases hfree : w.lock = none
  · rw [if_pos hfree]
    cases hclosed : w.closed with
    | true => exact .moved h hout.symm trivial rfl ⟨hclosed, h.shut hclosed hfree⟩
    | false =>
        exact .plain (h.shuts hphase hfree) rfl rfl (fun _ => rfl) (fun _ => List.Subset.refl _) (List.Subset.refl _)
          rfl trivial
  · rw [if_neg hfree]
    exact .stays h

theorem kept_shutting (h : Inv sha256 db w) {left : List Nat} (hphase : w.phase t = .shutting left) :
    Kept sha256 db w (proceed t w (.shutting left)).2 (proceed t w (.shutting left)).1 := by
  obtain ⟨hshut, hleft⟩ := h.here hphase
  have hholds : (w.phase t).holds = true := by rw [hphase]; rfl
  cases left with
  | nil =>
      have hkept : ∀ u ∈ w.conns, u ∈ w.kept := fun u hu => (hleft u hu).resolve_left (by simp)
      simp only [proceed]
      refine .plain ?_ rfl rfl id (fun _ => List.Subset.refl _) (List.Subset.refl _) rfl ⟨hshut, hkept⟩
      refine h.quiet t rfl rfl rfl (fun _ => Nat.le_refl _) (fun u hu => to_other _ hu _)
        (fun _ => .inl) (fun _ => id) (holders_released h.holder hholds rfl) (fun _ _ => hkept) ?_
      rw [to_self]
      trivial
  | cons u left =>
      exact .plain (h.disconnects hphase) rfl rfl id (fun _ => List.filter_sublist.subset)
        (List.Subset.refl _) rfl trivial

theorem kept_proceed (h : Inv sha256 db w) (t : Nat) :
    Kept sha256 db w (proceed t w (w.phase t)).2 (proceed t w (w.phase t)).1 := by
  cases hphase : w.phase t with
  | idle => exact .stays h
  | waiting k m => exact kept_waiting h hphase
  | locked k m => exact kept_locked h hphase
  | inside k m o => exact kept_inside h hphase
  | leaving k r => exact kept_leaving h hphase
  | asking k reads => exact kept_asking h hphase
  | selecting k next => exact kept_selecting h hphase
  | closing => exact kept_closing h hphase
  | shutting left => exact kept_shutting h hphase

theorem kept_fail (h : Inv sha256 db w) (t : Nat) (pragma : Bool) :
    Kept sha256 db w (fail t pragma w (w.phase t)).2 (fail t pragma w (w.phase t)).1 := by
  cases hphase : w.phase t with
  | waiting k m =>
      have hok := h.here hphase
      have hout : (w.phase t).holds = false := by rw [hphase]; rfl
      simp only [fail]
      by_cases hcan : w.lock = none ∧ w.closed = false ∧ t ∉ w.conns
      · rw [if_pos hcan]
        cases pragma with
        | true =>
            have hwaiting : w.phase k.env.thread = .waiting k m := by rw [Pending.thread hok, hphase]
            exact .refused (h.moved hout.symm trivial) rfl rfl rfl rfl rfl (.connect hwaiting hcan.2.1)
              (Pending.gone hok)
        | false => exact .moved h hout.symm trivial rfl ⟨hcan.2.1, Pending.gone hok⟩
      · rw [if_neg hcan]
        exact .stays h
  | asking k reads =>
      have hout : (w.phase t).holds = false := by rw [hphase]; rfl
      cases reads with
      | done r => exact .stays h
      | select next =>
          simp only [fail]
          by_cases hcan : w.lock = none ∧ w.closed = false ∧ t ∉ w.conns
          · rw [if_pos hcan]
            cases pragma with
            | true => exact .failed h hout .driver
            | false => exact .moved h hout.symm trivial rfl hcan.2.1
          · rw [if_neg hcan]
            exact .stays h
  | selecting k next =>
      exact .failed h (by rw [hphase]; rfl) .driver
  | shutting left =>
      cases left with
      | nil => exact .stays h
      | cons u left =>
          obtain ⟨hshut, hleft⟩ := h.here hphase
          have hholds : (w.phase t).holds = true := by rw [hphase]; rfl
          simp only [fail]
          refine .plain ?_ rfl rfl id (fun _ => List.Subset.refl _) (List.subset_cons_self u w.kept) rfl trivial
          refine h.quiet t rfl rfl rfl (fun _ => Nat.le_refl _) (fun v hv => to_other _ hv _)
            (fun _ => .inl) (fun _ => List.mem_cons_of_mem u) (holders_same h.holder hholds.symm) ?_ ?_
          · intro _ hlock
            exact absurd (((h.holder t).mp hholds).symm.trans hlock) (by simp)
          · rw [to_self]
            refine ⟨hshut, fun v hv => ?_⟩
            rcases hleft v hv with hv | hv
            · rcases List.mem_cons.mp hv with rfl | hv
              · exact .inr List.mem_cons_self
              · exact .inl hv
            · exact .inr (List.mem_cons_of_mem _ hv)
  | _ => exact .stays h

theorem kept_makes (h : Inv sha256 db w) (t : Nat) (act : Act) :
    Kept sha256 db w (makes sha256 t w act (w.phase t)).2 (makes sha256 t w act (w.phase t)).1 := by
  cases hphase : w.phase t with
  | idle => exact kept_begin h hphase act
  | _ => exact .stays h

/-- **Every step keeps the invariant**, and what its caller notices is so. -/
theorem kept_step (h : Inv sha256 db w) (x : Nat × Act) :
    Kept sha256 db w (step sha256 x w).2 (step sha256 x w).1 := by
  obtain ⟨t, act⟩ := x
  cases act with
  | proceed => exact kept_proceed h t
  | fail pragma => exact kept_fail h t pragma
  | _ => exact kept_makes h t _

/-! ### Where the log has its writes from -/

/-- What a step of `t` can do to the writes under way: one takes effect, or is made. -/
structure Grows (t : Nat) (w w' : World) (said : Said) : Prop where
  others : ∀ u, u ≠ t → w'.phase u = w.phase u
  made : ∀ u, w.made u ≤ w'.made u
  log : w'.log = w.log ∨ ∃ k r, (w.phase t).ticket = some k ∧ w'.log = w.log ++ [k.effect r]
  ticket : ∀ k, (w'.phase t).ticket = some k → (w.phase t).ticket = some k ∨
    (said = .called k ∧ k.id = (t, w.made t))

theorem Grows.stays (t : Nat) (w : World) (said : Said) : Grows t w w said :=
  ⟨fun _ _ => rfl, fun _ => Nat.le_refl _, .inl rfl, fun _ => .inl⟩

/-- A step that moves `t` on, with its write or without one. -/
theorem Grows.moves {p : Phase} {said : Said} (hphase : w'.phase = Function.update w.phase t p)
    (hmade : w'.made = w.made) (hlog : w'.log = w.log)
    (hp : ∀ k, p.ticket = some k → (w.phase t).ticket = some k) : Grows t w w' said where
  others u hu := by rw [hphase, Function.update_of_ne hu]
  made u := by rw [hmade]
  log := .inl hlog
  ticket k hk := by
    rw [hphase, Function.update_self] at hk
    exact .inl (hp k hk)

/-- A step that leaves `t` without a write. -/
theorem Grows.leaves {p : Phase} {said : Said} (hphase : w'.phase = Function.update w.phase t p)
    (hmade : w'.made = w.made) (hlog : w'.log = w.log) (hp : p.ticket = none) : Grows t w w' said := by
  refine .moves hphase hmade hlog fun k hk => ?_
  rw [hp] at hk
  cases hk

theorem Grows.effect {k : Ticket} {out : Except Err Reply × LocalStore} (hk : (w.phase t).ticket = some k) :
    Grows t w (w.effect t k out) .nothing where
  others u hu := to_other _ hu _
  made _ := Nat.le_refl _
  log := .inr ⟨k, out.1, hk, rfl⟩
  ticket k' hk' := by
    rw [World.effect, to_self] at hk'
    cases hk'

theorem grows_begin (t : Nat) (w : World) (act : Act) :
    Grows t w (begin sha256 t w act).2 (begin sha256 t w act).1 := by
  cases act with
  | call clock fault call =>
      simp only [begin]
      cases method sha256 ⟨t, clock, fault⟩ call with
      | none => exact .stays t w _
      | some x =>
          cases x with
          | error e => exact ⟨fun _ _ => rfl, made_le w.made t, .inl rfl, fun _ => .inl⟩
          | ok m =>
              refine ⟨fun u hu => to_other _ hu _, made_le w.made t, .inl rfl, fun k hk => .inr ?_⟩
              dsimp only at hk
              rw [to_self] at hk
              obtain rfl := Option.some.inj hk
              exact ⟨rfl, rfl⟩
  | ask query => exact .leaves rfl rfl rfl rfl
  | close => exact .leaves rfl rfl rfl rfl
  | proceed => exact .stays t w _
  | fail pragma => exact .stays t w _

theorem grows_proceed (t : Nat) (w : World) :
    Grows t w (proceed t w (w.phase t)).2 (proceed t w (w.phase t)).1 := by
  cases hphase : w.phase t with
  | idle => exact .stays t w _
  | waiting k m =>
      simp only [proceed]
      split
      · split
        · exact .leaves rfl rfl rfl rfl
        · exact .moves rfl rfl rfl fun _ hk => by rw [hphase]; exact hk
      · exact .stays t w _
  | locked k m =>
      have hk : (w.phase t).ticket = some k := by rw [hphase]; rfl
      simp only [proceed]
      split
      · exact .effect hk
      · split
        · exact .effect hk
        · exact .moves rfl rfl rfl fun _ hk => by rw [hphase]; exact hk
  | inside k m o => exact .effect (by rw [hphase]; rfl)
  | leaving k r => exact .leaves rfl rfl rfl rfl
  | asking k reads =>
      cases reads with
      | done r => exact .leaves rfl rfl rfl rfl
      | select next =>
          simp only [proceed]
          split
          · split
            · exact .leaves rfl rfl rfl rfl
            · exact .leaves rfl rfl rfl rfl
          · exact .stays t w _
  | selecting k next =>
      simp only [proceed]
      split
      · exact .leaves rfl rfl rfl rfl
      · exact .leaves rfl rfl rfl rfl
  | closing =>
      simp only [proceed]
      split
      · split
        · exact .leaves rfl rfl rfl rfl
        · exact .leaves rfl rfl rfl rfl
      · exact .stays t w _
  | shutting left =>
      cases left with
      | nil => exact .leaves rfl rfl rfl rfl
      | cons u left => exact .leaves rfl rfl rfl rfl

theorem grows_fail (t : Nat) (pragma : Bool) (w : World) :
    Grows t w (fail t pragma w (w.phase t)).2 (fail t pragma w (w.phase t)).1 := by
  cases w.phase t with
  | waiting k m =>
      simp only [fail]
      split
      · exact .leaves rfl rfl rfl rfl
      · exact .stays t w _
  | asking k reads =>
      cases reads with
      | done r => exact .stays t w _
      | select next =>
          simp only [fail]
          split
          · exact .leaves rfl rfl rfl rfl
          · exact .stays t w _
  | selecting k next => exact .leaves rfl rfl rfl rfl
  | shutting left =>
      cases left with
      | nil => exact .stays t w _
      | cons u left => exact .leaves rfl rfl rfl rfl
  | _ => exact .stays t w _

theorem grows_makes (t : Nat) (w : World) (act : Act) :
    Grows t w (makes sha256 t w act (w.phase t)).2 (makes sha256 t w act (w.phase t)).1 := by
  cases w.phase t with
  | idle => exact grows_begin t w act
  | _ => exact .stays t w _

theorem grows_step (x : Nat × Act) (w : World) : Grows x.1 w (step sha256 x w).2 (step sha256 x w).1 := by
  obtain ⟨t, act⟩ := x
  cases act with
  | proceed => exact grows_proceed t w
  | fail pragma => exact grows_fail t pragma w
  | _ => exact grows_makes t w _

theorem Inv.thread_of_ticket (h : Inv sha256 db w) {k : Ticket} (hk : (w.phase t).ticket = some k) :
    k.env.thread = t := by
  have hok := h.threads t
  generalize w.phase t = p at hk hok
  cases p with
  | waiting k' m =>
      obtain rfl := Option.some.inj hk
      exact Pending.thread hok
  | locked k' m =>
      obtain rfl := Option.some.inj hk
      exact hok.1.thread
  | inside k' m o =>
      obtain rfl := Option.some.inj hk
      exact hok.1.thread
  | _ => cases hk

/-- What has ended without effect never has one. -/
theorem Gone.grows {id : Nat × Nat} {said : Said} (h : Gone w id) (hinv : Inv sha256 db w)
    (hgrows : Grows t w w' said) : Gone w' id where
  numbered := Nat.lt_of_lt_of_le h.numbered (hgrows.made _)
  logged := by
    intro e he hid
    rcases hgrows.log with hlog | ⟨k, r, hk, hlog⟩
    · rw [hlog] at he
      exact h.logged e he hid
    · rw [hlog] at he
      rcases List.mem_append.mp he with he | he
      · exact h.logged e he hid
      · rw [List.mem_singleton.mp he] at hid
        -- the write of its thread is another
        have hthread : id.1 = t := by
          rw [← hinv.thread_of_ticket hk, ← hid]
          rfl
        rw [← hthread] at hk
        exact h.ended k hk hid
  ended := by
    intro k hk hid
    by_cases ht : id.1 = t
    · rw [ht] at hk
      rcases hgrows.ticket k hk with hold | ⟨-, hnew⟩
      · rw [← ht] at hold
        exact h.ended k hold hid
      · have hnumber := h.numbered
        rw [← hid, hnew] at hnumber
        exact Nat.lt_irrefl _ hnumber
    · rw [hgrows.others _ ht] at hk
      exact h.ended k hk hid

/-! ### Behind a closed gate -/

theorem answered_proceed (hclosed : w.closed = true) {p : Phase} {k : Question} {r : Except Err Answer}
    (h : (proceed t w p).1 = .answered k r) :
    (∃ reads, p = .asking k reads ∧ (reads = .done r ∨ r = .error storageClosed)) ∨
      ∃ next, p = .selecting k next := by
  cases p with
  | idle => cases h
  | waiting k' m =>
      simp only [proceed, hclosed, if_true] at h
      split at h <;> cases h
  | locked k' m =>
      simp only [proceed] at h
      split at h
      · cases h
      · split at h <;> cases h
  | inside k' m o => cases h
  | leaving k' r' => cases h
  | asking k' reads =>
      cases reads with
      | done r' =>
          cases h
          exact .inl ⟨_, rfl, .inl rfl⟩
      | select next =>
          simp only [proceed, hclosed, if_true] at h
          split at h
          · cases h
            exact .inl ⟨_, rfl, .inr rfl⟩
          · cases h
  | selecting k' next =>
      simp only [proceed] at h
      split at h
      · cases h
      · cases h
        exact .inr ⟨next, rfl⟩
  | closing =>
      simp only [proceed, hclosed, if_true] at h
      split at h <;> cases h
  | shutting left => cases left <;> cases h

theorem answered_fail (hclosed : w.closed = true) {pragma : Bool} {p : Phase} {k : Question} {r : Except Err Answer}
    (h : (fail t pragma w p).1 = .answered k r) : ∃ next, p = .selecting k next := by
  have hcannot : ¬ (w.lock = none ∧ w.closed = false ∧ t ∉ w.conns) := by
    rintro ⟨-, hopen, -⟩
    exact absurd hclosed (ne_true_of_eq_false hopen)
  cases p with
  | waiting k' m =>
      simp only [fail, if_neg hcannot] at h
      cases h
  | asking k' reads =>
      cases reads with
      | done r' => cases h
      | select next =>
          simp only [fail, if_neg hcannot] at h
          cases h
  | selecting k' next =>
      cases h
      exact ⟨next, rfl⟩
  | shutting left => cases left <;> cases h
  | _ => cases h

theorem answered_makes {act : Act} {p : Phase} {k : Question} {r : Except Err Answer} :
    (makes sha256 t w act p).1 ≠ .answered k r := by
  intro h
  cases p with
  | idle =>
      cases act with
      | call clock fault call =>
          simp only [makes, begin] at h
          split at h <;> cases h
      | _ => cases h
  | _ => cases h

/-- An answer of a closed store was there already, or is the refusal at the gate, or comes from behind
the gate. -/
theorem answered_closed (hclosed : w.closed = true) {x : Nat × Act} {k : Question} {r : Except Err Answer}
    (h : (step sha256 x w).1 = .answered k r) :
    (∃ reads, w.phase x.1 = .asking k reads ∧ (reads = .done r ∨ r = .error storageClosed)) ∨
      ∃ next, w.phase x.1 = .selecting k next := by
  obtain ⟨t, act⟩ := x
  cases act with
  | proceed => exact answered_proceed hclosed h
  | fail pragma => exact .inr (answered_fail hclosed h)
  | _ => exact absurd h answered_makes

/-- Nobody gets past the gate. -/
theorem barred_proceed (hclosed : w.closed = true) (h : (w.phase t).IsBarred) :
    ((proceed t w (w.phase t)).2.phase t).IsBarred := by
  cases hphase : w.phase t with
  | idle => exact h
  | waiting k m =>
      simp only [proceed, hclosed, if_true]
      split
      · rw [to_self]
        trivial
      · exact h
  | locked k m =>
      simp only [proceed]
      split
      · rw [World.effect, to_self]
        trivial
      · split
        · rw [World.effect, to_self]
          trivial
        · rw [to_self]
          trivial
  | inside k m o =>
      simp only [proceed]
      rw [World.effect, to_self]
      trivial
  | leaving k r =>
      simp only [proceed, to_self]
      trivial
  | asking k reads =>
      cases reads with
      | done r =>
          simp only [proceed, to_self]
          trivial
      | select next =>
          simp only [proceed, hclosed, if_true]
          split
          · rw [to_self]
            trivial
          · exact h
  | selecting k next =>
      rw [hphase] at h
      exact h.elim
  | closing =>
      simp only [proceed, hclosed, if_true]
      split
      · rw [to_self]
        trivial
      · exact h
  | shutting left =>
      cases left with
      | nil =>
          simp only [proceed, to_self]
          trivial
      | cons u left =>
          simp only [proceed, to_self]
          trivial

theorem barred_fail (pragma : Bool) (h : (w.phase t).IsBarred) :
    ((fail t pragma w (w.phase t)).2.phase t).IsBarred := by
  cases hphase : w.phase t with
  | waiting k m =>
      simp only [fail]
      split
      · rw [to_self]
        trivial
      · exact h
  | asking k reads =>
      cases reads with
      | done r => exact h
      | select next =>
          simp only [fail]
          split
          · rw [to_self]
            trivial
          · exact h
  | selecting k next =>
      simp only [fail, to_self]
      trivial
  | shutting left =>
      cases left with
      | nil => exact h
      | cons u left =>
          simp only [fail, to_self]
          trivial
  | _ => exact h

theorem barred_makes (act : Act) (h : (w.phase t).IsBarred) :
    ((makes sha256 t w act (w.phase t)).2.phase t).IsBarred := by
  cases hphase : w.phase t with
  | idle =>
      cases act with
      | call clock fault call =>
          simp only [makes, begin]
          split
          · exact h
          · exact h
          · rw [to_self]
            trivial
      | ask query =>
          simp only [makes, begin, to_self]
          cases hreads : query.reads with
          | done r => exact hreads
          | select next => trivial
      | close =>
          simp only [makes, begin, to_self]
          trivial
      | _ => exact h
  | _ => exact h

/-- **Once the store is closed**, a thread that is not past the gate does not get past it, and its reads
answer that the store is closed, or that their arguments are wrong. -/
theorem barred_step (hclosed : w.closed = true) (hinv : Inv sha256 db w) {u : Nat} (hu : (w.phase u).IsBarred)
    (x : Nat × Act) : ((step sha256 x w).2.phase u).IsBarred ∧ ∀ k r, (step sha256 x w).1 = .answered k r →
      k.thread = u → k.query.reads = .done r ∨ r = .error storageClosed := by
  constructor
  · by_cases hx : u = x.1
    · subst hx
      obtain ⟨t, act⟩ := x
      cases act with
      | proceed => exact barred_proceed hclosed hu
      | fail pragma => exact barred_fail pragma hu
      | _ => exact barred_makes _ hu
    · rw [(grows_step x w).others u hx]
      exact hu
  · intro k r hsaid hthread
    have hok := hinv.threads x.1
    rcases answered_closed hclosed hsaid with ⟨reads, hphase, hreads⟩ | ⟨next, hphase⟩
    · rw [hphase] at hok
      obtain rfl : x.1 = u := hok.thread.symm.trans hthread
      rcases hreads with rfl | hrefused
      · rw [hphase] at hu
        exact .inl hu
      · exact .inr hrefused
    · rw [hphase] at hok
      obtain rfl : x.1 = u := hok.thread.symm.trans hthread
      rw [hphase] at hu
      exact hu.elim

/-! ## Runs -/

theorem inv_opened (t : Nat) (db : Db) : Inv sha256 db (.opened t db) where
  sequential := .nil
  once := List.nodup_nil
  numbered := by
    intro e he
    cases he
  contents _ := rfl
  committed := rfl
  views _ _ := rfl
  holder _ := ⟨fun h => absurd h Bool.false_ne_true, fun h => by cases h⟩
  shut := by
    intro h
    cases h
  threads _ := trivial

theorem kept_event {e : Runs.Event (step sha256)} (h : Inv sha256 db e.before) :
    Kept sha256 db e.before e.after e.reply := by
  have hkept := kept_step h e.input
  rw [e.executed] at hkept
  exact hkept

theorem inv_of_run {es : List (Runs.Event (step sha256))} (hrun : Runs.Run (.opened t db) es w) :
    Inv sha256 db w ∧ (∀ e ∈ es, Inv sha256 db e.before) ∧ ∀ e ∈ es, Kept sha256 db e.before e.after e.reply := by
  obtain ⟨hlast, hall⟩ := hrun.invariant (inv_opened t db) fun e _ h => (kept_event h).inv
  exact ⟨hlast, fun e he => (hall e he).1, fun e he => kept_event (hall e he).1⟩

/-- The write of `k` ended without effect. -/
def Ended (e : Runs.Event (step sha256)) (k : Ticket) : Prop :=
  (∃ r, e.reply = .returned k r ∧ Refused sha256 e.before k r) ∨ e.reply = .unavailable (.inl k)

theorem Ended.gone {e : Runs.Event (step sha256)} {k : Ticket} (h : Ended e k)
    (hsaid : SaidOk sha256 db e.before e.after e.reply) : Gone e.after k.id := by
  rcases h with ⟨r, hreply, hrefused⟩ | hreply
  · rw [hreply] at hsaid
    rcases hsaid with ⟨-, hgone⟩ | ⟨htook, -⟩
    · exact hgone
    · exact absurd hrefused htook
  · rw [hreply] at hsaid
    exact hsaid.2

/-- A read during which no write took effect answers as if nobody else were about. -/
theorem quiet_read {es : List (Runs.Event (step sha256))} (hrun : Runs.Run (.opened t db) es w) :
    ∀ e ∈ es, ∀ k r, e.reply = .answered k r → ¬ Failed e.before r → e.before.log.length = k.start →
      r = k.query.answer ((e.before.past sha256 db k.start).view k.thread) := by
  intro e he k r hreply hread hquiet
  have hsaid := ((inv_of_run hrun).2.2 e he).honest
  rw [hreply] at hsaid
  obtain ⟨⟨hsorted, hbounded⟩, hsaw⟩ := hsaid.resolve_left hread
  refine saw_same hsaw fun d hd => ?_
  obtain ⟨n, hn, rfl⟩ := List.mem_map.mp hd
  have hlow : k.start ≤ n := (List.pairwise_cons.mp hsorted).1 n hn
  have hhigh : n ≤ k.start := hquiet ▸ hbounded n (List.mem_cons_of_mem _ hn)
  rw [Nat.le_antisymm hhigh hlow]

/-- **A closed store stays closed.** Once `close` has set the flag, no step of any thread changes what is
committed or opens a connection, every write is refused, and a thread that is not past the gate never gets
past it: its reads get no data. When `close` has returned, no connection is open but those that could not
be closed. -/
theorem shut_for_good {es : List (Runs.Event (step sha256))} (hrun : Runs.Run (.opened t db) es w) :
    (∀ e ∈ es, e.before.closed = true → StaysClosed sha256 e.before e.after e.reply) ∧
    (∀ pre e post, es = pre ++ e :: post → e.before.closed = true → ∀ u, (e.before.phase u).IsBarred →
      ∀ e' ∈ e :: post, (e'.before.phase u).IsBarred ∧ ∀ k r, e'.reply = .answered k r → k.thread = u →
        k.query.reads = .done r ∨ r = .error storageClosed) ∧
    ∀ pre e post, es = pre ++ e :: post → e.reply = .closed →
      (w.closed = true ∧ ∀ u ∈ w.conns, u ∈ w.kept) ∧
        ∀ e' ∈ post, e'.before.closed = true ∧ ∀ u ∈ e'.before.conns, u ∈ e'.before.kept := by
  obtain ⟨-, hinvs, hkept⟩ := inv_of_run hrun
  refine ⟨fun e he => (hkept e he).closed, ?_, ?_⟩
  · intro pre e post hes hclosed u hu
    have hbarred : ∀ e' ∈ e :: post, e'.before.closed = true → (e'.before.phase u).IsBarred →
        (e'.after.phase u).IsBarred ∧ ∀ k r, e'.reply = .answered k r → k.thread = u →
          k.query.reads = .done r ∨ r = .error storageClosed := by
      intro e' he' hclosed' hu'
      have hstep := barred_step hclosed' (hinvs e' (by rw [hes]; exact List.mem_append_right pre he')) hu' e'.input
      rw [e'.executed] at hstep
      exact hstep
    rw [hes] at hrun
    obtain ⟨m, -, hrest⟩ := hrun.split
    obtain ⟨rfl, -⟩ := hrest.cons_inv
    obtain ⟨-, hall⟩ := hrest.invariant (P := fun w => w.closed = true ∧ (w.phase u).IsBarred) ⟨hclosed, hu⟩
      fun e' he' h => by
        have hstays := (hkept e' (by rw [hes]; exact List.mem_append_right pre he')).closed h.1
        exact ⟨hstays.closed, (hbarred e' he' h.1 h.2).1⟩
    intro e' he'
    obtain ⟨hclosed', hu'⟩ := (hall e' he').1
    exact ⟨hu', (hbarred e' he' hclosed' hu').2⟩
  · intro pre e post hes hreply
    have hsaid := (hkept e (by simp [hes])).honest
    rw [hreply] at hsaid
    have hend : e.after.closed = true ∧ ∀ u ∈ e.after.conns, u ∈ e.after.kept := hsaid
    rw [hes] at hrun
    obtain ⟨m, -, hrest⟩ := hrun.split
    obtain ⟨-, hpost⟩ := hrest.cons_inv
    obtain ⟨hlast, hall⟩ := hpost.invariant (P := fun w => w.closed = true ∧ ∀ u ∈ w.conns, u ∈ w.kept) hend
      fun e' he' h => by
        have hstays := (hkept e' (by simp [hes, he'])).closed h.1
        exact ⟨hstays.closed, fun u hu => hstays.kept (h.2 u (hstays.conns hu))⟩
    exact ⟨hlast, fun e' he' => (hall e' he').1⟩

/-! ### What runs are good for -/

theorem after_eq_execAll (log : List (Effect (Nat × Nat) (Env × Call) (Except Err Reply))) :
    ∀ s : LocalStore, after (execCall sha256) s log = execAll sha256 (log.map Effect.input) s := by
  induction log with
  | nil => exact fun _ => rfl
  | cons e log ih => exact fun s => ih _

/-- **What holds of every run holds under threads**: what is committed, and what a connection sees, is what
calls one after the other lead to. -/
theorem reachable_of_run {es : List (Runs.Event (step sha256))} (hrun : Runs.Run (.opened t .empty) es w) :
    ∃ s, Local.Reachable sha256 s ∧ w.store.db = s.db ∧ (∀ u ∈ w.conns, w.store.view u = s.view u) ∧
      (w.closed = false → w.store = s) := by
  obtain ⟨hinv, -⟩ := inv_of_run hrun
  refine ⟨w.logged sha256 .empty, ?_, hinv.committed, hinv.views, hinv.contents⟩
  rw [World.logged, after_eq_execAll]
  exact ⟨_, run_trace _ _⟩

/-! ### Three threads

Thread 1 has passed the gate when thread 0 reserves `r1`, and looks in between. Then both of them meet a third
thread that closes the store. -/

def sampleCall (id : String) : Act := .call sampleEnv.clock .none (.reserveRequest (.str (py id)) (.str (py "oi")))

def sampleActs : List (Nat × Act) :=
  [(1, .ask (.replay (.str (py "r1")))), (1, .proceed), (0, sampleCall "r1"), (0, .proceed), (0, .proceed),
   (1, .proceed), (1, .proceed), (2, .close), (2, .proceed), (0, .proceed), (0, .proceed),
   (1, sampleCall "r1"), (1, .proceed), (1, .proceed), (1, .proceed), (1, .proceed),
   (0, sampleCall "r2"), (2, .proceed), (0, .proceed), (2, .proceed), (2, .proceed), (2, .proceed)]

def sampleWorld : World := sampleActs.foldl (fun w x => (step sampleSha256 x w).2) (.opened 0 .empty)

theorem sample_run : Runs.Run (.opened 0 .empty)
    (Runs.trace (step sampleSha256) sampleActs (.opened 0 .empty)) sampleWorld := .ofTrace _ _

theorem shut_for_good_sample : (∀ e ∈ Runs.trace (step sampleSha256) sampleActs (.opened 0 .empty),
    e.before.closed = true → StaysClosed sampleSha256 e.before e.after e.reply) ∧
      sampleWorld.closed = true ∧ sampleWorld.conns = [] :=
  ⟨(shut_for_good sample_run).1, by decide +kernel⟩

end

end Katherine.Local.Threads
