import Katherine.Desktop.Conversation

/-!
# Nothing on the screen is made up

What is shown is put together from the history, from the answers of calls that overlap, and from what
the page says itself, and nothing on the page says where a message comes from. `Grounded` says it: a
row the store had, the notice of a page that has no id to send under, what the user sent, or, as the
answer to that, what the ledger answers to that id and that text.

An answer goes a long way, from the row of the ledger or the commit, through the payload of the call,
to the request of the hook. `CallSound` is the part that a call knows of it.
-/

namespace Katherine.Desktop

open Py

/-! ## What is shown -/

/-- A message is a row that the store had. -/
def FromStore (seen : List Local.Db) (m : Message) : Prop :=
  ∃ db ∈ seen, ∃ i row, (i, row) ∈ db.chatLogs.rows ∧ m.role = some (.string (roleText row.role)) ∧
    m.content = some (.string row.content)

/-- The ledger answers that to the request of that id and text. A request is told from another of its
id by a digest, so here, and nowhere else, no two of the texts that are hashed may have one. -/
def InLedger (sha256 : PyStr → PyStr) (seen : List Local.Db) (r message response : PyStr) : Prop :=
  Set.InjOn sha256 (Local.canonicalTexts ∪ Runtime.legacyTexts) → ∃ db ∈ seen, Runtime.Answered db r message response

theorem InLedger.mono {sha256 : PyStr → PyStr} {seen seen' : List Local.Db} {r message response : PyStr}
    (h : InLedger sha256 seen r message response) (hseen : ∀ db ∈ seen, db ∈ seen') :
    InLedger sha256 seen' r message response := by
  intro hsha
  obtain ⟨db, hdb, hanswered⟩ := h hsha
  exact ⟨db, hseen db hdb, hanswered⟩

/-- Where a message on the screen comes from. -/
inductive Grounded (sha256 : PyStr → PyStr) (attempts : List Attempt) (seen : List Local.Db) (m : Message) : Prop
  /-- A row of the history. -/
  | history (hstored : FromStore seen m)
  /-- The notice of a page that has no id to send under. -/
  | notice {n : Nat} (hid : m.localId = nextLocalId (py "system") n) (hcontent : m.content = some requestIdUnavailable)
  /-- What the user sent. -/
  | user {r message : PyStr} (hid : m.localId = userLocalId r) (hcontent : m.content = some (.string message))
      (hattempt : Attempt.ofUser r message ∈ attempts)
  /-- The answer to it. -/
  | answer {r message response : PyStr} (hid : m.localId = assistantLocalId r)
      (hcontent : m.content = some (.string response)) (hattempt : Attempt.ofUser r message ∈ attempts)
      (hstored : InLedger sha256 seen r message response)

theorem Grounded.mono {sha256 : PyStr → PyStr} {attempts attempts' : List Attempt} {seen seen' : List Local.Db}
    {m : Message} (h : Grounded sha256 attempts seen m) (hattempts : ∀ a ∈ attempts, a ∈ attempts')
    (hseen : ∀ db ∈ seen, db ∈ seen') : Grounded sha256 attempts' seen' m := by
  cases h with
  | history hstored =>
      obtain ⟨db, hdb, hrow⟩ := hstored
      exact .history ⟨db, hseen db hdb, hrow⟩
  | notice hid hcontent => exact .notice hid hcontent
  | user hid hcontent hattempt => exact .user hid hcontent (hattempts _ hattempt)
  | answer hid hcontent hattempt hstored => exact .answer hid hcontent (hattempts _ hattempt) (hstored.mono hseen)

/-- Where a message is from does not change with its delivery. -/
theorem Grounded.same {sha256 : PyStr → PyStr} {attempts : List Attempt} {seen : List Local.Db} {m m' : Message}
    (h : Grounded sha256 attempts seen m) (hid : m'.localId = m.localId) (hrole : m'.role = m.role)
    (hcontent : m'.content = m.content) : Grounded sha256 attempts seen m' := by
  cases h with
  | history hstored =>
      obtain ⟨db, hdb, i, row, hrow, h1, h2⟩ := hstored
      exact .history ⟨db, hdb, i, row, hrow, hrole.trans h1, hcontent.trans h2⟩
  | notice h1 h2 => exact .notice (hid.trans h1) (hcontent.trans h2)
  | user h1 h2 hattempt => exact .user (hid.trans h1) (hcontent.trans h2) hattempt
  | answer h1 h2 hattempt hstored => exact .answer (hid.trans h1) (hcontent.trans h2) hattempt hstored

/-! ### Where a step of the hook has its messages from -/

/-- A message after the input `i`. -/
inductive Source (i : Input) (s : Chat) (m : Message) : Prop
  | kept {m₀ : Message} (hm : m₀ ∈ s.messages) (hid : m.localId = m₀.localId) (hrole : m.role = m₀.role)
      (hcontent : m.content = m₀.content)
  | notice (hid : m.localId = nextLocalId (py "system") (s.localMessageSequence + 1))
      (hcontent : m.content = some requestIdUnavailable)
  | intent {r content : PyStr} (hintent : IsIntent m r content)
  | history {rows : List Row} (hi : i = .history (some rows))
      (hm : m ∈ (normalizeHistory [] s.localMessageSequence rows).1)
  | answer {q : Request} {data : Data} (hi : i = .settled q.token (.resolved data)) (hq : q ∈ s.outstanding)
      (hid : m.localId = (answer q data).localId) (hcontent : m.content = some data.response)

theorem Source.self {i : Input} {s : Chat} {m : Message} (hm : m ∈ s.messages) : Source i s m := .kept hm rfl rfl rfl

/-- A message that is sent is one of the user's, and replaces nothing else. -/
theorem source_start {i : Input} (s s' : Chat) {intent : Message} {id content : PyStr} {generation : Nat}
    (hintent : IsIntent intent id content) (hs : s'.messages = s.messages) {m : Message}
    (hm : m ∈ (s'.start intent generation).messages) : Source i s m := by
  obtain ⟨_, _, _, _, heq⟩ := start_eq s' intent generation
  rw [heq] at hm
  rcases mem_upsertMessage hm with hm | rfl | ⟨m₀, _, _, rfl⟩
  · exact .self (hs ▸ hm)
  · exact .intent hintent.sending
  · exact .intent (hintent.sending.assign m₀)

theorem source_deliver {i : Input} {s : Chat} {l : PyStr} {d r e : JsVal} {m : Message}
    (hm : m ∈ s.messages.map (Message.deliver l d r e)) : Source i s m := by
  obtain ⟨m₀, hm₀, rfl⟩ := List.mem_map.mp hm
  unfold Message.deliver
  split
  · exact .kept hm₀ rfl rfl rfl
  · exact .self hm₀

/-- **Every message after a step** was there, or is the one that the step brings. -/
theorem source_step {l : Log} {i : Input} {s s' : Chat} {r : Option Attempt} (hstep : step i s = (r, s'))
    (hadmitted : Admitted l i s) (h : ScreenInv l s) {m : Message} (hm : m ∈ s'.messages) : Source i s m := by
  cases i with
  | mount =>
      cases hstep
      unfold Chat.mount at hm
      split at hm
      · exact .self hm
      · exact .self hm
  | history rows =>
      cases hstep
      rcases receiveHistory_cases s rows with heq | heq | ⟨rows', rfl, _, _, heq⟩
      · exact .self (heq ▸ hm)
      · rw [heq] at hm
        exact .self hm
      · rw [heq] at hm
        exact .history rfl hm
  | historyFailed =>
      cases hstep
      unfold Chat.historyFailed at hm
      split at hm
      · exact .self hm
      · exact .self hm
  | type text =>
      cases hstep
      exact .self hm
  | send view requestId =>
      rcases handleSend_cases hstep with ⟨_, rfl⟩ | ⟨_, rfl⟩ | ⟨id, rfl, hsend⟩
      · exact .self hm
      · rcases List.mem_append.mp hm with hm | hm
        · exact .self hm
        · rw [List.mem_singleton.mp hm]
          exact .notice rfl rfl
      · rcases sendIntent_cases hsend with ⟨_, rfl⟩ | ⟨_, _, _, _, rfl⟩
        · exact .self hm
        · exact source_start s (s.withIntent id) (isIntent_newIntent id _) rfl hm
  | retry view localId =>
      rcases retryMessage_cases hstep with ⟨_, rfl⟩ | ⟨intent, hmem, hcan, hsend⟩
      · exact .self hm
      · rcases sendIntent_cases hsend with ⟨_, rfl⟩ | ⟨_, _, _, _, rfl⟩
        · exact .self hm
        · have hkind : Kind l.attempts s.localMessageSequence intent := by
            rcases List.mem_append.mp (hadmitted.view view rfl) with hv | hv
            · exact h.renders view hv intent hmem
            · rw [List.mem_singleton.mp hv] at hmem
              exact h.kinds intent hmem
          obtain ⟨id, content, hintent, _⟩ := isIntent_of_canRetry hkind hcan
          exact source_start s s hintent rfl hm
  | clearScreen =>
      cases hstep
      cases hm
  | settled token r =>
      cases hstep
      rcases settle_cases s token r with ⟨heq, _⟩ | ⟨q, hq, rfl, hs⟩
      · exact .self (heq ▸ hm)
      · have hshown := hs.shown
        change m ∈ (s.settle q.token r).messages at hm
        generalize (s.settle q.token r).messages = messages at hshown hm
        generalize (s.settle q.token r).intentGeneration = intents at hshown
        generalize (s.settle q.token r).emotionState = shown at hshown
        cases hshown with
        | dropped => exact .self hm
        | answered _ hr =>
            subst hr
            rcases mem_upsertMessage hm with hm | rfl | ⟨m₀, _, _, rfl⟩
            · exact source_deliver hm
            · exact .answer rfl hq rfl rfl
            · exact .answer rfl hq rfl rfl
        | failed => exact source_deliver hm
  | timer token =>
      cases hstep
      unfold Chat.timerFires at hm
      split at hm
      · exact .self hm
      · exact .self hm
  | unmount =>
      cases hstep
      obtain ⟨_, _, _, _, heq⟩ := unmount_eq s
      rw [heq] at hm
      exact .self hm

/-- A message of the history is a row of it. -/
theorem mem_normalizeHistory {m : Message} {rows : List Row} {seen : List PyStr} {n : Nat}
    (hm : m ∈ (normalizeHistory seen n rows).1) : ∃ row ∈ rows, m.role = row.role ∧ m.content = row.content := by
  induction rows generalizing seen n with
  | nil => cases hm
  | cons row rows ih =>
      have hlater : ∀ {seen n}, m ∈ (normalizeHistory seen n rows).1 →
          ∃ row' ∈ row :: rows, m.role = row'.role ∧ m.content = row'.content := by
        intro seen n hm
        obtain ⟨row', hrow', hsame⟩ := ih hm
        exact ⟨row', List.mem_cons_of_mem _ hrow', hsame⟩
      rw [normalizeHistory] at hm
      split at hm
      · split at hm
        · exact hlater hm
        · rcases List.mem_cons.mp hm with rfl | hm
          · exact ⟨row, List.mem_cons_self, rfl, rfl⟩
          · exact hlater hm
      · rcases List.mem_cons.mp hm with rfl | hm
        · exact ⟨row, List.mem_cons_self, rfl, rfl⟩
        · exact hlater hm

/-! ### What a step of the hook does to its requests -/

/-- A request that is out was out, or is the one of the attempt. -/
structure Requests (s : Chat) (r : Option Attempt) (s' : Chat) : Prop where
  grows : s.requestToken ≤ s'.requestToken
  out : ∀ q ∈ s'.outstanding, q ∈ s.outstanding ∨
    ∃ a, r = some a ∧ a.requestId = q.intent.requestId ∧ q.token = s'.requestToken
  /-- Its token is new. -/
  new : ∀ a, r = some a → s.requestToken < s'.requestToken

theorem Requests.quiet {s s' : Chat} (htoken : s'.requestToken = s.requestToken)
    (hout : ∀ q ∈ s'.outstanding, q ∈ s.outstanding) : Requests s none s' :=
  ⟨Nat.le_of_eq htoken.symm, fun q hq => .inl (hout q hq), fun _ h => nomatch h⟩

theorem requests_sendIntent {s s' : Chat} {intent : Message} {r : Option Attempt}
    (hsend : s.sendIntent intent = (r, s')) : Requests s r s' := by
  rcases sendIntent_cases hsend with ⟨rfl, rfl⟩ | ⟨_, _, _, rfl, rfl⟩
  · exact .quiet rfl fun _ hq => hq
  · obtain ⟨_, _, _, _, heq⟩ := start_eq s intent s.screenGeneration
    rw [heq]
    refine ⟨Nat.le_succ _, fun q hq => ?_, fun _ _ => Nat.lt_succ_self _⟩
    rcases List.mem_append.mp hq with hq | hq
    · exact .inl hq
    · rw [List.mem_singleton.mp hq]
      exact .inr ⟨_, rfl, rfl, rfl⟩

theorem requests_step {i : Input} {s s' : Chat} {r : Option Attempt} (hstep : step i s = (r, s')) :
    Requests s r s' := by
  cases i with
  | mount =>
      cases hstep
      unfold Chat.mount
      split
      · exact .quiet rfl fun _ hq => hq
      · exact .quiet rfl fun _ hq => hq
  | history rows =>
      cases hstep
      rcases receiveHistory_cases s rows with heq | heq | ⟨_, _, _, _, heq⟩
      all_goals
        rw [heq]
        exact .quiet rfl fun _ hq => hq
  | historyFailed =>
      cases hstep
      unfold Chat.historyFailed
      split
      · exact .quiet rfl fun _ hq => hq
      · exact .quiet rfl fun _ hq => hq
  | type text =>
      cases hstep
      exact .quiet rfl fun _ hq => hq
  | send view requestId =>
      rcases handleSend_cases hstep with ⟨rfl, rfl⟩ | ⟨rfl, rfl⟩ | ⟨id, _, hsend⟩
      · exact .quiet rfl fun _ hq => hq
      · exact .quiet rfl fun _ hq => hq
      · have h := requests_sendIntent hsend
        exact ⟨h.grows, h.out, h.new⟩
  | retry view localId =>
      rcases retryMessage_cases hstep with ⟨rfl, rfl⟩ | ⟨intent, _, _, hsend⟩
      · exact .quiet rfl fun _ hq => hq
      · exact requests_sendIntent hsend
  | clearScreen =>
      cases hstep
      exact .quiet rfl fun _ hq => hq
  | settled token r =>
      cases hstep
      rcases settle_cases s token r with ⟨heq, _⟩ | ⟨q, _, _, hs⟩
      · rw [heq]
        exact .quiet rfl fun _ hq => hq
      · refine .quiet hs.requestToken fun x hx => ?_
        rw [hs.outstanding] at hx
        exact List.mem_of_mem_filter hx
  | timer token =>
      cases hstep
      unfold Chat.timerFires
      split
      · exact .quiet rfl fun _ hq => hq
      · exact .quiet rfl fun _ hq => hq
  | unmount =>
      cases hstep
      obtain ⟨_, _, _, _, heq⟩ := unmount_eq s
      rw [heq]
      exact ⟨Nat.le_succ _, fun _ hq => .inl hq, fun _ h => nomatch h⟩

/-! ## Calls -/

open Katherine.Runtime (Answered TurnRun)

/-- A turn keeps its id. -/
theorem requestId_move {w : Runtime.World} {i j : Nat} {t u : Runtime.Turn} (phase : Runtime.Phase)
    (ht : w.turns[i]? = some t) (hu : w.turns[j]? = some u) :
    ∃ u', (w.move i (t.to phase)).turns[j]? = some u' ∧ u'.requestId = u.requestId := by
  by_cases hij : i = j
  · subst hij
    have hlt : i < w.turns.length := (List.getElem?_eq_some_iff.mp ht).1
    cases ht.symm.trans hu
    exact ⟨t.to phase, List.getElem?_set_self hlt, rfl⟩
  · exact ⟨u, (List.getElem?_set_ne hij).trans hu, rfl⟩

theorem requestId_step {sha256 : PyStr → PyStr} {w w' : Runtime.World} {a : Runtime.Action}
    (h : Runtime.Step sha256 w a w') {j : Nat} {u : Runtime.Turn} (hu : w.turns[j]? = some u) :
    ∃ u', w'.turns[j]? = some u' ∧ u'.requestId = u.requestId := by
  cases h with
  | reserve _ _ =>
      have hlt : j < w.turns.length := (List.getElem?_eq_some_iff.mp hu).1
      exact ⟨u, (List.getElem?_append_left hlt).trans hu, rfl⟩
  | refuse _ _ => exact ⟨u, hu, rfl⟩
  | load ht _ _ => exact requestId_move _ ht hu
  | commit ht _ _ _ => exact requestId_move (w := ⟨_, w.opened, w.turns⟩) _ ht hu
  | commitClosed ht _ _ => exact requestId_move _ ht hu
  | fail ht _ => exact requestId_move _ ht hu
  | release ht _ _ _ => exact requestId_move (w := ⟨_, w.opened, w.turns⟩) _ ht hu
  | releaseClosed ht _ _ => exact requestId_move _ ht hu
  | other _ _ => exact ⟨u, hu, rfl⟩
  | reopen _ => exact ⟨u, hu, rfl⟩

section

variable {ι : Type} {next : Local.LoadedUserState → ι → Option (EmotionalStateV1 × RelationshipStateV1)}
variable {emotion : PyVal → JsVal} {sha256 : PyStr → PyStr}

/-- What a call knows of its answer. -/
structure CallSound (emotion : PyVal → JsVal) (sha256 : PyStr → PyStr) (attempts : List Attempt)
    (turns : List Runtime.Turn) (seen : List Local.Db) (q : SendCall) : Prop where
  attempt : q.attempt ∈ attempts
  /-- The turn that the runtime is at is the one of its request. -/
  running : ∀ i, q.stage = .running i → ∃ t id message, turns[i]? = some t ∧
    sendArguments q.args = .ok (.str id, .str message) ∧ t.requestId = id
  /-- What it is resolved with is what the ledger answers. -/
  answered : ∀ payload data, q.stage = .answered payload → settlementOf emotion payload = .resolved data →
    ∃ r message response, q.attempt = .ofUser r message ∧ data.response = .string response ∧
      InLedger sha256 seen r message response

theorem CallSound.mono {attempts attempts' : List Attempt} {turns turns' : List Runtime.Turn}
    {seen seen' : List Local.Db} {q : SendCall} (h : CallSound emotion sha256 attempts turns seen q)
    (hattempts : ∀ a ∈ attempts, a ∈ attempts')
    (hturns : ∀ (i : Nat) (t : Runtime.Turn), turns[i]? = some t →
      ∃ t' : Runtime.Turn, turns'[i]? = some t' ∧ t'.requestId = t.requestId)
    (hseen : ∀ db ∈ seen, db ∈ seen') : CallSound emotion sha256 attempts' turns' seen' q where
  attempt := hattempts _ h.attempt
  running := by
    intro i hrunning
    obtain ⟨t, id, message, ht, hargs, hid⟩ := h.running i hrunning
    obtain ⟨t', ht', hsame⟩ := hturns i t ht
    exact ⟨t', id, message, ht', hargs, hsame.trans hid⟩
  answered := by
    intro payload data hpayload hresolved
    obtain ⟨r, message, response, hattempt, hresponse, hstored⟩ := h.answered payload data hpayload hresolved
    exact ⟨r, message, response, hattempt, hresponse, hstored.mono hseen⟩

/-- An answer that says nothing of a response. -/
theorem CallSound.refused {attempts : List Attempt} {turns : List Runtime.Turn} {seen : List Local.Db}
    {q : SendCall} {payload : List (PyKey × PyVal)} (hattempt : q.attempt ∈ attempts)
    (hpayload : ∀ data, settlementOf emotion payload ≠ .resolved data) :
    CallSound emotion sha256 attempts turns seen { q with stage := .answered payload } where
  attempt := hattempt
  running := fun _ h => nomatch h
  answered := by
    intro payload' data hstage hresolved
    cases hstage
    exact absurd hresolved (hpayload data)

/-- A failure says nothing of one. -/
theorem failure_not_resolved (code : Lifecycle.LocalErrorCode) (data : Data) :
    settlementOf emotion (sendPayload (failurePayload code)) ≠ .resolved data := by
  rw [settlementOf_failure]
  exact fun h => nomatch h

/-- **The arguments of a call** that the bridge takes are the id and the text of its attempt. -/
theorem ofUser_of_args {l : Log} {s : Chat} (h : ScreenInv l s) {q : SendCall} (hq : q.attempt ∈ l.attempts)
    {id message : PyStr} (hargs : sendArguments q.args = .ok (.str id, .str message)) :
    q.attempt = .ofUser id message := by
  obtain ⟨r, _, content, hattempt⟩ := h.attempts _ hq
  obtain ⟨hlist, -⟩ := sendArguments_accepted hargs
  rw [SendCall.args, hattempt] at hlist
  cases hlist
  exact hattempt

/-! ### After a reservation -/

/-- Only a new reservation is admitted. -/
theorem reserved_of_afterReservation {id : PyStr} {o : Local.ReplayOutcome} {g : Nat}
    (h : Runtime.afterReservation id o = .admitted g) : o.status = .reserved ∧ o.historyGeneration = some g := by
  unfold Runtime.afterReservation at h
  split at h
  · split at h
    · cases h
    · cases h
  · cases h
  · rename_i hstatus
    split at h
    · cases h
    · rename_i g' hg
      cases h
      exact ⟨hstatus, hg⟩
  · cases h

theorem afterReservation_of_reserved {id : PyStr} {o : Local.ReplayOutcome} {g : Nat}
    (hstatus : o.status = .reserved) (hg : o.historyGeneration = some g) :
    Runtime.afterReservation id o = .admitted g := by
  unfold Runtime.afterReservation
  rw [hstatus, hg]

/-- Only a replay is returned at once, with the response of the ledger. -/
theorem replay_of_afterReservation {id : PyStr} {o : Local.ReplayOutcome} {result : Runtime.TurnResult}
    (h : Runtime.afterReservation id o = .returned result) :
    o.status = .replay ∧ ∃ res, o.committed = some res ∧ result.response = res.response := by
  unfold Runtime.afterReservation at h
  split at h
  · rename_i res hstatus hcommitted
    split at h
    · cases h
    · cases h
      exact ⟨hstatus, res, hcommitted, rfl⟩
  · cases h
  · split at h
    · cases h
    · cases h
  · cases h

/-- The runtime's answer to a reservation is a step of the turns. -/
theorem reserve_step {w : Runtime.World} {env : Local.Env} {id message : PyStr} {r : Except Local.Err Local.Reply}
    {s : Local.LocalStore} (hid : Local.validateRequestId (.str id) = .ok id)
    (hexec : Local.exec sha256 env (.reserveRequest (.str id) (.str message)) w.store = (r, s)) :
    Runtime.Step sha256 w (.reserve (.str id) (.str message))
      ⟨s, w.opened, w.turns ++ admittedTurn id w.opened r⟩ := by
  by_cases hreserved : Local.outcomeStatus r = some .reserved
  · obtain ⟨o, rfl, hstatus⟩ := Local.outcomeStatus_eq_some hreserved
    obtain ⟨g, hg⟩ := Runtime.reserved_generation hexec hstatus
    have hturns : admittedTurn id w.opened (.ok (.outcome o)) = [⟨id, g, w.opened, .admitted⟩] := by
      rw [admittedTurn, afterReservation_of_reserved hstatus hg]
    obtain ⟨status, committed, generation⟩ := o
    cases hstatus
    cases hg
    rw [hturns]
    exact .reserve hid hexec
  · have hturns : admittedTurn id w.opened r = [] := by
      unfold admittedTurn
      split
      · split
        · rename_i hadmitted
          obtain ⟨hstatus, -⟩ := reserved_of_afterReservation hadmitted
          exact absurd (congrArg some hstatus) hreserved
        · rfl
      · rfl
    rw [hturns, List.append_nil]
    exact .refuse hexec hreserved

/-- The response of a payload that was resolved. -/
theorem response_of_success {result : Runtime.TurnResult} {data : Data}
    (h : settlementOf emotion (sendPayload (successPayload result)) = .resolved data) :
    ∃ response, result.response = .str response ∧ data.response = .string response := by
  obtain ⟨response, hresponse, hdata⟩ := response_of_resolved emotion h
  exact ⟨response, Option.some.inj hresponse, hdata⟩

/-! ### The stages of a call -/

theorem reserveStage_running {id : PyStr} {turn i : Nat} {r : Except Local.Err Local.Reply}
    (h : reserveStage id turn r = .running i) :
    i = turn ∧ ∃ o g, r = .ok (.outcome o) ∧ Runtime.afterReservation id o = .admitted g := by
  unfold reserveStage at h
  split at h
  · rename_i o
    split at h
    · cases h
    · cases h
    · rename_i g hadmitted
      cases h
      exact ⟨rfl, o, g, rfl, hadmitted⟩
  · cases h
  · cases h

theorem reserveStage_resolved {id : PyStr} {turn : Nat} {r : Except Local.Err Local.Reply}
    {payload : List (PyKey × PyVal)} {data : Data} (h : reserveStage id turn r = .answered payload)
    (hresolved : settlementOf emotion payload = .resolved data) :
    ∃ o result, r = .ok (.outcome o) ∧ Runtime.afterReservation id o = .returned result ∧
      payload = sendPayload (successPayload result) := by
  unfold reserveStage at h
  split at h
  · rename_i o
    split at h
    · rename_i result hreturned
      cases h
      exact ⟨o, result, rfl, hreturned, rfl⟩
    · cases h
      exact absurd hresolved (failure_not_resolved _ data)
    · cases h
  · cases h
    exact absurd hresolved (failure_not_resolved _ data)
  · cases h
    exact absurd hresolved (failure_not_resolved _ data)

theorem commitStage_running {turn durationMs i : Nat} {r : Except Local.Err Local.Reply}
    (h : commitStage turn durationMs r = .running i) : i = turn := by
  unfold commitStage at h
  split at h
  · split at h
    · cases h
    · cases h
  · cases h
    rfl

theorem commitStage_resolved {turn durationMs : Nat} {r : Except Local.Err Local.Reply}
    {payload : List (PyKey × PyVal)} {data : Data} (h : commitStage turn durationMs r = .answered payload)
    (hresolved : settlementOf emotion payload = .resolved data) :
    ∃ res result, r = .ok (.committed res) ∧ payload = sendPayload (successPayload result) ∧
      result.response = res.response := by
  unfold commitStage at h
  split at h
  · rename_i res
    split at h
    · cases h
      exact ⟨res, _, rfl, rfl, rfl⟩
    · cases h
      exact absurd hresolved (failure_not_resolved _ data)
  · cases h

/-! ## The invariant -/

/-- What a connection to some reachable store sees. -/
def IsContent (sha256 : PyStr → PyStr) (db : Local.Db) : Prop :=
  ∃ s t, Local.Reachable sha256 s ∧ db = Sql.Store.view s t

theorem isContent_view {w : Runtime.World} {ids : List PyStr} (h : TurnRun next sha256 ids w) (t : Nat) :
    IsContent sha256 (w.store.view t) := ⟨w.store, t, h.reachable.store, rfl⟩

/-- Some connection has no transaction open. -/
theorem isContent_db {w : Runtime.World} {ids : List PyStr} (h : TurnRun next sha256 ids w) :
    IsContent sha256 w.store.db := by
  obtain ⟨t, ht⟩ : ∃ t, w.store.db = w.store.view t := by
    unfold Sql.Store.view
    cases htx : w.store.tx with
    | none => exact ⟨0, rfl⟩
    | some open' => exact ⟨open'.1 + 1, (if_neg (Nat.succ_ne_self _)).symm⟩
  exact ⟨w.store, t, h.reachable.store, ht⟩

/-- A row that `load_history` returned. -/
def Stored (seen : List Local.Db) (row : Local.HistoryRow) : Prop :=
  ∃ db ∈ seen, ∃ i stored, (i, stored) ∈ db.chatLogs.rows ∧ row.role = stored.role ∧ row.content = stored.content

theorem Stored.mono {seen seen' : List Local.Db} {row : Local.HistoryRow} (h : Stored seen row)
    (hseen : ∀ db ∈ seen, db ∈ seen') : Stored seen' row := by
  obtain ⟨db, hdb, hrow⟩ := h
  exact ⟨db, hseen db hdb, hrow⟩

theorem stored_of_loadRecentHistory {limit : PyVal} {db : Local.Db} {rows : List Local.HistoryRow}
    (h : Local.loadRecentHistory limit db = .ok rows) {seen : List Local.Db} (hdb : db ∈ seen) :
    ∀ row ∈ rows, Stored seen row := by
  intro row hrow
  simp only [Local.loadRecentHistory, Local.bind_eq_ok] at h
  obtain ⟨n, -, history, hhistory, hrows⟩ := h
  cases hrows
  obtain ⟨⟨i, stored⟩, hstored, hread⟩ := of_mem_mapM_ok hhistory row (List.mem_reverse.mp hrow)
  simp only [Local.historyRow, Local.bind_eq_ok] at hread
  obtain ⟨_, -, hread⟩ := hread
  cases hread
  exact ⟨db, hdb, i, stored, Sql.newest_subset hstored, rfl, rfl⟩

variable (next emotion sha256) in
structure Sound (c : Conversation) : Prop where
  run : TurnRun next sha256 c.spent c.world
  flight : FlightInv c.chat
  screen : ScreenInv c.log c.chat
  tokens : ∀ q ∈ c.calls, q.token ≤ c.chat.requestToken
  calls : ∀ q ∈ c.calls, CallSound emotion sha256 c.log.attempts c.world.turns c.seen q
  /-- A call and the request that waits for it are of one message. -/
  awaited : ∀ x ∈ c.chat.outstanding, ∀ q ∈ c.calls, q.token = x.token → q.attempt.requestId = x.intent.requestId
  sent : ∀ a ∈ c.log.attempts, ∃ q ∈ c.calls, q.attempt = a
  fetched : ∀ rows ∈ c.fetched, ∀ row ∈ rows, Stored c.seen row
  seen : ∀ db ∈ c.seen, IsContent sha256 db
  grounded : ∀ m ∈ c.chat.messages, Grounded sha256 c.log.attempts c.seen m

theorem sound_init : Sound next emotion sha256 .init where
  run := .init
  flight := flightInv_init
  screen := screenInv_init
  tokens := fun _ h => nomatch h
  calls := fun _ h => nomatch h
  awaited := fun _ h => nomatch h
  sent := fun _ h => nomatch h
  fetched := fun _ h => nomatch h
  seen := fun _ h => nomatch h
  grounded := fun _ h => nomatch h

/-- **The runtime moves**, and the page does not. -/
theorem Sound.world {c : Conversation} (h : Sound next emotion sha256 c) {world : Runtime.World}
    {spent : List PyStr} (hrun : TurnRun next sha256 spent world)
    (hturns : ∀ (i : Nat) (t : Runtime.Turn), c.world.turns[i]? = some t →
      ∃ t' : Runtime.Turn, world.turns[i]? = some t' ∧ t'.requestId = t.requestId) :
    Sound next emotion sha256 { c with world, spent } where
  run := hrun
  flight := h.flight
  screen := h.screen
  tokens := h.tokens
  calls := fun q hq => (h.calls q hq).mono (fun _ ha => ha) hturns fun _ hdb => hdb
  awaited := h.awaited
  sent := h.sent
  fetched := h.fetched
  seen := h.seen
  grounded := h.grounded

/-- **A connection sees the store.** -/
theorem Sound.sees {c : Conversation} (h : Sound next emotion sha256 c) {db : Local.Db} (hdb : IsContent sha256 db) :
    Sound next emotion sha256 { c with seen := db :: c.seen } := by
  have hseen : ∀ x ∈ c.seen, x ∈ db :: c.seen := fun x hx => List.mem_cons_of_mem db hx
  refine ⟨h.run, h.flight, h.screen, h.tokens, ?_, h.awaited, h.sent, ?_, ?_, ?_⟩
  · exact fun q hq => (h.calls q hq).mono (fun _ ha => ha) (fun i t ht => ⟨t, ht, rfl⟩) hseen
  · exact fun rows hrows row hrow => (h.fetched rows hrows row hrow).mono hseen
  · intro x hx
    rcases List.mem_cons.mp hx with rfl | hx
    · exact hdb
    · exact h.seen x hx
  · exact fun m hm => (h.grounded m hm).mono (fun _ ha => ha) hseen

/-- **A call moves**, and nothing else does. -/
theorem Sound.setCall {c : Conversation} (h : Sound next emotion sha256 c) {k : Nat} {q q' : SendCall}
    (hq : c.calls[k]? = some q) (htoken : q'.token = q.token) (hattempt : q'.attempt = q.attempt)
    (hsound : CallSound emotion sha256 c.log.attempts c.world.turns c.seen q') :
    Sound next emotion sha256 (c.setCall k q') := by
  have hmem := List.mem_of_getElem? hq
  have hcalls : ∀ x ∈ c.calls.set k q', x ∈ c.calls ∨ x = q' := fun x hx => List.mem_or_eq_of_mem_set hx
  refine ⟨h.run, h.flight, h.screen, ?_, ?_, ?_, ?_, h.fetched, h.seen, h.grounded⟩
  · intro x hx
    rcases hcalls x hx with hx | rfl
    · exact h.tokens x hx
    · rw [htoken]
      exact h.tokens q hmem
  · intro x hx
    rcases hcalls x hx with hx | rfl
    · exact h.calls x hx
    · exact hsound
  · intro x hx y hy hsame
    rcases hcalls y hy with hy | rfl
    · exact h.awaited x hx y hy hsame
    · rw [hattempt]
      exact h.awaited x hx q hmem (htoken.symm.trans hsame)
  · intro a ha
    obtain ⟨x, hx, hxa⟩ := h.sent a ha
    obtain ⟨j, hj⟩ := List.getElem?_of_mem hx
    by_cases hkj : k = j
    · subst hkj
      have hlt : k < c.calls.length := (List.getElem?_eq_some_iff.mp hq).1
      cases hq.symm.trans hj
      exact ⟨q', List.mem_of_getElem? (List.getElem?_set_self hlt), hattempt.trans hxa⟩
    · exact ⟨x, List.mem_of_getElem? ((List.getElem?_set_ne hkj).trans hj), hxa⟩

/-! ### The page -/

/-- The user's message is the one of its request. -/
theorem Kind.of_intent {attempts : List Attempt} {n : Nat} {m : Message} {r content : PyStr}
    (h : Kind attempts n m) (hintent : IsIntent m r content) : Attempt.ofUser r content ∈ attempts := by
  cases h with
  | history hid => exact absurd hintent.localId (hid.ne_userLocalId r)
  | system _ hid => exact absurd (hid.symm.trans hintent.localId) (nextLocalId_ne_userLocalId _ _ _)
  | @user r' content' hattempt hid _ hcontent =>
      have hr := userLocalId_injective (hid.symm.trans hintent.localId)
      have hc := hcontent.symm.trans hintent.content
      cases hr
      cases hc
      exact hattempt
  | assistant _ hid => exact absurd (hintent.localId.symm.trans hid) (userLocalId_ne_assistantLocalId _ _)

/-- What an answer brings is in the ledger. -/
def AnswerIn (sha256 : PyStr → PyStr) (attempts : List Attempt) (seen : List Local.Db) (x : Request) (data : Data) :
    Prop :=
  ∃ r message response, x.intent.requestId = some (.string r) ∧ data.response = .string response ∧
    Attempt.ofUser r message ∈ attempts ∧ InLedger sha256 seen r message response

/-- **Something happens to the hook**: a history that arrives was read, and an answer was given. -/
theorem Sound.hook {c : Conversation} (h : Sound next emotion sha256 c) {i : Input} {r : Option Attempt} {chat : Chat}
    (hstep : step i c.chat = (r, chat)) (hadmitted : Admitted c.log i c.chat)
    (hhistory : ∀ rows, i = .history (some rows) → ∀ row ∈ rows, ∃ stored, Stored c.seen stored ∧ row = historyRow stored)
    (hanswer : ∀ x ∈ c.chat.outstanding, ∀ data, i = .settled x.token (.resolved data) →
      AnswerIn sha256 c.log.attempts c.seen x data) :
    Sound next emotion sha256 { c with
      chat
      log := c.log.extend i r c.chat
      calls := c.calls ++ (r.map fun a => ⟨chat.requestToken, a, .asked, false⟩).toList } := by
  have hscreen := screenInv_step hstep hadmitted h.flight h.screen
  have hflight := flightInv_step hstep h.flight
  have hrequests := requests_step hstep
  have hold : ∀ a ∈ c.log.attempts, a ∈ (c.log.extend i r c.chat).attempts :=
    fun a ha => List.mem_append_left _ ha
  have hcalls : ∀ q ∈ c.calls ++ (r.map fun a => (⟨chat.requestToken, a, .asked, false⟩ : SendCall)).toList,
      q ∈ c.calls ∨ ∃ a, r = some a ∧ q = ⟨chat.requestToken, a, .asked, false⟩ := by
    intro q hq
    rcases List.mem_append.mp hq with hq | hq
    · exact .inl hq
    · obtain ⟨a, ha, hqa⟩ := Option.map_eq_some_iff.mp (Option.mem_toList.mp hq)
      exact .inr ⟨a, ha, hqa.symm⟩
  refine ⟨h.run, hflight, hscreen, ?_, ?_, ?_, ?_, h.fetched, h.seen, ?_⟩
  · intro q hq
    rcases hcalls q hq with hq | ⟨a, _, rfl⟩
    · exact Nat.le_trans (h.tokens q hq) hrequests.grows
    · exact le_rfl
  · intro q hq
    rcases hcalls q hq with hq | ⟨a, rfl, rfl⟩
    · exact (h.calls q hq).mono hold (fun i t ht => ⟨t, ht, rfl⟩) fun _ hdb => hdb
    · exact ⟨List.mem_append_right _ List.mem_cons_self, (fun _ h => nomatch h), fun _ _ h => nomatch h⟩
  · intro x hx q hq hsame
    rcases hrequests.out x hx with hx | ⟨a, ha, hid, htoken⟩
    · rcases hcalls q hq with hq | ⟨a, ha, rfl⟩
      · exact h.awaited x hx q hq hsame
      · -- the token of a request that was out is not new
        have hlt := hrequests.new a ha
        have hle := (h.flight.tokens x hx).1
        have hsame : chat.requestToken = x.token := hsame
        omega
    · rcases hcalls q hq with hq | ⟨a', ha', rfl⟩
      · have hlt := hrequests.new a ha
        have hle := h.tokens q hq
        omega
      · cases ha.symm.trans ha'
        exact hid
  · intro a ha
    rcases List.mem_append.mp ha with ha | ha
    · obtain ⟨q, hq, hqa⟩ := h.sent a ha
      exact ⟨q, List.mem_append_left _ hq, hqa⟩
    · have hr := Option.mem_toList.mp ha
      cases hr
      exact ⟨⟨chat.requestToken, a, .asked, false⟩, List.mem_append_right _ List.mem_cons_self, rfl⟩
  · intro m hm
    have hkind := hscreen.kinds m hm
    cases source_step hstep hadmitted h.screen hm with
    | kept hm₀ hid hrole hcontent =>
        exact ((h.grounded _ hm₀).mono hold fun _ hdb => hdb).same hid hrole hcontent
    | notice hid hcontent => exact .notice hid hcontent
    | intent hintent => exact .user hintent.localId hintent.content (hkind.of_intent hintent)
    | history hi hrows =>
        obtain ⟨row, hrow, hrole, hcontent⟩ := mem_normalizeHistory hrows
        obtain ⟨stored, ⟨db, hdb, j, s, hs, h1, h2⟩, rfl⟩ := hhistory _ hi row hrow
        refine .history ⟨db, hdb, j, s, hs, ?_, ?_⟩
        · rw [hrole, ← h1]
          rfl
        · rw [hcontent, ← h2]
          rfl
    | answer hi hq hid hcontent =>
        obtain ⟨id, message, response, hrequest, hdata, hattempt, hstored⟩ := hanswer _ hq _ hi
        rw [answer_localId _ hrequest] at hid
        rw [hdata] at hcontent
        exact .answer hid hcontent (hold _ hattempt) hstored

/-- The request of a call settles. -/
theorem Sound.settle {c : Conversation} (h : Sound next emotion sha256 c) {k : Nat} {q : SendCall} {r : Settlement}
    (hq : c.calls[k]? = some q)
    (hanswer : ∀ x ∈ c.chat.outstanding, ∀ data, q.token = x.token → r = .resolved data →
      AnswerIn sha256 c.log.attempts c.seen x data) :
    Sound next emotion sha256 (c.settle k q r) := by
  have hcall := h.calls q (List.mem_of_getElem? hq)
  have hset : Sound next emotion sha256 (c.setCall k { q with settled := true }) :=
    h.setCall hq rfl rfl ⟨hcall.attempt, hcall.running, hcall.answered⟩
  have hadmitted : Admitted c.log (.settled q.token r) c.chat :=
    ⟨(fun h => nomatch h), (fun _ h => nomatch h), fun _ h => nomatch h⟩
  have hsettled := hset.hook (i := .settled q.token r) rfl hadmitted (fun _ h => nomatch h) fun x hx data hi => by
    obtain ⟨htoken, hresolved⟩ := Input.settled.inj hi
    exact hanswer x hx data htoken hresolved
  rwa [Option.map_none, Option.toList_none, List.append_nil] at hsettled

/-! ### Every step -/

theorem Sound.page {c : Conversation} (h : Sound next emotion sha256 c) {i : Input} {r : Option Attempt} {chat : Chat}
    (hinput : i.isPage = true) (hadmitted : Admitted c.log i c.chat) (hstep : step i c.chat = (r, chat)) :
    Sound next emotion sha256 { c with
      chat
      log := c.log.extend i r c.chat
      calls := c.calls ++ (r.map fun a => ⟨chat.requestToken, a, .asked, false⟩).toList } := by
  refine h.hook hstep hadmitted ?_ ?_
  · rintro rows rfl
    cases hinput
  · rintro x - data rfl
    cases hinput

theorem Sound.reserve {c : Conversation} (h : Sound next emotion sha256 c) {k : Nat} {q : SendCall}
    {id message : PyStr} {env : Local.Env} {r : Except Local.Err Local.Reply} {s : Local.LocalStore}
    (hq : c.calls[k]? = some q) (hargs : sendArguments q.args = .ok (.str id, .str message))
    (hexec : Local.exec sha256 env (.reserveRequest (.str id) (.str message)) c.world.store = (r, s)) :
    Sound next emotion sha256 { c.setCall k { q with stage := reserveStage id c.world.turns.length r } with
      world := ⟨s, c.world.opened, c.world.turns ++ admittedTurn id c.world.opened r⟩
      seen := s.db :: c.seen } := by
  obtain ⟨-, id', text, hid', htext, -, hid, -⟩ := sendArguments_accepted hargs
  cases hid'
  cases htext
  have hstep := reserve_step hid hexec
  have hrun : TurnRun next sha256 c.spent _ := .step h.run (by simp) hstep
  have hworld := (h.world hrun fun i t ht => requestId_step hstep ht).sees (isContent_db hrun)
  have hattempt : q.attempt = .ofUser id message :=
    ofUser_of_args h.screen (h.calls q (List.mem_of_getElem? hq)).attempt hargs
  have hmem := (h.calls q (List.mem_of_getElem? hq)).attempt
  refine hworld.setCall hq rfl rfl ⟨hmem, fun i hrunning => ?_, fun payload data hpayload hresolved => ?_⟩
  · obtain ⟨rfl, o, g, rfl, hadmitted⟩ := reserveStage_running hrunning
    have hturns : admittedTurn id c.world.opened (.ok (.outcome o)) = [⟨id, g, c.world.opened, .admitted⟩] := by
      rw [admittedTurn, hadmitted]
    rw [hturns]
    exact ⟨_, id, message, List.getElem?_concat_length, hargs, rfl⟩
  · obtain ⟨o, result, rfl, hreturned, rfl⟩ := reserveStage_resolved hpayload hresolved
    obtain ⟨hstatus, res, hres, hresponse⟩ := replay_of_afterReservation hreturned
    obtain ⟨response, hstored, hdata⟩ := response_of_success hresolved
    exact ⟨id, message, response, hattempt, hdata, fun _ => ⟨s.db, List.mem_cons_self,
      Runtime.reserve_answered hexec hstatus hres (hresponse.symm.trans hstored)⟩⟩

theorem Sound.commit {c : Conversation} (h : Sound next emotion sha256 c) {k i : Nat} {q : SendCall}
    {id message : PyStr} {t : Runtime.Turn} {state : Local.LoadedUserState} {x : ι}
    {new : EmotionalStateV1 × RelationshipStateV1} {out : Runtime.TurnOutput} {env : Local.Env}
    {r : Except Local.Err Local.Reply} {s : Local.LocalStore} (hq : c.calls[k]? = some q)
    (hrunning : q.stage = .running i) (hargs : sendArguments q.args = .ok (.str id, .str message))
    (ht : c.world.turns[i]? = some t) (hloaded : t.phase = .loaded state) (hlive : t.opened = c.world.opened)
    (hnext : next state x = some new) (hfresh : out.messageId ∉ c.spent)
    (hexec : Local.exec sha256 env (t.commitCall (Runtime.turnArgs state new message out)) c.world.store = (r, s)) :
    Sound next emotion sha256 { c.setCall k { q with stage := commitStage i out.durationMs r } with
      world := Runtime.World.move ⟨s, c.world.opened, c.world.turns⟩ i (t.to (if r.isOk then .finished else .failed))
      spent := out.messageId :: c.spent
      seen := s.db :: c.seen } := by
  have hcall := h.calls q (List.mem_of_getElem? hq)
  have hworking : t.phase.working = true := by rw [hloaded]; rfl
  have hstep := Runtime.Step.commit ht hworking hlive hexec
  have hrun := TurnRun.commit h.run ht hloaded hnext hfresh hstep
  have hworld := (h.world hrun fun i t ht => requestId_step hstep ht).sees (isContent_db hrun)
  refine hworld.setCall hq rfl rfl ⟨hcall.attempt, fun j hj => ?_, fun payload data hpayload hresolved => ?_⟩
  · cases commitStage_running hj
    exact (hworld.calls q (List.mem_of_getElem? hq)).running i hrunning
  · obtain ⟨res, result, rfl, rfl, hsame⟩ := commitStage_resolved hpayload hresolved
    obtain ⟨response, hstored, hdata⟩ := response_of_success hresolved
    refine ⟨id, message, response, ofUser_of_args h.screen hcall.attempt hargs, hdata, fun hsha => ?_⟩
    obtain ⟨hresponse, hanswered⟩ := Runtime.commit_answered h.run hsha hfresh hexec
    cases hresponse.symm.trans (hsame.symm.trans hstored)
    -- the turn is the one of this call, so its id is
    obtain ⟨t', id', message', ht', hargs', hid⟩ := hcall.running i hrunning
    cases ht.symm.trans ht'
    cases hargs.symm.trans hargs'
    rw [hid] at hanswered
    exact ⟨s.db, List.mem_cons_self, hanswered⟩

/-- **Each step keeps the invariant.** -/
theorem sound_step {c c' : Conversation} (h : Sound next emotion sha256 c) (hstep : Step next emotion sha256 c c') :
    Sound next emotion sha256 c' := by
  cases hstep with
  | page hinput hadmitted hstep => exact h.page hinput hadmitted hstep
  | @fetch thread limit rows hread =>
      have hseen := h.sees (isContent_view h.run thread)
      refine { hseen with fetched := fun rows' hrows' => ?_ }
      rcases List.mem_cons.mp hrows' with rfl | hrows'
      · exact stored_of_loadRecentHistory hread List.mem_cons_self
      · exact hseen.fetched rows' hrows'
  | @history rows hrows =>
      have hadmitted : Admitted c.log (.history (some (rows.map historyRow))) c.chat :=
        ⟨(fun h => nomatch h), (fun _ h => nomatch h), fun _ h => nomatch h⟩
      have hloaded := h.hook (i := .history (some (rows.map historyRow))) rfl hadmitted ?_ fun _ _ _ h => nomatch h
      · rwa [Option.map_none, Option.toList_none, List.append_nil] at hloaded
      · intro rows' hi row hrow
        cases Option.some.inj (Input.history.inj hi)
        obtain ⟨stored, hstored, rfl⟩ := List.mem_map.mp hrow
        exact ⟨stored, h.fetched rows hrows stored hstored, rfl⟩
  | @refuse k q e hq _ =>
      exact h.setCall hq rfl rfl (.refused (h.calls q (List.mem_of_getElem? hq)).attempt (settlementOf_apiError emotion e))
  | @raise k q code hq _ =>
      exact h.setCall hq rfl rfl (.refused (h.calls q (List.mem_of_getElem? hq)).attempt (failure_not_resolved code))
  | reserve hq _ hargs hexec => exact h.reserve hq hargs hexec
  | turn _ _ ha hstep =>
      refine h.world (.step h.run ?_ hstep) fun i t ht => requestId_step hstep ht
      rcases ha with rfl | rfl
      · simp
      · simp
  | commit hq hrunning hargs ht hloaded hlive hnext hfresh hexec =>
      exact h.commit hq hrunning hargs ht hloaded hlive hnext hfresh hexec
  | @release k i q code world hq _ hstep =>
      have hrun : TurnRun next sha256 c.spent world := .step h.run (by simp) hstep
      have hworld := (h.world hrun fun i t ht => requestId_step hstep ht).sees (isContent_db hrun)
      exact hworld.setCall hq rfl rfl (.refused (h.calls q (List.mem_of_getElem? hq)).attempt (failure_not_resolved code))
  | @other a world ha hstep =>
      have hcommit : ∀ i args, a ≠ .commit i args := by
        rcases ha with rfl | ⟨call, rfl⟩
        · simp
        · simp
      have hrun : TurnRun next sha256 c.spent world := .step h.run hcommit hstep
      exact (h.world hrun fun i t ht => requestId_step hstep ht).sees (isContent_db hrun)
  | @deliver k q payload hq hanswered _ =>
      refine h.settle hq fun x hx data htoken hresolved => ?_
      have hmem := List.mem_of_getElem? hq
      obtain ⟨r, message, response, hattempt, hdata, hstored⟩ := (h.calls q hmem).answered payload data hanswered hresolved
      refine ⟨r, message, response, ?_, hdata, hattempt ▸ (h.calls q hmem).attempt, hstored⟩
      rw [← h.awaited x hx q hmem htoken, hattempt]
      rfl
  | abort hq _ _ => exact h.settle hq fun _ _ _ _ h => nomatch h
  | reject hq _ => exact h.settle hq fun _ _ _ _ h => nomatch h

theorem sound_reaches {c : Conversation} (h : Reaches next emotion sha256 c) : Sound next emotion sha256 c := by
  induction h with
  | init => exact sound_init
  | step _ hstep ih => exact sound_step ih hstep

/-- **Nothing on the screen is made up.** Whatever the order of clicks, calls, turns, reads and answers,
every message that is shown is a row that the store had, the notice that no message can be sent, a
message that was sent, or the answer that the ledger has for that id and that text; and what "the
store had" is what a connection to a reachable store sees. -/
theorem screen_is_grounded {c : Conversation} (h : Reaches next emotion sha256 c) :
    (∀ m ∈ c.chat.messages, Grounded sha256 c.log.attempts c.seen m) ∧
      (∀ a ∈ c.log.attempts, ∃ q ∈ c.calls, q.attempt = a) ∧ ∀ db ∈ c.seen, IsContent sha256 db := by
  have hsound := sound_reaches h
  exact ⟨hsound.grounded, hsound.sent, hsound.seen⟩

end

/-! ## One message and its answer -/

open Katherine.Runtime in
/-- A commit was answered, with a dictionary for its emotion. -/
def answersWithDict : Except Local.Err Local.Reply → Bool
  | .ok (.committed res) => (dictOf res.emotionState).isSome
  | _ => false

open Katherine.Runtime in
theorem returned_of_answersWithDict {r : Except Local.Err Local.Reply} (h : answersWithDict r = true) :
    ∃ res, r = .ok (.committed res) ∧ (dictOf res.emotionState).isSome = true := by
  cases r with
  | error e => cases h
  | ok reply =>
      cases reply with
      | committed res => exact ⟨res, rfl, h⟩
      | _ => cases h

open Katherine.Runtime in
/-- The commit of the turn returns, with a dictionary for its emotion. -/
theorem sample_commit : ∃ res s emotionState,
    Local.exec Local.sampleSha256 Local.sampleEnv (.commitTurn Local.sampleArgs) sampleWorld.store =
      (.ok (.committed res), s) ∧ dictOf res.emotionState = some emotionState ∧ res.response = .str (py "ok") := by
  obtain ⟨r, s, hexec⟩ : ∃ r s, Local.exec Local.sampleSha256 Local.sampleEnv (.commitTurn Local.sampleArgs)
      sampleWorld.store = (r, s) := ⟨_, _, rfl⟩
  have hreturned : answersWithDict (Local.exec Local.sampleSha256 Local.sampleEnv (.commitTurn Local.sampleArgs)
      sampleWorld.store).1 = true := by decide +kernel
  rw [hexec] at hreturned
  obtain ⟨res, rfl, hdict⟩ := returned_of_answersWithDict hreturned
  obtain ⟨emotionState, hdict⟩ := Option.isSome_iff_exists.mp hdict
  have hcommit : Local.exec Local.sampleSha256 Local.sampleEnv ((sampleTurn.to (.loaded sampleState)).commitCall
      (turnArgs sampleState (.neutral Local.sampleTime, .neutral Local.sampleTime) (py "oi") sampleOutput))
      sampleWorld.store = (.ok (.committed res), s) := hexec
  obtain ⟨hresponse, -⟩ := commit_answered sampleWorld_run Local.sampleSha256_injective.injOn List.not_mem_nil hcommit
  exact ⟨res, s, emotionState, hexec, hdict, hresponse⟩

/-- The page when the text is there. -/
def sampleTyped : Chat := { Chat.mount {} with input := py "oi" }

/-- The page when it has been sent. -/
def sampleSent : Chat := (step (.send sampleTyped.view (some (py "r1"))) sampleTyped).2

def sampleLog : Log := ⟨[.ofUser (py "r1") (py "oi")], [py "r1"],
  [Chat.view {}, (Chat.mount {}).view, sampleTyped.view]⟩

def sampleCall (stage : Stage) : SendCall := ⟨1, .ofUser (py "r1") (py "oi"), stage, false⟩

/-- Any answer is shown below it. -/
theorem sample_settle (id : PyStr) (response emotion : JsVal) :
    (sampleSent.settle 1 (.resolved ⟨.string id, response, emotion⟩)).messages.map (·.localId) =
      [userLocalId (py "r1"), assistantLocalId (py "r1")] := by
  cases id with
  | nil => rfl
  | cons c id => rfl

open Katherine.Runtime in
/-- It is sent, reserved, loaded, committed and delivered. -/
theorem reaches_sample : ∃ c, Reaches neutralNext (fun _ => .null) Local.sampleSha256 c ∧
    c.chat.messages.map (·.localId) = [userLocalId (py "r1"), assistantLocalId (py "r1")] := by
  have hmount : Reaches neutralNext (fun _ => .null) Local.sampleSha256
      ⟨Chat.mount {}, [], [], .init, ⟨[], [], [Chat.view {}]⟩, [], []⟩ :=
    Reaches.init.step (.page (i := .mount) rfl ⟨fun _ => rfl, (fun _ h => nomatch h), fun _ h => nomatch h⟩ rfl)
  have htype : Reaches neutralNext (fun _ => .null) Local.sampleSha256
      ⟨sampleTyped, [], [], .init, ⟨[], [], [Chat.view {}, (Chat.mount {}).view]⟩, [], []⟩ :=
    hmount.step (.page (i := .type (py "oi")) rfl
      ⟨(fun h => nomatch h), (fun _ h => nomatch h), fun _ h => nomatch h⟩ rfl)
  have hadmitted : Admitted ⟨[], [], [Chat.view {}, (Chat.mount {}).view]⟩
      (.send sampleTyped.view (some (py "r1"))) sampleTyped := by
    refine ⟨(fun h => nomatch h), fun v hv => ?_, fun r hr => ?_⟩
    · cases hv
      exact List.mem_append_right _ List.mem_cons_self
    · exact ⟨List.not_mem_nil, fun _ h => nomatch h⟩
  have hsend : Reaches neutralNext (fun _ => .null) Local.sampleSha256
      ⟨sampleSent, [sampleCall .asked], [], .init, sampleLog, [], []⟩ :=
    htype.step (@Step.page _ neutralNext (fun _ => .null) Local.sampleSha256 _ (.send sampleTyped.view (some (py "r1")))
      (some (.ofUser (py "r1") (py "oi"))) sampleSent rfl hadmitted rfl)
  have hreserve : Reaches neutralNext (fun _ => .null) Local.sampleSha256
      ⟨sampleSent, [sampleCall (.running 0)], [], sampleAdmitted, sampleLog, [], [sampleAdmitted.store.db]⟩ :=
    hsend.step (@Step.reserve _ neutralNext (fun _ => .null) Local.sampleSha256 _ 0 (sampleCall .asked) (py "r1")
      (py "oi") Local.sampleEnv _ _ rfl rfl rfl rfl)
  have hload : Reaches neutralNext (fun _ => .null) Local.sampleSha256
      ⟨sampleSent, [sampleCall (.running 0)], [], sampleWorld, sampleLog, [], [sampleAdmitted.store.db]⟩ :=
    hreserve.step (@Step.turn _ neutralNext (fun _ => .null) Local.sampleSha256 _ 0 0 (sampleCall (.running 0))
      (.load 0) sampleWorld rfl rfl (.inl rfl)
      (@Runtime.Step.load Local.sampleSha256 sampleAdmitted Local.sampleEnv 0 sampleTurn sampleState rfl rfl rfl))
  obtain ⟨res, s, emotionState, hexec, hdict, hresponse⟩ := sample_commit
  have hcommit := hload.step (@Step.commit _ neutralNext (fun _ => .null) Local.sampleSha256 _ 0 0
    (sampleCall (.running 0)) (py "r1") (py "oi") (sampleTurn.to (.loaded sampleState)) sampleState ()
    (.neutral Local.sampleTime, .neutral Local.sampleTime) sampleOutput Local.sampleEnv _ _ rfl rfl rfl rfl rfl rfl
    rfl List.not_mem_nil hexec)
  have hanswered : commitStage 0 5 (.ok (.committed res)) = .answered (sendPayload (successPayload
      { response := res.response, emotionState, messageId := res.messageId, revision := res.revision,
        durationMs := some 5 })) := by
    simp only [commitStage, hdict]
  have hdeliver := hcommit.step (@Step.deliver _ neutralNext (fun _ => .null) Local.sampleSha256 _ 0
    (sampleCall (commitStage 0 5 (.ok (.committed res)))) _ rfl hanswered rfl)
  refine ⟨_, hdeliver, ?_⟩
  rw [settlementOf_success _ rfl hresponse]
  exact sample_settle _ _ _

/-- The whole way of one message. -/
theorem screen_is_grounded_sample : ∃ c : Conversation,
    c.chat.messages.map (·.localId) = [userLocalId (py "r1"), assistantLocalId (py "r1")] ∧
      ∀ m ∈ c.chat.messages, Grounded Local.sampleSha256 c.log.attempts c.seen m := by
  obtain ⟨c, hreaches, hmessages⟩ := reaches_sample
  exact ⟨c, hmessages, (screen_is_grounded hreaches).1⟩

end Katherine.Desktop
