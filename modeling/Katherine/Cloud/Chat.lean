import Katherine.Cloud.ProcessTurn
import Katherine.Cloud.Quota
import Katherine.Cloud.Replay

/-!
# One `/chat` call

`chat_endpoint` of `backend/main.py`, from the admission to the answer: `reserve_admission`
decides whether the turn runs in normal mode or as a replay, then `ProcessTurn.execute`
runs under the user's lock. Other calls, the same request's among them, are anybody's
calls on the shared database, between any two steps.

What keeps a completed request from being computed again is its reservation, and that
lives for a day: `purge_admission_reservations` deletes it, while the completed row stays
for good. From then on the request is admitted like a new one, the provider is called,
and the commit that follows is a conflict with the row.
-/

namespace Katherine.Cloud.Chat

open Py Sql Pg Runs
open ProcessTurn (TurnMode TurnBudget ProcessTurnInput Wiring PortError TurnError PublicResult
  parsePublicResult Stores)

/-! ## The request -/

def newMessageMaxChars : Nat := 4000

/-- `estimate_text_units`. -/
def estimateTextUnits (text : PyStr) : Nat := max 1 (utf8Len text)

/-- `ChatInput`, as its validators leave it. -/
structure ChatInput where
  requestId : Uuid
  message : PyStr
  chars : message.length ≤ newMessageMaxChars
  units : estimateTextUnits message ≤ messageMaxEstimatedUnits

/-- A call, with what the endpoint takes from the request and the clock. -/
structure ChatCall where
  userId : PyStr
  input : ChatInput
  networkIdentity : PyStr
  budget : TurnBudget

def ChatCall.key (c : ChatCall) : PyStr × Uuid := (c.userId, c.input.requestId)

/-! ## Admission -/

def messageHmacDomain : PyStr := py "message"
def networkHmacDomain : PyStr := py "network"

section

variable (hmac : PyStr → PyStr → PyStr) (c : ChatCall)

/-- `build_admission_request`, with the checks of `AdmissionRequest`; `none` is
`AdmissionUnavailable`. -/
def buildAdmissionRequest : Option AdmissionArgs := do
  let userId ← some c.userId |>.filter fun s => decide (s ≠ []) && decide (s.length ≤ 128) && !blank s
  let message ← some (hmac messageHmacDomain c.input.message) |>.filter isSha256Hex
  let network ← some (hmac networkHmacDomain c.networkIdentity) |>.filter isSha256Hex
  pure { userId := some userId, requestId := some c.input.requestId, messageHmac := some message,
         networkHmac := some network, estimatedUnits := some (estimateTextUnits c.input.message) }

/-- The reservation that the call asks for. -/
def reservation (vNow : Timestamp) : AdmissionReservation :=
  { userId := c.userId, requestId := c.input.requestId
    messageHmac := hmac messageHmacDomain c.input.message
    networkHmac := hmac networkHmacDomain c.networkIdentity
    estimatedUnits := estimateTextUnits c.input.message, reservedAt := vNow }

end

/-- What the endpoint hears instead of an `AdmissionResult`. -/
inductive AdmissionFailure
  | admissionUnavailable
  | deadlineExceeded
  | cancelled
deriving DecidableEq

/-- How the write of `reserve_admission` goes. -/
inductive AdmissionOutcome
  | delivered
  /-- Executed, and the reply is lost. -/
  | lost (e : AdmissionFailure)
  | unsent (e : AdmissionFailure)

/-! ## Steps -/

inductive Stage (ε : Type)
  | admitting
  /-- For the lock of the user. -/
  | waiting (mode : TurnMode)
  | processing (mode : TurnMode) (stage : ProcessTurn.Stage ε)
  | rejected (d : Decision)
  | unavailable (e : AdmissionFailure)
  | lockTimeout (e : PortError)

inductive Move
  | admission (vNow : Timestamp) (outcome : AdmissionOutcome)
  | lock (port : Except PortError Unit)
  | turn (move : ProcessTurn.Move)
  /-- Anybody's call. -/
  | other (t : Times) (call : Call)

structure State (ε : Type) where
  db : Db
  stage : Stage ε

section

variable {ε : Type} (sha256 : PyStr → PyStr) (hmac : PyStr → PyStr → PyStr) (decode : Jsonb → PyVal)
variable (dyn : Dynamics) (validateEmotion : List (PyKey × PyVal) → Option ε) (w : Wiring)
variable (c : ChatCall)

def ChatCall.turnInput (mode : TurnMode) : ProcessTurnInput :=
  { authenticatedUserId := c.userId, requestId := c.input.requestId, userMessage := c.input.message,
    budget := c.budget, mode }

/-- What the endpoint makes of a decision. -/
def onAdmission : Decision → Stage ε
  | .admitted => .waiting .normal
  | .requestReplayUnavailable => .waiting .replayAttempt
  | d => .rejected d

/-- The admission of the endpoint. -/
def admission (vNow : Timestamp) (outcome : AdmissionOutcome) (db : Db) : State ε :=
  match buildAdmissionRequest hmac c with
  | none => ⟨db, .unavailable .admissionUnavailable⟩
  | some args =>
      let (d, db') := reserveAdmission vNow args db
      match outcome with
      | .unsent e => ⟨db, .unavailable e⟩
      | .lost e => ⟨db', .unavailable e⟩
      | .delivered => ⟨db', onAdmission d⟩

/-- A move that is not the next one does nothing. -/
def step (move : Move) (s : State ε) : ProcessTurn.Effect × State ε :=
  match move, s.stage with
  | .other t call, _ => (.silent, { s with db := (exec sha256 (t, call) s.db).2 })
  | .admission vNow outcome, .admitting => (.silent, admission hmac c vNow outcome s.db)
  | .lock port, .waiting mode =>
      match port with
      | .error e => (.silent, { s with stage := .lockTimeout e })
      | .ok () => (.silent, { s with stage := .processing mode (ProcessTurn.start (c.turnInput mode)) })
  | .turn move, .processing mode stage =>
      let (effect, s') :=
        ProcessTurn.advance decode dyn validateEmotion w (c.turnInput mode) s.db stage move
      (effect, ⟨s'.db, .processing mode s'.stage⟩)
  | _, _ => (.silent, s)

end

/-! ## What a completed request leaves in the ledger -/

variable {sha256 : PyStr → PyStr}

/-- A completed row can be replayed. -/
def PayloadsReadable (db : Db) : Prop :=
  ∀ r ∈ db.turnRequests.rows, ∀ n payload at_, r.state = .completed n payload at_ →
    r.userId ≠ [] ∧ replayPayloadCorrupt payload = false

/-- Deleting rows and nulling their message references changes no payload. -/
theorem PayloadsReadable.of_rows {db db' : Db} (h : PayloadsReadable db) {gone : Int → Bool}
    {rows : List TurnRequest} (hrows : ∀ r ∈ rows, r ∈ db.turnRequests.rows)
    (hafter : db'.turnRequests.rows = rows.map (·.nullMessageRefs gone)) : PayloadsReadable db' := by
  intro r hr n payload at_ hs
  rw [hafter] at hr
  obtain ⟨r', hr', rfl⟩ := List.mem_map.mp hr
  rw [(sameReplay_nullMessageRefs gone r').state] at hs
  exact h r' (hrows r' hr') n payload at_ hs

theorem payloadsReadable_effect {x : Times × Call} {db db' : Db} {reply : Reply}
    (heffect : Cloud.Effect sha256 x db reply db') (h : PayloadsReadable db) :
    PayloadsReadable db' := by
  cases heffect with
  | @committed t ids a i _ _ row hv hc =>
      intro r hr n payload at_ hs
      rw [hc.turnRequests] at hr
      rcases Table.mem_put.mp hr with rfl | ⟨hr, -⟩
      · rw [hc.state] at hs
        cases hs
        have hargs := validateCommit_ok hv
        have huser : r.userId = i.userId := congrArg Prod.fst hc.key
        exact ⟨by rw [huser]; exact hargs.userId_ne, hargs.replayPayload⟩
      · exact h r hr n payload at_ hs
  | applied hv ha =>
      obtain ⟨gone, -, hrows⟩ := ha.turnRequests
      exact h.of_rows (fun _ hr => List.mem_of_mem_filter hr) hrows
  | @purged t a _ _ j user counts hp =>
      obtain ⟨gone, hrows⟩ := purgeUser_turnRequests db user
      have hrows' : db'.turnRequests.rows =
          (db.turnRequests.rows.filter fun r => !decide (r.userId = user)).map
            (·.nullMessageRefs gone) := by
        rw [hp.rows]
        exact hrows
      exact h.of_rows (fun _ hr => List.mem_of_mem_filter hr) hrows'
  | pruned => exact h.of_rows (fun _ hr => hr) rfl
  | _ => exact h

theorem payloadsReadable_reachable {es : List (Event (exec sha256))} {db : Db}
    (hrun : Run Db.empty es db) : PayloadsReadable db := by
  refine (hrun.invariant ?_ fun e _ h => payloadsReadable_effect (effect_of_event e) h).1
  intro r hr
  cases hr

/-! ## The admission of a repeated request -/

/-- The quotas reject the call. -/
def isQuota : Decision → Bool
  | .userRateLimited => true
  | .networkRateLimited => true
  | .applicationRateLimited => true
  | .userDailyRequestQuotaExceeded => true
  | .userDailyUnitQuotaExceeded => true
  | _ => false

/-- The ledger answers for the request: its reservation is there, and is of the message `original`,
or else some quota leaves the call no room. -/
structure Guarded (original : PyStr) (t : Reservations) (r : AdmissionReservation) : Prop where
  held : ∀ x, t.get? (r.userId, r.requestId) = some x → x.messageHmac = original
  full : t.get? (r.userId, r.requestId) = none → ¬ Room t r

theorem decision_of_get?_none {t : Reservations} {r : AdmissionReservation}
    (h : t.get? (r.userId, r.requestId) = none) :
    admissionDecision t r = .admitted ∨ isQuota (admissionDecision t r) = true := by
  unfold admissionDecision
  rw [h]
  dsimp only
  repeat' split
  all_goals first | exact .inl rfl | exact .inr rfl

/-- **A guarded request is not admitted**, and it is replayed if it has the original message. -/
theorem decision_of_guarded {original : PyStr} {t : Reservations} {r : AdmissionReservation}
    (h : Guarded original t r) : isQuota (admissionDecision t r) = true ∨
      admissionDecision t r = .requestReplayUnavailable ∨
      (r.messageHmac ≠ original ∧ admissionDecision t r = .requestIdConflict) := by
  cases hx : t.get? (r.userId, r.requestId) with
  | none =>
      rcases decision_of_get?_none hx with hadmitted | hquota
      · exact absurd (room_of_admitted hadmitted) (h.full hx)
      · exact .inl hquota
  | some x =>
      by_cases hm : x.messageHmac = r.messageHmac
      · right; left
        simp [admissionDecision, hx, hm]
      · right; right
        refine ⟨?_, by simp [admissionDecision, hx, hm]⟩
        rw [← h.held x hx]
        exact Ne.symm hm

/-- What is more than whitespace to Python is more than spaces to the database. -/
theorem btrim_ne_nil {s : PyStr} (h : blank s = false) : btrim s ≠ [] := by
  intro hnil
  have hspaces := (trim_eq_nil_iff (fun c => decide (c = cp ' ')) s).mp hnil
  have hall : blank s = true := by
    refine List.all_eq_true.mpr fun c hc => ?_
    rw [of_decide_eq_true (List.all_eq_true.mp hspaces c hc)]
    decide
  rw [hall] at h
  cases h

/-- The database accepts what the endpoint builds. -/
theorem validateAdmission_of_build {hmac : PyStr → PyStr → PyStr} {c : ChatCall}
    {args : AdmissionArgs} (h : buildAdmissionRequest hmac c = some args) (vNow : Timestamp) :
    c.userId ≠ [] ∧ validateAdmission vNow args = some (reservation hmac c vNow) := by
  simp only [buildAdmissionRequest, Option.bind_eq_bind, Option.bind_eq_some_iff,
    Option.filter_eq_some_iff, Bool.and_eq_true, decide_eq_true_eq, Bool.not_eq_true'] at h
  obtain ⟨user, ⟨huser, ⟨hne, hlen⟩, hblank⟩, message, ⟨hmessage, hm⟩, network, ⟨hnetwork, hn⟩, h⟩ := h
  cases huser
  cases hmessage
  cases hnetwork
  cases h
  have hid : isUserId c.userId = true := by
    have hpos : 1 ≤ c.userId.length := List.length_pos_iff.mpr hne
    simp [isUserId, hpos, hlen, btrim_ne_nil hblank]
  have hlow : 1 ≤ estimateTextUnits c.input.message := le_max_left _ _
  have hunits := c.input.units
  refine ⟨hne, ?_⟩
  have hunits' : (estimateTextUnits c.input.message : Int) ≤ messageMaxEstimatedUnits := by
    exact_mod_cast hunits
  simp [validateAdmission, reservation, Option.filter_some, hid, hm, hn, hlow, hunits']

/-! ## A call that the ledger answers -/

/-- The call touches neither histories nor accounts: what `/chat` and the retention rounds call,
and more. -/
def keepsHistory : Call → Bool
  | .privacyApplyOperation _ => false
  | .purge _ => false
  | _ => true

theorem remembers_exec {key : PyStr × Uuid} {row : TurnRequest} {db : Db} {call : Call} (t : Times)
    (hs : ∃ n payload at_, row.state = .completed n payload at_) (hcall : keepsHistory call = true)
    (h : Remembers key row db) : Remembers key row (exec sha256 (t, call) db).2 := by
  obtain ⟨r, hr, hsame⟩ := h
  rcases completed_kept (@exec_effect sha256 (t, call) db) hr (by rw [hsame.state]; exact hs) with
    ⟨r', hr', hsame'⟩ | ⟨-, hgone | hgone⟩
  · exact ⟨r', hr', hsame.trans hsame'⟩
  · cases call <;> first | cases hgone | cases hcall
  · cases call <;> first | cases hgone | cases hcall

variable {ε : Type} {hmac : PyStr → PyStr → PyStr} {decode : Jsonb → PyVal} {dyn : Dynamics}
variable {validateEmotion : List (PyKey × PyVal) → Option ε} {w : Wiring} {c : ChatCall}

section

variable (decode validateEmotion)

/-- What a replay can end with: the stored answer, or a port that failed. -/
def Replayed (payload : Jsonb) (outcome : Except TurnError (PublicResult ε)) : Prop :=
  outcome = parsePublicResult decode validateEmotion payload ∨ ∃ e, outcome = .error (.port e)

variable (hmac c)

/-- Where a call is that leaves the answer to the ledgers. -/
def FromLedger (original : PyStr) (payload : Jsonb) : Stage ε → Prop
  | .waiting mode => mode = .replayAttempt
  | .processing mode stage => mode = .replayAttempt ∧ (stage = .replaying ∨
      ∃ outcome, stage = .finished outcome ∧ Replayed decode validateEmotion payload outcome)
  | .rejected d => hmac messageHmacDomain c.input.message = original → isQuota d = true
  | _ => True

end

theorem advance_finished {inp : ProcessTurnInput} (db : Db)
    (outcome : Except TurnError (PublicResult ε)) (move : ProcessTurn.Move) :
    ProcessTurn.advance decode dyn validateEmotion w inp db (.finished outcome) move =
      (.silent, ⟨db, .finished outcome⟩) := by
  cases move <;> rfl

/-- A replay of a completed row, step by step. -/
theorem advance_replaying {inp : ProcessTurnInput} {db : Db} {turn : CommittedTurn}
    (hreplay : ∀ t, replayCommittedTurn t (some inp.authenticatedUserId) (some inp.requestId) db
      = .result turn) (move : ProcessTurn.Move) :
    ∃ stage, ProcessTurn.advance decode dyn validateEmotion w inp db .replaying move =
        (.silent, ⟨db, stage⟩) ∧ (stage = .replaying ∨ ∃ outcome, stage = .finished outcome ∧
          Replayed decode validateEmotion turn.replayPayload outcome) := by
  cases move with
  | replay now t port =>
      simp only [ProcessTurn.advance, hreplay]
      split
      · exact ⟨_, rfl, .inr ⟨_, rfl, .inr ⟨_, rfl⟩⟩⟩
      · cases port with
        | error e => exact ⟨_, rfl, .inr ⟨_, rfl, .inr ⟨_, rfl⟩⟩⟩
        | ok => exact ⟨_, rfl, .inr ⟨_, rfl, .inl rfl⟩⟩
  | _ => exact ⟨_, rfl, .inl rfl⟩

section

variable (sha256 hmac decode dyn validateEmotion w c)

/-- One step of the run of a call. -/
abbrev ChatEvent := Event (step (ε := ε) sha256 hmac decode dyn validateEmotion w c)

end

/-- Where the step admits the call, the ledger answers for the request. -/
def Covered (original : PyStr) (e : ChatEvent (ε := ε) sha256 hmac decode dyn validateEmotion w c) :
    Prop :=
  ∀ vNow outcome, e.input = .admission vNow outcome → e.before.stage = .admitting →
    Guarded original e.before.db.admissionReservations (reservation hmac c vNow)

/-- If the step is somebody else's, it keeps histories and accounts. -/
def Harmless (e : ChatEvent (ε := ε) sha256 hmac decode dyn validateEmotion w c) : Prop :=
  ∀ t call, e.input = .other t call → keepsHistory call = true

/-- The row is there, and the call leaves the answer to the ledgers. -/
structure Answering (hmac : PyStr → PyStr → PyStr) (decode : Jsonb → PyVal)
    (validateEmotion : List (PyKey × PyVal) → Option ε) (c : ChatCall) (original : PyStr)
    (row : TurnRequest) (payload : Jsonb) (s : State ε) : Prop where
  remembers : Remembers c.key row s.db
  stage : FromLedger hmac decode validateEmotion c original payload s.stage

theorem turnRequests_reserve (vNow : Timestamp) (args : AdmissionArgs) (db : Db) :
    (reserveAdmission vNow args db).2.turnRequests = db.turnRequests := by
  unfold reserveAdmission
  split
  · rfl
  · split <;> rfl

/-- **A guarded admission keeps the answer with the ledgers.** -/
theorem answering_admission {original : PyStr} {row : TurnRequest} {payload : Jsonb} {db : Db}
    {vNow : Timestamp} (outcome : AdmissionOutcome) (h : Remembers c.key row db)
    (hguard : Guarded original db.admissionReservations (reservation hmac c vNow)) :
    Answering hmac decode validateEmotion c original row payload
      (admission hmac c vNow outcome db) := by
  unfold admission
  split
  · exact ⟨h, trivial⟩
  · next args hargs =>
      obtain ⟨-, hv⟩ := validateAdmission_of_build hargs vNow
      have hkept : Remembers c.key row (reserveAdmission vNow args db).2 := by
        obtain ⟨r, hr, hsame⟩ := h
        exact ⟨r, by rw [turnRequests_reserve]; exact hr, hsame⟩
      have hdecision : (reserveAdmission vNow args db).1 =
          admissionDecision db.admissionReservations (reservation hmac c vNow) := by
        rw [reserveAdmission, hv]
        dsimp only
        split
        · next hd => exact hd.symm
        · rfl
      cases outcome with
      | unsent e => exact ⟨h, trivial⟩
      | lost e => exact ⟨hkept, trivial⟩
      | delivered =>
          refine ⟨hkept, ?_⟩
          dsimp only
          rw [hdecision]
          rcases decision_of_guarded hguard with hquota | hreplay | ⟨hother, hconflict⟩
          · generalize admissionDecision db.admissionReservations (reservation hmac c vNow) = d at hquota
            cases d <;> first | exact fun _ => rfl | cases hquota
          · rw [hreplay]
            rfl
          · rw [hconflict]
            exact fun hsame => absurd hsame hother

/-- **One step calls no provider and keeps the answer with the ledgers.** -/
theorem answering_step {original : PyStr} {row : TurnRequest} {n : Nat} {payload : Jsonb}
    {at_ : Timestamp} (hs : row.state = .completed n payload at_) (huser : c.userId ≠ [])
    (hpayload : replayPayloadCorrupt payload = false)
    (e : ChatEvent (ε := ε) sha256 hmac decode dyn validateEmotion w c) (hother : Harmless e)
    (hcovered : Covered original e)
    (h : Answering hmac decode validateEmotion c original row payload e.before) :
    e.reply = .silent ∧ Answering hmac decode validateEmotion c original row payload e.after := by
  obtain ⟨move, ⟨db, stage⟩, reply, after, hexec⟩ := e
  obtain ⟨hrow, hstage⟩ := h
  dsimp only at hrow hstage ⊢
  have hidle : step sha256 hmac decode dyn validateEmotion w c move ⟨db, stage⟩ =
      (.silent, ⟨db, stage⟩) → reply = .silent ∧
        Answering hmac decode validateEmotion c original row payload after := by
    intro hsame
    obtain ⟨rfl, rfl⟩ := Prod.mk.inj (hexec.symm.trans hsame)
    exact ⟨rfl, hrow, hstage⟩
  cases move with
  | other t call =>
      obtain ⟨rfl, rfl⟩ := Prod.mk.inj hexec
      exact ⟨rfl, remembers_exec t ⟨n, payload, at_, hs⟩ (hother t call rfl) hrow, hstage⟩
  | admission vNow outcome =>
      cases stage with
      | admitting =>
          obtain ⟨rfl, rfl⟩ := Prod.mk.inj hexec
          exact ⟨rfl, answering_admission outcome hrow (hcovered vNow outcome rfl rfl)⟩
      | _ => exact hidle rfl
  | lock port =>
      cases stage with
      | waiting mode =>
          obtain rfl : mode = .replayAttempt := hstage
          cases port with
          | error e =>
              obtain ⟨rfl, rfl⟩ := Prod.mk.inj hexec
              exact ⟨rfl, hrow, trivial⟩
          | ok =>
              obtain ⟨rfl, rfl⟩ := Prod.mk.inj hexec
              exact ⟨rfl, hrow, rfl, .inl rfl⟩
      | _ => exact hidle rfl
  | turn move =>
      cases stage with
      | processing mode stage =>
          obtain ⟨rfl, rfl | ⟨outcome, rfl, hreplayed⟩⟩ := hstage
          · obtain ⟨r, hr, hsame⟩ := hrow
            have hreplay := fun t => replayCommittedTurn_replays t huser hr (hsame.state.trans hs) hpayload
            have hturn : r.buildResult.replayPayload = payload := by
              rw [TurnRequest.buildResult, hsame.state.trans hs]
            obtain ⟨stage, hadvance, hstage⟩ : ∃ stage, ProcessTurn.advance decode dyn validateEmotion w
                (c.turnInput .replayAttempt) db .replaying move = (.silent, ⟨db, stage⟩) ∧ _ :=
              advance_replaying hreplay move
            rw [hturn] at hstage
            simp only [step, hadvance] at hexec
            obtain ⟨rfl, rfl⟩ := Prod.mk.inj hexec
            exact ⟨rfl, ⟨r, hr, hsame⟩, rfl, hstage⟩
          · refine hidle ?_
            simp only [step, advance_finished]
      | _ => exact hidle rfl

/-- The completed request is answered from what is stored, and the provider is left alone. -/
structure NeverRecomputed (original : PyStr) (payload : Jsonb)
    (es : List (ChatEvent (ε := ε) sha256 hmac decode dyn validateEmotion w c)) : Prop where
  noProvider : ∀ e ∈ es, e.reply ≠ .provider
  /-- The call goes to the replay, if it goes on at all. -/
  replays : ∀ e ∈ es, ∀ mode, (e.after.stage = .waiting mode ∨
    ∃ stage, e.after.stage = .processing mode stage) → mode = .replayAttempt
  /-- With the original message nothing but a quota rejects it. -/
  rejected : hmac messageHmacDomain c.input.message = original → ∀ e ∈ es, ∀ d,
    e.after.stage = .rejected d → isQuota d = true
  /-- It ends with the stored answer, unless a port fails. -/
  stored : ∀ e ∈ es, ∀ mode outcome, e.after.stage = .processing mode (.finished outcome) →
    Replayed decode validateEmotion payload outcome
  /-- A replay that reads the ledger in time answers. -/
  answered : ∀ e ∈ es, ∀ mode now t, e.before.stage = .processing mode .replaying →
    e.input = .turn (.replay now t (.ok ())) →
    ¬ ProcessTurn.readExhausted w (c.turnInput mode) now →
    e.after.stage = .processing mode (.finished (parsePublicResult decode validateEmotion payload))

/-- A replay of the row that reads the ledger in time. -/
theorem stage_of_replay {row : TurnRequest} {n : Nat} {payload : Jsonb} {at_ : Timestamp}
    (hs : row.state = .completed n payload at_) (huser : c.userId ≠ [])
    (hpayload : replayPayloadCorrupt payload = false)
    {e : ChatEvent (ε := ε) sha256 hmac decode dyn validateEmotion w c}
    (hrow : Remembers c.key row e.before.db) {mode : TurnMode} {now : Int} {t : Timestamp}
    (hstage : e.before.stage = .processing mode .replaying)
    (hinput : e.input = .turn (.replay now t (.ok ())))
    (htime : ¬ ProcessTurn.readExhausted w (c.turnInput mode) now) :
    e.after.stage =
      .processing mode (.finished (parsePublicResult decode validateEmotion payload)) := by
  obtain ⟨r, hr, hsame⟩ := hrow
  have hreplay := replayCommittedTurn_replays t huser hr (hsame.state.trans hs) hpayload
  have hturn : r.buildResult.replayPayload = payload := by
    rw [TurnRequest.buildResult, hsame.state.trans hs]
  have hexec := e.executed
  simp only [step, hinput, hstage, ProcessTurn.advance, if_neg htime] at hexec
  have hafter := congrArg (fun out => out.2.stage) hexec
  rw [← hafter]
  simp only [ChatCall.turnInput, ChatCall.key] at hreplay ⊢
  rw [hreplay, ProcessTurn.onReplay, hturn]

/-- **A completed request is not computed again** while the ledger answers for it: from every
reachable database that stores its answer, whatever the other calls and the retention rounds do
meanwhile. -/
theorem completed_request_is_replayed {original : PyStr} {payload : Jsonb} {db : Db} {s : State ε}
    {es₀ : List (Event (exec sha256))} (hreach : Run Db.empty es₀ db)
    (hstored : Stores db c.key payload)
    {es : List (ChatEvent (ε := ε) sha256 hmac decode dyn validateEmotion w c)}
    (hrun : Run ⟨db, .admitting⟩ es s) (hother : ∀ e ∈ es, Harmless e)
    (hcovered : ∀ e ∈ es, Covered original e) : NeverRecomputed original payload es := by
  obtain ⟨row, n, at_, hrow, hs⟩ := hstored
  obtain ⟨huser, hpayload⟩ :=
    payloadsReadable_reachable hreach row (Table.get?_mem hrow) n payload at_ hs
  have hkey : row.userId = c.userId := congrArg Prod.fst (Table.get?_key hrow)
  rw [hkey] at huser
  have hstart : Answering hmac decode validateEmotion c original row payload
      (⟨db, .admitting⟩ : State ε) := ⟨⟨row, hrow, .refl row⟩, trivial⟩
  obtain ⟨-, hall⟩ := hrun.invariant hstart fun e he h =>
    (answering_step hs huser hpayload e (hother e he) (hcovered e he) h).2
  refine ⟨?_, ?_, ?_, ?_, ?_⟩
  · intro e he hprovider
    obtain ⟨hsilent, -⟩ :=
      answering_step hs huser hpayload e (hother e he) (hcovered e he) (hall e he).1
    rw [hsilent] at hprovider
    cases hprovider
  · intro e he mode hmode
    have hstage := (hall e he).2.stage
    rcases hmode with hmode | ⟨stage, hmode⟩
    · rw [hmode] at hstage
      exact hstage
    · rw [hmode] at hstage
      exact hstage.1
  · intro hmessage e he d hd
    have hstage := (hall e he).2.stage
    rw [hd] at hstage
    exact hstage hmessage
  · intro e he mode outcome hout
    have hstage := (hall e he).2.stage
    rw [hout] at hstage
    obtain ⟨-, hreplaying | ⟨outcome', hfinished, hreplayed⟩⟩ := hstage
    · cases hreplaying
    · cases hfinished
      exact hreplayed
  · intro e he mode now t hstage hinput htime
    exact stage_of_replay hs huser hpayload (hall e he).1.remembers hstage hinput htime

/-! ## The same request, at once and a day later -/

def chatHmac (domain _payload : PyStr) : PyStr :=
  List.replicate 64 (if domain = messageHmacDomain then cp 'a' else cp 'b')

def chatCall : ChatCall where
  userId := sampleUser
  input := ⟨ProcessTurn.retryRequest, py "hi", by decide, by decide⟩
  networkIdentity := py "unknown"
  budget := ⟨45, 10⟩

/-- What the first call has computed. -/
def chatCandidate : ProcessTurn.Candidate where
  known := ⟨earlyTime, 0, .neutral earlyTime, .neutral earlyTime⟩
  appraisal := .neutral
  emotional := .neutral earlyTime
  relationship := .neutral earlyTime

def firstAdmission : Event (exec resetSha256) :=
  .of _ (sampleTimes, .reserveAdmission
    ⟨some sampleUser, some ProcessTurn.retryRequest, some (List.replicate 64 (cp 'a')),
      some (List.replicate 64 (cp 'b')), some 2⟩) Db.empty

def firstTurn : Event (exec resetSha256) :=
  .of _ (sampleTimes, .commitTurn { sampleIds 1 with turnRequestId := ProcessTurn.retryRequest }
    (ProcessTurn.commitCall ProcessTurn.retryWiring (chatCall.turnInput .normal) chatCandidate
      (py "hello") { ProcessTurn.retryFresh with payloadHash := List.replicate 64 (cp 'a') }))
    firstAdmission.after

def chatEvents (moves : List Move) :
    List (ChatEvent resetSha256 chatHmac loadsDecode stillDynamics some ProcessTurn.retryWiring chatCall) :=
  trace _ moves ⟨firstTurn.after, .admitting⟩

/-- The reply was lost; five seconds later the client sends the request again. -/
def sentAgain : List Move :=
  [.admission (seconds 5) .delivered, .lock (.ok ()), .turn (.replay 1 0 (.ok ()))]

/-- The client sends it again a day later, after a retention round. -/
def sentNextDay : List Move :=
  .other ⟨0, 0, hours 25⟩ (.purgeAdmissionReservations (fun _ => 0) ⟨some (hours 1), some 1000⟩)
    :: .admission (hours 25) .delivered :: .lock (.ok ())
    :: (ProcessTurn.attemptMoves 5).map .turn

def isConflict : Stage ε → Bool
  | .processing _ (.finished (.error (.conflict .requestPayloadConflict _ _))) => true
  | _ => false

def isAnswer : Stage ε → Bool
  | .processing _ (.finished (.ok _)) => true
  | _ => false

def isProvider : ProcessTurn.Effect → Bool
  | .provider => true
  | _ => false

/-- The first call has completed the request, and its reservation is there. -/
theorem firstTurn_completed : firstTurn.after.isCompleted chatCall.key = true ∧
    (firstTurn.after.admissionReservations.get? chatCall.key).map (·.messageHmac) =
      some (List.replicate 64 (cp 'a')) := by
  decide +kernel

theorem firstTurn_stores : ∃ payload, Stores firstTurn.after chatCall.key payload := by
  obtain ⟨row, hrow, n, payload, at_, hs⟩ := isCompleted_iff.mp firstTurn_completed.1
  exact ⟨payload, row, n, at_, hrow, hs⟩

theorem firstTurn_run : Run Db.empty [firstAdmission, firstTurn] firstTurn.after :=
  .cons firstAdmission (.cons firstTurn (.nil _))

theorem guarded_of_get? {original : PyStr} {t : Reservations} {r : AdmissionReservation}
    (h : (t.get? (r.userId, r.requestId)).map (·.messageHmac) = some original) :
    Guarded original t r := by
  obtain ⟨x, hx, hm⟩ := Option.map_eq_some_iff.mp h
  refine ⟨?_, ?_⟩
  · intro x' hx'
    rw [hx] at hx'
    cases hx'
    exact hm
  · intro hnone
    rw [hx] at hnone
    cases hnone

theorem firstTurn_guarded (vNow : Timestamp) : Guarded (List.replicate 64 (cp 'a'))
    firstTurn.after.admissionReservations (reservation chatHmac chatCall vNow) := by
  have h := firstTurn_completed.2
  generalize firstTurn.after.admissionReservations = t at h ⊢
  exact guarded_of_get? h

/-- A run that starts with its only admission is covered where its first state is. -/
theorem covered_trace {original : PyStr} (db : Db) (vNow : Timestamp) (outcome : AdmissionOutcome)
    {moves : List Move} (hmoves : ∀ m ∈ moves, ∀ vNow outcome, m ≠ .admission vNow outcome)
    (hguard : Guarded original db.admissionReservations (reservation hmac c vNow))
    {e : ChatEvent (ε := ε) sha256 hmac decode dyn validateEmotion w c}
    (he : e ∈ trace _ (.admission vNow outcome :: moves) ⟨db, .admitting⟩) : Covered original e := by
  intro vNow' outcome' hin hstage
  rcases List.mem_cons.mp he with rfl | he
  · cases hin
    exact hguard
  · exact absurd hin (hmoves _ (input_of_mem_trace he) _ _)

theorem completed_request_is_replayed_at_once : ∃ payload,
    NeverRecomputed (List.replicate 64 (cp 'a')) payload (chatEvents sentAgain) ∧
      (chatEvents sentAgain).any (fun e => isAnswer e.after.stage) = true := by
  obtain ⟨payload, hstored⟩ := firstTurn_stores
  obtain ⟨s, hrun⟩ : ∃ s, Run ⟨firstTurn.after, .admitting⟩ (chatEvents sentAgain) s :=
    Run.ofInputs sentAgain _
  refine ⟨payload, completed_request_is_replayed firstTurn_run hstored hrun ?_ ?_,
    by decide +kernel⟩
  · intro e he t call hin
    have := input_of_mem_trace he
    rw [hin] at this
    simp [sentAgain] at this
  · intro e he
    refine covered_trace firstTurn.after (seconds 5) .delivered ?_
      (firstTurn_guarded (seconds 5)) he
    simp

/-- **A day later the request is computed again**, and the answer is a conflict. -/
theorem completed_request_is_recomputed_next_day :
    ∃ payload s, Run Db.empty [firstAdmission, firstTurn] firstTurn.after ∧
      Stores firstTurn.after chatCall.key payload ∧
      Run ⟨firstTurn.after, .admitting⟩ (chatEvents sentNextDay) s ∧
      (∀ e ∈ chatEvents sentNextDay, Harmless e) ∧
      ¬ NeverRecomputed (List.replicate 64 (cp 'a')) payload (chatEvents sentNextDay) ∧
      (chatEvents sentNextDay).any (fun e => isConflict e.after.stage) = true := by
  obtain ⟨payload, hstored⟩ := firstTurn_stores
  obtain ⟨s, hrun⟩ : ∃ s, Run ⟨firstTurn.after, .admitting⟩ (chatEvents sentNextDay) s :=
    Run.ofInputs sentNextDay _
  refine ⟨payload, s, firstTurn_run, hstored, hrun, ?_, ?_, by decide +kernel⟩
  · intro e he t call hin
    have := input_of_mem_trace he
    rw [hin] at this
    simp only [sentNextDay, ProcessTurn.attemptMoves, List.map_cons, List.map_nil, List.mem_cons,
      Move.other.injEq, reduceCtorEq, List.not_mem_nil, or_false] at this
    rw [this.2]
    rfl
  · intro h
    have hprovider : (chatEvents sentNextDay).any (fun e => isProvider e.reply) = true := by
      decide +kernel
    obtain ⟨e, he, hreply⟩ := List.any_eq_true.mp hprovider
    refine h.noProvider e he ?_
    generalize e.reply = effect at hreply
    cases effect <;> first | rfl | cases hreply

end Katherine.Cloud.Chat
