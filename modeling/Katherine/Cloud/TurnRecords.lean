import Katherine.Cloud.Identifiers
import Katherine.Cloud.Replay
import Katherine.Lib.JsonbLoad

/-!
# What the ledger keeps for its answers

An answer of `commit_turn` is put together from the row of the request: its payload, and the
references to its outbox events. Whoever reads the answer checks both again, so what a commit once
checked has to be true of the row for as long as it is there. `OutboxSound` is about the references,
which are copies of events, and `PayloadsSound` about the payloads. Both hold after every run.

Two things the database does not check are asked of the callers: that a payload has only numbers that
its reader can read, and only scalar values for text.
-/

namespace Katherine.Cloud

open Py Sql Pg Runs
open Katherine.Context (canonicalUuid isLowerHex)

variable {sha256 : PyStr → PyStr}

/-! ## Outbox references -/

/-- The columns of an event that never change. -/
structure EventSound (e : OutboxEvent) : Prop where
  eventType : isCode e.eventType = true
  idempotencyKey : isToken 128 e.idempotencyKey = true
  contractVersion : 0 < e.contractVersion

structure RefSound (r : OutboxRef) : Prop where
  eventType : isCode r.eventType = true
  idempotencyKey : isToken 128 r.idempotencyKey = true
  turnRequestId : r.turnRequestId.isSome
  contractVersion : 0 < r.contractVersion

structure OutboxSound (db : Db) : Prop where
  events : ∀ e ∈ db.outboxEvents.rows, EventSound e
  refs : ∀ r ∈ db.turnRequests.rows, ∀ ref ∈ r.replayOutboxRefs, RefSound ref

theorem eventSound_insertEvents {now : Timestamp} {ids : FreshIds} {user : PyStr} {req : Uuid}
    {es : List EventInput} : ∀ {n : Nat} {t t' : Table OutboxEvent Uuid OutboxEvent.id},
    insertEvents now ids user req n es t = .ok t' → (∀ e ∈ t.rows, EventSound e) →
    ∀ e ∈ t'.rows, EventSound e := by
  induction es with
  | nil =>
      intro n t t' h hevents
      cases h
      exact hevents
  | cons input es ih =>
      intro n t t' h hevents
      unfold insertEvents at h
      split at h
      · cases h
      · rename_i hchecks
        split at h
        · cases h
        · refine ih h fun e he => ?_
          rcases Table.mem_insertNew.mp he with he | ⟨rfl, -⟩
          · exact hevents e he
          · simp only [Bool.not_eq_true, Bool.not_eq_false', Bool.and_eq_true] at hchecks
            exact ⟨hchecks.1.1, hchecks.1.2, Nat.one_pos⟩

/-- References are taken from the events of the request. -/
theorem refSound_outboxRefs {events : Table OutboxEvent Uuid OutboxEvent.id} {user : PyStr} {req : Uuid}
    (hevents : ∀ e ∈ events.rows, EventSound e) : ∀ ref ∈ outboxRefs events user req, RefSound ref := by
  intro ref href
  obtain ⟨e, he, rfl⟩ := List.mem_map.mp href
  rw [List.mem_insertionSort] at he
  obtain ⟨he, hmine⟩ := List.mem_filter.mp he
  simp only [Bool.and_eq_true, decide_eq_true_eq] at hmine
  have hsound := hevents e he
  exact ⟨hsound.eventType, hsound.idempotencyKey, by simp [OutboxEvent.ref, hmine.2], hsound.contractVersion⟩

theorem outboxSound_commitWrite {now : Timestamp} {ids : FreshIds} {i : CommitInput}
    {existing : Option TurnRequest} {db db' : Db} {reply : CommitReply}
    (h : commitWrite now ids i existing db = .ok (reply, db')) (hdb : OutboxSound db) : OutboxSound db' := by
  unfold commitWrite at h
  dsimp only at h
  split at h
  · cases h
    exact hdb
  · split at h
    · cases h
    · split at h
      · cases h
        exact hdb
      · rename_i db₁ hp
        obtain ⟨p, -, -, rfl⟩ := writeProfile_some hp
        simp only [except_bind_ok] at h
        obtain ⟨db₂, h₂, db₃, h₃, row, -, events, hev, turn, -, h⟩ := h
        cases h
        obtain ⟨-, rfl⟩ := insertChatLog_ok h₂
        obtain ⟨-, rfl⟩ := insertChatLog_ok h₃
        have hevents := eventSound_insertEvents hev hdb.events
        refine ⟨hevents, fun r hr => ?_⟩
        rcases Table.mem_put.mp hr with rfl | ⟨hr, -⟩
        · exact refSound_outboxRefs hevents
        · exact hdb.refs r hr

theorem outboxSound_commitValidated {now : Timestamp} {ids : FreshIds} {i : CommitInput} {db db' : Db}
    {reply : CommitReply} (h : commitValidated now ids i db = .ok (reply, db')) (hdb : OutboxSound db) :
    OutboxSound db' := by
  unfold commitValidated at h
  dsimp only at h
  repeat' split at h
  -- the branches that write, and those that leave the database as it was
  all_goals first
    | exact outboxSound_commitWrite h hdb
    | (cases h; exact hdb)
    | (obtain ⟨_, -, h⟩ := except_map_ok.mp h; cases h; exact hdb)

theorem outboxSound_commitTurn (now : Timestamp) (ids : FreshIds) (a : CommitArgs) {db : Db}
    (hdb : OutboxSound db) : OutboxSound (commitTurn now ids a db).2 := by
  unfold commitTurn
  split
  · exact hdb
  · exact hdb
  · split
    · rename_i out hout
      exact outboxSound_commitValidated hout hdb
    · exact hdb
    · exact hdb

/-- Rows may go, and events may be delivered. -/
theorem OutboxSound.of_rows {db db' : Db} (h : OutboxSound db)
    (hevents : ∀ e ∈ db'.outboxEvents.rows, ∃ e₀ ∈ db.outboxEvents.rows, e₀.eventType = e.eventType ∧
      e₀.idempotencyKey = e.idempotencyKey ∧ e₀.contractVersion = e.contractVersion)
    (hrows : ∀ r ∈ db'.turnRequests.rows, ∃ r₀ ∈ db.turnRequests.rows, r₀.replayOutboxRefs = r.replayOutboxRefs) :
    OutboxSound db' := by
  constructor
  · intro e he
    obtain ⟨e₀, he₀, htype, hkey, hversion⟩ := hevents e he
    have hsound := h.events e₀ he₀
    exact ⟨htype ▸ hsound.eventType, hkey ▸ hsound.idempotencyKey, hversion ▸ hsound.contractVersion⟩
  · intro r hr
    obtain ⟨r₀, hr₀, hrefs⟩ := hrows r hr
    rw [← hrefs]
    exact h.refs r₀ hr₀

theorem outboxSound_step (x : Times × Call) {db : Db} (h : OutboxSound db) : OutboxSound (exec sha256 x db).2 := by
  have heffect : Effect sha256 x db (exec sha256 x db).1 (exec sha256 x db).2 := exec_effect x db
  generalize hafter : (exec sha256 x db).2 = db' at heffect ⊢
  generalize (exec sha256 x db).1 = reply at heffect
  have hnulled : ∀ {gone : Int → Bool} {rows rows' : List TurnRequest},
      (∀ r ∈ rows, r ∈ db.turnRequests.rows) → rows' = rows.map (·.nullMessageRefs gone) →
      ∀ r ∈ rows', ∃ r₀ ∈ db.turnRequests.rows, r₀.replayOutboxRefs = r.replayOutboxRefs := by
    intro gone rows rows' hrows hmap r hr
    rw [hmap] at hr
    obtain ⟨r₀, hr₀, rfl⟩ := List.mem_map.mp hr
    exact ⟨r₀, hrows r₀ hr₀, rfl⟩
  cases heffect with
  | committed hv hc => exact hafter ▸ outboxSound_commitTurn _ _ _ h
  | applied hv ha =>
      obtain ⟨gone, -, hrows⟩ := ha.turnRequests
      refine h.of_rows (fun e he => ?_) (hnulled (fun _ hr => List.mem_of_mem_filter hr) hrows)
      rw [ha.outboxEvents] at he
      exact ⟨e, List.mem_of_mem_filter he, rfl, rfl, rfl⟩
  | outboxPurged => exact ⟨fun e he => h.events e (Table.mem_deleteWhere.mp he).1, h.refs⟩
  | @purged t a _ _ j user counts hp =>
      rw [hp.rows]
      obtain ⟨gone, hrows⟩ := purgeUser_turnRequests db user
      refine h.of_rows (fun e he => ?_) (hnulled (fun _ hr => List.mem_of_mem_filter hr) hrows)
      have he := (Table.mem_deleteWhere.mp (Table.mem_deleteWhere.mp he).1).1
      exact ⟨e, he, rfl, rfl, rfl⟩
  | pruned =>
      exact h.of_rows (fun e he => ⟨e, he, rfl, rfl, rfl⟩) (hnulled (fun _ hr => hr) rfl)
  | delivered =>
      refine h.of_rows (fun e he => ?_) fun r hr => ⟨r, hr, rfl⟩
      obtain ⟨e₀, he₀, rfl⟩ := List.mem_map.mp he
      refine ⟨e₀, he₀, ?_⟩
      split <;> exact ⟨rfl, rfl, rfl⟩
  | _ => exact ⟨h.events, h.refs⟩

theorem outboxSound_of_run {es : List (Event (exec sha256))} {db : Db} (hrun : Run Db.empty es db) :
    OutboxSound db ∧ ∀ e ∈ es, OutboxSound e.before ∧ OutboxSound e.after := by
  refine hrun.invariant ⟨nofun, nofun⟩ fun e _ h => ?_
  have hafter : OutboxSound (exec sha256 e.input e.before).2 := outboxSound_step e.input h
  rwa [e.executed] at hafter

/-! ## Payloads -/

section

variable (readNumber : Numeric → PyVal)

/-- What is asked of a payload besides the checks. -/
structure PayloadLegible (payload : Jsonb) : Prop where
  numbers : Jsonb.Legible readNumber payload
  encodable : encodable payload.text = true

/-- The contract of a replay payload. -/
structure PayloadSound (requestId : Uuid) (payload : Jsonb) : Prop extends PayloadLegible readNumber payload where
  isObject : payload.isObject = true
  keys : keysSubsetOf payload replayKeys = true
  allowed : hasForbiddenKey replayForbidden payload = false
  response : ∃ s, payload.get? (py "response") = some (.str s)
  requestId : replayRequestIdOk payload requestId = true
  messageId : ∃ s, payload.get? (py "message_id") = some (.str s) ∧ canonicalUuid s = true
  octetLength : payload.octetLength ≤ 8192

/-- A payload that is sent is legible. -/
def Call.SendsLegible : Call → Prop
  | .commitTurn _ a => ∀ payload, a.replayPayload = some payload → PayloadLegible readNumber payload
  | _ => True

/-- A completed row has what its answer needs. -/
def PayloadsSound (db : Db) : Prop :=
  ∀ r ∈ db.turnRequests.rows, ∀ n payload at_, r.state = .completed n payload at_ →
    r.userId ≠ [] ∧ PayloadSound readNumber r.requestId payload

end

variable {readNumber : Numeric → PyVal}

theorem eq_str_of_isString {v : Jsonb} (h : v.isString = true) : ∃ s, v = .str s := by
  cases v with
  | str s => exact ⟨s, rfl⟩
  | _ => cases h

theorem hyphen_not_mem_decimalText (n scale : Nat) : cp '-' ∉ decimalText n scale := by
  have hdigit : isDigit (cp '-') = false := by decide
  have hdigits : ∀ {s : PyStr}, (∀ c ∈ s, isDigit c = true) → cp '-' ∉ s := by
    intro s hs hmem
    have := hs _ hmem
    rw [hdigit] at this
    cases this
  rw [decimalText_eq, List.mem_append, not_or]
  refine ⟨hdigits (natText_all_digit _), ?_⟩
  unfold fractionTail
  split
  · exact List.not_mem_nil
  · rw [List.mem_cons, not_or]
    exact ⟨by decide, hdigits (lastDigits_all_digit _ _)⟩

/-- A sign stands in front only. -/
theorem hyphen_not_mem_tail (x : Numeric) : cp '-' ∉ x.text.tail := by
  have hnot := hyphen_not_mem_decimalText x.coeff.natAbs x.scale
  unfold Numeric.text
  split
  · exact hnot
  · exact fun hmem => hnot (List.mem_of_mem_tail hmem)

theorem hyphen_mem_tail {s : PyStr} (h : canonicalUuid s = true) : cp '-' ∈ s.tail := by
  rw [canonicalUuid, Bool.and_eq_true, decide_eq_true_eq, List.all_eq_true] at h
  have hlt : 8 < s.length := by omega
  have hclass := h.2 (s[8], 8) (List.mem_zipIdx_iff_getElem?.mpr (List.getElem?_eq_getElem hlt))
  have hc : s[8] = cp '-' := by simpa using hclass
  refine List.mem_of_getElem? (i := 7) ?_
  rw [List.getElem?_tail, List.getElem?_eq_getElem hlt, hc]

/-- No other value has the text of an identifier. -/
theorem eq_str_of_canonicalUuid {v : Jsonb} {s : PyStr} (h : v.asText = some s)
    (hs : canonicalUuid s = true) : v = .str s := by
  have hchars := canonicalUuid_chars hs
  -- the other texts start with a character that no identifier has
  have hhead : ∀ {c : CodePoint} {t : PyStr}, s = c :: t → isLowerHex c = false → c ≠ cp '-' → v = .str s := by
    intro c t hct hhex hhyphen
    rcases hchars c (by rw [hct]; exact List.mem_cons_self) with h' | h'
    · rw [hhex] at h'
      cases h'
    · exact absurd h' hhyphen
  cases v with
  | null => cases h
  | str t =>
      cases h
      rfl
  | num x =>
      cases h
      exact absurd (hyphen_mem_tail hs) (hyphen_not_mem_tail x)
  | bool b =>
      cases h
      cases b
      · exact absurd (canonicalUuid_length hs) (by decide)
      · exact absurd (canonicalUuid_length hs) (by decide)
  | arr xs =>
      cases h
      cases xs with
      | nil => exact hhead rfl (by decide) (by decide)
      | cons x xs => exact hhead rfl (by decide) (by decide)
  | obj kvs =>
      cases h
      cases kvs with
      | nil => exact hhead rfl (by decide) (by decide)
      | cons p kvs => exact hhead rfl (by decide) (by decide)

theorem messageId_of_ok {payload : Jsonb} (h : messageIdOk payload = true) :
    ∃ s, payload.get? (py "message_id") = some (.str s) ∧ canonicalUuid s = true := by
  unfold messageIdOk at h
  split at h
  · rename_i s hs
    obtain ⟨v, hv, htext⟩ := Option.bind_eq_some_iff.mp hs
    rw [eq_str_of_canonicalUuid htext h] at hv
    exact ⟨s, hv, h⟩
  · cases h

theorem validateReplayPayload_sound {a : CommitArgs} {requestId : Uuid} {payload : Jsonb}
    (h : validateReplayPayload a requestId = .ok payload)
    (hlegible : ∀ p, a.replayPayload = some p → PayloadLegible readNumber p) :
    PayloadSound readNumber requestId payload := by
  simp only [validateReplayPayload, except_bind_ok, given_eq_ok, ensure_eq_ok, Option.filter_eq_some_iff] at h
  obtain ⟨p, ⟨hp, hobject⟩, _, hkeys, _, hallowed, _, hresponse, _, hrequest, _, -, _, hid, _, hlength, h⟩ := h
  cases h
  obtain ⟨v, hv, hstring⟩ := (Option.any_eq_true _ _).mp hresponse
  obtain ⟨s, rfl⟩ := eq_str_of_isString hstring
  exact
    { hlegible payload hp with
      isObject := hobject
      keys := hkeys
      allowed := by simpa using hallowed
      response := ⟨s, hv⟩
      requestId := hrequest
      messageId := messageId_of_ok hid
      octetLength := of_decide_eq_true hlength }

theorem validateCommit_sound {a : CommitArgs} {i : CommitInput} (h : validateCommit a = .ok i)
    (hlegible : ∀ p, a.replayPayload = some p → PayloadLegible readNumber p) :
    i.userId ≠ [] ∧ PayloadSound readNumber i.requestId i.replayPayload := by
  refine ⟨(validateCommit_ok h).userId_ne, ?_⟩
  simp only [validateCommit, except_bind_ok] at h
  obtain ⟨_, -, request, -, _, -, _, -, _, -, _, -, payload, hpayload, _, -, _, -, _, -, _, -, _, -, h⟩ := h
  cases h
  exact validateReplayPayload_sound hpayload hlegible

/-- Rows may go, and lose their messages. -/
theorem PayloadsSound.of_rows {db db' : Db} (h : PayloadsSound readNumber db)
    (hrows : ∀ r ∈ db'.turnRequests.rows, ∃ r₀ ∈ db.turnRequests.rows, SameReplay r₀ r) :
    PayloadsSound readNumber db' := by
  intro r hr n payload at_ hs
  obtain ⟨r₀, hr₀, hsame⟩ := hrows r hr
  have huser : r.userId = r₀.userId := congrArg Prod.fst hsame.key
  have hrequest : r.requestId = r₀.requestId := congrArg Prod.snd hsame.key
  rw [huser, hrequest]
  exact h r₀ hr₀ n payload at_ (hsame.state ▸ hs)

theorem payloadsSound_effect {x : Times × Call} {db db' : Db} {reply : Reply}
    (heffect : Effect sha256 x db reply db') (hlegible : x.2.SendsLegible readNumber)
    (h : PayloadsSound readNumber db) : PayloadsSound readNumber db' := by
  have hnulled : ∀ {gone : Int → Bool} {rows rows' : List TurnRequest},
      (∀ r ∈ rows, r ∈ db.turnRequests.rows) → rows' = rows.map (·.nullMessageRefs gone) →
      ∀ r ∈ rows', ∃ r₀ ∈ db.turnRequests.rows, SameReplay r₀ r := by
    intro gone rows rows' hrows hmap r hr
    rw [hmap] at hr
    obtain ⟨r₀, hr₀, rfl⟩ := List.mem_map.mp hr
    exact ⟨r₀, hrows r₀ hr₀, sameReplay_nullMessageRefs gone r₀⟩
  cases heffect with
  | @committed t ids a i _ _ row hv hc =>
      intro r hr n payload at_ hs
      rw [hc.turnRequests] at hr
      rcases Table.mem_put.mp hr with rfl | ⟨hr, -⟩
      · rw [hc.state] at hs
        cases hs
        have huser : r.userId = i.userId := congrArg Prod.fst hc.key
        have hrequest : r.requestId = i.requestId := congrArg Prod.snd hc.key
        rw [huser, hrequest]
        exact validateCommit_sound hv hlegible
      · exact h r hr n payload at_ hs
  | applied hv ha =>
      obtain ⟨gone, -, hrows⟩ := ha.turnRequests
      exact h.of_rows (hnulled (fun _ hr => List.mem_of_mem_filter hr) hrows)
  | @purged t a _ _ j user counts hp =>
      obtain ⟨gone, hrows⟩ := purgeUser_turnRequests db user
      rw [hp.rows]
      exact h.of_rows (hnulled (fun _ hr => List.mem_of_mem_filter hr) hrows)
  | pruned => exact h.of_rows (hnulled (fun _ hr => hr) rfl)
  | _ => exact h

theorem payloadsSound_of_run {es : List (Event (exec sha256))} {db : Db} (hrun : Run Db.empty es db)
    (hlegible : ∀ e ∈ es, e.input.2.SendsLegible readNumber) :
    PayloadsSound readNumber db ∧ ∀ e ∈ es, PayloadsSound readNumber e.before ∧ PayloadsSound readNumber e.after :=
  hrun.invariant nofun fun e he h => payloadsSound_effect (effect_of_event e) (hlegible e he) h

end Katherine.Cloud
