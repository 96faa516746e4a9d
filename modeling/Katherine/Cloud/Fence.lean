import Katherine.Cloud.Atomic

/-!
# Privacy operations are applied once and fence off older turns

Over any run of `privacy_apply_operation` and `commit_turn`: an operation id is applied
once, because the ledger row it leaves stays; a repeat writes nothing and gets the stored
result or an error; an applied operation changes the tables of its kind and rows of its
user and nothing else; and a turn whose revision was read before an operation on an
existing profile writes nothing, because both procedures move the same revision.

The frame condition needs one foreign key: a request points at messages of its own user.
Without it the trigger on `chat_logs` could reach the requests of somebody else.
-/

namespace Katherine.Cloud

open Py Sql Pg Runs

variable {sha256 : PyStr → PyStr}

/-- The step is a `privacy_apply_operation` or a `commit_turn`. -/
def PrivacyOrCommit (e : Event (exec sha256)) : Prop :=
  IsCommit e ∨ ∃ t a, e.input = (t, .privacyApplyOperation a)

def Applies (key : PyStr × Uuid) (e : Event (exec sha256)) : Prop :=
  appliesOperation key e.input.2 e.before e.reply = true

theorem appliesOperation_iff {key : PyStr × Uuid} {call : Call} {db : Db} {reply : Reply} :
    appliesOperation key call db reply = true ↔ ∃ a r, call = .privacyApplyOperation a ∧
      reply = .privacy (.result r) ∧ a.authenticatedUserId = some key.1 ∧
      a.operationId = some key.2 ∧ db.privacyOperations.get? key = none := by
  constructor
  · intro h
    unfold appliesOperation at h
    split at h
    · simp only [Bool.and_eq_true, decide_eq_true_eq, Option.isNone_iff_eq_none] at h
      exact ⟨_, _, rfl, rfl, h.1.1, h.1.2, h.2⟩
    · cases h
  · rintro ⟨a, r, rfl, rfl, huser, hid, hnone⟩
    simp [appliesOperation, huser, hid, hnone]

/-- Arguments that name the operation `key` are validated to it. -/
theorem privacyInput_key {a : PrivacyArgs} {i : PrivacyInput} (hv : validatePrivacy a = .ok i)
    {key : PyStr × Uuid} (hu : a.authenticatedUserId = some key.1) (ho : a.operationId = some key.2) :
    i.key = key := by
  obtain ⟨hu', ho', -⟩ := validatePrivacy_ok hv
  rw [hu] at hu'
  rw [ho] at ho'
  exact Prod.ext (Option.some.inj hu').symm (Option.some.inj ho').symm

/-- A step that applies an operation did everything an operation does. -/
theorem applied_of_applies {key : PyStr × Uuid} {e : Event (exec sha256)} (h : Applies key e) :
    ∃ t a i result, e.input = (t, .privacyApplyOperation a) ∧ validatePrivacy a = .ok i ∧
      i.key = key ∧ e.reply = .privacy (.result result) ∧
      Applied sha256 t.now i e.before result e.after := by
  obtain ⟨a, result, hcall, hreply, huser, hid, hnone⟩ := appliesOperation_iff.mp h
  have hin : e.input = (e.input.1, .privacyApplyOperation a) := by rw [← hcall]
  obtain ⟨r, hr, hstep⟩ := privacyStep_of_event hin
  rw [hreply] at hr
  injection hr with hr
  subst hr
  generalize hafter : e.after = db' at hstep ⊢
  cases hstep with
  | replayed i row hv hrow =>
      rw [privacyInput_key hv huser hid, hnone] at hrow
      cases hrow
  | applied i result _ hv ha =>
      exact ⟨_, a, i, result, hin, hv, privacyInput_key hv huser hid, hreply, ha⟩

/-- Any other outcome of `privacy_apply_operation` writes nothing. -/
theorem privacy_unchanged {e : Event (exec sha256)} {t : Times} {a : PrivacyArgs}
    (hin : e.input = (t, .privacyApplyOperation a)) (h : ∀ key, ¬ Applies key e) :
    e.after = e.before := by
  obtain ⟨r, hr, hstep⟩ := privacyStep_of_event hin
  generalize hafter : e.after = db' at hstep ⊢
  cases hstep with
  | refused => rfl
  | raised => rfl
  | replayed => rfl
  | applied i result _ hv ha =>
      refine absurd ?_ (h i.key)
      rw [Applies, hr, hin]
      exact appliesOperation_of_applied hv ha

/-! ## The ledger row stays -/

theorem ledger_kept {e : Event (exec sha256)} (honly : PrivacyOrCommit e) {key : PyStr × Uuid}
    {row : PrivacyOperation} (h : e.before.privacyOperations.get? key = some row) :
    e.after.privacyOperations.get? key = some row := by
  rcases honly with ⟨t, ids, a, hin⟩ | ⟨t, a, hin⟩
  · obtain ⟨r, -, hstep⟩ := commitStep_of_event hin
    generalize e.after = db' at hstep ⊢
    cases hstep with
    | refused => exact h
    | raised => exact h
    | replayed => exact h
    | fresh i req _ hv hc => rw [hc.privacyOperations]; exact h
  · obtain ⟨r, -, hstep⟩ := privacyStep_of_event hin
    generalize e.after = db' at hstep ⊢
    cases hstep with
    | refused => exact h
    | raised => exact h
    | replayed => exact h
    | applied i result _ hv ha =>
        rw [ha.ledger]
        exact Table.get?_insertNew_of_some h

theorem ledger_of_applied {now : Timestamp} {i : PrivacyInput} {db db' : Db} {result : PrivacyResult}
    (h : Applied sha256 now i db result db') :
    db'.privacyOperations.get? i.key = some (i.row sha256 now result) := by
  have hkey : ((i.row sha256 now result).userId, (i.row sha256 now result).operationId) = i.key := rfl
  rw [h.ledger, Table.get?_insertNew, if_pos hkey.symm]
  change some ((db.privacyOperations.get? i.key).getD _) = _
  rw [h.unknown]
  rfl

/-! ## Repeats -/

/-- A repeat under a known operation id is decided by the ledger, once the arguments pass. -/
theorem privacy_repeat {now : Timestamp} {db : Db} {a : PrivacyArgs} {i : PrivacyInput}
    {row : PrivacyOperation} (hv : validatePrivacy a = .ok i)
    (hrow : db.privacyOperations.get? i.key = some row) :
    privacyApplyOperation sha256 now a db =
      (if row.operation = i.operation ∧ row.payloadSha256 = sha256 i.payload.text then
        .result row.result
      else .error
        { code := .operationConflict,
          message := "operation_id already used with a different operation or payload" }, db) := by
  by_cases hsame : row.operation = i.operation ∧ row.payloadSha256 = sha256 i.payload.text
  · simp only [privacyApplyOperation, hv, privacyValidated, hrow, if_pos hsame]
  · simp only [privacyApplyOperation, hv, privacyValidated, hrow, if_neg hsame]

/-- The same arguments get the stored result; others, an error. Nothing is written. -/
theorem repeat_of_ledger (hsha : Set.InjOn sha256 (Set.range Jsonb.text)) {e : Event (exec sha256)} {t : Times}
    {a₁ a₂ : PrivacyArgs} {i₁ : PrivacyInput} {now : Timestamp} {result : PrivacyResult}
    (hv₁ : validatePrivacy a₁ = .ok i₁) (hin : e.input = (t, .privacyApplyOperation a₂))
    (hrow : e.before.privacyOperations.get? i₁.key = some (i₁.row sha256 now result))
    (huser : a₂.authenticatedUserId = a₁.authenticatedUserId)
    (hid : a₂.operationId = a₁.operationId) :
    e.after = e.before ∧ (a₂ = a₁ → e.reply = .privacy (.result result)) ∧
      (a₂ ≠ a₁ → (∃ env, e.reply = .privacy (.error env)) ∨
        ((∃ err, validatePrivacy a₂ = .error (.raised err)) ∧ e.reply = .privacy .raised)) := by
  obtain ⟨hu₁, ho₁, hp₁, hn₁⟩ := validatePrivacy_ok hv₁
  have hexec := e.executed
  rw [hin] at hexec
  change (privacyApplyOperation sha256 t.now a₂ e.before).map Reply.privacy id = _ at hexec
  cases hv₂ : validatePrivacy a₂ with
  | error refusal =>
      have hne : a₂ ≠ a₁ := by
        rintro rfl
        rw [hv₁] at hv₂
        cases hv₂
      cases refusal with
      | envelope env =>
          simp only [privacyApplyOperation, hv₂, Prod.map] at hexec
          obtain ⟨hreply, hafter⟩ := Prod.mk.inj hexec
          exact ⟨hafter.symm, fun h => absurd h hne, fun _ => .inl ⟨env, hreply.symm⟩⟩
      | raised err =>
          simp only [privacyApplyOperation, hv₂, Prod.map] at hexec
          obtain ⟨hreply, hafter⟩ := Prod.mk.inj hexec
          exact ⟨hafter.symm, fun h => absurd h hne, fun _ => .inr ⟨⟨err, rfl⟩, hreply.symm⟩⟩
  | ok i₂ =>
      obtain ⟨hu₂, ho₂, hp₂, hn₂⟩ := validatePrivacy_ok hv₂
      have hkey : i₂.key = i₁.key := privacyInput_key hv₂ (huser.trans hu₁) (hid.trans ho₁)
      rw [privacy_repeat hv₂ (by rw [hkey]; exact hrow)] at hexec
      obtain ⟨hreply, hafter⟩ := Prod.mk.inj hexec
      refine ⟨hafter.symm, ?_, ?_⟩
      · rintro rfl
        rw [hv₁] at hv₂
        cases hv₂
        rw [← hreply]
        simp [PrivacyInput.row]
      · intro hne
        -- arguments that agree in all four fields would be the same
        have hdiff : ¬ (i₁.operation = i₂.operation ∧
            sha256 i₁.payload.text = sha256 i₂.payload.text) := by
          rintro ⟨hop, hpay⟩
          have hpay' : i₁.payload = i₂.payload := Jsonb.text_injective (hsha (Set.mem_range_self _) (Set.mem_range_self _) hpay)
          apply hne
          obtain ⟨u₁, n₁, o₁, p₁⟩ := a₁
          obtain ⟨u₂, n₂, o₂, p₂⟩ := a₂
          simp only at huser hid hp₁ hp₂ hn₁ hn₂
          rw [huser, hid, hp₁, hp₂, hn₁, hn₂, hop, hpay']
        refine .inl ⟨_, hreply.symm.trans (congrArg Reply.privacy (if_neg hdiff))⟩

/-! ## The frame -/

/-- Only what belongs to the kind of the operation has changed. -/
structure OnlyOwnKind (i : PrivacyInput) (db db' : Db) : Prop where
  profiles : ∀ v, (db'.profiles.get? v).isSome = (db.profiles.get? v).isSome
  columns : ∀ v p p', db.profiles.get? v = some p → db'.profiles.get? v = some p' →
    p'.personaConfig = p.personaConfig ∧ p'.userProfile = p.userProfile ∧
    (i.operation ≠ .resetEmotionalState → p'.emotionalState = p.emotionalState) ∧
    (i.operation ≠ .resetRelationshipState → p'.relationshipState = p.relationshipState)
  chatLogs : i.operation ≠ .deleteHistory → db'.chatLogs.rows = db.chatLogs.rows
  turnRequests : i.operation ≠ .deleteHistory → db'.turnRequests.rows = db.turnRequests.rows
  outboxEvents : i.operation ≠ .deleteHistory → db'.outboxEvents.rows = db.outboxEvents.rows
  memories : i.operation ≠ .deleteMemories → db'.memories.rows = db.memories.rows
  archivalExtractions : i.operation ≠ .deleteHistory → i.operation ≠ .deleteMemories →
    db'.archivalExtractions.rows = db.archivalExtractions.rows
  admissionReservations : db'.admissionReservations = db.admissionReservations
  jobs : db'.jobs = db.jobs

/-- The rows of other users are as they were. -/
structure OnlyOwnRows (user : PyStr) (db db' : Db) : Prop where
  profiles : ∀ v, v ≠ user → db'.profiles.get? v = db.profiles.get? v
  chatLogs : db'.chatLogs.rows.filter (·.userId ≠ user) = db.chatLogs.rows.filter (·.userId ≠ user)
  turnRequests : db'.turnRequests.rows.filter (·.userId ≠ user) =
    db.turnRequests.rows.filter (·.userId ≠ user)
  outboxEvents : db'.outboxEvents.rows.filter (·.userId ≠ user) =
    db.outboxEvents.rows.filter (·.userId ≠ user)
  memories : db'.memories.rows.filter (·.userId ≠ some user) =
    db.memories.rows.filter (·.userId ≠ some user)
  archivalExtractions : db'.archivalExtractions.rows.filter (·.userId ≠ user) =
    db.archivalExtractions.rows.filter (·.userId ≠ user)
  privacyOperations : db'.privacyOperations.rows.filter (·.userId ≠ user) =
    db.privacyOperations.rows.filter (·.userId ≠ user)

/-- A filter that keeps everything. -/
theorem filter_not_and_of_false {ρ : Type} {c : Bool} {p : ρ → Bool} {rows : List ρ}
    (hc : c = false) : rows.filter (fun r => !(c && p r)) = rows := by
  subst hc
  simp

/-- Dropping rows of a user keeps the rows of the others. -/
theorem filter_others {ρ κ : Type} [DecidableEq κ] {owner : ρ → κ} {user : κ} {c : Bool}
    {rows : List ρ} :
    (rows.filter fun r => !(c && decide (owner r = user))).filter (fun r => decide (owner r ≠ user)) =
      rows.filter fun r => decide (owner r ≠ user) := by
  rw [List.filter_filter]
  refine List.filter_congr fun r _ => ?_
  by_cases h : owner r = user <;> simp [h]

theorem onlyOwnKind_of_applied {now : Timestamp} {i : PrivacyInput} {db db' : Db}
    {result : PrivacyResult} (h : Applied sha256 now i db result db') : OnlyOwnKind i db db' where
  profiles := by
    intro v
    rw [h.profiles v, Option.isSome_map]
  columns := by
    intro v p p' hp hp'
    rw [h.profiles v, hp] at hp'
    obtain rfl := Option.some.inj hp'
    dsimp only
    by_cases hv : v = i.userId
    · rw [if_pos hv]
      refine ⟨rfl, rfl, ?_, ?_⟩
      · intro hne
        simp [PrivacyInput.onProfile, hne]
      · intro hne
        simp [PrivacyInput.onProfile, hne]
    · rw [if_neg hv]
      exact ⟨rfl, rfl, fun _ => rfl, fun _ => rfl⟩
  chatLogs := fun hne => by rw [h.chatLogs, filter_not_and_of_false (by simp [hne])]
  turnRequests := by
    intro hne
    obtain ⟨gone, hgone, hrows⟩ := h.turnRequests
    have hnothing : gone = fun _ => false := by
      funext n
      rw [Bool.eq_false_iff]
      exact fun hn => hne (hgone n hn).1
    rw [hrows, filter_not_and_of_false (by simp [hne]), hnothing]
    exact (List.map_congr_left fun r _ => nullMessageRefs_none r).trans (List.map_id _)
  outboxEvents := fun hne => by rw [h.outboxEvents, filter_not_and_of_false (by simp [hne])]
  memories := fun hne => by rw [h.memories, filter_not_and_of_false (by simp [hne])]
  archivalExtractions := fun hne hne' => by
    rw [h.archivalExtractions, filter_not_and_of_false (by simp [hne, hne'])]
  admissionReservations := h.admissionReservations
  jobs := h.jobs

/-- A request of another user points at none of the user's messages. -/
theorem nullMessageRefs_other {db : Db} (hrefs : db.MessageRefs) {user : PyStr} {gone : Int → Bool}
    (hgone : ∀ n, gone n = true → ∃ c, db.chatLogs.get? n = some c ∧ c.userId = user)
    {r : TurnRequest} (hr : r ∈ db.turnRequests.rows) (hne : r.userId ≠ user) :
    r.nullMessageRefs gone = r := by
  have hkeep : ∀ x : Option Int, (∀ n, x = some n → r.userMessageChatLogId = some n ∨
      r.assistantMessageChatLogId = some n) → x.filter (fun n => !gone n) = x := by
    rintro (_ | n) hx
    · rfl
    · obtain ⟨c, hc, hcu⟩ := hrefs r hr n (hx n rfl)
      have : gone n = false := by
        rw [Bool.eq_false_iff]
        intro hn
        obtain ⟨c', hc', hcu'⟩ := hgone n hn
        rw [hc] at hc'
        obtain rfl := Option.some.inj hc'
        exact hne (hcu.symm.trans hcu')
      simp [this]
  simp only [TurnRequest.nullMessageRefs, hkeep r.userMessageChatLogId fun n h => .inl h,
    hkeep r.assistantMessageChatLogId fun n h => .inr h]

theorem onlyOwnRows_of_applied {now : Timestamp} {i : PrivacyInput} {db db' : Db}
    {result : PrivacyResult} (hrefs : db.MessageRefs) (h : Applied sha256 now i db result db') :
    OnlyOwnRows i.userId db db' where
  profiles := by
    intro v hv
    rw [h.profiles v]
    simp [hv]
  chatLogs := by rw [h.chatLogs]; exact filter_others
  turnRequests := by
    obtain ⟨gone, hgone, hrows⟩ := h.turnRequests
    have hother : ∀ r ∈ (db.turnRequests.rows.filter fun r =>
        !(decide (i.operation = .deleteHistory) && decide (r.userId = i.userId))).filter
          (fun r => decide (r.userId ≠ i.userId)), r.nullMessageRefs gone = r := by
      intro r hr
      obtain ⟨hr, hne⟩ := List.mem_filter.mp hr
      exact nullMessageRefs_other hrefs (fun n hn => (hgone n hn).2) (List.mem_filter.mp hr).1
        (by simpa using hne)
    rw [hrows, List.filter_map]
    change ((db.turnRequests.rows.filter _).filter fun r => decide (r.userId ≠ i.userId)).map _ = _
    rw [List.map_congr_left hother, List.map_id', filter_others]
  outboxEvents := by rw [h.outboxEvents]; exact filter_others
  memories := by rw [h.memories]; exact filter_others
  archivalExtractions := by rw [h.archivalExtractions]; exact filter_others
  privacyOperations := by
    have hnew : db'.privacyOperations.rows = db.privacyOperations.rows ++ [i.row sha256 now result] := by
      rw [h.ledger]
      exact Table.insertNew_rows h.unknown
    rw [hnew, List.filter_append]
    simp [PrivacyInput.row]

/-! ## The foreign key is kept -/

theorem messageRefs_committed {now : Timestamp} {ids : FreshIds} {i : CommitInput} {db db' : Db}
    {row : TurnRequest} (h : db.MessageRefs) (hc : Committed now ids i db row db') :
    db'.MessageRefs := by
  have hold : ∀ {n c}, db.chatLogs.get? n = some c → db'.chatLogs.get? n = some c := by
    intro n c hn
    have hmem : c ∈ db'.chatLogs.rows := by
      rw [hc.chatLogs]
      exact List.mem_append_left _ (Table.get?_mem hn)
    rw [← Table.get?_key hn]
    exact Table.get?_of_mem hmem
  intro r hr n hn
  rw [hc.turnRequests, Table.mem_put] at hr
  rcases hr with rfl | ⟨hr, -⟩
  · -- the new row points at the two messages of this commit
    have huser : r.userId = i.userId := congrArg Prod.fst hc.key
    have hpair : ∀ c ∈ [ChatLog.mk ids.userMessageId i.userId .user i.userMessage now,
        ChatLog.mk ids.assistantMessageId i.userId .assistant i.assistantMessage now],
        c.id = n → ∃ c, db'.chatLogs.get? n = some c ∧ c.userId = r.userId := by
      rintro c hcm rfl
      refine ⟨c, Table.get?_of_mem (by rw [hc.chatLogs]; exact List.mem_append_right _ hcm), ?_⟩
      rw [huser]
      simp only [List.mem_cons, List.not_mem_nil, or_false] at hcm
      rcases hcm with rfl | rfl <;> rfl
    rcases hn with hn | hn
    · rw [hc.userMessage] at hn
      exact hpair _ (List.mem_cons_self ..) (Option.some.inj hn)
    · rw [hc.assistantMessage] at hn
      exact hpair _ (List.mem_cons_of_mem _ (List.mem_cons_self ..)) (Option.some.inj hn)
  · obtain ⟨c, hget, hu⟩ := h r hr n hn
    exact ⟨c, hold hget, hu⟩

theorem messageRefs_applied {now : Timestamp} {i : PrivacyInput} {db db' : Db}
    {result : PrivacyResult} (h : db.MessageRefs) (ha : Applied sha256 now i db result db') :
    db'.MessageRefs := by
  obtain ⟨gone, hgone, hrows⟩ := ha.turnRequests
  intro r' hr' n hn
  rw [hrows, List.mem_map] at hr'
  obtain ⟨r, hr, rfl⟩ := hr'
  obtain ⟨hr, hkept⟩ := List.mem_filter.mp hr
  have hn' : r.userMessageChatLogId = some n ∨ r.assistantMessageChatLogId = some n := by
    simp only [TurnRequest.nullMessageRefs, Option.filter_eq_some_iff] at hn
    exact hn.imp And.left And.left
  obtain ⟨c, hget, hu⟩ := h r hr n hn'
  refine ⟨c, ?_, hu⟩
  have hmem : c ∈ db'.chatLogs.rows := by
    rw [ha.chatLogs]
    refine List.mem_filter.mpr ⟨Table.get?_mem hget, ?_⟩
    rw [hu]
    exact hkept
  rw [← Table.get?_key hget]
  exact Table.get?_of_mem hmem

theorem messageRefs_kept {e : Event (exec sha256)} (honly : PrivacyOrCommit e)
    (h : e.before.MessageRefs) : e.after.MessageRefs := by
  rcases honly with ⟨t, ids, a, hin⟩ | ⟨t, a, hin⟩
  · obtain ⟨r, -, hstep⟩ := commitStep_of_event hin
    generalize e.after = db' at hstep ⊢
    cases hstep with
    | refused => exact h
    | raised => exact h
    | replayed => exact h
    | fresh i row _ hv hc => exact messageRefs_committed h hc
  · obtain ⟨r, -, hstep⟩ := privacyStep_of_event hin
    generalize e.after = db' at hstep ⊢
    cases hstep with
    | refused => exact h
    | raised => exact h
    | replayed => exact h
    | applied i result _ hv ha => exact messageRefs_applied h ha

/-! ## Revisions -/

theorem revision_applied {now : Timestamp} {i : PrivacyInput} {db db' : Db} {result : PrivacyResult}
    (h : Applied sha256 now i db result db') (v : PyStr) :
    db'.revision v = db.revision v +
      (if v = i.userId ∧ (db.profiles.get? v).isSome then 1 else 0) := by
  rw [Db.revision, Db.revision, h.profiles v]
  cases hp : db.profiles.get? v with
  | none => simp
  | some p =>
      by_cases hv : v = i.userId
      · simp [hv, PrivacyInput.onProfile]
      · simp [hv]

theorem revision_mono {e : Event (exec sha256)} (honly : PrivacyOrCommit e) (v : PyStr) :
    e.before.revision v ≤ e.after.revision v := by
  rcases honly with ⟨t, ids, a, hin⟩ | ⟨t, a, hin⟩
  · obtain ⟨r, -, hstep⟩ := commitStep_of_event hin
    generalize e.after = db' at hstep ⊢
    cases hstep with
    | refused => exact le_rfl
    | raised => exact le_rfl
    | replayed => exact le_rfl
    | fresh i row _ hv hc =>
        have honce := commitsOnce_of_committed hc
        by_cases h : v = i.key.1
        · rw [h, honce.revision]
          omega
        · rw [Db.revision, Db.revision, honce.otherProfiles v h]
  · obtain ⟨r, -, hstep⟩ := privacyStep_of_event hin
    generalize e.after = db' at hstep ⊢
    cases hstep with
    | refused => exact le_rfl
    | raised => exact le_rfl
    | replayed => exact le_rfl
    | applied i result _ hv ha =>
        rw [revision_applied ha v]
        exact Nat.le_add_right _ _

theorem revision_mono_run {db db' : Db} {es : List (Event (exec sha256))} (hrun : Run db es db')
    (honly : ∀ e ∈ es, PrivacyOrCommit e) (v : PyStr) : db.revision v ≤ db'.revision v :=
  (hrun.invariant (P := fun s => db.revision v ≤ s.revision v) le_rfl fun e he h =>
    h.trans (revision_mono (honly e he) v)).1

/-- A commit that expects another revision writes nothing, and says so if its request is new. -/
theorem commit_stale {e : Event (exec sha256)} {t : Times} {ids : FreshIds} {a : CommitArgs}
    {user : PyStr} {expected : Nat} (hin : e.input = (t, .commitTurn ids a))
    (huser : a.authenticatedUserId = some user) (hexp : a.expectedRevision = some (expected : Int))
    (hne : e.before.revision user ≠ expected) :
    e.after = e.before ∧ ∀ i, validateCommit a = .ok i → e.before.turnRequests.get? i.key = none →
      e.reply = .commit (.error
        { code := .revisionMismatch, message := "Profile revision does not match the expected value",
          expectedRevision := some expected, actualRevision := some (e.before.revision user) }) := by
  have hargs : ∀ {i}, validateCommit a = .ok i → i.userId = user ∧ i.expectedRevision = expected := by
    intro i hv
    have hargs := validateCommit_ok hv
    have hu := hargs.userId
    have hx := hargs.expectedRevision
    rw [huser] at hu
    rw [hexp] at hx
    exact ⟨(Option.some.inj hu).symm, Int.ofNat_inj.mp (Option.some.inj hx).symm⟩
  constructor
  · obtain ⟨r, -, hstep⟩ := commitStep_of_event hin
    generalize e.after = db' at hstep ⊢
    cases hstep with
    | refused => rfl
    | raised => rfl
    | replayed => rfl
    | fresh i row _ hv hc =>
        obtain ⟨hu, hx⟩ := hargs hv
        have := hc.expected
        rw [hu, hx] at this
        exact absurd this.symm hne
  · intro i hv hnone
    obtain ⟨hu, hx⟩ := hargs hv
    have hexec := e.executed
    rw [hin] at hexec
    obtain ⟨hreply, -⟩ := Prod.mk.inj hexec
    rw [← hreply]
    simp [hv, commitValidated, hnone, commitWrite, hu, hx, hne]

/-! ## Whole runs -/

/-- **Privacy operations are applied once and fence off older turns.** In every run of
`privacy_apply_operation` and `commit_turn`, from a database that keeps its foreign keys:

* an operation is applied at most once, and a call that does not apply one writes nothing;
* after it was applied, and if no two jsonb texts have one digest, the same call gets the same
  result, and a call with another operation or payload an error envelope, or the persistence error
  if a check of its payload raised; neither writes;
* an applied operation changes only what belongs to its kind, and only rows of its user;
* a turn that expects a revision read before an operation was applied to an existing profile writes
  nothing, and is told `revision_mismatch` if its request is new. -/
theorem privacy_exactly_once {db db' : Db} {es : List (Event (exec sha256))} (hrun : Run db es db')
    (honly : ∀ e ∈ es, PrivacyOrCommit e) (hrefs : db.MessageRefs) :
    (∀ key pre e₁ mid e₂ post, es = pre ++ e₁ :: (mid ++ e₂ :: post) → Applies key e₁ →
      ¬ Applies key e₂) ∧
    (∀ e ∈ es, (∃ t a, e.input = (t, .privacyApplyOperation a)) → (∀ key, ¬ Applies key e) →
      e.after = e.before) ∧
    (Set.InjOn sha256 (Set.range Jsonb.text) →
      ∀ key pre e₁ mid e₂ post t₁ a₁ t₂ a₂ result, es = pre ++ e₁ :: (mid ++ e₂ :: post) →
      Applies key e₁ → e₁.input = (t₁, .privacyApplyOperation a₁) →
      e₁.reply = .privacy (.result result) → e₂.input = (t₂, .privacyApplyOperation a₂) →
      a₂.authenticatedUserId = a₁.authenticatedUserId → a₂.operationId = a₁.operationId →
      e₂.after = e₂.before ∧ (a₂ = a₁ → e₂.reply = .privacy (.result result)) ∧
      (a₂ ≠ a₁ → (∃ env, e₂.reply = .privacy (.error env)) ∨
        ((∃ err, validatePrivacy a₂ = .error (.raised err)) ∧ e₂.reply = .privacy .raised))) ∧
    (∀ e ∈ es, ∀ key, Applies key e → ∃ i, (∃ t a, e.input = (t, .privacyApplyOperation a) ∧
      validatePrivacy a = .ok i) ∧ OnlyOwnKind i e.before e.after ∧
      OnlyOwnRows key.1 e.before e.after) ∧
    (∀ key pre e₁ mid e₂ post t ids a, es = pre ++ e₁ :: (mid ++ e₂ :: post) → Applies key e₁ →
      (e₁.before.profiles.get? key.1).isSome → e₂.input = (t, .commitTurn ids a) →
      a.authenticatedUserId = some key.1 → a.expectedRevision = some (db.revision key.1 : Int) →
      e₂.after = e₂.before ∧ ∀ i, validateCommit a = .ok i →
        e₂.before.turnRequests.get? i.key = none → ∃ env, e₂.reply = .commit (.error env) ∧
          env.code = .revisionMismatch) := by
  -- the ledger row an applied operation leaves is there in every later state
  have hledger : ∀ {key pre e₁ mid e₂ post}, es = pre ++ e₁ :: (mid ++ e₂ :: post) →
      Applies key e₁ → ∃ t a i result, e₁.input = (t, .privacyApplyOperation a) ∧
        validatePrivacy a = .ok i ∧ i.key = key ∧ e₁.reply = .privacy (.result result) ∧
        e₂.before.privacyOperations.get? key = some (i.row sha256 t.now result) := by
    rintro key pre e₁ mid e₂ post rfl happ
    obtain ⟨t, a, i, result, hin, hv, rfl, hreply, ha⟩ := applied_of_applies happ
    obtain ⟨_, _, htail⟩ := hrun.split
    obtain ⟨_, hlater⟩ := htail.cons_inv
    obtain ⟨m, hmid, hlast⟩ := hlater.split
    obtain ⟨rfl, _⟩ := hlast.cons_inv
    refine ⟨t, a, i, result, hin, hv, rfl, hreply, ?_⟩
    refine (hmid.invariant (P := fun s => s.privacyOperations.get? i.key =
      some (i.row sha256 t.now result)) (ledger_of_applied ha) fun e he => ?_).1
    exact ledger_kept (honly e (by simp [he]))
  refine ⟨?_, ?_, ?_, ?_, ?_⟩
  · intro key pre e₁ mid e₂ post hes h₁ h₂
    obtain ⟨t, a, i, result, -, -, -, -, hrow⟩ := hledger hes h₁
    obtain ⟨_, _, _, _, _, _, hnone⟩ := appliesOperation_iff.mp h₂
    rw [hnone] at hrow
    cases hrow
  · rintro e - ⟨t, a, hin⟩ hnot
    exact privacy_unchanged hin hnot
  · intro hsha key pre e₁ mid e₂ post t₁ a₁ t₂ a₂ result hes h₁ hin₁ hreply hin₂ hu ho
    obtain ⟨t, a, i, result', hin, hv, rfl, hreply', hrow⟩ := hledger hes h₁
    rw [hin₁] at hin
    obtain ⟨rfl, hcall⟩ := Prod.mk.inj hin
    obtain rfl := Call.privacyApplyOperation.inj hcall
    rw [hreply] at hreply'
    injection hreply' with hreply'
    injection hreply' with hreply'
    subst hreply'
    exact repeat_of_ledger hsha hv hin₂ hrow hu ho
  · intro e he key happ
    obtain ⟨t, a, i, result, hin, hv, rfl, -, ha⟩ := applied_of_applies happ
    have hbefore : e.before.MessageRefs :=
      ((hrun.invariant hrefs fun e he => messageRefs_kept (honly e he)).2 e he).1
    exact ⟨i, ⟨t, a, hin, hv⟩, onlyOwnKind_of_applied ha, onlyOwnRows_of_applied hbefore ha⟩
  · rintro key pre e₁ mid e₂ post t ids a rfl happ hprofile hin huser hexp
    obtain ⟨t₁, a₁, i₁, result, -, -, rfl, -, ha⟩ := applied_of_applies happ
    obtain ⟨m₀, hpre, htail⟩ := hrun.split
    obtain ⟨rfl, hlater⟩ := htail.cons_inv
    obtain ⟨m, hmid, hlast⟩ := hlater.split
    obtain ⟨rfl, _⟩ := hlast.cons_inv
    have h₀ := revision_mono_run hpre (fun e he => honly e (by simp [he])) i₁.key.1
    have h₁ := revision_applied ha i₁.key.1
    have h₂ := revision_mono_run hmid (fun e he => honly e (by simp [he])) i₁.key.1
    have hstale : e₂.before.revision i₁.key.1 ≠ db.revision i₁.key.1 := by
      rw [if_pos ⟨rfl, hprofile⟩] at h₁
      omega
    obtain ⟨hsame, hreply⟩ := commit_stale hin huser hexp hstale
    exact ⟨hsame, fun i hv hnone => ⟨_, hreply i hv hnone, rfl⟩⟩

/-! ## Two exceptions -/

/-- A reset under an operation id that is taken, with a version number no `bigint` holds. -/
def oversizedReset : PrivacyArgs :=
  { authenticatedUserId := some sampleUser
    operation := py "reset_emotional_state"
    operationId := some sampleOperation
    payload := some (.obj [(py "schema_version", .num ⟨9223372036854775808, 0⟩)]) }

def oversizedRepeat : Event (exec sampleSha256) :=
  .of _ (sampleTimes, .privacyApplyOperation oversizedReset) historyDeletion.after

def memoriesDeletion : Event (exec sampleSha256) :=
  .of _ (sampleTimes, .privacyApplyOperation
    ⟨some sampleUser, py "delete_memories", some sampleOperation, some (.obj [])⟩) firstCommit.after

/-- The first turn again, with the revision it expected then. -/
def staleCommit : Event (exec sampleSha256) :=
  .of _ (sampleTimes, .commitTurn (sampleIds 3) (sampleArgs 0)) memoriesDeletion.after

def Reply.isRaised : Reply → Bool
  | .privacy .raised => true
  | _ => false

def Reply.isResult : Reply → Bool
  | .commit (.result _) => true
  | _ => false

theorem historyDeletion_applies : Applies (sampleUser, sampleOperation) historyDeletion := by
  unfold Applies
  decide +kernel

theorem memoriesDeletion_applies : Applies (sampleUser, sampleOperation) memoriesDeletion := by
  unfold Applies
  decide +kernel

theorem historyDeletion_isPrivacy : PrivacyOrCommit historyDeletion := .inr ⟨_, _, rfl⟩

theorem firstCommit_isCommit : PrivacyOrCommit firstCommit := .inl ⟨_, _, _, rfl⟩

/-- **A repeat can fail without an envelope, and a stale commit can succeed.** After an applied
operation on an existing profile, a repeat with another payload raises; and a turn that expects the
revision from before the operation gets the result of its first commit. -/
theorem repeat_raises_and_stale_replays :
    (Run sampleDb [firstCommit, historyDeletion, oversizedRepeat] oversizedRepeat.after ∧
      Applies (sampleUser, sampleOperation) historyDeletion ∧
      oversizedRepeat.reply.isRaised = true) ∧
    (Run sampleDb [firstCommit, memoriesDeletion, staleCommit] staleCommit.after ∧
      Applies (sampleUser, sampleOperation) memoriesDeletion ∧
      (memoriesDeletion.before.profiles.get? sampleUser).isSome = true ∧
      (sampleArgs 0).expectedRevision = some (sampleDb.revision sampleUser : Int) ∧
      staleCommit.reply.isResult = true) := by
  refine ⟨⟨.cons firstCommit (.cons historyDeletion (.cons oversizedRepeat (.nil _))),
      historyDeletion_applies, ?_⟩,
    .cons firstCommit (.cons memoriesDeletion (.cons staleCommit (.nil _))),
    memoriesDeletion_applies, ?_, ?_, ?_⟩
  · decide +kernel
  · decide +kernel
  · decide +kernel
  · decide +kernel

theorem sampleSha256_injective : Function.Injective sampleSha256 := by
  intro s t h
  unfold sampleSha256 at h
  split at h
  · rename_i hs
    split at h
    · rename_i ht
      rw [hs, ht]
    · injection h with hhead
      exact absurd hhead (by decide)
  · split at h
    · injection h with hhead
      exact absurd hhead (by decide)
    · injection h

theorem sampleDb_messageRefs : sampleDb.MessageRefs := by
  intro r hr
  cases hr

/-- The history is deleted once more, under the same operation id. -/
def historyDeletionAgain : Event (exec sampleSha256) :=
  .of _ (sampleTimes, .privacyApplyOperation
    ⟨some sampleUser, py "delete_history", some sampleOperation, some (.obj [])⟩) secondCommit.after

/-- It takes nothing of the turn that came after it. -/
theorem privacy_exactly_once_sample :
    OnlyOwnRows sampleUser historyDeletion.before historyDeletion.after ∧
    historyDeletionAgain.before.chatLogs.rows.length = 2 ∧
    historyDeletionAgain.after = historyDeletionAgain.before := by
  have honly : ∀ e ∈ [firstCommit, historyDeletion, secondCommit, historyDeletionAgain], PrivacyOrCommit e := by
    intro e he
    simp only [List.mem_cons, List.not_mem_nil, or_false] at he
    rcases he with rfl | rfl | rfl | rfl
    · exact firstCommit_isCommit
    · exact historyDeletion_isPrivacy
    · exact .inl ⟨_, _, _, rfl⟩
    · exact .inr ⟨_, _, rfl⟩
  have hrun : Run sampleDb [firstCommit, historyDeletion, secondCommit, historyDeletionAgain]
      historyDeletionAgain.after :=
    .next (Event.of_before _ _ _) (.next (Event.of_before _ _ _) (.next (Event.of_before _ _ _)
      (.next (Event.of_before _ _ _) (.nil _))))
  obtain ⟨-, -, hrepeat, hframe, -⟩ := privacy_exactly_once hrun honly sampleDb_messageRefs
  obtain ⟨result, hresult⟩ : ∃ result, historyDeletion.reply = .privacy (.result result) := by
    obtain ⟨_, _, _, result, _, _, _, hreply, _⟩ := applied_of_applies historyDeletion_applies
    exact ⟨result, hreply⟩
  obtain ⟨i, -, -, hrows⟩ := hframe historyDeletion (by simp) _ historyDeletion_applies
  refine ⟨hrows, by decide +kernel, ?_⟩
  exact (hrepeat sampleSha256_injective.injOn (sampleUser, sampleOperation) [firstCommit] historyDeletion [secondCommit]
    historyDeletionAgain [] _ _ _ _ result rfl historyDeletion_applies rfl hresult rfl rfl rfl).1

end Katherine.Cloud
