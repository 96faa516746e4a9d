import Katherine.Desktop.UseChat

/-!
# The steps of the chat hook

What the two list functions of the hook return, and one lemma for each thing that can
happen to it: what it leaves as it was and what it may change. Nothing after this module
unfolds a step.

The flags come first (`FlightInv`). While the hook is mounted it is in flight exactly when
a request of its own has not settled, and there is never a second one.
-/

namespace Katherine.Desktop

open Py Runs

/-! ## Lists of messages -/

/-- What `upsertMessage` leaves: the other messages, and the candidate or what it was assigned to. -/
theorem mem_upsertMessage {c m : Message} : ∀ {ms : List Message}, m ∈ upsertMessage c ms →
    m ∈ ms ∨ m = c ∨ ∃ m₀ ∈ ms, c.matches m₀ = true ∧ m = m₀.assign c
  | [], h => .inr (.inl (List.mem_singleton.mp h))
  | m₁ :: ms, h => by
      rw [upsertMessage] at h
      split at h
      · next hmatch =>
          rcases List.mem_cons.mp h with rfl | h
          · exact .inr (.inr ⟨m₁, List.mem_cons_self, hmatch, rfl⟩)
          · exact .inl (List.mem_cons_of_mem _ h)
      · rcases List.mem_cons.mp h with rfl | h
        · exact .inl List.mem_cons_self
        · rcases mem_upsertMessage h with h | h | ⟨m₀, hm₀, h⟩
          · exact .inl (List.mem_cons_of_mem _ h)
          · exact .inr (.inl h)
          · exact .inr (.inr ⟨m₀, List.mem_cons_of_mem _ hm₀, h⟩)

theorem localId_upsertMessage {c : Message} {ms : List Message} {l : PyStr}
    (h : l ∈ (upsertMessage c ms).map (·.localId)) : l = c.localId ∨ l ∈ ms.map (·.localId) := by
  obtain ⟨m, hm, rfl⟩ := List.mem_map.mp h
  rcases mem_upsertMessage hm with hm | rfl | ⟨m₀, _, _, rfl⟩
  · exact .inr (List.mem_map_of_mem hm)
  · exact .inl rfl
  · exact .inl rfl

/-- A candidate without a server id, or with a new local id, gives no id to two messages. -/
theorem upsertMessage_nodup {c : Message} : ∀ {ms : List Message},
    (c.serverId = .null ∨ c.localId ∉ ms.map (·.localId)) → (ms.map (·.localId)).Nodup →
      ((upsertMessage c ms).map (·.localId)).Nodup
  | [], _, _ => by simp [upsertMessage]
  | m :: ms, hc, hnd => by
      rw [List.map_cons, List.nodup_cons] at hnd
      rw [upsertMessage]
      split
      · next hmatch =>
          rw [List.map_cons, List.nodup_cons]
          refine ⟨?_, hnd.2⟩
          rcases hc with hnull | hnew
          · have hsame : m.localId = c.localId := by simpa [Message.matches, hnull] using hmatch
            intro hmem
            have hmem' : c.localId ∈ ms.map (·.localId) := hmem
            rw [← hsame] at hmem'
            exact hnd.1 hmem'
          · exact fun hmem => hnew (List.mem_cons_of_mem _ hmem)
      · next hmatch =>
          have hne : m.localId ≠ c.localId := by
            intro hsame
            rw [Message.matches, hsame, decide_eq_true rfl, Bool.true_or] at hmatch
            exact hmatch rfl
          have htail : c.serverId = .null ∨ c.localId ∉ ms.map (·.localId) :=
            hc.imp_right fun hnew hmem => hnew (List.mem_cons_of_mem _ hmem)
          rw [List.map_cons, List.nodup_cons]
          refine ⟨?_, upsertMessage_nodup htail hnd.2⟩
          intro hmem
          rcases localId_upsertMessage hmem with hsame | hmem
          · exact hne hsame
          · exact hnd.1 hmem

@[simp] theorem deliver_localId (l : PyStr) (d r e : JsVal) (m : Message) :
    (m.deliver l d r e).localId = m.localId := by
  unfold Message.deliver
  split <;> rfl

theorem deliver_localIds (l : PyStr) (d r e : JsVal) (ms : List Message) :
    (ms.map (Message.deliver l d r e)).map (·.localId) = ms.map (·.localId) := by
  rw [List.map_map]
  exact List.map_congr_left fun m _ => deliver_localId l d r e m

/-- The id of a history row: not one of `seen`, or counted after `lo`. -/
inductive HistoryId (seen : List PyStr) (lo hi : Nat) : PyStr → Prop
  | persisted {id : JsVal} (hnew : identity id ∉ seen) : HistoryId seen lo hi (persistedLocalId id)
  | counted {n : Nat} (hlo : lo < n) (hhi : n ≤ hi) :
      HistoryId seen lo hi (nextLocalId (py "history") n)

theorem HistoryId.mono {seen seen' : List PyStr} {lo lo' hi hi' : Nat} {l : PyStr}
    (h : HistoryId seen lo hi l) (hseen : ∀ x ∈ seen', x ∈ seen) (hlo : lo' ≤ lo) (hhi : hi ≤ hi') :
    HistoryId seen' lo' hi' l := by
  cases h with
  | persisted hnew => exact .persisted fun hmem => hnew (hseen _ hmem)
  | counted h1 h2 => exact .counted (Nat.lt_of_le_of_lt hlo h1) (Nat.le_trans h2 hhi)

theorem HistoryId.not_seen {seen : List PyStr} {lo hi : Nat} {id : JsVal}
    (h : HistoryId seen lo hi (persistedLocalId id)) : identity id ∉ seen := by
  generalize hl : persistedLocalId id = l at h
  cases h with
  | persisted hnew => rwa [identity_of_persistedLocalId hl]
  | counted => exact absurd hl (persistedLocalId_ne_local id _)

theorem HistoryId.count {seen : List PyStr} {lo hi n : Nat}
    (h : HistoryId seen lo hi (nextLocalId (py "history") n)) : lo < n ∧ n ≤ hi := by
  generalize hl : nextLocalId (py "history") n = l at h
  cases h with
  | persisted => exact absurd hl.symm (persistedLocalId_ne_local _ _)
  | counted hlo hhi =>
      rw [nextLocalId_injective hl]
      exact ⟨hlo, hhi⟩

/-- What `normalizeHistory` returns. -/
structure Normalized (seen : List PyStr) (lo : Nat) (out : List Message × Nat) : Prop where
  counter : lo ≤ out.2
  ids : ∀ m ∈ out.1, HistoryId seen lo out.2 m.localId
  sent : ∀ m ∈ out.1, m.deliveryStatus = some (js "sent")
  nodup : (out.1.map (·.localId)).Nodup

/-- **History rows get distinct ids**, whatever the rows are. -/
theorem normalizeHistory_normalized : ∀ (rows : List Row) (seen : List PyStr) (sequence : Nat),
    Normalized seen sequence (normalizeHistory seen sequence rows)
  | [], seen, sequence => ⟨Nat.le_refl _, by simp [normalizeHistory], by simp [normalizeHistory],
      List.nodup_nil⟩
  | row :: rows, seen, sequence => by
      rw [normalizeHistory]
      split
      · next id hid =>
          split
          · exact normalizeHistory_normalized rows seen sequence
          · next hnew =>
              have ih := normalizeHistory_normalized rows (identity id :: seen) sequence
              refine ⟨ih.counter, ?_, ?_, ?_⟩
              · intro m hm
                rcases List.mem_cons.mp hm with rfl | hm
                · exact .persisted hnew
                · exact (ih.ids m hm).mono (fun _ => List.mem_cons_of_mem _) le_rfl le_rfl
              · intro m hm
                rcases List.mem_cons.mp hm with rfl | hm
                · rfl
                · exact ih.sent m hm
              · rw [List.map_cons, List.nodup_cons]
                refine ⟨?_, ih.nodup⟩
                intro hmem
                obtain ⟨m, hm, hsame⟩ := List.mem_map.mp hmem
                have hid' := ih.ids m hm
                rw [hsame] at hid'
                exact hid'.not_seen List.mem_cons_self
      · have ih := normalizeHistory_normalized rows seen (sequence + 1)
        have hcounter := ih.counter
        refine ⟨Nat.le_of_succ_le hcounter, ?_, ?_, ?_⟩
        · intro m hm
          rcases List.mem_cons.mp hm with rfl | hm
          · exact .counted (Nat.lt_succ_self _) hcounter
          · exact (ih.ids m hm).mono (fun _ h => h) (Nat.le_succ _) le_rfl
        · intro m hm
          rcases List.mem_cons.mp hm with rfl | hm
          · rfl
          · exact ih.sent m hm
        · rw [List.map_cons, List.nodup_cons]
          refine ⟨?_, ih.nodup⟩
          intro hmem
          obtain ⟨m, hm, hsame⟩ := List.mem_map.mp hmem
          have hid' := ih.ids m hm
          rw [hsame] at hid'
          exact absurd hid'.count.1 (Nat.lt_irrefl _)

/-! ## One step -/

theorem cleanupRequest_eq (s : Chat) : ∃ timers timerId aborted abortController,
    s.cleanupRequest = { s with
      timers := timers, timerId := timerId, aborted := aborted, abortController := abortController } := by
  obtain ⟨ms, input, loading, emotion, controller, timer, token, mounted, flying, version, sequence,
    generation, intents, history, outstanding, timers, aborted⟩ := s
  cases controller <;> cases timer <;> exact ⟨_, _, _, _, rfl⟩

/-- Every field of the hook that `start` changes, but for controllers and timers. -/
theorem start_eq (s : Chat) (intent : Message) (generation : Nat) :
    ∃ timers timerId aborted abortController, s.start intent generation = { s with
      inFlight := true
      isLoading := true
      localMessagesVersion := s.localMessagesVersion + 1
      messages := upsertMessage intent.sending s.messages
      requestToken := s.requestToken + 1
      outstanding := s.outstanding ++ [⟨s.requestToken + 1, generation, intent⟩]
      timers := timers
      timerId := timerId
      aborted := aborted
      abortController := abortController } := by
  dsimp only [Chat.start]
  obtain ⟨timers, timerId, aborted, abortController, h⟩ := cleanupRequest_eq { s with
    inFlight := true
    localMessagesVersion := s.localMessagesVersion + 1
    messages := upsertMessage intent.sending s.messages
    isLoading := true }
  rw [h]
  exact ⟨_, _, _, _, rfl⟩

/-- `sendIntent` starts a request or does nothing. -/
theorem sendIntent_cases {s s' : Chat} {intent : Message} {r : Option Attempt}
    (h : s.sendIntent intent = (r, s')) : (r = none ∧ s' = s) ∨
      (s.mounted = true ∧ s.inFlight = false ∧
        s.generationOf intent.localId = some s.screenGeneration ∧
        r = some ⟨intent.localId, intent.requestId, intent.content⟩ ∧
        s' = s.start intent s.screenGeneration) := by
  unfold Chat.sendIntent at h
  split at h
  · cases h
    exact .inl ⟨rfl, rfl⟩
  · next hfree =>
      simp only [Bool.or_eq_true, Bool.not_eq_true', not_or, Bool.not_eq_false, Bool.not_eq_true] at hfree
      split at h
      · cases h
        exact .inl ⟨rfl, rfl⟩
      · next generation hgeneration =>
          split at h
          · cases h
            exact .inl ⟨rfl, rfl⟩
          · next hcurrent =>
              rw [ne_eq, not_not] at hcurrent
              subst hcurrent
              cases h
              exact .inr ⟨hfree.1, hfree.2, hgeneration, rfl, rfl⟩

/-- The state in which a new intent is sent. -/
def Chat.withIntent (s : Chat) (requestId : PyStr) : Chat :=
  { s.forget (userLocalId requestId) with
    intentGeneration := (userLocalId requestId, s.screenGeneration)
      :: (s.forget (userLocalId requestId)).intentGeneration
    input := [] }

/-- The state after the message that no request id could be had. -/
def Chat.unavailable (s : Chat) : Chat :=
  { s with
    localMessagesVersion := s.localMessagesVersion + 1
    localMessageSequence := s.localMessageSequence + 1
    messages := s.messages ++ [{
      localId := nextLocalId (py "system") (s.localMessageSequence + 1)
      serverId := .null
      role := some (js "system")
      content := some requestIdUnavailable }] }

theorem handleSend_cases {s s' : Chat} {view : View} {requestId : Option PyStr} {r : Option Attempt}
    (h : s.handleSend view requestId = (r, s')) :
    (r = none ∧ s' = s) ∨ (r = none ∧ s' = s.unavailable) ∨
      ∃ id, requestId = some id ∧
        (s.withIntent id).sendIntent (newIntent id (jsTrim view.input)) = (r, s') := by
  unfold Chat.handleSend at h
  split at h
  · cases h
    exact .inl ⟨rfl, rfl⟩
  · cases requestId with
    | none =>
        cases h
        exact .inr (.inl ⟨rfl, rfl⟩)
    | some id => exact .inr (.inr ⟨id, rfl, h⟩)

theorem retryMessage_cases {s s' : Chat} {view : View} {localId : PyStr} {r : Option Attempt}
    (h : s.retryMessage view localId = (r, s')) :
    (r = none ∧ s' = s) ∨ ∃ intent ∈ view.messages, intent.canRetry localId = true ∧
      s.sendIntent intent = (r, s') := by
  unfold Chat.retryMessage at h
  split at h
  · cases h
    exact .inl ⟨rfl, rfl⟩
  · split at h
    · cases h
      exact .inl ⟨rfl, rfl⟩
    · next intent hfind =>
        have hcan := List.find?_some hfind
        exact .inr ⟨intent, List.mem_of_find?_eq_some hfind, hcan, h⟩

/-- The history is shown only if nothing has changed the messages since the mount. -/
theorem receiveHistory_cases (s : Chat) (rows : Option (List Row)) :
    s.receiveHistory rows = s ∨ s.receiveHistory rows = { s with history := .closed } ∨
      ∃ rows', rows = some rows' ∧ s.mounted = true ∧ s.history = .pending s.localMessagesVersion ∧
        s.receiveHistory rows = { s with
          history := .closed
          messages := (normalizeHistory [] s.localMessageSequence rows').1
          localMessageSequence := (normalizeHistory [] s.localMessageSequence rows').2 } := by
  dsimp only [Chat.receiveHistory]
  cases hh : s.history with
  | idle => exact .inl rfl
  | closed => exact .inl rfl
  | pending v =>
      refine .inr ?_
      by_cases hstale : (!s.mounted || decide (v ≠ s.localMessagesVersion)) = true
      · exact .inl (if_pos hstale)
      · cases rows with
        | none => exact .inl (if_neg hstale)
        | some rows =>
            refine .inr ⟨rows, rfl, ?_⟩
            simp only [Bool.or_eq_true, Bool.not_eq_true', decide_eq_true_eq, not_or, not_not,
              Bool.not_eq_false] at hstale
            obtain ⟨hmounted, rfl⟩ := hstale
            refine ⟨hmounted, rfl, ?_⟩
            simp only [hmounted, ne_eq, not_true_eq_false, decide_false, Bool.not_true, Bool.or_self,
              Bool.false_eq_true, if_false]

theorem unmount_eq (s : Chat) : ∃ timers timerId aborted abortController, s.unmount = { s with
    mounted := false
    requestToken := s.requestToken + 1
    inFlight := false
    history := .closed
    timers := timers
    timerId := timerId
    aborted := aborted
    abortController := abortController } := by
  obtain ⟨_, _, _, _, h⟩ := cleanupRequest_eq { s with
    mounted := false
    requestToken := s.requestToken + 1
    inFlight := false
    history := .closed }
  exact ⟨_, _, _, _, h⟩

/-- What a request that settles does to the messages, the intents and the emotion. -/
inductive Shown (s : Chat) (q : Request) (r : Settlement) :
    List Message → List (PyStr × Nat) → JsVal → Prop
  | dropped (howned : s.ownsVisibleIntent q = false) :
      Shown s q r s.messages s.intentGeneration s.emotionState
  | answered {data : Data} (howned : s.ownsVisibleIntent q = true) (hr : r = .resolved data) :
      Shown s q r
        (upsertMessage (answer q data)
          (s.messages.map (Message.deliver q.intent.localId (js "sent") (.bool false) .null)))
        (s.intentGeneration.filter (·.1 ≠ q.intent.localId)) data.emotion
  | failed {status retryable message : JsVal} {intents : List (PyStr × Nat)}
      (howned : s.ownsVisibleIntent q = true) (hintents : ∀ p ∈ intents, p ∈ s.intentGeneration) :
      Shown s q r (s.messages.map (Message.deliver q.intent.localId status retryable message)) intents
        s.emotionState

/-- The request `q` has settled. -/
structure Settled (s : Chat) (q : Request) (r : Settlement) (s' : Chat) : Prop where
  shown : Shown s q r s'.messages s'.intentGeneration s'.emotionState
  outstanding : s'.outstanding = s.outstanding.filter (·.token ≠ q.token)
  requestToken : s'.requestToken = s.requestToken
  mounted : s'.mounted = s.mounted
  version : s'.localMessagesVersion = s.localMessagesVersion
  sequence : s'.localMessageSequence = s.localMessageSequence
  generation : s'.screenGeneration = s.screenGeneration
  history : s'.history = s.history
  /-- The request that the hook owns releases both flags, and no other one does. -/
  released : s.mounted = true → q.token = s.requestToken →
    s'.isLoading = false ∧ s'.inFlight = false
  kept : s.mounted = true → q.token ≠ s.requestToken → s'.inFlight = s.inFlight

theorem Chat.release_settled {s t : Chat} {q : Request} {r : Settlement}
    (hshown : Shown s q r t.messages t.intentGeneration t.emotionState)
    (houtstanding : t.outstanding = s.outstanding.filter (·.token ≠ q.token))
    (hsame : t.requestToken = s.requestToken ∧ t.mounted = s.mounted ∧
      t.localMessagesVersion = s.localMessagesVersion ∧
      t.localMessageSequence = s.localMessageSequence ∧ t.screenGeneration = s.screenGeneration ∧
      t.history = s.history ∧ t.inFlight = s.inFlight) : Settled s q r (t.release q) := by
  obtain ⟨h1, h2, h3, h4, h5, h6, h7⟩ := hsame
  unfold Chat.release
  split
  · next hown =>
      simp only [h1, h2, Bool.and_eq_true, decide_eq_true_eq] at hown
      exact ⟨hshown, houtstanding, h1, h2, h3, h4, h5, h6, fun _ _ => ⟨rfl, rfl⟩,
        fun _ hne => absurd hown.2 hne⟩
  · next hown =>
      simp only [h1, h2, Bool.and_eq_true, decide_eq_true_eq, not_and] at hown
      exact ⟨hshown, houtstanding, h1, h2, h3, h4, h5, h6, fun hm ht => absurd ht (hown hm),
        fun _ _ => h7⟩

theorem failed_settled {s : Chat} {q : Request} {r : Settlement} {type : ChatErrorType}
    {message : JsVal} (howned : s.ownsVisibleIntent q = true) :
    Settled s q r ((Chat.fail { s with outstanding := s.outstanding.filter (·.token ≠ q.token) }
      q type message).release q) := by
  unfold Chat.fail
  split
  · exact Chat.release_settled (.failed howned fun _ hp => hp) rfl
      ⟨rfl, rfl, rfl, rfl, rfl, rfl, rfl⟩
  · exact Chat.release_settled (.failed howned fun _ hp => List.mem_of_mem_filter hp) rfl
      ⟨rfl, rfl, rfl, rfl, rfl, rfl, rfl⟩

/-- **A settlement is of no request, or of one that was outstanding.** -/
theorem settle_cases (s : Chat) (token : Nat) (r : Settlement) :
    (s.settle token r = s ∧ ∀ q ∈ s.outstanding, q.token ≠ token) ∨
      ∃ q ∈ s.outstanding, q.token = token ∧ Settled s q r (s.settle token r) := by
  unfold Chat.settle
  split
  · next hnone =>
      refine .inl ⟨rfl, fun q hq htoken => ?_⟩
      have := List.find?_eq_none.mp hnone q hq
      exact this (decide_eq_true htoken)
  · next q hfind =>
      have htoken : q.token = token := by
        have h := List.find?_some hfind
        exact of_decide_eq_true h
      subst htoken
      refine .inr ⟨q, List.mem_of_find?_eq_some hfind, rfl, ?_⟩
      cases howned : s.ownsVisibleIntent q with
      | false =>
          have howned' : Chat.ownsVisibleIntent
              { s with outstanding := s.outstanding.filter (·.token ≠ q.token) } q = false := howned
          simp only [howned', Bool.false_eq_true, if_false]
          exact Chat.release_settled (.dropped howned) rfl ⟨rfl, rfl, rfl, rfl, rfl, rfl, rfl⟩
      | true =>
          have howned' : Chat.ownsVisibleIntent
              { s with outstanding := s.outstanding.filter (·.token ≠ q.token) } q = true := howned
          simp only [howned', if_true]
          cases r with
          | resolved data =>
              exact Chat.release_settled (.answered howned rfl) rfl ⟨rfl, rfl, rfl, rfl, rfl, rfl, rfl⟩
          | _ => exact failed_settled howned

/-! ## The flags -/

structure FlightInv (s : Chat) : Prop where
  /-- There is never a second request. -/
  one : s.outstanding.length ≤ 1
  tokens : ∀ q ∈ s.outstanding, q.token ≤ s.requestToken ∧ q.generation ≤ s.screenGeneration
  /-- In flight is having a request out. -/
  flying : s.mounted = true → (s.inFlight = true ↔ s.outstanding ≠ [])
  owned : s.mounted = true → ∀ q ∈ s.outstanding, q.token = s.requestToken
  /-- The mount effects run before anything can be unmounted. -/
  fresh : s.history = .idle → s.mounted = true

theorem flightInv_init : FlightInv {} where
  one := Nat.zero_le _
  tokens := by intro q hq; cases hq
  flying := by intro _; simp
  owned := by intro _ q hq; cases hq
  fresh := by intro _; rfl

theorem FlightInv.start {s : Chat} (h : FlightInv s) (hmounted : s.mounted = true)
    (hfree : s.inFlight = false) (intent : Message) :
    FlightInv (s.start intent s.screenGeneration) := by
  have hnone : s.outstanding = [] := by
    by_contra hne
    rw [(h.flying hmounted).mpr hne] at hfree
    cases hfree
  obtain ⟨_, _, _, _, heq⟩ := start_eq s intent s.screenGeneration
  rw [heq]
  refine ⟨by simp [hnone], ?_, by intro _; simp [hnone], ?_, h.fresh⟩
  · intro q hq
    simp only [hnone, List.nil_append, List.mem_singleton] at hq
    rw [hq]
    exact ⟨le_rfl, le_rfl⟩
  · intro _ q hq
    simp only [hnone, List.nil_append, List.mem_singleton] at hq
    rw [hq]

theorem FlightInv.sendIntent {s s' : Chat} {intent : Message} {r : Option Attempt}
    (h : FlightInv s) (hsend : s.sendIntent intent = (r, s')) : FlightInv s' := by
  rcases sendIntent_cases hsend with ⟨_, rfl⟩ | ⟨hmounted, hfree, _, _, rfl⟩
  · exact h
  · exact h.start hmounted hfree intent

theorem FlightInv.settled {s s' : Chat} {q : Request} {r : Settlement} (h : FlightInv s)
    (hq : q ∈ s.outstanding) (hs : Settled s q r s') : FlightInv s' := by
  have hsub : ∀ x ∈ s'.outstanding, x ∈ s.outstanding := by
    intro x hx
    rw [hs.outstanding] at hx
    exact List.mem_of_mem_filter hx
  refine ⟨?_, ?_, ?_, ?_, ?_⟩
  · rw [hs.outstanding]
    exact Nat.le_trans (List.length_filter_le _ _) h.one
  · intro x hx
    rw [hs.requestToken, hs.generation]
    exact h.tokens x (hsub x hx)
  · intro hm
    rw [hs.mounted] at hm
    have hown := h.owned hm q hq
    -- the only request was this one
    have hnone : s'.outstanding = [] := by
      rw [hs.outstanding, List.filter_eq_nil_iff]
      intro x hx
      simp [h.owned hm x hx, hown]
    simp [hnone, (hs.released hm hown).2]
  · intro hm x hx
    rw [hs.mounted] at hm
    rw [hs.requestToken]
    exact h.owned hm x (hsub x hx)
  · rw [hs.history, hs.mounted]
    exact h.fresh

theorem flightInv_step {i : Input} {s s' : Chat} {r : Option Attempt} (hstep : step i s = (r, s'))
    (h : FlightInv s) : FlightInv s' := by
  cases i with
  | mount =>
      cases hstep
      unfold Chat.mount
      split
      · next hidle =>
          have hm := h.fresh hidle
          exact ⟨h.one, h.tokens, fun _ => h.flying hm, fun _ => h.owned hm, fun _ => rfl⟩
      · exact h
  | history rows =>
      cases hstep
      rcases receiveHistory_cases s rows with heq | heq | ⟨rows', _, _, _, heq⟩
      · rw [heq]
        exact h
      · rw [heq]
        exact ⟨h.one, h.tokens, h.flying, h.owned, by intro hc; cases hc⟩
      · rw [heq]
        exact ⟨h.one, h.tokens, h.flying, h.owned, by intro hc; cases hc⟩
  | historyFailed =>
      cases hstep
      unfold Chat.historyFailed
      split
      · exact ⟨h.one, h.tokens, h.flying, h.owned, by intro hc; cases hc⟩
      · exact h
  | type text =>
      cases hstep
      exact ⟨h.one, h.tokens, h.flying, h.owned, h.fresh⟩
  | send view requestId =>
      rcases handleSend_cases hstep with ⟨_, rfl⟩ | ⟨_, rfl⟩ | ⟨id, _, hsend⟩
      · exact h
      · exact ⟨h.one, h.tokens, h.flying, h.owned, h.fresh⟩
      · have hbase : FlightInv (s.withIntent id) := ⟨h.one, h.tokens, h.flying, h.owned, h.fresh⟩
        exact hbase.sendIntent hsend
  | retry view localId =>
      rcases retryMessage_cases hstep with ⟨_, rfl⟩ | ⟨intent, _, _, hsend⟩
      · exact h
      · exact h.sendIntent hsend
  | clearScreen =>
      cases hstep
      refine ⟨h.one, ?_, h.flying, h.owned, h.fresh⟩
      intro q hq
      exact ⟨(h.tokens q hq).1, Nat.le_succ_of_le (h.tokens q hq).2⟩
  | settled token r =>
      cases hstep
      rcases settle_cases s token r with ⟨heq, _⟩ | ⟨q, hq, _, hs⟩
      · rw [heq]
        exact h
      · exact h.settled hq hs
  | timer token =>
      cases hstep
      unfold Chat.timerFires
      split
      · exact ⟨h.one, h.tokens, h.flying, h.owned, h.fresh⟩
      · exact h
  | unmount =>
      cases hstep
      obtain ⟨_, _, _, _, heq⟩ := unmount_eq s
      rw [heq]
      refine ⟨h.one, ?_, (by intro hm; cases hm), (by intro hm; cases hm), (by intro hc; cases hc)⟩
      intro q hq
      exact ⟨Nat.le_succ_of_le (h.tokens q hq).1, (h.tokens q hq).2⟩

end Katherine.Desktop
