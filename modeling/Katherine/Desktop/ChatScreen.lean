import Katherine.Desktop.ChatSteps

/-!
# What the chat screen can show

The screen is changed by clicks, by answers and by the history, each of which may arrive
when it is no longer wanted. `ScreenInv` says what is shown whatever the order: every
message is a history row, a system message, the user's message of a request that was made
or the answer to one (`Kind`), and the ids of these cannot be confused. It also speaks of
the messages of earlier renders, because a click can come from one.

A request that was started before the screen was cleared has an older generation than the
screen from then on, and the history an older version (`Past`). So what they bring is
dropped.
-/

namespace Katherine.Desktop

open Py Runs

/-! ## What is shown -/

/-- What has happened to the hook so far, as far as it matters for what is shown. -/
structure Log where
  /-- The requests that were made. -/
  attempts : List Attempt
  /-- The ids that `randomUUID` has returned. -/
  drawn : List PyStr
  /-- The renders. -/
  renders : List View

/-- The request for the user's message `requestId`. -/
def Attempt.ofUser (requestId content : PyStr) : Attempt :=
  ⟨userLocalId requestId, some (.string requestId), some (.string content)⟩

/-- What a message can be. -/
inductive Kind (attempts : List Attempt) (sequence : Nat) (m : Message) : Prop
  | history (hid : HistoryId [] 0 sequence m.localId) (hsent : m.deliveryStatus = some (js "sent"))
  | system {n : Nat} (hn : n ≤ sequence) (hid : m.localId = nextLocalId (py "system") n)
      (hrole : m.role = some (js "system")) (hrequest : m.requestId = none)
  | user {r content : PyStr} (hattempt : Attempt.ofUser r content ∈ attempts)
      (hid : m.localId = userLocalId r) (hrequest : m.requestId = some (.string r))
      (hcontent : m.content = some (.string content)) (hrole : m.role = some (js "user"))
      (hserver : m.serverId = .null)
  | assistant {r content : PyStr} (hattempt : Attempt.ofUser r content ∈ attempts)
      (hid : m.localId = assistantLocalId r) (hrequest : m.requestId = some (.string r))
      (hrole : m.role = some (js "assistant"))

theorem Kind.mono {attempts attempts' : List Attempt} {n n' : Nat} {m : Message}
    (h : Kind attempts n m) (ha : ∀ a ∈ attempts, a ∈ attempts') (hn : n ≤ n') :
    Kind attempts' n' m := by
  cases h with
  | history hid hsent => exact .history (hid.mono (fun _ h => h) le_rfl hn) hsent
  | system hk hid hrole hrequest => exact .system (Nat.le_trans hk hn) hid hrole hrequest
  | user hattempt h1 h2 h3 h4 h5 => exact .user (ha _ hattempt) h1 h2 h3 h4 h5
  | assistant hattempt h1 h2 h3 => exact .assistant (ha _ hattempt) h1 h2 h3

theorem HistoryId.ne_userLocalId {seen : List PyStr} {lo hi : Nat} {l : PyStr}
    (h : HistoryId seen lo hi l) (r : PyStr) : l ≠ userLocalId r := by
  cases h with
  | persisted =>
      rw [userLocalId, List.append_assoc]
      exact persistedLocalId_ne_local _ _
  | counted => exact nextLocalId_ne_userLocalId _ _ _

theorem HistoryId.ne_assistantLocalId {seen : List PyStr} {lo hi : Nat} {l : PyStr}
    (h : HistoryId seen lo hi l) (r : PyStr) : l ≠ assistantLocalId r := by
  cases h with
  | persisted =>
      rw [assistantLocalId, List.append_assoc]
      exact persistedLocalId_ne_local _ _
  | counted => exact nextLocalId_ne_assistantLocalId _ _ _

theorem Kind.assistant_of_localId {attempts : List Attempt} {n : Nat} {m : Message} {r : PyStr}
    (h : Kind attempts n m) (hid : m.localId = assistantLocalId r) :
    ∃ content, Attempt.ofUser r content ∈ attempts := by
  cases h with
  | history hh => exact absurd hid (hh.ne_assistantLocalId r)
  | system _ hs => exact absurd (hs.symm.trans hid) (nextLocalId_ne_assistantLocalId _ _ _)
  | user _ hu => exact absurd (hu.symm.trans hid) (userLocalId_ne_assistantLocalId _ _)
  | assistant hattempt ha =>
      rw [assistantLocalId_injective (ha.symm.trans hid)] at hattempt
      exact ⟨_, hattempt⟩

structure ScreenInv (l : Log) (s : Chat) : Prop where
  /-- No id is given to two messages. -/
  nodup : (s.messages.map (·.localId)).Nodup
  kinds : ∀ m ∈ s.messages, Kind l.attempts s.localMessageSequence m
  /-- So it is in every render there was. -/
  renders : ∀ v ∈ l.renders, ∀ m ∈ v.messages, Kind l.attempts s.localMessageSequence m
  /-- A history row does not name a request of the hook. -/
  foreign : ∀ m ∈ s.messages, HistoryId [] 0 s.localMessageSequence m.localId →
    ∀ r content, Attempt.ofUser r content ∈ l.attempts → m.requestId ≠ some (.string r)
  attempts : ∀ a ∈ l.attempts, ∃ r ∈ l.drawn, ∃ content, a = .ofUser r content
  /-- All requests for a message are the same. -/
  agree : ∀ a ∈ l.attempts, ∀ b ∈ l.attempts, a.localId = b.localId → a = b
  intents : ∀ p ∈ s.intentGeneration, ∃ r ∈ l.drawn, p.1 = userLocalId r
  /-- A message that can be sent has no answer yet. -/
  unanswered : ∀ p ∈ s.intentGeneration, ∀ r, p.1 = userLocalId r →
    assistantLocalId r ∉ s.messages.map (·.localId)
  requests : ∀ q ∈ s.outstanding, ∃ r content, Attempt.ofUser r content ∈ l.attempts ∧
    q.intent.localId = userLocalId r ∧ q.intent.requestId = some (.string r) ∧
    assistantLocalId r ∉ s.messages.map (·.localId)
  /-- Nothing has been sent while the history would still be shown. -/
  history : ∀ v, s.history = .pending v →
    v ≤ s.localMessagesVersion ∧ (v = s.localMessagesVersion → l.attempts = [])

theorem screenInv_init : ScreenInv ⟨[], [], []⟩ {} where
  nodup := List.nodup_nil
  kinds := by simp
  renders := by simp
  foreign := by simp
  attempts := by simp
  agree := by simp
  intents := by simp
  unanswered := by simp
  requests := by simp
  history := by
    intro v hv
    cases hv

/-- A step that leaves the messages alone keeps the invariant. -/
theorem ScreenInv.frame {l : Log} {s s' : Chat} (h : ScreenInv l s)
    (hmessages : s'.messages = s.messages)
    (hsequence : s'.localMessageSequence = s.localMessageSequence)
    (hintents : ∀ p ∈ s'.intentGeneration, p ∈ s.intentGeneration)
    (houtstanding : ∀ q ∈ s'.outstanding, q ∈ s.outstanding)
    (hhistory : ∀ v, s'.history = .pending v → s.history = .pending v)
    (hversion : s.localMessagesVersion ≤ s'.localMessagesVersion) : ScreenInv l s' where
  nodup := by
    rw [hmessages]
    exact h.nodup
  kinds := by
    rw [hmessages, hsequence]
    exact h.kinds
  renders := by
    rw [hsequence]
    exact h.renders
  foreign := by
    rw [hmessages, hsequence]
    exact h.foreign
  attempts := h.attempts
  agree := h.agree
  intents := fun p hp => h.intents p (hintents p hp)
  unanswered := by
    rw [hmessages]
    exact fun p hp => h.unanswered p (hintents p hp)
  requests := by
    rw [hmessages]
    exact fun q hq => h.requests q (houtstanding q hq)
  history := by
    intro v hv
    obtain ⟨hle, hnone⟩ := h.history v (hhistory v hv)
    exact ⟨Nat.le_trans hle hversion, fun heq => hnone (by omega)⟩

/-- Drawing an id and rendering change nothing that is shown. -/
theorem ScreenInv.rendered {l : Log} {s : Chat} (h : ScreenInv l s) (ids : List PyStr) :
    ScreenInv ⟨l.attempts, l.drawn ++ ids, l.renders ++ [s.view]⟩ s where
  nodup := h.nodup
  kinds := h.kinds
  renders := by
    intro v hv
    rcases List.mem_append.mp hv with hv | hv
    · exact h.renders v hv
    · rw [List.mem_singleton.mp hv]
      exact h.kinds
  foreign := h.foreign
  attempts := by
    intro a ha
    obtain ⟨r, hr, content, rfl⟩ := h.attempts a ha
    exact ⟨r, List.mem_append_left _ hr, content, rfl⟩
  agree := h.agree
  intents := by
    intro p hp
    obtain ⟨r, hr, hkey⟩ := h.intents p hp
    exact ⟨r, List.mem_append_left _ hr, hkey⟩
  unanswered := h.unanswered
  requests := h.requests
  history := h.history

/-- No message has an id of a request that was never made. -/
theorem ScreenInv.unused {l : Log} {s : Chat} (h : ScreenInv l s) {r : PyStr} (hr : r ∉ l.drawn) :
    (∀ a ∈ l.attempts, a.localId ≠ userLocalId r) ∧
      assistantLocalId r ∉ s.messages.map (·.localId) := by
  have hnone : ∀ content, Attempt.ofUser r content ∉ l.attempts := by
    intro content hmem
    obtain ⟨r', hr', content', heq⟩ := h.attempts _ hmem
    have hid : userLocalId r = userLocalId r' := congrArg Attempt.localId heq
    rw [userLocalId_injective hid] at hr
    exact hr hr'
  constructor
  · intro a ha hid
    obtain ⟨r', _, content, rfl⟩ := h.attempts a ha
    have hsame := userLocalId_injective hid
    rw [hsame] at ha
    exact hnone content ha
  · intro hmem
    obtain ⟨m, hm, hid⟩ := List.mem_map.mp hmem
    obtain ⟨content, hattempt⟩ := (h.kinds m hm).assistant_of_localId hid
    exact hnone content hattempt

theorem ScreenInv.withIntent {l : Log} {s : Chat} (h : ScreenInv l s) {r : PyStr} (hr : r ∉ l.drawn) :
    ScreenInv ⟨l.attempts, l.drawn ++ [r], l.renders⟩ (s.withIntent r) where
  nodup := h.nodup
  kinds := h.kinds
  renders := h.renders
  foreign := h.foreign
  attempts := by
    intro a ha
    obtain ⟨r', hr', content, rfl⟩ := h.attempts a ha
    exact ⟨r', List.mem_append_left _ hr', content, rfl⟩
  agree := h.agree
  intents := by
    intro p hp
    rcases List.mem_cons.mp hp with rfl | hp
    · exact ⟨r, List.mem_append_right _ (List.mem_singleton.mpr rfl), rfl⟩
    · obtain ⟨r', hr', hkey⟩ := h.intents p (List.mem_of_mem_filter hp)
      exact ⟨r', List.mem_append_left _ hr', hkey⟩
  unanswered := by
    intro p hp r' hkey
    rcases List.mem_cons.mp hp with rfl | hp
    · rw [← userLocalId_injective hkey]
      exact (h.unused hr).2
    · exact h.unanswered p (List.mem_of_mem_filter hp) r' hkey
  requests := h.requests
  history := h.history

/-- The intent of a request. -/
structure IsIntent (intent : Message) (r content : PyStr) : Prop where
  localId : intent.localId = userLocalId r
  requestId : intent.requestId = some (.string r)
  content : intent.content = some (.string content)
  role : intent.role = some (js "user")
  serverId : intent.serverId = .null

theorem isIntent_newIntent (r content : PyStr) : IsIntent (newIntent r content) r content :=
  ⟨rfl, rfl, rfl, rfl, rfl⟩

theorem IsIntent.sending {intent : Message} {r content : PyStr} (h : IsIntent intent r content) :
    IsIntent intent.sending r content := by
  unfold Message.sending
  split
  · exact h
  · exact ⟨h.localId, h.requestId, h.content, h.role, h.serverId⟩

/-- Whatever it is assigned to becomes the user's message. -/
theorem IsIntent.assign {intent : Message} {r content : PyStr} (h : IsIntent intent r content)
    (m : Message) : IsIntent (m.assign intent) r content where
  localId := h.localId
  requestId := by
    rw [Message.assign, h.requestId]
    rfl
  content := by
    rw [Message.assign, h.content]
    rfl
  role := by
    rw [Message.assign, h.role]
    rfl
  serverId := h.serverId

theorem IsIntent.kind {intent : Message} {r content : PyStr} (h : IsIntent intent r content)
    {attempts : List Attempt} {n : Nat} (ha : Attempt.ofUser r content ∈ attempts) :
    Kind attempts n intent :=
  .user ha h.localId h.requestId h.content h.role h.serverId

/-- **Sending a message**, for the first time or again. -/
theorem ScreenInv.start {l : Log} {s : Chat} (h : ScreenInv l s) {intent : Message}
    {r content : PyStr} {generation : Nat} (hintent : IsIntent intent r content) (hdrawn : r ∈ l.drawn)
    (hknown : ∃ p ∈ s.intentGeneration, p.1 = userLocalId r)
    (hagree : ∀ a ∈ l.attempts, a.localId = userLocalId r → a = .ofUser r content)
    (hforeign : ∀ m ∈ s.messages, HistoryId [] 0 s.localMessageSequence m.localId →
      m.requestId ≠ some (.string r)) :
    ScreenInv ⟨l.attempts ++ [.ofUser r content], l.drawn, l.renders⟩ (s.start intent generation) := by
  have hself : Attempt.ofUser r content ∈ l.attempts ++ [.ofUser r content] :=
    List.mem_append_right _ (List.mem_singleton.mpr rfl)
  have hold : ∀ a ∈ l.attempts, a ∈ l.attempts ++ [.ofUser r content] :=
    fun a ha => List.mem_append_left _ ha
  have hids : ∀ r', assistantLocalId r' ∉ s.messages.map (·.localId) →
      assistantLocalId r' ∉ (upsertMessage intent.sending s.messages).map (·.localId) := by
    intro r' hnot hmem
    rcases localId_upsertMessage hmem with hid | hmem
    · exact userLocalId_ne_assistantLocalId r r' (hintent.sending.localId.symm.trans hid.symm)
    · exact hnot hmem
  obtain ⟨p, hp, hkey⟩ := hknown
  obtain ⟨_, _, _, _, heq⟩ := start_eq s intent generation
  rw [heq]
  refine ⟨upsertMessage_nodup (.inl hintent.sending.serverId) h.nodup, ?_, ?_, ?_, ?_, ?_, h.intents,
    ?_, ?_, ?_⟩
  · intro m hm
    rcases mem_upsertMessage hm with hm | rfl | ⟨m₀, _, _, rfl⟩
    · exact (h.kinds m hm).mono hold le_rfl
    · exact hintent.sending.kind hself
    · exact (hintent.sending.assign m₀).kind hself
  · intro v hv m hm
    exact (h.renders v hv m hm).mono hold le_rfl
  · intro m hm hid r' content' hattempt
    have hshown : m ∈ s.messages := by
      rcases mem_upsertMessage hm with hm | rfl | ⟨m₀, _, _, rfl⟩
      · exact hm
      · exact absurd hintent.sending.localId (hid.ne_userLocalId r)
      · exact absurd (hintent.sending.assign m₀).localId (hid.ne_userLocalId r)
    rcases List.mem_append.mp hattempt with hattempt | hattempt
    · exact h.foreign m hshown hid r' content' hattempt
    · have hsame : userLocalId r' = userLocalId r :=
        congrArg Attempt.localId (List.mem_singleton.mp hattempt)
      rw [userLocalId_injective hsame]
      exact hforeign m hshown hid
  · intro a ha
    rcases List.mem_append.mp ha with ha | ha
    · exact h.attempts a ha
    · exact ⟨r, hdrawn, content, List.mem_singleton.mp ha⟩
  · intro a ha b hb hsame
    rcases List.mem_append.mp ha with ha | ha <;> rcases List.mem_append.mp hb with hb | hb
    · exact h.agree a ha b hb hsame
    · rw [List.mem_singleton.mp hb] at hsame ⊢
      exact hagree a ha hsame
    · rw [List.mem_singleton.mp ha] at hsame ⊢
      exact (hagree b hb hsame.symm).symm
    · rw [List.mem_singleton.mp ha, List.mem_singleton.mp hb]
  · exact fun p hp r' hkey' => hids r' (h.unanswered p hp r' hkey')
  · intro q hq
    rcases List.mem_append.mp hq with hq | hq
    · obtain ⟨r', content', hattempt, hid, hrequest, hnot⟩ := h.requests q hq
      exact ⟨r', content', hold _ hattempt, hid, hrequest, hids r' hnot⟩
    · rw [List.mem_singleton.mp hq]
      exact ⟨r, content, hself, hintent.localId, hintent.requestId,
        hids r (h.unanswered p hp r hkey)⟩
  · intro v hv
    obtain ⟨hle, _⟩ := h.history v hv
    exact ⟨Nat.le_succ_of_le hle, fun heq' => absurd heq' (by simp only; omega)⟩

/-- What is delivered stays what it is: a history row is no message of a request. -/
theorem Kind.deliver {attempts : List Attempt} {n : Nat} {m : Message} (h : Kind attempts n m)
    (r : PyStr) (d t e : JsVal) : Kind attempts n (m.deliver (userLocalId r) d t e) := by
  unfold Message.deliver
  split
  · next hid =>
      cases h with
      | history hh => exact absurd hid (hh.ne_userLocalId r)
      | system hn h1 h2 h3 => exact .system hn h1 h2 h3
      | user ha h1 h2 h3 h4 h5 => exact .user ha h1 h2 h3 h4 h5
      | assistant ha h1 h2 h3 => exact .assistant ha h1 h2 h3
  · exact h

theorem deliver_requestId (l : PyStr) (d r e : JsVal) (m : Message) :
    (m.deliver l d r e).requestId = m.requestId := by
  unfold Message.deliver
  split <;> rfl

theorem ScreenInv.delivered {l : Log} {s : Chat} (h : ScreenInv l s) (r : PyStr) (d t e : JsVal) :
    ScreenInv l { s with messages := s.messages.map (Message.deliver (userLocalId r) d t e) } where
  nodup := by
    rw [deliver_localIds]
    exact h.nodup
  kinds := by
    intro m hm
    obtain ⟨m₀, hm₀, rfl⟩ := List.mem_map.mp hm
    exact (h.kinds m₀ hm₀).deliver r d t e
  renders := h.renders
  foreign := by
    intro m hm hid
    obtain ⟨m₀, hm₀, rfl⟩ := List.mem_map.mp hm
    rw [deliver_localId] at hid
    rw [deliver_requestId]
    exact h.foreign m₀ hm₀ hid
  attempts := h.attempts
  agree := h.agree
  intents := h.intents
  unanswered := by
    rw [deliver_localIds]
    exact h.unanswered
  requests := by
    rw [deliver_localIds]
    exact h.requests
  history := h.history

theorem answer_localId {q : Request} {r : PyStr} (data : Data)
    (h : q.intent.requestId = some (.string r)) : (answer q data).localId = assistantLocalId r := by
  rw [answer, h]

/-- The answer, and whatever it is assigned to. -/
theorem kind_answer {q : Request} {r content : PyStr} {attempts : List Attempt} {n : Nat} (data : Data)
    (h : q.intent.requestId = some (.string r)) (ha : Attempt.ofUser r content ∈ attempts) :
    Kind attempts n (answer q data) ∧ ∀ m : Message, Kind attempts n (m.assign (answer q data)) := by
  refine ⟨.assistant ha (answer_localId data h) h rfl, fun m => ?_⟩
  refine .assistant ha (answer_localId data h) ?_ rfl
  simp only [Message.assign, answer, h]
  rfl

/-- **An answer takes the place of nothing but a row that is the same message on the server.** -/
theorem ScreenInv.answered {l : Log} {s : Chat} (h : ScreenInv l s) {q : Request} {r content : PyStr}
    (data : Data) (hattempt : Attempt.ofUser r content ∈ l.attempts)
    (hrequest : q.intent.requestId = some (.string r))
    (hnew : assistantLocalId r ∉ s.messages.map (·.localId)) :
    ScreenInv l { s with
      messages := upsertMessage (answer q data) s.messages
      intentGeneration := s.intentGeneration.filter (·.1 ≠ userLocalId r)
      outstanding := [] } where
  nodup := by
    refine upsertMessage_nodup (.inr ?_) h.nodup
    rw [answer_localId data hrequest]
    exact hnew
  kinds := by
    intro m hm
    obtain ⟨hanswer, hassign⟩ := kind_answer data hrequest hattempt
    rcases mem_upsertMessage hm with hm | rfl | ⟨m₀, _, _, rfl⟩
    · exact h.kinds m hm
    · exact hanswer
    · exact hassign m₀
  renders := h.renders
  foreign := by
    intro m hm hid
    rcases mem_upsertMessage hm with hm | rfl | ⟨m₀, _, _, rfl⟩
    · exact h.foreign m hm hid
    · exact absurd (answer_localId data hrequest) (hid.ne_assistantLocalId r)
    · exact absurd (answer_localId data hrequest) (hid.ne_assistantLocalId r)
  attempts := h.attempts
  agree := h.agree
  intents := fun p hp => h.intents p (List.mem_of_mem_filter hp)
  unanswered := by
    intro p hp r' hkey hmem
    obtain ⟨hp, hother⟩ := List.mem_filter.mp hp
    rcases localId_upsertMessage hmem with hid | hmem
    · rw [answer_localId data hrequest] at hid
      rw [assistantLocalId_injective hid] at hkey
      exact of_decide_eq_true hother hkey
    · exact h.unanswered p hp r' hkey hmem
  requests := by
    intro q hq
    cases hq
  history := h.history

/-- **A request settles.** -/
theorem ScreenInv.settled {l : Log} {s s' : Chat} {q : Request} {r : Settlement} (h : ScreenInv l s)
    (hf : FlightInv s) (hq : q ∈ s.outstanding) (hs : Settled s q r s') : ScreenInv l s' := by
  have hsub : ∀ x ∈ s'.outstanding, x ∈ s.outstanding := by
    intro x hx
    rw [hs.outstanding] at hx
    exact List.mem_of_mem_filter hx
  have hpending : ∀ v, s'.history = .pending v → s.history = .pending v := by
    intro v hv
    rwa [hs.history] at hv
  obtain ⟨id, content, hattempt, hlocal, hrequest, hnew⟩ := h.requests q hq
  have hshown := hs.shown
  generalize hm : s'.messages = messages at hshown
  generalize hi : s'.intentGeneration = intents at hshown
  generalize s'.emotionState = emotion at hshown
  cases hshown with
  | dropped =>
      exact h.frame hm hs.sequence (by rw [hi]; exact fun p hp => hp) hsub hpending
        (Nat.le_of_eq hs.version.symm)
  | @failed status retryable message intents howned hintents =>
      rw [hlocal] at hm
      refine (h.delivered id status retryable message).frame hm hs.sequence ?_ hsub hpending
        (Nat.le_of_eq hs.version.symm)
      rw [hi]
      exact hintents
  | @answered data howned hr =>
      rw [hlocal] at hm hi
      have hdelivered := h.delivered id (js "sent") (.bool false) .null
      have hanswered := hdelivered.answered data hattempt hrequest
        (by rw [deliver_localIds]; exact hnew)
      refine hanswered.frame hm hs.sequence (by rw [hi]; exact fun p hp => hp) ?_ hpending
        (Nat.le_of_eq hs.version.symm)
      -- this was the only request
      intro x hx
      rw [hs.outstanding] at hx
      obtain ⟨hx, hne⟩ := List.mem_filter.mp hx
      have hone := hf.one
      obtain ⟨y, hy⟩ := List.length_eq_one_iff.mp (Nat.le_antisymm hone (List.length_pos_of_mem hq))
      rw [hy, List.mem_singleton] at hq hx
      rw [hq, hx] at hne
      exact absurd rfl (of_decide_eq_true hne)

theorem ScreenInv.cleared {l : Log} {s : Chat} (h : ScreenInv l s) : ScreenInv l s.clearScreen where
  nodup := List.nodup_nil
  kinds := by
    intro m hm
    cases hm
  renders := h.renders
  foreign := by
    intro m hm
    cases hm
  attempts := h.attempts
  agree := h.agree
  intents := by
    intro p hp
    cases hp
  unanswered := by
    intro p hp
    cases hp
  requests := by
    intro q hq
    obtain ⟨r, content, hattempt, hid, hrequest, _⟩ := h.requests q hq
    exact ⟨r, content, hattempt, hid, hrequest, List.not_mem_nil⟩
  history := by
    intro v hv
    obtain ⟨hle, _⟩ := h.history v hv
    exact ⟨Nat.le_succ_of_le hle, fun heq => absurd heq (by simp only [Chat.clearScreen]; omega)⟩

/-- The history is shown on an empty screen. -/
theorem ScreenInv.loaded {l : Log} {s : Chat} (h : ScreenInv l s) (rows : List Row)
    (hpending : s.history = .pending s.localMessagesVersion) :
    ScreenInv l { s with
      history := .closed
      messages := (normalizeHistory [] s.localMessageSequence rows).1
      localMessageSequence := (normalizeHistory [] s.localMessageSequence rows).2 } := by
  have hnone := (h.history _ hpending).2 rfl
  have hnorm := normalizeHistory_normalized rows [] s.localMessageSequence
  have hids : ∀ r, assistantLocalId r ∉
      (normalizeHistory [] s.localMessageSequence rows).1.map (·.localId) := by
    intro r hmem
    obtain ⟨m, hm, hid⟩ := List.mem_map.mp hmem
    exact (hnorm.ids m hm).ne_assistantLocalId r hid
  refine ⟨hnorm.nodup, ?_, ?_, ?_, h.attempts, h.agree, h.intents, ?_, ?_, ?_⟩
  · intro m hm
    exact .history ((hnorm.ids m hm).mono (fun _ h => h) (Nat.zero_le _) le_rfl) (hnorm.sent m hm)
  · intro v hv m hm
    exact (h.renders v hv m hm).mono (fun _ ha => ha) hnorm.counter
  · intro m _ _ r content hattempt
    rw [hnone] at hattempt
    cases hattempt
  · exact fun p _ r _ => hids r
  · intro q hq
    obtain ⟨r, content, hattempt, hid, hrequest, _⟩ := h.requests q hq
    exact ⟨r, content, hattempt, hid, hrequest, hids r⟩
  · intro v hv
    cases hv

theorem HistoryId.ne_nextSystem {seen : List PyStr} {lo hi : Nat} {l : PyStr}
    (h : HistoryId seen lo hi l) (n : Nat) : l ≠ nextLocalId (py "system") n := by
  cases h with
  | persisted =>
      rw [nextLocalId, List.append_assoc, List.append_assoc]
      exact persistedLocalId_ne_local _ _
  | counted => exact nextLocalId_history_ne_system _ _

theorem Kind.ne_nextSystem {attempts : List Attempt} {n : Nat} {m : Message} (h : Kind attempts n m) :
    m.localId ≠ nextLocalId (py "system") (n + 1) := by
  cases h with
  | history hid => exact hid.ne_nextSystem (n + 1)
  | system hn hid =>
      rw [hid]
      intro heq
      have := nextLocalId_injective heq
      omega
  | user _ hid =>
      rw [hid]
      exact (nextLocalId_ne_userLocalId _ _ _).symm
  | assistant _ hid =>
      rw [hid]
      exact (nextLocalId_ne_assistantLocalId _ _ _).symm

theorem ScreenInv.unavailable {l : Log} {s : Chat} (h : ScreenInv l s) : ScreenInv l s.unavailable := by
  have hkinds : ∀ m, Kind l.attempts s.localMessageSequence m →
      Kind l.attempts (s.localMessageSequence + 1) m :=
    fun m hm => hm.mono (fun _ ha => ha) (Nat.le_succ _)
  have hids : ∀ r, assistantLocalId r ∉ s.messages.map (·.localId) →
      assistantLocalId r ∉ s.unavailable.messages.map (·.localId) := by
    intro r hnot hmem
    simp only [Chat.unavailable, List.map_append, List.mem_append, List.map_cons, List.map_nil,
      List.mem_singleton] at hmem
    rcases hmem with hmem | hid
    · exact hnot hmem
    · exact nextLocalId_ne_assistantLocalId _ _ _ hid.symm
  refine ⟨?_, ?_, fun v hv m hm => hkinds m (h.renders v hv m hm), ?_, h.attempts, h.agree, h.intents,
    fun p hp r hkey => hids r (h.unanswered p hp r hkey), ?_, ?_⟩
  · simp only [Chat.unavailable, List.map_append, List.map_cons, List.map_nil]
    refine List.nodup_append.mpr ⟨h.nodup, by simp, ?_⟩
    intro a ha b hb hsame
    obtain ⟨m, hm, rfl⟩ := List.mem_map.mp ha
    rw [List.mem_singleton.mp hb] at hsame
    exact (h.kinds m hm).ne_nextSystem hsame
  · intro m hm
    rcases List.mem_append.mp hm with hm | hm
    · exact hkinds m (h.kinds m hm)
    · rw [List.mem_singleton.mp hm]
      exact .system le_rfl rfl rfl rfl
  · intro m hm hid r content hattempt
    rcases List.mem_append.mp hm with hm | hm
    · have hkind := h.kinds m hm
      cases hkind with
      | history hid' => exact h.foreign m hm hid' r content hattempt
      | system _ _ _ hrequest =>
          rw [hrequest]
          exact (Option.some_ne_none _).symm
      | user _ hid' => exact absurd hid' (hid.ne_userLocalId _)
      | assistant _ hid' => exact absurd hid' (hid.ne_assistantLocalId _)
    · rw [List.mem_singleton.mp hm]
      exact (Option.some_ne_none _).symm
  · intro q hq
    obtain ⟨r, content, hattempt, hid, hrequest, hnot⟩ := h.requests q hq
    exact ⟨r, content, hattempt, hid, hrequest, hids r hnot⟩
  · intro v hv
    obtain ⟨hle, _⟩ := h.history v hv
    exact ⟨Nat.le_succ_of_le hle, fun heq => absurd heq (by simp only [Chat.unavailable]; omega)⟩

/-! ## Runs -/

/-- The id that `randomUUID` returns in a step. -/
def Input.drawn : Input → Option PyStr
  | .send _ requestId => requestId
  | _ => none

/-- The render whose callback handles a click. -/
def Input.view : Input → Option View
  | .send view _ => some view
  | .retry view _ => some view
  | _ => none

def Log.extend (l : Log) (i : Input) (r : Option Attempt) (s : Chat) : Log :=
  ⟨l.attempts ++ r.toList, l.drawn ++ i.drawn.toList, l.renders ++ [s.view]⟩

/-- What the hook can count on: its effects run first, a click comes from a render, and an id is
fresh. -/
structure Admitted (l : Log) (i : Input) (s : Chat) : Prop where
  mount : i = .mount → l = ⟨[], [], []⟩
  view : ∀ v, i.view = some v → v ∈ l.renders ++ [s.view]
  fresh : ∀ r, i.drawn = some r → r ∉ l.drawn ∧ ∀ m ∈ s.messages, m.requestId ≠ some (.string r)

theorem extend_none (l : Log) (i : Input) (s : Chat) :
    l.extend i none s = ⟨l.attempts, l.drawn ++ i.drawn.toList, l.renders ++ [s.view]⟩ := by
  simp [Log.extend]

theorem key_of_generationOf {s : Chat} {localId : PyStr} {g : Nat}
    (h : s.generationOf localId = some g) : ∃ p ∈ s.intentGeneration, p.1 = localId := by
  obtain ⟨before, after, hsplit, _⟩ := List.lookup_eq_some_iff.mp h
  exact ⟨(localId, g), by rw [hsplit]; simp, rfl⟩

/-- Only the user's message of a request can be sent again. -/
theorem isIntent_of_canRetry {attempts : List Attempt} {n : Nat} {m : Message} {localId : PyStr}
    (h : Kind attempts n m) (hcan : m.canRetry localId = true) :
    ∃ r content, IsIntent m r content ∧ Attempt.ofUser r content ∈ attempts := by
  simp only [Message.canRetry, Bool.and_eq_true, Bool.or_eq_true, decide_eq_true_eq] at hcan
  obtain ⟨⟨⟨_, hrole⟩, hstatus⟩, _⟩ := hcan
  cases h with
  | history _ hsent =>
      rw [hsent] at hstatus
      exact absurd hstatus (by decide)
  | system _ _ hsystem =>
      rw [hsystem] at hrole
      exact absurd hrole (by decide)
  | user ha h1 h2 h3 h4 h5 => exact ⟨_, _, ⟨h1, h2, h3, h4, h5⟩, ha⟩
  | assistant _ _ _ hassistant =>
      rw [hassistant] at hrole
      exact absurd hrole (by decide)

/-- **The step lemma.** -/
theorem screenInv_step {l : Log} {i : Input} {s s' : Chat} {r : Option Attempt}
    (hstep : step i s = (r, s')) (hadmitted : Admitted l i s) (hf : FlightInv s) (h : ScreenInv l s) :
    ScreenInv (l.extend i r s) s' := by
  have hquiet : ScreenInv (l.extend i none s) s := by
    rw [extend_none]
    exact h.rendered i.drawn.toList
  cases i with
  | mount =>
      cases hstep
      rw [extend_none] at hquiet ⊢
      unfold Chat.mount
      split
      · refine ⟨hquiet.nodup, hquiet.kinds, hquiet.renders, hquiet.foreign, hquiet.attempts,
          hquiet.agree, hquiet.intents, hquiet.unanswered, hquiet.requests, ?_⟩
        intro v hv
        cases hv
        exact ⟨le_rfl, fun _ => by rw [hadmitted.mount rfl]⟩
      · exact hquiet
  | history rows =>
      cases hstep
      rcases receiveHistory_cases s rows with heq | heq | ⟨rows', _, _, hpending, heq⟩
      · rw [heq]
        exact hquiet
      · rw [heq]
        exact hquiet.frame rfl rfl (fun _ h => h) (fun _ h => h) (by intro v hv; cases hv) le_rfl
      · rw [heq]
        exact hquiet.loaded rows' hpending
  | historyFailed =>
      cases hstep
      unfold Chat.historyFailed
      split
      · exact hquiet.frame rfl rfl (fun _ h => h) (fun _ h => h) (by intro v hv; cases hv) le_rfl
      · exact hquiet
  | type text =>
      cases hstep
      exact hquiet.frame rfl rfl (fun _ h => h) (fun _ h => h) (fun _ h => h) le_rfl
  | send view requestId =>
      rcases handleSend_cases hstep with ⟨rfl, rfl⟩ | ⟨rfl, rfl⟩ | ⟨id, rfl, hsend⟩
      · exact hquiet
      · exact hquiet.unavailable
      · obtain ⟨hnew, hforeign⟩ := hadmitted.fresh id rfl
        have hrendered := h.rendered []
        rw [List.append_nil] at hrendered
        have hintent := hrendered.withIntent hnew
        rcases sendIntent_cases hsend with ⟨rfl, rfl⟩ | ⟨_, _, hgeneration, rfl, rfl⟩
        · rw [extend_none]
          exact hintent
        · refine hintent.start (isIntent_newIntent id _) ?_ (key_of_generationOf hgeneration) ?_ ?_
          · exact List.mem_append_right _ (List.mem_singleton.mpr rfl)
          · intro a ha hid
            exact absurd hid ((h.unused hnew).1 a ha)
          · exact fun m hm _ => hforeign m hm
  | retry view localId =>
      rcases retryMessage_cases hstep with ⟨rfl, rfl⟩ | ⟨intent, hmem, hcan, hsend⟩
      · exact hquiet
      · rcases sendIntent_cases hsend with ⟨rfl, rfl⟩ | ⟨_, _, hgeneration, rfl, rfl⟩
        · exact hquiet
        · have hrendered := h.rendered []
          rw [List.append_nil] at hrendered
          have hkind := hrendered.renders view (hadmitted.view view rfl) intent hmem
          obtain ⟨id, content, hintent, hattempt⟩ := isIntent_of_canRetry hkind hcan
          obtain ⟨id', hdrawn, content', hshape⟩ := h.attempts _ hattempt
          have hid : userLocalId id = userLocalId id' := congrArg Attempt.localId hshape
          have hreply : (⟨intent.localId, intent.requestId, intent.content⟩ : Attempt) =
              .ofUser id content := by
            rw [hintent.localId, hintent.requestId, hintent.content]
            rfl
          rw [hintent.localId] at hgeneration
          rw [hreply]
          have hlog : l.extend (.retry view localId) (some (.ofUser id content)) s =
              ⟨l.attempts ++ [.ofUser id content], l.drawn, l.renders ++ [s.view]⟩ := by
            simp [Log.extend, Input.drawn]
          rw [hlog]
          exact hrendered.start hintent (userLocalId_injective hid ▸ hdrawn)
            (key_of_generationOf hgeneration) (fun a ha hsame => h.agree a ha _ hattempt hsame)
            (fun m hm hhist => h.foreign m hm hhist id content hattempt)
  | clearScreen =>
      cases hstep
      exact hquiet.cleared
  | settled token r =>
      cases hstep
      rcases settle_cases s token r with ⟨heq, _⟩ | ⟨q, hq, _, hs⟩
      · rw [heq]
        exact hquiet
      · exact hquiet.settled hf hq hs
  | timer token =>
      cases hstep
      unfold Chat.timerFires
      split
      · exact hquiet.frame rfl rfl (fun _ h => h) (fun _ h => h) (fun _ h => h) le_rfl
      · exact hquiet
  | unmount =>
      cases hstep
      obtain ⟨_, _, _, _, heq⟩ := unmount_eq s
      rw [heq]
      exact hquiet.frame rfl rfl (fun _ h => h) (fun _ h => h) (by intro v hv; cases hv) le_rfl

/-- The log of some steps. -/
def logOf (es : List (Event step)) : Log :=
  es.foldl (fun l e => l.extend e.input e.reply e.before) ⟨[], [], []⟩

theorem logOf_snoc (es : List (Event step)) (e : Event step) :
    logOf (es ++ [e]) = (logOf es).extend e.input e.reply e.before := by
  rw [logOf, List.foldl_append]
  rfl

theorem renders_logOf (es : List (Event step)) : (logOf es).renders.length = es.length := by
  induction es using List.reverseRecOn with
  | nil => rfl
  | append_singleton es e ih => simp [logOf_snoc, Log.extend, ih]

/-- Every step is one the hook admits. -/
def AdmittedRun (es : List (Event step)) : Prop :=
  ∀ pre e post, es = pre ++ e :: post → Admitted (logOf pre) e.input e.before

/-- Each of some inputs is admitted where it comes. -/
def AdmittedInputs : Log → List Input → Chat → Prop
  | _, [], _ => True
  | l, i :: inputs, s =>
      Admitted l i s ∧ AdmittedInputs (l.extend i (step i s).1 s) inputs (step i s).2

theorem admitted_of_mem_trace : ∀ {inputs : List Input} {done : List (Event step)} {s : Chat},
    AdmittedInputs (logOf done) inputs s →
      ∀ pre e post, trace step inputs s = pre ++ e :: post → Admitted (logOf (done ++ pre)) e.input e.before
  | [], _, _, _, pre, e, post, hsplit => by
      cases pre <;> cases hsplit
  | i :: inputs, done, s, ⟨hi, hrest⟩, [], e, post, hsplit => by
      obtain ⟨rfl, _⟩ := List.cons.inj hsplit
      rw [List.append_nil]
      exact hi
  | i :: inputs, done, s, ⟨_, hrest⟩, e₁ :: pre, e, post, hsplit => by
      obtain ⟨rfl, htail⟩ := List.cons.inj hsplit
      have hdone : logOf (done ++ [.of step i s]) = (logOf done).extend i (step i s).1 s :=
        logOf_snoc done _
      rw [← hdone] at hrest
      have := admitted_of_mem_trace hrest pre e post htail
      rwa [List.append_assoc] at this

theorem admittedRun_trace {inputs : List Input} (h : AdmittedInputs ⟨[], [], []⟩ inputs {}) :
    AdmittedRun (trace step inputs {}) := by
  intro pre e post hsplit
  exact @admitted_of_mem_trace inputs [] {} h pre e post hsplit

/-- **The run lemma.** -/
theorem screenInv_run {es : List (Event step)} {s : Chat} (hrun : Run {} es s)
    (hadmitted : AdmittedRun es) : (FlightInv s ∧ ScreenInv (logOf es) s) ∧
      ∀ pre e post, es = pre ++ e :: post →
        FlightInv e.before ∧ ScreenInv (logOf pre) e.before := by
  refine hrun.history (P := fun pre s => FlightInv s ∧ ScreenInv (logOf pre) s)
    ⟨flightInv_init, screenInv_init⟩ ?_
  rintro pre e post hsplit ⟨hf, hs⟩
  rw [logOf_snoc]
  exact ⟨flightInv_step e.executed hf, screenInv_step e.executed (hadmitted pre e post hsplit) hf hs⟩

/-! ### After the screen was cleared -/

/-- Requests up to token `limit`, and the history, belong to an earlier screen. -/
structure Past (limit : Nat) (s : Chat) : Prop where
  token : limit ≤ s.requestToken
  requests : ∀ q ∈ s.outstanding, q.token ≤ limit → q.generation < s.screenGeneration
  history : ∀ v, s.history = .pending v → v < s.localMessagesVersion

theorem past_clearScreen {l : Log} {s : Chat} (hf : FlightInv s) (h : ScreenInv l s) :
    Past s.requestToken s.clearScreen where
  token := le_rfl
  requests := by
    intro q hq _
    exact Nat.lt_succ_of_le (hf.tokens q hq).2
  history := by
    intro v hv
    exact Nat.lt_succ_of_le (h.history v hv).1

theorem Past.sendIntent {limit : Nat} {s s' : Chat} {intent : Message} {r : Option Attempt}
    (h : Past limit s) (hsend : s.sendIntent intent = (r, s')) : Past limit s' := by
  rcases sendIntent_cases hsend with ⟨_, rfl⟩ | ⟨_, _, _, _, rfl⟩
  · exact h
  · obtain ⟨_, _, _, _, heq⟩ := start_eq s intent s.screenGeneration
    rw [heq]
    refine ⟨Nat.le_succ_of_le h.token, ?_, fun v hv => Nat.lt_succ_of_lt (h.history v hv)⟩
    intro q hq hle
    rcases List.mem_append.mp hq with hq | hq
    · exact h.requests q hq hle
    · -- the new request has a later token
      rw [List.mem_singleton.mp hq] at hle
      have := h.token
      simp only at hle
      omega

theorem past_step {limit : Nat} {i : Input} {s s' : Chat} {r : Option Attempt}
    (hstep : step i s = (r, s')) (hmount : i ≠ .mount) (h : Past limit s) : Past limit s' := by
  cases i with
  | mount => exact absurd rfl hmount
  | history rows =>
      cases hstep
      rcases receiveHistory_cases s rows with heq | heq | ⟨_, _, _, _, heq⟩
      · rw [heq]
        exact h
      · rw [heq]
        exact ⟨h.token, h.requests, by intro v hv; cases hv⟩
      · rw [heq]
        exact ⟨h.token, h.requests, by intro v hv; cases hv⟩
  | historyFailed =>
      cases hstep
      unfold Chat.historyFailed
      split
      · exact ⟨h.token, h.requests, by intro v hv; cases hv⟩
      · exact h
  | type text =>
      cases hstep
      exact ⟨h.token, h.requests, h.history⟩
  | send view requestId =>
      rcases handleSend_cases hstep with ⟨_, rfl⟩ | ⟨_, rfl⟩ | ⟨id, _, hsend⟩
      · exact h
      · exact ⟨h.token, h.requests, fun v hv => Nat.lt_succ_of_lt (h.history v hv)⟩
      · have hbase : Past limit (s.withIntent id) := ⟨h.token, h.requests, h.history⟩
        exact hbase.sendIntent hsend
  | retry view localId =>
      rcases retryMessage_cases hstep with ⟨_, rfl⟩ | ⟨_, _, _, hsend⟩
      · exact h
      · exact h.sendIntent hsend
  | clearScreen =>
      cases hstep
      exact ⟨h.token, fun q hq hle => Nat.lt_succ_of_lt (h.requests q hq hle),
        fun v hv => Nat.lt_succ_of_lt (h.history v hv)⟩
  | settled token r =>
      cases hstep
      rcases settle_cases s token r with ⟨heq, _⟩ | ⟨q, _, _, hs⟩
      · rw [heq]
        exact h
      · refine ⟨by rw [hs.requestToken]; exact h.token, ?_, ?_⟩
        · intro x hx hle
          rw [hs.outstanding] at hx
          rw [hs.generation]
          exact h.requests x (List.mem_of_mem_filter hx) hle
        · intro v hv
          rw [hs.history] at hv
          rw [hs.version]
          exact h.history v hv
  | timer token =>
      cases hstep
      unfold Chat.timerFires
      split
      · exact ⟨h.token, h.requests, h.history⟩
      · exact h
  | unmount =>
      cases hstep
      obtain ⟨_, _, _, _, heq⟩ := unmount_eq s
      rw [heq]
      exact ⟨Nat.le_succ_of_le h.token, h.requests, by intro v hv; cases hv⟩

/-- What comes from an earlier screen: a settlement, or the history. -/
def FromPast (limit : Nat) : Input → Prop
  | .settled token _ => token ≤ limit
  | .history _ => True
  | .historyFailed => True
  | _ => False

/-- **It is dropped.** -/
theorem Past.dropped {limit : Nat} {i : Input} {s s' : Chat} {r : Option Attempt}
    (h : Past limit s) (hi : FromPast limit i) (hstep : step i s = (r, s')) :
    s'.messages = s.messages ∧ s'.emotionState = s.emotionState := by
  cases i with
  | settled token r =>
      cases hstep
      rcases settle_cases s token r with ⟨heq, _⟩ | ⟨q, hq, htoken, hs⟩
      · rw [heq]
        exact ⟨rfl, rfl⟩
      · have hlt := h.requests q hq (htoken ▸ hi)
        have hstranger : s.ownsVisibleIntent q = false := by
          simp [Chat.ownsVisibleIntent, Nat.ne_of_lt hlt]
        have hshown := hs.shown
        generalize (s.settle token r).messages = messages at hshown ⊢
        generalize (s.settle token r).intentGeneration = intents at hshown
        generalize (s.settle token r).emotionState = emotion at hshown ⊢
        cases hshown with
        | dropped => exact ⟨rfl, rfl⟩
        | answered howned =>
            rw [hstranger] at howned
            cases howned
        | failed howned =>
            rw [hstranger] at howned
            cases howned
  | history rows =>
      cases hstep
      rcases receiveHistory_cases s rows with heq | heq | ⟨_, _, _, hpending, _⟩
      · rw [heq]
        exact ⟨rfl, rfl⟩
      · rw [heq]
        exact ⟨rfl, rfl⟩
      · exact absurd (h.history _ hpending) (Nat.lt_irrefl _)
  | historyFailed =>
      cases hstep
      unfold Chat.historyFailed
      split <;> exact ⟨rfl, rfl⟩
  | _ => exact hi.elim

/-! ## The screen -/

theorem mem_attempts_logOf {es : List (Event step)} {a : Attempt} :
    a ∈ (logOf es).attempts ↔ ∃ e ∈ es, e.reply = some a := by
  induction es using List.reverseRecOn with
  | nil => simp [logOf]
  | append_singleton es e ih =>
      rw [logOf_snoc]
      simp only [Log.extend, List.mem_append, ih, Option.mem_toList, List.mem_singleton]
      constructor
      · rintro (⟨e', he', h⟩ | h)
        · exact ⟨e', .inl he', h⟩
        · exact ⟨e, .inr rfl, h⟩
      · rintro ⟨e', he' | rfl, h⟩
        · exact .inl ⟨e', he', h⟩
        · exact .inr h

/-- The messages of a role that carry a request id. -/
def ofRequest (messages : List Message) (requestId role : JsVal) : List Message :=
  messages.filter fun m => decide (m.requestId = some requestId) && decide (m.role = some role)

/-- In a list without a repeated id, messages that all have one id are one message. -/
theorem length_filter_le_one {ms : List Message} {p : Message → Bool} {l : PyStr}
    (hnodup : (ms.map (·.localId)).Nodup) (hp : ∀ m ∈ ms, p m = true → m.localId = l) :
    (ms.filter p).length ≤ 1 := by
  have hsub : (((ms.filter p).map (·.localId))).Nodup :=
    hnodup.sublist ((List.filter_sublist).map _)
  have hall : ∀ x ∈ (ms.filter p).map (·.localId), x = l := by
    intro x hx
    obtain ⟨m, hm, rfl⟩ := List.mem_map.mp hx
    obtain ⟨hm, hpm⟩ := List.mem_filter.mp hm
    exact hp m hm hpm
  rw [List.eq_replicate_of_mem hall, List.nodup_replicate, List.length_map] at hsub
  exact hsub

/-- A message that carries the id of a request is that request's own. -/
theorem ScreenInv.one_per_request {l : Log} {s : Chat} (h : ScreenInv l s) {r content : PyStr}
    (hattempt : Attempt.ofUser r content ∈ l.attempts) :
    (ofRequest s.messages (.string r) (js "user")).length ≤ 1 ∧
      (ofRequest s.messages (.string r) (js "assistant")).length ≤ 1 := by
  have hkind : ∀ m ∈ s.messages, m.requestId = some (.string r) →
      (m.role = some (js "user") → m.localId = userLocalId r) ∧
        (m.role = some (js "assistant") → m.localId = assistantLocalId r) := by
    intro m hm hid
    cases h.kinds m hm with
    | history hh => exact absurd hid (h.foreign m hm hh r content hattempt)
    | system _ _ _ hnone =>
        rw [hnone] at hid
        cases hid
    | user _ hlocal hrequest _ hrole =>
        rw [hrequest] at hid
        cases hid
        exact ⟨fun _ => hlocal, fun hother => absurd (hrole.symm.trans hother) (by decide)⟩
    | assistant _ hlocal hrequest hrole =>
        rw [hrequest] at hid
        cases hid
        exact ⟨fun hother => absurd (hrole.symm.trans hother) (by decide), fun _ => hlocal⟩
  constructor
  · refine length_filter_le_one h.nodup (l := userLocalId r) fun m hm hp => ?_
    simp only [Bool.and_eq_true, decide_eq_true_eq] at hp
    exact (hkind m hm hp.1).1 hp.2
  · refine length_filter_le_one h.nodup (l := assistantLocalId r) fun m hm hp => ?_
    simp only [Bool.and_eq_true, decide_eq_true_eq] at hp
    exact (hkind m hm hp.1).2 hp.2

/-- The message of a request shows what the request carries. -/
theorem ScreenInv.shown {l : Log} {s : Chat} (h : ScreenInv l s) {a : Attempt} {m : Message}
    (ha : a ∈ l.attempts) (hm : m ∈ s.messages) (hid : a.localId = m.localId) :
    a.requestId = m.requestId ∧ a.content = m.content := by
  obtain ⟨r, _, content, rfl⟩ := h.attempts a ha
  change userLocalId r = m.localId at hid
  cases h.kinds m hm with
  | history hh => exact absurd hid.symm (hh.ne_userLocalId r)
  | system _ hlocal => exact absurd (hlocal.symm.trans hid.symm) (nextLocalId_ne_userLocalId _ _ _)
  | @user r' content' hattempt hlocal hrequest hcontent =>
      have hsame := h.agree _ ha _ hattempt (hid.trans hlocal)
      rw [hrequest, hcontent]
      exact ⟨congrArg Attempt.requestId hsame, congrArg Attempt.content hsame⟩
  | assistant _ hlocal => exact absurd (hid.trans hlocal) (userLocalId_ne_assistantLocalId _ _)

/-- A request is for a new message, or is one that was made before. -/
theorem attempt_cases {l : Log} {i : Input} {s s' : Chat} {a : Attempt}
    (hstep : step i s = (some a, s')) (hadmitted : Admitted l i s) (h : ScreenInv l s) :
    (∃ view r, i = .send view (some r) ∧ a = .ofUser r (jsTrim view.input)) ∨ a ∈ l.attempts := by
  cases i with
  | send view requestId =>
      rcases handleSend_cases hstep with ⟨hnone, _⟩ | ⟨hnone, _⟩ | ⟨id, rfl, hsend⟩
      · cases hnone
      · cases hnone
      · rcases sendIntent_cases hsend with ⟨hnone, _⟩ | ⟨_, _, _, hreply, _⟩
        · cases hnone
        · exact .inl ⟨view, id, rfl, Option.some.inj hreply⟩
  | retry view localId =>
      rcases retryMessage_cases hstep with ⟨hnone, _⟩ | ⟨intent, hmem, hcan, hsend⟩
      · cases hnone
      · rcases sendIntent_cases hsend with ⟨hnone, _⟩ | ⟨_, _, _, hreply, _⟩
        · cases hnone
        · have hkind : Kind l.attempts s.localMessageSequence intent := by
            rcases List.mem_append.mp (hadmitted.view view rfl) with hv | hv
            · exact h.renders view hv intent hmem
            · rw [List.mem_singleton.mp hv] at hmem
              exact h.kinds intent hmem
          obtain ⟨id, content, hintent, hattempt⟩ := isIntent_of_canRetry hkind hcan
          rw [hintent.localId, hintent.requestId, hintent.content] at hreply
          rw [Option.some.inj hreply]
          exact .inr hattempt
  | _ => cases hstep

/-- What holds of the screen after the steps `es`. -/
structure ScreenSafe (es : List (Event step)) (s : Chat) : Prop where
  distinct : (s.messages.map (·.localId)).Nodup
  /-- A request has one message of the user and one answer at most. -/
  single : ∀ e ∈ es, ∀ a id, e.reply = some a → a.requestId = some id →
    (ofRequest s.messages id (js "user")).length ≤ 1 ∧
      (ofRequest s.messages id (js "assistant")).length ≤ 1
  /-- It was first made for the text that was sent. -/
  original : ∀ e ∈ es, ∀ a, e.reply = some a → ∃ e₀ ∈ es, ∃ view r,
    e₀.input = .send view (some r) ∧ e₀.reply = some a ∧ a = .ofUser r (jsTrim view.input)
  /-- And is the same every time, as is the message. -/
  same : ∀ e ∈ es, ∀ e' ∈ es, ∀ a a', e.reply = some a → e'.reply = some a' →
    a.localId = a'.localId → a = a'
  shown : ∀ e ∈ es, ∀ a, e.reply = some a → ∀ m ∈ s.messages, a.localId = m.localId →
    a.requestId = m.requestId ∧ a.content = m.content
  one : s.outstanding.length ≤ 1
  /-- Nothing from before the screen was cleared changes it. -/
  cleared : ∀ pre c mid e post, es = pre ++ c :: (mid ++ e :: post) → c.input = .clearScreen →
    FromPast c.before.requestToken e.input →
      e.after.messages = e.before.messages ∧ e.after.emotionState = e.before.emotionState
  released : ∀ e ∈ es, ∀ token r, e.input = .settled token r → e.before.mounted = true →
    token = e.before.requestToken → (∃ q ∈ e.before.outstanding, q.token = token) →
      e.after.isLoading = false ∧ e.after.inFlight = false

/-- Only the first step is the mount. -/
theorem AdmittedRun.not_mount {es pre post : List (Event step)} {c e : Event step}
    (h : AdmittedRun es) (hsplit : es = pre ++ e :: post) (hc : c ∈ pre) : e.input ≠ .mount := by
  intro hmount
  have hempty := (h pre e post hsplit).mount hmount
  have hlength := renders_logOf pre
  rw [hempty] at hlength
  exact List.not_mem_nil (List.length_eq_zero_iff.mp hlength.symm ▸ hc)

/-- From a clear on, what came before it stays past. -/
theorem past_of_clear {es pre mid post : List (Event step)} {c e : Event step} {s : Chat}
    (hrun : Run {} es s) (hadmitted : AdmittedRun es) (hsplit : es = pre ++ c :: (mid ++ e :: post))
    (hclear : c.input = .clearScreen) : Past c.before.requestToken e.before := by
  obtain ⟨hf, hs⟩ := (screenInv_run hrun hadmitted).2 pre c _ hsplit
  have hafter : c.after = c.before.clearScreen := by
    have hexecuted := c.executed
    rw [hclear] at hexecuted
    exact (congrArg Prod.snd hexecuted).symm
  have hpast : Past c.before.requestToken c.after := by
    rw [hafter]
    exact past_clearScreen hf hs
  rw [hsplit] at hrun
  obtain ⟨_, _, hrun⟩ := hrun.split
  obtain ⟨_, hrun⟩ := hrun.cons_inv
  obtain ⟨m, hmid, hrun⟩ := hrun.split
  obtain ⟨rfl, _⟩ := hrun.cons_inv
  refine (hmid.invariant (P := Past c.before.requestToken) hpast ?_).1
  intro e' he' h
  obtain ⟨before, after, hmid'⟩ := List.append_of_mem he'
  have hsplit' : es = (pre ++ c :: before) ++ e' :: (after ++ e :: post) := by
    rw [hsplit, hmid']
    simp
  have hc : c ∈ pre ++ c :: before := by simp
  exact past_step e'.executed (hadmitted.not_mount hsplit' hc) h

/-- Every request goes back to the click that sent its text. -/
theorem original_of_attempt {es : List (Event step)} {s : Chat} (hrun : Run {} es s)
    (hadmitted : AdmittedRun es) : ∀ a ∈ (logOf es).attempts, ∃ e₀ ∈ es, ∃ view r,
      e₀.input = .send view (some r) ∧ e₀.reply = some a ∧ a = .ofUser r (jsTrim view.input) := by
  have hbefore := (screenInv_run hrun hadmitted).2
  refine (hrun.history (P := fun es _ => ∀ a ∈ (logOf es).attempts, ∃ e₀ ∈ es, ∃ view r,
    e₀.input = .send view (some r) ∧ e₀.reply = some a ∧ a = .ofUser r (jsTrim view.input)) ?_ ?_).1
  · intro a ha
    cases ha
  · intro pre e post hsplit ih a ha
    have hkept : a ∈ (logOf pre).attempts → ∃ e₀ ∈ pre ++ [e], ∃ view r,
        e₀.input = .send view (some r) ∧ e₀.reply = some a ∧ a = .ofUser r (jsTrim view.input) := by
      intro hold
      obtain ⟨e₀, he₀, h⟩ := ih a hold
      exact ⟨e₀, List.mem_append_left _ he₀, h⟩
    rw [logOf_snoc] at ha
    rcases List.mem_append.mp ha with hold | hnew
    · exact hkept hold
    · have hreply : e.reply = some a := Option.mem_toList.mp hnew
      have hexecuted := e.executed
      rw [hreply] at hexecuted
      rcases attempt_cases hexecuted (hadmitted pre e post hsplit) (hbefore pre e post hsplit).2 with
        ⟨view, r, hinput, ha⟩ | hold
      · exact ⟨e, by simp, view, r, hinput, hreply, ha⟩
      · exact hkept hold

/-- **The chat screen**, over every run that the hook admits. -/
theorem chat_screen_safe {es : List (Event step)} {s : Chat} (hrun : Run {} es s)
    (hadmitted : AdmittedRun es) : ScreenSafe es s := by
  obtain ⟨⟨hf, hs⟩, hbefore⟩ := screenInv_run hrun hadmitted
  have hattempt : ∀ e ∈ es, ∀ a, e.reply = some a → a ∈ (logOf es).attempts :=
    fun e he a ha => mem_attempts_logOf.mpr ⟨e, he, ha⟩
  refine ⟨hs.nodup, ?_, ?_, ?_, ?_, hf.one, ?_, ?_⟩
  · intro e he a id ha hid
    have hmem := hattempt e he a ha
    obtain ⟨r, _, content, rfl⟩ := hs.attempts a hmem
    cases hid
    exact hs.one_per_request hmem
  · exact fun e he a ha => original_of_attempt hrun hadmitted a (hattempt e he a ha)
  · intro e he e' he' a a' ha ha' hid
    exact hs.agree a (hattempt e he a ha) a' (hattempt e' he' a' ha') hid
  · intro e he a ha m hm hid
    exact hs.shown (hattempt e he a ha) hm hid
  · intro pre c mid e post hsplit hclear hpast
    exact (past_of_clear hrun hadmitted hsplit hclear).dropped hpast e.executed
  · intro e he token r hinput hmounted htoken hq
    have hexecuted := e.executed
    rw [hinput] at hexecuted
    have hafter : e.before.settle token r = e.after := congrArg Prod.snd hexecuted
    rcases settle_cases e.before token r with ⟨_, hnone⟩ | ⟨q, _, hqtoken, hsettled⟩
    · obtain ⟨q, hq, hqtoken⟩ := hq
      exact absurd hqtoken (hnone q hq)
    · rw [hafter] at hsettled
      exact hsettled.released hmounted (hqtoken.trans htoken)

def sampleRow : Row := { id := some (.integer 1), role := some (js "user"), content := some (js "oi") }

/-- A message that is sent when the history has come, and answered. -/
def sampleChat : List Input :=
  [.mount,
   .history (some [sampleRow]),
   .type (py " tudo bem?"),
   .send ⟨[sampleRow.message (py "server:number:1") (.integer 1)], py " tudo bem?", false⟩
     (some (py "r1")),
   .settled 1 (.resolved ⟨.integer 3, js "tudo", .other 0⟩)]

theorem admitted_sampleChat : AdmittedInputs ⟨[], [], []⟩ sampleChat {} := by
  refine ⟨⟨fun _ => rfl, (by intro v hv; cases hv), (by intro r hr; cases hr)⟩,
    ⟨(by intro h; cases h), (by intro v hv; cases hv), (by intro r hr; cases hr)⟩,
    ⟨(by intro h; cases h), (by intro v hv; cases hv), (by intro r hr; cases hr)⟩,
    ⟨(by intro h; cases h), ?_, ?_⟩,
    ⟨(by intro h; cases h), (by intro v hv; cases hv), (by intro r hr; cases hr)⟩, trivial⟩
  · intro v hv
    cases hv
    exact List.mem_append_right _ (List.mem_singleton.mpr rfl)
  · intro r hr
    cases hr
    exact ⟨by decide +kernel, by decide +kernel⟩

theorem chat_screen_safe_sample : ∃ s, Run {} (trace step sampleChat {}) s ∧
    ScreenSafe (trace step sampleChat {}) s := by
  obtain ⟨s, hrun⟩ : ∃ s, Run {} (trace step sampleChat {}) s := Run.ofInputs _ _
  exact ⟨s, hrun, chat_screen_safe hrun (admittedRun_trace admitted_sampleChat)⟩

/-- Two rows of the history that name one request. -/
def twiceNamed : List Input :=
  [.mount, .history (some
    [{ id := some (.integer 1), requestId := some (js "r1"), role := some (js "user") },
     { id := some (.integer 2), requestId := some (js "r1"), role := some (js "user") }])]

theorem history_row_repeats_request_id : ¬ ∀ (es : List (Event step)) (s : Chat), Run {} es s →
    AdmittedRun es → ∀ id, (ofRequest s.messages id (js "user")).length ≤ 1 := by
  intro hall
  have hadmitted : AdmittedInputs ⟨[], [], []⟩ twiceNamed {} :=
    ⟨⟨fun _ => rfl, (by intro v hv; cases hv), (by intro r hr; cases hr)⟩,
      ⟨(by intro h; cases h), (by intro v hv; cases hv), (by intro r hr; cases hr)⟩, trivial⟩
  have hrun : Run {} (trace step twiceNamed {}) _ := .cons (.of step _ _) (.cons (.of step _ _) (.nil _))
  have htwo := hall _ _ hrun (admittedRun_trace hadmitted) (js "r1")
  revert htwo
  decide +kernel

end Katherine.Desktop
