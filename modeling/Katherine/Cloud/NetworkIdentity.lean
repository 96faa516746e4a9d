import Katherine.Lib.IpAddress

/-!
# Who is asking

`resolve_network_identity` of `backend/admission.py`. A peer that is not a trusted proxy is
who is asking. Behind a trusted proxy it is the rightmost address of the forwarded header
that is not one itself: each proxy appends the address it was called from, so whatever a
client puts in front stays to the left of what is looked at.

The parsers report what they cannot read by an exception that is caught at once, so the
functions below are total, and `resolveNetworkIdentity` never raises.
-/

namespace Katherine.Cloud

open Py Ip

def unknownNetworkIdentity : PyStr := py "unknown"

/-- `_parse_ip`; `none` for a value that is no `str`. -/
def parseIp (value : Option PyStr) : Option Address :=
  match value with
  | none => none
  | some value => if value.isEmpty || decide (value ≠ strip value) then none else ipAddress value

/-- `_is_trusted`. -/
def isTrusted (address : Address) (networks : List Network) : Bool :=
  networks.any fun network => network.contains address

/-- One entry of the header. -/
def parseToken (rawToken : PyStr) : Option Address :=
  let token := strip rawToken
  if token.isEmpty then none else parseIp (some token)

/-- The loop over the entries; any that cannot be read ends it. -/
def parsedChain (header : PyStr) : Option (List Address) :=
  (header.splitOn (cp ',')).mapM parseToken

/-- `resolve_network_identity`. -/
def resolveNetworkIdentity (peerHost xForwardedFor : Option PyStr) (networks : List Network) : PyStr :=
  match parseIp peerHost with
  | none => unknownNetworkIdentity
  | some peer =>
      if !isTrusted peer networks then peer.text
      else
        match xForwardedFor with
        | none => unknownNetworkIdentity
        | some header =>
            if header.isEmpty then unknownNetworkIdentity
            else
              match parsedChain header with
              | none => unknownNetworkIdentity
              | some [] => unknownNetworkIdentity
              | some (first :: rest) =>
                  match (first :: rest).reverse.find? fun address => !isTrusted address networks with
                  | some address => address.text
                  | none => first.text

/-! ## Entries -/

theorem rdropWhile_append_blank {post : PyStr} (hpost : blank post = true) (s : PyStr) :
    (s ++ post).rdropWhile isSpace = s.rdropWhile isSpace := by
  have hall : ∀ c ∈ post.reverse, isSpace c = true := by
    intro c hc
    exact List.all_eq_true.mp hpost c (List.mem_reverse.mp hc)
  rw [List.rdropWhile, List.reverse_append, List.dropWhile_append_of_pos hall]
  rfl

/-- Blanks around an entry do not matter. -/
theorem strip_pad {pre post : PyStr} (hpre : blank pre = true) (hpost : blank post = true)
    (s : PyStr) : strip (pre ++ s ++ post) = strip s := by
  have hpre' : ∀ c ∈ pre, isSpace c = true := List.all_eq_true.mp hpre
  rw [strip_eq_rdropWhile, strip_eq_rdropWhile, List.append_assoc,
    List.dropWhile_append_of_pos hpre', List.dropWhile_append]
  split
  · rename_i hempty
    have hs : s.dropWhile isSpace = [] := by simpa using hempty
    have hpost' : post.dropWhile isSpace = [] :=
      List.dropWhile_eq_nil_iff.mpr (List.all_eq_true.mp hpost)
    rw [hs, hpost']
  · exact rdropWhile_append_blank hpost _

theorem ipAddress_nil : ipAddress [] = none := by decide

/-- The blanks are gone before `_parse_ip` looks for them. -/
theorem parseToken_eq (token : PyStr) : parseToken token = ipAddress (strip token) := by
  simp only [parseToken, parseIp, strip_strip]
  cases h : strip token with
  | nil => exact ipAddress_nil.symm
  | cons c cs => simp

/-- Two spellings of an entry are read alike: as the same address, or both not at all. -/
def Respelled (token token' : PyStr) : Prop := ipAddress (strip token) = ipAddress (strip token')

/-- The same entry with blanks around it. -/
def Padded (token token' : PyStr) : Prop :=
  ∃ pre post, blank pre = true ∧ blank post = true ∧ token' = pre ++ token ++ post

theorem respelled_pad {token token' : PyStr} (h : Padded token token') : Respelled token token' := by
  obtain ⟨pre, post, hpre, hpost, rfl⟩ := h
  rw [Respelled, strip_pad hpre hpost]

theorem comma_not_mem_blank {s : PyStr} (h : blank s = true) : cp ',' ∉ s := by
  intro hcomma
  have hspace := List.all_eq_true.mp h _ hcomma
  revert hspace
  decide

/-- Blanks do not make two entries of one. -/
theorem comma_not_mem_padded {tokens tokens' : List PyStr} (h : List.Forall₂ Padded tokens tokens')
    (hcomma : ∀ token ∈ tokens, cp ',' ∉ token) : ∀ token ∈ tokens', cp ',' ∉ token := by
  induction h with
  | nil => exact hcomma
  | @cons token token' tokens tokens' hhead _ ih =>
      rw [List.forall_mem_cons] at hcomma ⊢
      obtain ⟨pre, post, hpre, hpost, rfl⟩ := hhead
      refine ⟨?_, ih hcomma.2⟩
      simp [hcomma.1, comma_not_mem_blank hpre, comma_not_mem_blank hpost]

/-- The canonical form is a spelling of the address it was read from. -/
example : Respelled (py " 2001:DB8:0:0:0:0:0:1 ") (py "2001:db8::1") := by
  unfold Respelled
  decide +kernel

/-! ## Chains -/

/-- The header is a list of these addresses, with blanks around them or not. -/
def Lists (header : PyStr) (chain : List Address) : Prop :=
  List.Forall₂ (fun token address => ipAddress (strip token) = some address) (header.splitOn (cp ',')) chain

theorem mapM_parseToken {tokens : List PyStr} {chain : List Address}
    (h : List.Forall₂ (fun token address => ipAddress (strip token) = some address) tokens chain) :
    tokens.mapM parseToken = some chain := by
  induction h with
  | nil => rfl
  | @cons token address tokens chain hhead _ ih =>
      rw [List.mapM_cons, parseToken_eq, hhead, ih]
      rfl

theorem parsedChain_of_lists {header : PyStr} {chain : List Address} (h : Lists header chain) :
    parsedChain header = some chain := mapM_parseToken h

/-- What is put in front of a header comes first in the chain. -/
theorem parsedChain_prepend {left header : PyStr} {front chain : List Address}
    (hleft : parsedChain left = some front) (hheader : parsedChain header = some chain) :
    parsedChain (left ++ cp ',' :: header) = some (front ++ chain) := by
  rw [parsedChain] at hleft hheader
  rw [parsedChain, List.splitOn_append_cons_self, List.mapM_append, hleft, hheader]
  rfl

/-- The addresses of a chain were read from something, so what is written for them is read back. -/
theorem parsedChain_text {header : PyStr} {chain : List Address} (h : parsedChain header = some chain) :
    ∀ address ∈ chain, ipAddress address.text = some address := by
  intro address haddress
  obtain ⟨token, -, htoken⟩ := of_mem_mapM_some h address haddress
  rw [parseToken, Option.ite_none_left_eq_some] at htoken
  obtain ⟨-, htoken⟩ := htoken
  rw [parseIp, Option.ite_none_left_eq_some] at htoken
  exact ipAddress_text (scopeOk_of_ipAddress htoken.2)

theorem parsedChain_join {tokens : List PyStr} (hcomma : ∀ token ∈ tokens, cp ',' ∉ token)
    (hne : tokens ≠ []) : parsedChain ([cp ','].intercalate tokens) = tokens.mapM parseToken := by
  rw [parsedChain, List.splitOn_intercalate _ hcomma hne]

theorem mapM_respelled {tokens tokens' : List PyStr} (h : List.Forall₂ Respelled tokens tokens') :
    tokens.mapM parseToken = tokens'.mapM parseToken := by
  induction h with
  | nil => rfl
  | cons hhead _ ih =>
      rw [List.mapM_cons, List.mapM_cons, ih, parseToken_eq, parseToken_eq, hhead]

/-! ## The walk -/

/-- The walk along a chain that was read. -/
def walk (networks : List Network) (chain : List Address) : PyStr :=
  match chain.reverse.find? fun address => !isTrusted address networks with
  | some address => address.text
  | none => (chain.head?.map Address.text).getD unknownNetworkIdentity

/-- `peerHost` is a trusted proxy. -/
def PeerTrusted (peerHost : Option PyStr) (networks : List Network) : Prop :=
  ∃ peer, parseIp peerHost = some peer ∧ isTrusted peer networks = true

section

variable {networks : List Network} {peerHost : Option PyStr}

theorem resolve_untrusted (h : ¬ PeerTrusted peerHost networks) (xForwardedFor : Option PyStr) :
    resolveNetworkIdentity peerHost xForwardedFor networks =
      ((parseIp peerHost).map Address.text).getD unknownNetworkIdentity := by
  unfold resolveNetworkIdentity
  cases hpeer : parseIp peerHost with
  | none => rfl
  | some peer =>
      have hnot : isTrusted peer networks = false := by
        by_contra htrusted
        exact h ⟨peer, hpeer, by simpa using htrusted⟩
      simp [hnot]

theorem resolve_trusted (h : PeerTrusted peerHost networks) {header : PyStr} {chain : List Address}
    (hchain : parsedChain header = some chain) :
    resolveNetworkIdentity peerHost (some header) networks = walk networks chain := by
  obtain ⟨peer, hpeer, htrusted⟩ := h
  have hheader : header.isEmpty = false := by
    cases header with
    | nil => cases hchain
    | cons c cs => rfl
  simp only [resolveNetworkIdentity, hpeer, htrusted, Bool.not_true, Bool.false_eq_true, if_false,
    hheader, hchain]
  cases chain with
  | nil => rfl
  | cons first rest => rfl

theorem resolve_malformed {header : PyStr} (h : PeerTrusted peerHost networks)
    (hchain : parsedChain header = none) :
    resolveNetworkIdentity peerHost (some header) networks = unknownNetworkIdentity := by
  obtain ⟨peer, hpeer, htrusted⟩ := h
  simp [resolveNetworkIdentity, hpeer, htrusted, hchain]

/-- All that is looked at of a header is the chain it is read as. -/
theorem resolve_congr {header header' : PyStr} (h : parsedChain header = parsedChain header') :
    resolveNetworkIdentity peerHost (some header) networks =
      resolveNetworkIdentity peerHost (some header') networks := by
  by_cases hpeer : PeerTrusted peerHost networks
  · cases hchain : parsedChain header with
    | none => rw [resolve_malformed hpeer hchain, resolve_malformed hpeer (h ▸ hchain)]
    | some chain => rw [resolve_trusted hpeer hchain, resolve_trusted hpeer (h ▸ hchain)]
  · rw [resolve_untrusted hpeer, resolve_untrusted hpeer]

/-- Other spellings of the entries are the same chain. -/
theorem resolve_respelled {tokens tokens' : List PyStr} (hne : tokens ≠ [])
    (hcomma : ∀ token ∈ tokens, cp ',' ∉ token) (hcomma' : ∀ token ∈ tokens', cp ',' ∉ token)
    (hrespelled : List.Forall₂ Respelled tokens tokens') :
    resolveNetworkIdentity peerHost (some ([cp ','].intercalate tokens)) networks =
      resolveNetworkIdentity peerHost (some ([cp ','].intercalate tokens')) networks := by
  have hne' : tokens' ≠ [] := by
    intro hnil
    rw [hnil, List.forall₂_nil_right_iff] at hrespelled
    exact hne hrespelled
  refine resolve_congr ?_
  rw [parsedChain_join hcomma hne, parsedChain_join hcomma' hne', mapM_respelled hrespelled]

theorem walk_untrusted {before after : List Address} {address : Address}
    (haddress : isTrusted address networks = false)
    (hafter : ∀ a ∈ after, isTrusted a networks = true) :
    walk networks (before ++ address :: after) = address.text := by
  have hfind : (before ++ address :: after).reverse.find? (fun a => !isTrusted a networks)
      = some address := by
    have hnone : after.reverse.find? (fun a => !isTrusted a networks) = none := by
      rw [List.find?_eq_none]
      intro a ha
      simp [hafter a (List.mem_reverse.mp ha)]
    rw [List.reverse_append, List.reverse_cons, List.append_assoc, List.find?_append, hnone]
    simp [haddress]
  rw [walk, hfind]

/-- Where a chain has an address that is not trusted, it has a rightmost one. -/
theorem exists_rightmost {chain : List Address} (h : ∃ a ∈ chain, isTrusted a networks = false) :
    ∃ before address after, chain = before ++ address :: after ∧
      isTrusted address networks = false ∧ ∀ a ∈ after, isTrusted a networks = true := by
  induction chain with
  | nil => simp at h
  | cons first rest ih =>
      by_cases hrest : ∃ a ∈ rest, isTrusted a networks = false
      · obtain ⟨before, address, after, rfl, haddress, hafter⟩ := ih hrest
        exact ⟨first :: before, address, after, rfl, haddress, hafter⟩
      · have hall : ∀ a ∈ rest, isTrusted a networks = true := by
          simpa using hrest
        obtain ⟨a, ha, hnot⟩ := h
        rcases List.mem_cons.mp ha with rfl | ha
        · exact ⟨[], a, rest, rfl, hnot, hall⟩
        · rw [hall a ha] at hnot
          cases hnot

theorem text_ne_unknown (a : Address) : a.text ≠ unknownNetworkIdentity := by
  intro h
  cases a with
  | v4 ip =>
      have hu : cp 'u' ∈ v4Text ip := by
        rw [show v4Text ip = unknownNetworkIdentity from h]
        decide
      rcases mem_v4Text hu with hu | hu <;> revert hu <;> decide
  | v6 ip scope =>
      have hcolon := colon_mem_text ip scope
      rw [h] at hcolon
      revert hcolon
      decide

/-- The walk ends at an address that is not trusted if there is one. -/
theorem walk_ne_trusted {chain : List Address} (h : ∃ a ∈ chain, isTrusted a networks = false)
    {proxy : Address} (hproxy : isTrusted proxy networks = true) :
    walk networks chain ≠ proxy.text := by
  obtain ⟨before, address, after, rfl, haddress, hafter⟩ := exists_rightmost h
  rw [walk_untrusted haddress hafter]
  intro htext
  rw [Address.text_injective htext, hproxy] at haddress
  cases haddress

/-- What stands further left does not change where the walk ends. -/
theorem walk_prepend {chain : List Address} (h : ∃ a ∈ chain, isTrusted a networks = false)
    (front : List Address) : walk networks (front ++ chain) = walk networks chain := by
  obtain ⟨before, address, after, rfl, haddress, hafter⟩ := exists_rightmost h
  rw [walk_untrusted haddress hafter, ← List.append_assoc, walk_untrusted haddress hafter]

end

/-- **A client cannot spoof its network identity.** If the peer is not a trusted proxy the header
plays no part. If it is, and the header is a list of addresses with one that is no trusted proxy,
the result is the canonical form of the rightmost such address, and lists of addresses in front of
the header do not change it. Another spelling of the entries never does, nor do blanks around them.
And a list with an address that is no trusted proxy never makes the result a trusted one. -/
theorem network_identity_not_spoofable (networks : List Network) (peerHost : Option PyStr) :
    (¬ PeerTrusted peerHost networks → ∀ header header',
      resolveNetworkIdentity peerHost header networks =
        resolveNetworkIdentity peerHost header' networks) ∧
    (PeerTrusted peerHost networks → ∀ header before address after,
      Lists header (before ++ address :: after) → isTrusted address networks = false →
      (∀ a ∈ after, isTrusted a networks = true) →
      resolveNetworkIdentity peerHost (some header) networks = address.text ∧
        ipAddress address.text = some address) ∧
    (PeerTrusted peerHost networks → ∀ header chain left front, Lists header chain →
      (∃ a ∈ chain, isTrusted a networks = false) → Lists left front →
      resolveNetworkIdentity peerHost (some (left ++ cp ',' :: header)) networks =
        resolveNetworkIdentity peerHost (some header) networks) ∧
    (∀ tokens tokens', tokens ≠ [] → (∀ token ∈ tokens, cp ',' ∉ token) →
      (∀ token ∈ tokens', cp ',' ∉ token) → List.Forall₂ Respelled tokens tokens' →
      resolveNetworkIdentity peerHost (some ([cp ','].intercalate tokens)) networks =
        resolveNetworkIdentity peerHost (some ([cp ','].intercalate tokens')) networks) ∧
    (∀ tokens tokens', tokens ≠ [] → (∀ token ∈ tokens, cp ',' ∉ token) →
      List.Forall₂ Padded tokens tokens' →
      resolveNetworkIdentity peerHost (some ([cp ','].intercalate tokens)) networks =
        resolveNetworkIdentity peerHost (some ([cp ','].intercalate tokens')) networks) ∧
    (∀ header chain, Lists header chain →
      (∃ a ∈ chain, isTrusted a networks = false) → ∀ proxy, isTrusted proxy networks = true →
      resolveNetworkIdentity peerHost (some header) networks ≠ proxy.text) := by
  refine ⟨?_, ?_, ?_, ?_, ?_, ?_⟩
  · intro hpeer header header'
    rw [resolve_untrusted hpeer, resolve_untrusted hpeer]
  · intro hpeer header before address after hlist haddress hafter
    have hchain := parsedChain_of_lists hlist
    rw [resolve_trusted hpeer hchain, walk_untrusted haddress hafter]
    exact ⟨rfl, parsedChain_text hchain address (by simp)⟩
  · intro hpeer header chain left front hlist huntrusted hleft
    have hchain := parsedChain_of_lists hlist
    rw [resolve_trusted hpeer hchain,
      resolve_trusted hpeer (parsedChain_prepend (parsedChain_of_lists hleft) hchain), walk_prepend huntrusted]
  · intro tokens tokens' hne hcomma hcomma' hrespelled
    exact resolve_respelled hne hcomma hcomma' hrespelled
  · intro tokens tokens' hne hcomma hpadded
    exact resolve_respelled hne hcomma (comma_not_mem_padded hpadded hcomma)
      (hpadded.imp fun _ _ h => respelled_pad h)
  · intro header chain hlist huntrusted proxy hproxy
    have hchain := parsedChain_of_lists hlist
    by_cases hpeer : PeerTrusted peerHost networks
    · rw [resolve_trusted hpeer hchain]
      exact walk_ne_trusted huntrusted hproxy
    · rw [resolve_untrusted hpeer]
      cases hparse : parseIp peerHost with
      | none => exact (text_ne_unknown proxy).symm
      | some peer =>
          intro htext
          rw [Address.text_injective htext] at hparse
          exact hpeer ⟨proxy, hparse, hproxy⟩

/-- The trusted proxies are those of `10.0.0.0/8`. -/
def sampleNetworks : List Network := [.v4 ⟨0x0a000000, by decide⟩ ⟨0xff000000, by decide⟩]

/-- `10.1.1.1`, the inner one of two. -/
def sampleProxy : Address := .v4 ⟨0x0a010101, by decide⟩

/-- The address that the outer proxy has seen. -/
def sampleClient : Address := .v6 ⟨0x20010db8000000000000000000000001, by decide⟩ []

/-- The client claims to be `1.2.3.4`, and writes its address with blanks and in capitals. -/
theorem network_identity_not_spoofable_sample :
    resolveNetworkIdentity (some (py "10.0.0.5")) (some (py "2001:db8::1,10.1.1.1")) sampleNetworks = sampleClient.text ∧
    resolveNetworkIdentity (some (py "10.0.0.5")) (some (py "1.2.3.4,2001:db8::1,10.1.1.1")) sampleNetworks =
      sampleClient.text ∧
    resolveNetworkIdentity (some (py "10.0.0.5")) (some (py " 2001:DB8:0:0:0:0:0:1 ,10.1.1.1")) sampleNetworks =
      sampleClient.text := by
  have hpeer : PeerTrusted (some (py "10.0.0.5")) sampleNetworks :=
    ⟨.v4 ⟨0x0a000005, by decide⟩, by decide +kernel, by decide +kernel⟩
  have hproxy : isTrusted sampleProxy sampleNetworks = true := by decide +kernel
  have hclient : isTrusted sampleClient sampleNetworks = false := by decide +kernel
  have hlist : Lists (py "2001:db8::1,10.1.1.1") [sampleClient, sampleProxy] := by
    unfold Lists
    decide +kernel
  have hleft : Lists (py "1.2.3.4") [.v4 ⟨0x01020304, by decide⟩] := by
    unfold Lists
    decide +kernel
  have hrespelled : List.Forall₂ Respelled [py " 2001:DB8:0:0:0:0:0:1 ", py "10.1.1.1"]
      [py "2001:db8::1", py "10.1.1.1"] := by
    unfold Respelled
    decide +kernel
  obtain ⟨-, hresult, hfront, hspelled, -, -⟩ :=
    network_identity_not_spoofable sampleNetworks (some (py "10.0.0.5"))
  have hheader := (hresult hpeer _ [] _ _ hlist hclient (by simpa using hproxy)).1
  refine ⟨hheader, ?_, ?_⟩
  · exact (hfront hpeer _ _ _ _ hlist ⟨_, List.mem_cons_self, hclient⟩ hleft).trans hheader
  · exact (hspelled _ _ (by simp) (by decide +kernel) (by decide +kernel) hrespelled).trans hheader

end Katherine.Cloud
