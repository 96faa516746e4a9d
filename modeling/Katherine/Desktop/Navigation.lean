import Katherine.Lib.Json
import Katherine.Lib.Runs

/-!
# The bridge and what the window shows

`LocalBuildBridge`, `BuildTrust` and `NavigationPolicy` of `backend/desktop/app.py`,
over a web view that may be loading. The bridge never sees the document that calls it:
it has the address of the load that started last, and the one address that was
committed when a load was reported complete.

`on_loaded` reads the address when it runs. If another load has started since the one it
is told about was completed, it takes the new address for the old document, and nothing
else tells the two apart. So everything turns on whether a load starts while a completed
one is still unreported: `bridge_serves_local` is the case without, and
`remote_page_reaches_bridge` a run with one.
-/

namespace Katherine.Desktop

open Py Runs

/-! ## Pages of the local build -/

/-- A `PurePosixPath`. -/
structure PurePath where
  root : PyStr
  tail : List PyStr
deriving DecidableEq

/-- `Path(s)`: two leading slashes are a root of their own, and three are one. -/
def PurePath.of (s : PyStr) : PurePath :=
  let slash := cp '/'
  let root :=
    match s with
    | a :: b :: c :: _ =>
        if a ≠ slash then [] else if b = slash ∧ c ≠ slash then [slash, slash] else [slash]
    | a :: b :: [] => if a ≠ slash then [] else if b = slash then [slash, slash] else [slash]
    | a :: [] => if a ≠ slash then [] else [slash]
    | [] => []
  ⟨root, (s.splitOn slash).filter fun x => !x.isEmpty && decide (x ≠ py ".")⟩

/-- `as_posix()`. -/
def PurePath.asPosix (p : PurePath) : PyStr :=
  let text := p.root ++ List.intercalate [cp '/'] p.tail
  if text.isEmpty then py "." else text

/-- `p.relative_to(other)` does not raise. -/
def PurePath.isRelativeTo (p other : PurePath) : Bool :=
  decide (p.root = other.root) && other.tail.isPrefixOf p.tail

structure ResolvedBuild where
  distDir : PurePath
  indexHtml : PurePath

/-- `urlsplit`, less the scheme. -/
structure SplitUrl where
  netloc : PyStr
  path : PyStr
  query : PyStr
  fragment : PyStr

/-- The text up to the first `c`, and what is behind it. -/
def cut (c : CodePoint) (s : PyStr) : PyStr × PyStr :=
  (s.takeWhile (· ≠ c), (s.dropWhile (· ≠ c)).drop 1)

/-- `urlsplit` of a text that starts with `file://`: tabs and line ends are removed first. -/
def urlsplitFile (url : PyStr) : SplitUrl :=
  let rest := (url.filter fun c => !decide (c.val ∈ [9, 10, 13])).drop 7
  let ends := fun c => decide (c ∈ [cp '/', cp '?', cp '#'])
  let (beforeFragment, fragment) := cut (cp '#') (rest.dropWhile (!ends ·))
  let (path, query) := cut (cp '?') beforeFragment
  { netloc := rest.takeWhile (!ends ·), path, query, fragment }

/-- `is_local_build_url`. What makes `urlsplit` raise is a host, which is refused anyway. -/
def isLocalBuildUrl (url : Option PyStr) (build : ResolvedBuild) : Bool :=
  match url with
  | none => false
  | some url =>
      (py "file://").isPrefixOf url &&
        let split := urlsplitFile url
        let segments := split.path.splitOn (cp '/')
        split.netloc.isEmpty && split.query.isEmpty && split.fragment.isEmpty &&
          (decide (split.path = build.indexHtml.asPosix) ||
            (PurePath.of split.path).isRelativeTo build.distDir
              && !decide (py ".." ∈ segments) && !decide (py "." ∈ segments)
              && (build.distDir.asPosix ++ [cp '/']).isPrefixOf split.path)

/-! ## Trust -/

/-- `BuildTrust`: the address of the last completed local load. -/
structure BuildTrust where
  committed : Option PyStr

def BuildTrust.commitIfLocal (build : ResolvedBuild) (url : Option PyStr) : BuildTrust :=
  if isLocalBuildUrl url build then ⟨url⟩ else ⟨none⟩

def BuildTrust.revoke : BuildTrust := ⟨none⟩

def BuildTrust.isTrusted (trust : BuildTrust) (build : ResolvedBuild) (currentUrl : Option PyStr) :
    Bool :=
  match trust.committed with
  | none => false
  | some committed => decide (currentUrl = some committed) && isLocalBuildUrl currentUrl build

/-! ## The window -/

/-- The web view. -/
structure WebView where
  /-- What `get_current_url()` reports: the address of the load that started last. -/
  started : Option PyStr
  /-- That load has not become the document yet. -/
  loading : Bool
  /-- The address the live document was loaded from. -/
  live : Option PyStr
  /-- Completed loads that `on_loaded` has not been told about. -/
  unreported : Nat

structure Shell where
  view : WebView
  trust : BuildTrust

/-- A load starts; the live document stays. -/
def WebView.start (view : WebView) (url : PyStr) : WebView :=
  { view with started := some url, loading := true }

/-- The document of the load that started last becomes the live one. -/
def WebView.complete (view : WebView) : WebView :=
  { view with loading := false, live := view.started, unreported := view.unreported + 1 }

/-- `NavigationPolicy.on_loaded`; `url` is what `get_current_url()` returned. -/
def Shell.onLoaded (build : ResolvedBuild) (entryUri : PyStr) (url : Option PyStr) (s : Shell) :
    Shell :=
  if isLocalBuildUrl url build then { s with trust := .commitIfLocal build url }
  else { trust := .revoke, view := s.view.start entryUri }

/-! ## The bridge -/

/-- What the inner bridge does with a forwarded call. -/
inductive InnerOutcome
  | dict (payload : List (PyKey × PyVal))
  | notDict
  /-- `DesktopApiError`, with its payload. -/
  | apiError (payload : List (PyKey × PyVal))
  | raised

inductive ShellReply
  | nothing
  /-- The inner bridge was called. -/
  | served (op : PyStr) (payload : List (PyKey × PyVal))
  | refused (payload : List (PyKey × PyVal))

def failure (code message : PyStr) : List (PyKey × PyVal) :=
  [(.str (py "ok"), .bool false), (.str (py "code"), .str code), (.str (py "message"), .str message)]

def unavailable : List (PyKey × PyVal) :=
  failure (py "bridge_unavailable") (py "Desktop bridge is not available for this page.")

def InnerOutcome.payload : InnerOutcome → List (PyKey × PyVal)
  | .dict payload => payload
  | .apiError payload => payload
  | _ => failure (py "internal_error") (py "The desktop bridge failed to complete the request.")

/-- `LocalBuildBridge._serve`. -/
def Shell.serve (build : ResolvedBuild) (op : PyStr) (outcome : InnerOutcome) (url : Option PyStr)
    (s : Shell) : ShellReply :=
  if isLocalBuildUrl url build && s.trust.isTrusted build url then .served op outcome.payload
  else .refused unavailable

/-! ## Steps -/

/-- What can happen next. Reading the address may fail, and `_get_url_safely` makes that `None`. -/
inductive ShellMove
  | start (url : PyStr)
  | complete
  | loaded (readable : Bool)
  /-- The live document calls an allowlisted method. -/
  | call (op : PyStr) (outcome : InnerOutcome) (readable : Bool)

/-- `_get_url_safely(get_current_url)`. -/
def WebView.currentUrl (view : WebView) (readable : Bool) : Option PyStr :=
  if readable then view.started else none

def shellStep (build : ResolvedBuild) (entryUri : PyStr) : ShellMove → Shell → ShellReply × Shell
  | .start url, s => (.nothing, { s with view := s.view.start url })
  | .complete, s => (.nothing, if s.view.loading then { s with view := s.view.complete } else s)
  | .loaded readable, s =>
      (.nothing,
        if s.view.unreported = 0 then s
        else Shell.onLoaded build entryUri (s.view.currentUrl readable)
          { s with view := { s.view with unreported := s.view.unreported - 1 } })
  | .call op outcome readable, s => (s.serve build op outcome (s.view.currentUrl readable), s)

/-- A window that has loaded nothing. -/
def Shell.fresh : Shell := ⟨⟨none, false, none, 0⟩, ⟨none⟩⟩

/-! ## What the trust is worth -/

section

variable {build : ResolvedBuild} {entryUri : PyStr}

/-- The step starts a load while a completed one is unreported. -/
def Overlaps (e : Event (shellStep build entryUri)) : Prop :=
  ∃ url, e.input = .start url ∧ 0 < e.before.view.unreported

/-- The step forwarded a call to the inner bridge. -/
def Forwards (e : Event (shellStep build entryUri)) : Prop :=
  ∃ op payload, e.reply = .served op payload

/-- With no load overlapping a report, the newest address tells which document is live. -/
structure TrustInv (build : ResolvedBuild) (s : Shell) : Prop where
  atMostOne : s.view.unreported ≤ 1
  /-- A load that is not reported is the one that started last. -/
  settled : 0 < s.view.unreported → s.view.loading = false ∧ s.view.live = s.view.started
  /-- Trust outlives the local document only until the load that replaced it is reported. -/
  trusted : s.trust.committed ≠ none → isLocalBuildUrl s.view.live build = false →
    0 < s.view.unreported

theorem trustInv_fresh : TrustInv build .fresh where
  atMostOne := Nat.zero_le _
  settled h := absurd h (Nat.lt_irrefl 0)
  trusted h := absurd rfl h

theorem trustInv_start {s : Shell} (h : TrustInv build s) (hreported : s.view.unreported = 0)
    (url : PyStr) : TrustInv build { s with view := s.view.start url } where
  atMostOne := h.atMostOne
  settled hpos := by
    change 0 < s.view.unreported at hpos
    omega
  trusted := h.trusted

theorem trustInv_complete {s : Shell} (h : TrustInv build s) (hloading : s.view.loading = true) :
    TrustInv build { s with view := s.view.complete } := by
  have hreported : s.view.unreported = 0 := by
    by_contra hne
    have hsettled := (h.settled (Nat.pos_of_ne_zero hne)).1
    rw [hloading] at hsettled
    cases hsettled
  exact
    { atMostOne := by
        show s.view.unreported + 1 ≤ 1
        omega
      settled := fun _ => ⟨rfl, rfl⟩
      trusted := fun _ _ => Nat.succ_pos _ }

/-- The report of the only completed load: its document is the live one. -/
theorem trustInv_loaded {s : Shell} (h : TrustInv build s) (hpos : 0 < s.view.unreported)
    (readable : Bool) : TrustInv build (Shell.onLoaded build entryUri (s.view.currentUrl readable)
      { s with view := { s.view with unreported := s.view.unreported - 1 } }) := by
  have hlast : s.view.unreported - 1 = 0 := by
    have := h.atMostOne
    omega
  have hnone : ¬ 0 < s.view.unreported - 1 := by omega
  unfold Shell.onLoaded
  split
  · rename_i hlocal
    have hurl : isLocalBuildUrl s.view.live build = true := by
      cases readable with
      | false => cases hlocal
      | true =>
          rw [(h.settled hpos).2]
          exact hlocal
    refine ⟨?_, fun h0 => absurd h0 hnone, ?_⟩
    · show s.view.unreported - 1 ≤ 1
      omega
    · intro _ hremote
      change isLocalBuildUrl s.view.live build = false at hremote
      rw [hurl] at hremote
      cases hremote
  · refine ⟨?_, fun h0 => absurd h0 hnone, fun hnot => absurd rfl hnot⟩
    show s.view.unreported - 1 ≤ 1
    omega

/-- **Every step that does not overlap a report keeps the invariant.** -/
theorem trustInv_kept {e : Event (shellStep build entryUri)} (h : TrustInv build e.before)
    (hnot : ¬ Overlaps e) : TrustInv build e.after := by
  have hafter : e.after = (shellStep build entryUri e.input e.before).2 := by rw [e.executed]
  rw [hafter]
  cases hin : e.input with
  | start url =>
      refine trustInv_start h ?_ url
      by_contra hne
      exact hnot ⟨url, hin, Nat.pos_of_ne_zero hne⟩
  | complete =>
      show TrustInv build (if e.before.view.loading then _ else _)
      split
      · rename_i hloading
        exact trustInv_complete h hloading
      · exact h
  | loaded readable =>
      show TrustInv build (if e.before.view.unreported = 0 then _ else _)
      split
      · exact h
      · rename_i hne
        exact trustInv_loaded h (Nat.pos_of_ne_zero hne) readable
  | call => exact h

/-- What a forwarded call says about the address and the trust. -/
theorem forwards_inv {e : Event (shellStep build entryUri)} (h : Forwards e) :
    isLocalBuildUrl e.before.view.started build = true ∧ e.before.trust.committed ≠ none := by
  obtain ⟨op, payload, hreply⟩ := h
  have hexec : e.reply = (shellStep build entryUri e.input e.before).1 := by rw [e.executed]
  rw [hreply] at hexec
  cases hin : e.input with
  | call op' outcome readable =>
      rw [hin] at hexec
      change _ = Shell.serve build op' outcome (e.before.view.currentUrl readable) e.before at hexec
      unfold Shell.serve at hexec
      split at hexec
      · rename_i hserve
        obtain ⟨hlocal, htrusted⟩ := (Bool.and_eq_true _ _).mp hserve
        refine ⟨?_, ?_⟩
        · cases readable with
          | false => cases hlocal
          | true => exact hlocal
        · intro hnone
          rw [BuildTrust.isTrusted, hnone] at htrusted
          cases htrusted
      · cases hexec
  | start url =>
      rw [hin] at hexec
      cases hexec
  | complete =>
      rw [hin] at hexec
      cases hexec
  | loaded readable =>
      rw [hin] at hexec
      cases hexec

/-- **The bridge serves local documents**, in every run in which no load starts while a completed one
is still unreported. -/
theorem bridge_serves_local {s : Shell} {es : List (Event (shellStep build entryUri))}
    (hrun : Run .fresh es s) (hnot : ∀ e ∈ es, ¬ Overlaps e) :
    ∀ e ∈ es, Forwards e → isLocalBuildUrl e.before.view.live build = true := by
  obtain ⟨-, hall⟩ := hrun.invariant trustInv_fresh fun e he h => trustInv_kept h (hnot e he)
  intro e he hforwards
  obtain ⟨hlocal, hcommitted⟩ := forwards_inv hforwards
  by_contra hremote
  have hinv := (hall e he).1
  have hpos := hinv.trusted hcommitted (Bool.eq_false_iff.mpr hremote)
  rw [← (hinv.settled hpos).2] at hlocal
  exact hremote hlocal

end

/-! ## Two reports, one revert -/

def sampleBuild : ResolvedBuild where
  distDir := .of (py "/app/dist")
  indexHtml := .of (py "/app/dist/index.html")

def sampleEntry : PyStr := py "file:///app/dist/desktop.html"

def remotePage : PyStr := py "https://example.com/"

/-- A remote page sends the window on to another one before the first is reported. The first report
reverts to the entry page, the second takes the entry page for loaded, and the remote document calls. -/
def redirectMoves : List ShellMove :=
  [.start sampleEntry, .complete, .loaded true, .start remotePage, .complete, .start remotePage,
    .complete, .loaded true, .loaded true, .call (py "send_message") .notDict true]

def ShellReply.isServed : ShellReply → Bool
  | .served _ _ => true
  | _ => false

theorem forwards_of_isServed {build : ResolvedBuild} {entryUri : PyStr}
    {e : Event (shellStep build entryUri)} (h : e.reply.isServed = true) : Forwards e := by
  unfold ShellReply.isServed at h
  split at h
  · rename_i op payload hreply
    exact ⟨op, payload, hreply⟩
  · cases h

/-- **A remote document reaches the inner bridge.** -/
theorem remote_page_reaches_bridge :
    ∃ (es : List (Event (shellStep sampleBuild sampleEntry))) (s : Shell), Run .fresh es s ∧
      ∃ e ∈ es, Forwards e ∧ isLocalBuildUrl e.before.view.live sampleBuild = false := by
  have hserved : (trace (shellStep sampleBuild sampleEntry) redirectMoves .fresh).any (fun e =>
      e.reply.isServed && !isLocalBuildUrl e.before.view.live sampleBuild) = true := by
    decide +kernel
  obtain ⟨e, he, hremote⟩ := List.any_eq_true.mp hserved
  obtain ⟨hreply, hlive⟩ := (Bool.and_eq_true _ _).mp hremote
  obtain ⟨s, hrun⟩ := Run.ofInputs redirectMoves Shell.fresh
  exact ⟨_, s, hrun, e, he, forwards_of_isServed hreply, by simpa using hlive⟩

/-- The entry page is opened and calls, and sends the window on to a remote page. That one calls when it
is there and once more while the window goes back; then the entry page calls again. -/
def revertMoves : List ShellMove :=
  [.start sampleEntry, .complete, .loaded true, .call (py "health") .notDict true, .start remotePage, .complete,
    .call (py "health") .notDict true, .loaded true, .call (py "health") .notDict true, .complete, .loaded true,
    .call (py "health") .notDict true]

theorem bridge_serves_local_entry :
    ((trace (shellStep sampleBuild sampleEntry) revertMoves .fresh).map fun e => (e.before.view.live, e.reply.isServed)) =
      [(none, false), (none, false), (some sampleEntry, false), (some sampleEntry, true), (some sampleEntry, false),
        (some sampleEntry, false), (some remotePage, false), (some remotePage, false), (some remotePage, false),
        (some remotePage, false), (some sampleEntry, false), (some sampleEntry, true)] ∧
    ∀ e ∈ trace (shellStep sampleBuild sampleEntry) revertMoves .fresh, Forwards e →
      isLocalBuildUrl e.before.view.live sampleBuild = true := by
  obtain ⟨s, hrun⟩ := @Run.ofInputs _ _ _ (shellStep sampleBuild sampleEntry) revertMoves Shell.fresh
  have hnot : ∀ e ∈ trace (shellStep sampleBuild sampleEntry) revertMoves .fresh, ¬ Overlaps e := by
    have hquiet : (trace (shellStep sampleBuild sampleEntry) revertMoves .fresh).all
        (fun e => decide (e.before.view.unreported = 0) || !(e.input matches .start _)) = true := by
      decide +kernel
    rintro e he ⟨url, hin, hpos⟩
    have he' := List.all_eq_true.mp hquiet e he
    rw [hin] at he'
    simp only [Bool.not_true, Bool.or_false, decide_eq_true_eq] at he'
    omega
  exact ⟨by decide +kernel, bridge_serves_local hrun hnot⟩

end Katherine.Desktop
