import Katherine.Desktop.Navigation
import Katherine.Lib.Percent

/-!
# What counts as a local page

`is_local_build_url` reads the path of a URL as it stands, and the path of the build as it
stands. `as_uri` percent-encodes. So what is to be recognised, `PointsInside`, is about the
decoded path, and the two part company in two ways: a URL may lie inside the build only once it
is decoded, and a URL may lie inside it only until it is decoded. `local_page_recognition` says
that there is no third way, and what is left for the URLs that the shell itself opens.
-/

namespace Katherine.Desktop

open Py Percent

/-! ## Paths and URLs of the build -/

/-- A name in a directory. -/
def IsName (seg : PyStr) : Prop :=
  seg ≠ [] ∧ cp '/' ∉ seg ∧ seg ≠ py "." ∧ seg ≠ py ".."

/-- The frontend root, which `frontend_root_from_module` has resolved. -/
structure FrontendRoot where
  names : List PyStr
  ok : ∀ seg ∈ names, IsName seg

def FrontendRoot.path (root : FrontendRoot) : PurePath := ⟨[cp '/'], root.names⟩

/-- `p / name`. -/
def PurePath.join (p : PurePath) (name : PyStr) : PurePath := ⟨p.root, p.tail ++ [name]⟩

/-- `resolve_frontend_build`: the paths. -/
def resolveFrontendBuild (root : FrontendRoot) : ResolvedBuild where
  distDir := root.path.join (py "dist")
  indexHtml := (root.path.join (py "dist")).join (py "index.html")

def desktopHtml (root : FrontendRoot) : PurePath := (root.path.join (py "dist")).join (py "desktop.html")

/-- `as_uri` of an absolute path. -/
def PurePath.asUri (p : PurePath) : PyStr := py "file://" ++ ascii (quote (fsencode p.asPosix))

/-- What `urlsplit` makes of the text behind the scheme. -/
def splitHierarchy (rest : PyStr) : SplitUrl :=
  let ends := fun c => decide (c ∈ [cp '/', cp '?', cp '#'])
  let (netloc, rest) :=
    if (py "//").isPrefixOf rest then ((rest.drop 2).takeWhile (!ends ·), (rest.drop 2).dropWhile (!ends ·))
    else ([], rest)
  let (beforeFragment, fragment) := cut (cp '#') rest
  let (path, query) := cut (cp '?') beforeFragment
  { netloc, path, query, fragment }

def isAsciiLetter (c : CodePoint) : Bool :=
  (decide (65 ≤ c.val) && decide (c.val ≤ 90)) || (decide (97 ≤ c.val) && decide (c.val ≤ 122))

/-- A character of a scheme. -/
def isSchemeChar (c : CodePoint) : Bool :=
  isAsciiLetter c || (decide (48 ≤ c.val) && decide (c.val ≤ 57)) ||
    decide (c ∈ [cp '+', cp '-', cp '.'])

def lowerAscii (c : CodePoint) : CodePoint := if 65 ≤ c.val ∧ c.val ≤ 90 then Fin.ofNat 0x110000 (c.val + 32) else c

/-- `urlsplit`: the scheme, and the rest. -/
def urlsplit (url : PyStr) : PyStr × SplitUrl :=
  let url := (url.dropWhile fun c => decide (c.val ≤ 32)).filter fun c => !decide (c.val ∈ [9, 10, 13])
  let scheme := url.takeWhile (· ≠ cp ':')
  if cp ':' ∈ url ∧ scheme.head?.any isAsciiLetter ∧ scheme.all isSchemeChar then
    (scheme.map lowerAscii, splitHierarchy (url.drop (scheme.length + 1)))
  else ([], splitHierarchy url)

/-- The path that a URL names, in bytes. -/
def decodedPath (url : PyStr) : List Byte := percentDecode (fsencode (urlsplit url).2.path)

/-- No segment of it is `.` or `..`. -/
def Literal (path : List Byte) : Prop :=
  [dot] ∉ path.splitOn slash ∧ [dot, dot] ∉ path.splitOn slash

/-- A file URL with empty host, no query and no fragment. -/
structure PlainFileUrl (url : PyStr) : Prop where
  scheme : (urlsplit url).1 = py "file"
  host : (urlsplit url).2.netloc = []
  query : (urlsplit url).2.query = []
  fragment : (urlsplit url).2.fragment = []

/-- **What is to be recognised**: a plain file URL whose decoded path is literal, and inside `dist`. -/
structure PointsInside (url : PyStr) (build : ResolvedBuild) : Prop extends PlainFileUrl url where
  inside : fsencode build.distDir.asPosix ++ [slash] <+: decodedPath url
  literal : Literal (decodedPath url)

/-- The URL starts with `file://`, and its path with that of `dist`, both as they stand. -/
def StandsInside (url : PyStr) (build : ResolvedBuild) : Prop :=
  py "file://" <+: url ∧ build.distDir.asPosix ++ [cp '/'] <+: (urlsplit url).2.path

/-- The path as it stands has no segment `.` or `..`. -/
def LooksLiteral (url : PyStr) : Prop :=
  py "." ∉ (urlsplit url).2.path.splitOn (cp '/') ∧ py ".." ∉ (urlsplit url).2.path.splitOn (cp '/')

/-! ## What `urlsplit` makes of it -/

theorem cut_of_not_mem {c : CodePoint} {s : PyStr} (h : c ∉ s) : cut c s = (s, []) := by
  have hall : ∀ x ∈ s, decide (x ≠ c) = true := fun x hx =>
    decide_eq_true fun heq => h (heq ▸ hx)
  rw [cut, List.takeWhile_eq_self_iff.mpr hall, List.dropWhile_eq_nil_iff.mpr hall, List.drop_nil]

/-- The tabs and line ends that `urlsplit` removes. -/
def untabbed (s : PyStr) : PyStr := s.filter fun c => !decide (c.val ∈ [9, 10, 13])

theorem untabbed_file (rest : PyStr) :
    untabbed (py "file://" ++ rest) = py "file://" ++ untabbed rest := by
  rw [untabbed, List.filter_append]
  rfl

theorem urlsplitFile_file (rest : PyStr) :
    urlsplitFile (py "file://" ++ rest) = splitHierarchy (py "//" ++ untabbed rest) := by
  have hdrop : ((py "file://" ++ rest).filter fun c => !decide (c.val ∈ [9, 10, 13])).drop 7
      = untabbed rest := by
    rw [← untabbed, untabbed_file]
    rfl
  unfold urlsplitFile
  rw [hdrop]
  rfl

/-- **`urlsplit` of a text that starts with `file://`.** -/
theorem urlsplit_file {url : PyStr} (h : py "file://" <+: url) :
    urlsplit url = (py "file", urlsplitFile url) := by
  obtain ⟨rest, rfl⟩ := h
  have hstrip : (py "file://" ++ rest).dropWhile (fun c => decide (c.val ≤ 32)) = py "file://" ++ rest :=
    rfl
  have hfilter : (py "file://" ++ rest).filter (fun c => !decide (c.val ∈ [9, 10, 13]))
      = py "file://" ++ untabbed rest := untabbed_file rest
  rw [urlsplitFile_file, urlsplit, hstrip]
  simp only [hfilter]
  rfl

/-- The URL of a path that is as it should be in a URL. -/
theorem urlsplitFile_path {path : PyStr} (hslash : path.head? = some (cp '/'))
    (hplain : ∀ c ∈ path, c.val ∉ [9, 10, 13, 35, 63]) :
    urlsplitFile (py "file://" ++ path) = ⟨[], path, [], []⟩ := by
  have huntabbed : untabbed path = path := List.filter_eq_self.mpr fun c hc => by
    have := hplain c hc
    simp only [List.mem_cons, List.not_mem_nil, or_false] at this ⊢
    simp only [Bool.not_eq_true', decide_eq_false_iff_not]
    tauto
  have hfragment : cp '#' ∉ path := fun hc => hplain _ hc (by decide)
  have hquery : cp '?' ∉ path := fun hc => hplain _ hc (by decide)
  obtain ⟨tail, rfl⟩ : ∃ tail, path = cp '/' :: tail := by
    cases path with
    | nil => cases hslash
    | cons c tail =>
        cases hslash
        exact ⟨tail, rfl⟩
  rw [urlsplitFile_file, huntabbed]
  change (let (beforeFragment, fragment) := cut (cp '#') (cp '/' :: tail)
    let (path, query) := cut (cp '?') beforeFragment
    (⟨[], path, query, fragment⟩ : SplitUrl)) = _
  rw [cut_of_not_mem hfragment]
  simp only [cut_of_not_mem hquery]

/-! ## Paths by their names -/

theorem intercalate_append {sep : PyStr} {bs : List PyStr} (hbs : bs ≠ []) : ∀ {as : List PyStr}, as ≠ [] →
    sep.intercalate (as ++ bs) = sep.intercalate as ++ (sep ++ sep.intercalate bs)
  | [], h => absurd rfl h
  | [a], _ => by
      obtain ⟨b, bs, rfl⟩ := List.exists_cons_of_ne_nil hbs
      rw [List.singleton_append, List.intercalate_cons_cons, List.intercalate_singleton,
        List.append_assoc]
  | a :: a' :: as, _ => by
      have ih := @intercalate_append sep bs hbs (a' :: as) (List.cons_ne_nil _ _)
      simp only [List.cons_append, List.intercalate_cons_cons, List.append_assoc] at ih ⊢
      rw [ih]

/-- The text of an absolute path: a slash before each of its names. -/
theorem asPosix_absolute {names : List PyStr} (h : names ≠ []) :
    (⟨[cp '/'], names⟩ : PurePath).asPosix = [cp '/'].intercalate ([] :: names) := by
  obtain ⟨name, names, rfl⟩ := List.exists_cons_of_ne_nil h
  rfl

/-- Where each of the names lies. -/
theorem splitOn_absolute {names : List PyStr} (h : names ≠ []) (hnames : ∀ seg ∈ names, IsName seg) :
    (⟨[cp '/'], names⟩ : PurePath).asPosix.splitOn (cp '/') = [] :: names := by
  rw [asPosix_absolute h]
  refine List.splitOn_intercalate (cp '/') (fun seg hseg => ?_) (List.cons_ne_nil _ _)
  rcases List.mem_cons.mp hseg with rfl | hseg
  · exact List.not_mem_nil
  · exact (hnames seg hseg).2.1

theorem join_append {names rest : List PyStr} (h : names ≠ []) (hrest : rest ≠ []) :
    (⟨[cp '/'], names ++ rest⟩ : PurePath).asPosix
      = (⟨[cp '/'], names⟩ : PurePath).asPosix ++ cp '/' :: [cp '/'].intercalate rest := by
  rw [asPosix_absolute h, asPosix_absolute (by simp [h]), ← List.cons_append,
    intercalate_append hrest (List.cons_ne_nil _ _)]
  rfl

/-- An absolute path has one leading slash. -/
theorem asPosix_head {names : List PyStr} (h : names ≠ []) (hnames : ∀ seg ∈ names, IsName seg) :
    ∃ c rest, (⟨[cp '/'], names⟩ : PurePath).asPosix = cp '/' :: c :: rest ∧ c ≠ cp '/' := by
  obtain ⟨name, names, rfl⟩ := List.exists_cons_of_ne_nil h
  obtain ⟨hne, hslash, -⟩ := hnames name List.mem_cons_self
  obtain ⟨c, name, rfl⟩ := List.exists_cons_of_ne_nil hne
  have hc : c ≠ cp '/' := fun heq => hslash (heq ▸ List.mem_cons_self)
  have htext : (⟨[cp '/'], (c :: name) :: names⟩ : PurePath).asPosix
      = cp '/' :: [cp '/'].intercalate ((c :: name) :: names) := by
    rw [asPosix_absolute h, List.intercalate_cons_cons]
    rfl
  cases names with
  | nil =>
      rw [List.intercalate_singleton] at htext
      exact ⟨c, name, htext, hc⟩
  | cons name' names =>
      rw [List.intercalate_cons_cons, List.append_assoc, List.cons_append] at htext
      exact ⟨c, _, htext, hc⟩

theorem not_dot_of_isName {names : List PyStr} (hnames : ∀ seg ∈ names, IsName seg) :
    py "." ∉ [] :: names ∧ py ".." ∉ [] :: names := by
  constructor <;> intro hmem <;> rcases List.mem_cons.mp hmem with heq | hmem
  · exact absurd heq (by decide)
  · exact (hnames _ hmem).2.2.1 rfl
  · exact absurd heq (by decide)
  · exact (hnames _ hmem).2.2.2 rfl

/-- **A text below a path is relative to it.** -/
theorem isRelativeTo_of_prefix {names : List PyStr} (h : names ≠ []) (hnames : ∀ seg ∈ names, IsName seg)
    {path : PyStr} (hbelow : (⟨[cp '/'], names⟩ : PurePath).asPosix ++ [cp '/'] <+: path) :
    (PurePath.of path).isRelativeTo ⟨[cp '/'], names⟩ = true := by
  obtain ⟨t, rfl⟩ := hbelow
  rw [List.append_assoc, List.singleton_append]
  have htail : (PurePath.of ((⟨[cp '/'], names⟩ : PurePath).asPosix ++ cp '/' :: t)).tail
      = names ++ (t.splitOn (cp '/')).filter fun x => !x.isEmpty && decide (x ≠ py ".") := by
    show List.filter _ _ = _
    rw [List.splitOn_append_cons_self, splitOn_absolute h hnames, List.filter_append,
      List.filter_cons_of_neg (by simp), List.filter_eq_self.mpr fun seg hseg => ?_]
    obtain ⟨hne, -, hdot, -⟩ := hnames seg hseg
    simp [hne, hdot]
  have hroot : (PurePath.of ((⟨[cp '/'], names⟩ : PurePath).asPosix ++ cp '/' :: t)).root = [cp '/'] := by
    obtain ⟨c, rest, hposix, hc⟩ := asPosix_head h hnames
    rw [hposix]
    cases rest <;> simp [PurePath.of, hc]
  rw [PurePath.isRelativeTo, htail, hroot]
  simp

/-! ## What is recognised -/

section

variable {root : FrontendRoot}

theorem isName_dist (root : FrontendRoot) : ∀ seg ∈ root.names ++ [py "dist"], IsName seg := by
  intro seg hseg
  rcases List.mem_append.mp hseg with hseg | hseg
  · exact root.ok seg hseg
  · rw [List.mem_singleton.mp hseg]
    exact ⟨by decide, by decide, by decide, by decide⟩

theorem names_ne_nil (root : FrontendRoot) : root.names ++ [py "dist"] ≠ [] := by simp

/-- A file inside `dist`, by its names from there. -/
structure DistFile where
  names : List PyStr
  nonempty : names ≠ []
  ok : ∀ seg ∈ names, IsName seg

def DistFile.path (root : FrontendRoot) (file : DistFile) : PurePath :=
  ⟨[cp '/'], (root.names ++ [py "dist"]) ++ file.names⟩

theorem DistFile.asPosix (root : FrontendRoot) (file : DistFile) : (file.path root).asPosix
    = (resolveFrontendBuild root).distDir.asPosix ++ cp '/' :: [cp '/'].intercalate file.names :=
  join_append (names_ne_nil root) file.nonempty

theorem DistFile.bytes (root : FrontendRoot) (file : DistFile) : fsencode (file.path root).asPosix
    = fsencode (resolveFrontendBuild root).distDir.asPosix
      ++ slash :: fsencode ([cp '/'].intercalate file.names) := by
  rw [file.asPosix, fsencode_append]
  rfl

theorem DistFile.isName (root : FrontendRoot) (file : DistFile) :
    ∀ seg ∈ (root.names ++ [py "dist"]) ++ file.names, IsName seg := by
  intro seg hseg
  rcases List.mem_append.mp hseg with hseg | hseg
  · exact isName_dist root seg hseg
  · exact file.ok seg hseg

/-- `index.html` is one of them. -/
def indexFile : DistFile := ⟨[py "index.html"], by decide, by
  intro seg hseg
  rw [List.mem_singleton.mp hseg]
  exact ⟨by decide, by decide, by decide, by decide⟩⟩

def desktopFile : DistFile := ⟨[py "desktop.html"], by decide, by
  intro seg hseg
  rw [List.mem_singleton.mp hseg]
  exact ⟨by decide, by decide, by decide, by decide⟩⟩

/-- The path of a file of the build lies inside `dist` and looks literal, as it stands. -/
theorem DistFile.stands (root : FrontendRoot) (file : DistFile) :
    (resolveFrontendBuild root).distDir.asPosix ++ [cp '/'] <+: (file.path root).asPosix ∧
      py "." ∉ (file.path root).asPosix.splitOn (cp '/') ∧
      py ".." ∉ (file.path root).asPosix.splitOn (cp '/') := by
  refine ⟨⟨[cp '/'].intercalate file.names, ?_⟩, ?_⟩
  · rw [file.asPosix, List.append_assoc]
    rfl
  · have hsplit : (file.path root).asPosix.splitOn (cp '/')
        = [] :: ((root.names ++ [py "dist"]) ++ file.names) :=
      splitOn_absolute (by simp) (file.isName root)
    rw [hsplit]
    exact not_dot_of_isName (file.isName root)

/-- **What `is_local_build_url` recognises**: the case of the index page is one of the others. -/
theorem isLocalBuildUrl_iff {url : PyStr} :
    isLocalBuildUrl (some url) (resolveFrontendBuild root) = true ↔
      PlainFileUrl url ∧ StandsInside url (resolveFrontendBuild root) ∧ LooksLiteral url := by
  by_cases hfile : py "file://" <+: url
  · have hsplit := urlsplit_file hfile
    have hindex : (urlsplitFile url).path = (resolveFrontendBuild root).indexHtml.asPosix →
        (resolveFrontendBuild root).distDir.asPosix ++ [cp '/'] <+: (urlsplitFile url).path ∧
          py "." ∉ (urlsplitFile url).path.splitOn (cp '/') ∧
          py ".." ∉ (urlsplitFile url).path.splitOn (cp '/') := by
      intro heq
      rw [heq]
      exact indexFile.stands root
    have hrelative := fun h => isRelativeTo_of_prefix (names_ne_nil root) (isName_dist root)
      (h : (resolveFrontendBuild root).distDir.asPosix ++ [cp '/'] <+: (urlsplitFile url).path)
    have hplain : PlainFileUrl url ↔ (urlsplitFile url).netloc = [] ∧ (urlsplitFile url).query = [] ∧
        (urlsplitFile url).fragment = [] := by
      constructor
      · rintro ⟨-, hhost, hquery, hfragment⟩
        rw [hsplit] at hhost hquery hfragment
        exact ⟨hhost, hquery, hfragment⟩
      · rintro ⟨hhost, hquery, hfragment⟩
        constructor <;> rw [hsplit]
        · exact hhost
        · exact hquery
        · exact hfragment
    rw [hplain, StandsInside, LooksLiteral, hsplit]
    simp only [isLocalBuildUrl, Bool.and_eq_true, Bool.or_eq_true, decide_eq_true_eq,
      List.isPrefixOf_iff_prefix, List.isEmpty_iff, Bool.not_eq_true', decide_eq_false_iff_not]
    constructor
    · rintro ⟨-, ⟨⟨hhost, hquery⟩, hfragment⟩, hpath⟩
      refine ⟨⟨hhost, hquery, hfragment⟩, ?_⟩
      rcases hpath with heq | ⟨⟨⟨-, hdots⟩, hdot⟩, hbelow⟩
      · obtain ⟨hbelow, hlooks⟩ := hindex heq
        exact ⟨⟨hfile, hbelow⟩, hlooks⟩
      · exact ⟨⟨hfile, hbelow⟩, hdot, hdots⟩
    · rintro ⟨⟨hhost, hquery, hfragment⟩, ⟨-, hbelow⟩, hdot, hdots⟩
      exact ⟨hfile, ⟨⟨hhost, hquery⟩, hfragment⟩, .inr ⟨⟨⟨hrelative hbelow, hdots⟩, hdot⟩, hbelow⟩⟩
  · constructor
    · intro hlocal
      exact absurd (List.isPrefixOf_iff_prefix.mp (Bool.and_eq_true_iff.mp hlocal).1) hfile
    · rintro ⟨-, ⟨hbelow, -⟩, -⟩
      exact absurd hbelow hfile

/-! ## The decoded path -/

/-- A path that is literal when it is decoded looks so before. -/
theorem looksLiteral_of_literal {url : PyStr} (h : Literal (decodedPath url)) : LooksLiteral url :=
  ⟨fun hdot => h.1 (mem_splitOn_decode hdot rfl (by decide)),
    fun hdots => h.2 (mem_splitOn_decode hdots rfl (by decide))⟩

/-- **A URL that stands inside points inside** just when the path of `dist` has no escape. -/
theorem inside_iff {url : PyStr} {build : ResolvedBuild} (h : StandsInside url build) :
    fsencode build.distDir.asPosix ++ [slash] <+: decodedPath url ↔
      percentDecode (fsencode build.distDir.asPosix) = fsencode build.distDir.asPosix := by
  obtain ⟨t, ht⟩ := h.2
  have hpath : decodedPath url = percentDecode (fsencode build.distDir.asPosix)
      ++ slash :: percentDecode (fsencode t) := by
    rw [decodedPath, ← ht, List.append_assoc, fsencode_append, fsencode_append, fsencode_slash,
      List.singleton_append, percentDecode_slash]
  rw [hpath]
  constructor
  · intro hinside
    rcases decode_shorter (fsencode build.distDir.asPosix) with hsame | hlt
    · exact hsame
    · have hself : percentDecode (fsencode build.distDir.asPosix) ++ [slash]
          <+: percentDecode (fsencode build.distDir.asPosix) ++ slash :: percentDecode (fsencode t) :=
        ⟨percentDecode (fsencode t), by simp⟩
      obtain ⟨u, hu⟩ := List.prefix_of_prefix_length_le hself hinside (by simp; omega)
      exact decode_prefix _ u (by rw [← hu]; simp)
  · intro hsame
    rw [hsame]
    exact ⟨percentDecode (fsencode t), by simp⟩

/-- The path of a file of the build is literal. -/
theorem DistFile.literal (root : FrontendRoot) (file : DistFile) :
    Literal (fsencode (file.path root).asPosix) := by
  have hnames := file.isName root
  have hsplit : (fsencode (file.path root).asPosix).splitOn slash
      = ([] :: ((root.names ++ [py "dist"]) ++ file.names)).map fsencode := by
    rw [DistFile.path, asPosix_absolute (by simp), fsencode_intercalate]
    refine List.splitOn_intercalate slash (fun bs hbs => ?_) (by simp)
    obtain ⟨seg, hseg, rfl⟩ := List.mem_map.mp hbs
    rcases List.mem_cons.mp hseg with rfl | hseg
    · exact List.not_mem_nil
    · exact slash_not_mem_fsencode (hnames seg hseg).2.1
  obtain ⟨hdot, hdots⟩ := not_dot_of_isName hnames
  rw [Literal, hsplit]
  constructor <;> intro hmem <;> obtain ⟨seg, hseg, hbytes⟩ := List.mem_map.mp hmem
  · rw [eq_ascii_of_fsencode hbytes (by simp [dot])] at hseg
    exact hdot hseg
  · rw [eq_ascii_of_fsencode hbytes (by simp [dot])] at hseg
    exact hdots hseg

/-! ## The URL of a file -/

/-- The path in the URL of a file. -/
def DistFile.quoted (root : FrontendRoot) (file : DistFile) : PyStr :=
  ascii (quote (fsencode (file.path root).asPosix))

theorem DistFile.asUri_split (root : FrontendRoot) (file : DistFile) :
    urlsplit (file.path root).asUri = (py "file", ⟨[], file.quoted root, [], []⟩) := by
  have hfile : (file.path root).asUri = py "file://" ++ file.quoted root := rfl
  rw [hfile, urlsplit_file ⟨_, rfl⟩]
  refine congrArg (Prod.mk (py "file")) (urlsplitFile_path ?_ fun c hc => ?_)
  · obtain ⟨c, rest, hposix, -⟩ := asPosix_head (by simp) (file.isName root)
    rw [DistFile.quoted, DistFile.path, hposix]
    rfl
  · obtain ⟨b, hb, hval⟩ := mem_ascii hc
    rw [hval]
    exact (quote_val hb).2

theorem DistFile.asUri_decoded (root : FrontendRoot) (file : DistFile) :
    decodedPath (file.path root).asUri = fsencode (file.path root).asPosix := by
  rw [decodedPath, file.asUri_split]
  change percentDecode (fsencode (ascii _)) = _
  rw [fsencode_ascii fun b hb => (quote_val hb).1, quote_inv]

theorem DistFile.asUri_plain (root : FrontendRoot) (file : DistFile) :
    PlainFileUrl (file.path root).asUri := by
  constructor <;> rw [file.asUri_split]

/-- **The URL of a file of the build points inside it.** -/
theorem DistFile.asUri_pointsInside (root : FrontendRoot) (file : DistFile) :
    PointsInside (file.path root).asUri (resolveFrontendBuild root) := by
  refine ⟨file.asUri_plain root, ?_, ?_⟩
  · obtain ⟨t, ht⟩ := (file.stands root).1
    refine ⟨fsencode t, ?_⟩
    rw [file.asUri_decoded, ← ht, fsencode_append, fsencode_append, fsencode_slash]
  · rw [file.asUri_decoded]
    exact file.literal root

/-- `as_uri` leaves the path of `dist` as it is. -/
def Unescaped (root : FrontendRoot) : Prop :=
  ∀ b ∈ fsencode (resolveFrontendBuild root).distDir.asPosix, isSafe b = true

theorem DistFile.asUri_stands (root : FrontendRoot) (file : DistFile) :
    StandsInside (file.path root).asUri (resolveFrontendBuild root) ↔ Unescaped root := by
  have hquoted : file.quoted root = ascii (quote (fsencode (resolveFrontendBuild root).distDir.asPosix)
      ++ slash :: quote (fsencode ([cp '/'].intercalate file.names))) := by
    rw [DistFile.quoted, file.bytes, quote_slash]
  rw [StandsInside, file.asUri_split]
  change _ ∧ _ <+: file.quoted root ↔ _
  rw [hquoted]
  constructor
  · rintro ⟨-, t, ht⟩
    -- read as bytes, the path that stands there begins with that of `dist`
    have hbytes := congrArg fsencode ht
    rw [← hquoted, DistFile.quoted, fsencode_ascii fun b hb => (quote_val hb).1, file.bytes,
      quote_slash, fsencode_append, fsencode_append, fsencode_slash] at hbytes
    exact safe_of_prefix ⟨fsencode t, hbytes⟩
  · intro hsafe
    refine ⟨⟨_, rfl⟩, ascii (quote (fsencode ([cp '/'].intercalate file.names))), ?_⟩
    rw [quote_safe hsafe, ascii_append, ascii_slash,
      ← eq_ascii_of_fsencode rfl fun b hb => (isSafe_val (hsafe b hb)).1, List.append_assoc]
    rfl

/-- **The URL of a file of the build is recognised** just when it does not escape the path of `dist`. -/
theorem DistFile.asUri_local (root : FrontendRoot) (file : DistFile) :
    isLocalBuildUrl (some (file.path root).asUri) (resolveFrontendBuild root) = true ↔ Unescaped root := by
  rw [isLocalBuildUrl_iff, file.asUri_stands]
  refine ⟨fun h => h.2.1, fun h => ⟨file.asUri_plain root, h, ?_⟩⟩
  exact looksLiteral_of_literal (file.asUri_pointsInside root).literal

/-! ## Reverting to the entry page -/

/-- The window after a revert. -/
def Shell.reverted (entryUri : PyStr) (live : Option PyStr) : Shell :=
  ⟨⟨some entryUri, true, live, 0⟩, .revoke⟩

/-- The load that is going on completes, and is reported. -/
def Shell.settle (build : ResolvedBuild) (entryUri : PyStr) (s : Shell) : Shell :=
  (shellStep build entryUri (.loaded true) (shellStep build entryUri .complete s).2).2

/-- **One revert leads to the next** just when the entry page is not recognised. -/
theorem settle_reverted (build : ResolvedBuild) (entryUri : PyStr) (live : Option PyStr) :
    (Shell.reverted entryUri live).settle build entryUri
      = if isLocalBuildUrl (some entryUri) build
          then ⟨⟨some entryUri, false, some entryUri, 0⟩, ⟨some entryUri⟩⟩
          else .reverted entryUri (some entryUri) := by
  show Shell.onLoaded build entryUri (some entryUri) _ = _
  unfold Shell.onLoaded
  split
  · rename_i hlocal
    rw [BuildTrust.commitIfLocal, if_pos hlocal]
    rfl
  · rfl

theorem settle_reverts {build : ResolvedBuild} {entryUri : PyStr}
    (h : ¬ isLocalBuildUrl (some entryUri) build = true) : ∀ (n : Nat) (live : Option PyStr),
      ∃ live', (Shell.settle build entryUri)^[n] (.reverted entryUri live) = .reverted entryUri live'
  | 0, live => ⟨live, rfl⟩
  | n + 1, live => by
      rw [Function.iterate_succ_apply, settle_reverted, if_neg h]
      exact settle_reverts h n (some entryUri)

/-- **The reverts come to an end** just when the entry page is recognised. -/
theorem reverts_end_iff (build : ResolvedBuild) (entryUri : PyStr) (live : Option PyStr) :
    (∃ n, ((Shell.settle build entryUri)^[n] (.reverted entryUri live)).view.loading = false) ↔
      isLocalBuildUrl (some entryUri) build = true := by
  constructor
  · rintro ⟨n, hn⟩
    by_contra hremote
    obtain ⟨live', hlive⟩ := settle_reverts hremote n live
    rw [hlive] at hn
    cases hn
  · intro hlocal
    refine ⟨1, ?_⟩
    rw [Function.iterate_one, settle_reverted, if_pos hlocal]

/-! ## How exact the recognition is -/

/-- The URL points inside only once it is decoded, or once its scheme is lowered. -/
structure OnlyDecoded (url : PyStr) (build : ResolvedBuild) : Prop where
  points : PointsInside url build
  spelled : ¬ StandsInside url build

/-- The URL lies inside only until it is decoded: the path of `dist` has an escape in it, or there is
a dot segment behind one. -/
structure OnlyUndecoded (url : PyStr) (build : ResolvedBuild) : Prop where
  plain : PlainFileUrl url
  stands : StandsInside url build
  looks : LooksLiteral url
  decodes : percentDecode (fsencode build.distDir.asPosix) ≠ fsencode build.distDir.asPosix ∨
    ¬ Literal (decodedPath url)

/-- **Where the recognition is exact.** A URL is recognised just when it points inside the build, but
for the URLs that lie inside only once, or only until, they are decoded. The URLs of the build's own
files point inside it, and are recognised just when `as_uri` leaves the path of `dist` as it is. Just
then does a revert to the entry page end. -/
theorem local_page_recognition (root : FrontendRoot) :
    (∀ url, (isLocalBuildUrl (some url) (resolveFrontendBuild root) = true ↔
        PointsInside url (resolveFrontendBuild root)) ↔
      ¬ OnlyDecoded url (resolveFrontendBuild root) ∧ ¬ OnlyUndecoded url (resolveFrontendBuild root)) ∧
    (∀ file : DistFile, PointsInside (file.path root).asUri (resolveFrontendBuild root) ∧
      (isLocalBuildUrl (some (file.path root).asUri) (resolveFrontendBuild root) = true ↔
        Unescaped root)) ∧
    ∀ live, (∃ n, ((Shell.settle (resolveFrontendBuild root) (desktopHtml root).asUri)^[n]
        (.reverted (desktopHtml root).asUri live)).view.loading = false) ↔ Unescaped root := by
  refine ⟨fun url => ⟨fun hexact => ?_, fun ⟨hspelled, hdecoded⟩ => ?_⟩,
    fun file => ⟨file.asUri_pointsInside root, file.asUri_local root⟩, fun live => ?_⟩
  · rw [isLocalBuildUrl_iff] at hexact
    refine ⟨fun h => h.spelled (hexact.mpr h.points).2.1, fun h => ?_⟩
    have hpoints := hexact.mp ⟨h.plain, h.stands, h.looks⟩
    rcases h.decodes with hescape | hdots
    · exact hescape ((inside_iff h.stands).mp hpoints.inside)
    · exact hdots hpoints.literal
  · rw [isLocalBuildUrl_iff]
    constructor
    · rintro ⟨hplain, hstands, hlooks⟩
      have hdecodes := fun h => hdecoded ⟨hplain, hstands, hlooks, h⟩
      refine ⟨hplain, (inside_iff hstands).mpr ?_, ?_⟩
      · by_contra hescape
        exact hdecodes (.inl hescape)
      · by_contra hdots
        exact hdecodes (.inr hdots)
    · intro hpoints
      refine ⟨hpoints.toPlainFileUrl, ?_, looksLiteral_of_literal hpoints.literal⟩
      by_contra hstands
      exact hspelled ⟨hpoints, hstands⟩
  · rw [reverts_end_iff]
    exact desktopFile.asUri_local root

end

/-! ## An install path with a space in it -/

def spacedRoot : FrontendRoot := ⟨[py "opt", py "my app", py "frontend"], by
  intro seg hseg
  simp only [List.mem_cons, List.not_mem_nil, or_false] at hseg
  rcases hseg with rfl | rfl | rfl <;> exact ⟨by decide, by decide, by decide, by decide⟩⟩

def spacedEntry : PyStr := py "file:///opt/my%20app/frontend/dist/desktop.html"

/-- **The entry page is not recognised**, and reverted for ever. -/
theorem spaced_entry_reverted :
    (desktopHtml spacedRoot).asUri = spacedEntry ∧
    PointsInside spacedEntry (resolveFrontendBuild spacedRoot) ∧
    isLocalBuildUrl (some spacedEntry) (resolveFrontendBuild spacedRoot) = false ∧
    ∀ live n, ((Shell.settle (resolveFrontendBuild spacedRoot) spacedEntry)^[n]
      (.reverted spacedEntry live)).view.loading = true := by
  have hlocal : isLocalBuildUrl (some spacedEntry) (resolveFrontendBuild spacedRoot) = false := by
    decide +kernel
  have hentry : (desktopHtml spacedRoot).asUri = spacedEntry := by decide +kernel
  refine ⟨hentry, hentry ▸ desktopFile.asUri_pointsInside spacedRoot, hlocal, fun live n => ?_⟩
  obtain ⟨live', hlive⟩ := settle_reverts (Bool.eq_false_iff.mp hlocal) n live
  rw [hlive]
  rfl

end Katherine.Desktop
