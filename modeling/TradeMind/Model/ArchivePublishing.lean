import TradeMind.Model.ReportArchive

/-!
# Publishing to a shared archive

An `Archive` carries what its update promises: it writes the files of the report and an index of
the pages, and nothing over a file that is not its own.  `publish` of both clients tries three
times to clone, update and push, while other publishers and writers move the remote; a push
whose client gave up on it may still get there.
-/

set_option autoImplicit false

namespace TradeMind.Model.Reports

open TradeMind.Model TradeMind.Library

universe u

variable {χ : Type}

/-! ## The names are apart -/

theorem length_of_matches {pattern : List (Option Char)} {chars : List Char}
    (h : matchesPattern pattern chars = true) : chars.length = pattern.length := by
  induction pattern generalizing chars with
  | nil =>
    cases chars with
    | nil => rfl
    | cons c rest => simp [matchesPattern] at h
  | cons d pattern ih =>
    cases chars with
    | nil => cases d <;> simp [matchesPattern] at h
    | cons c rest =>
      have hrest : matchesPattern pattern rest = true := by
        cases d <;> simp only [matchesPattern, Bool.and_eq_true] at h <;> exact h.2
      simp [ih hrest]

theorem matches_append {pattern pattern' : List (Option Char)} {chars chars' : List Char}
    (h : matchesPattern pattern chars = true) (h' : matchesPattern pattern' chars' = true) :
    matchesPattern (pattern ++ pattern') (chars ++ chars') = true := by
  induction pattern generalizing chars with
  | nil =>
    cases chars with
    | nil => exact h'
    | cons c rest => simp [matchesPattern] at h
  | cons d pattern ih =>
    cases chars with
    | nil => cases d <;> simp [matchesPattern] at h
    | cons c rest =>
      cases d with
      | none =>
        simp only [matchesPattern, Bool.and_eq_true, List.cons_append] at h ⊢
        exact ⟨h.1, ih h.2⟩
      | some d =>
        simp only [matchesPattern, Bool.and_eq_true, List.cons_append] at h ⊢
        exact ⟨h.1, ih h.2⟩

theorem matches_map_some (chars : List Char) : matchesPattern (chars.map some) chars = true := by
  induction chars with
  | nil => rfl
  | cons c rest ih => simp [matchesPattern, ih]

/-- The characters of the names of a report. -/
theorem toList_pageName (stamp : Stamp) :
    (pageName stamp).toList = "Weekly-".toList ++ stamp.text.toList :=
  String.toList_append

/-- The name of a report has twenty-four characters. -/
theorem length_pageName (stamp : Stamp) : (pageName stamp).toList.length = 24 := by
  rw [toList_pageName, List.length_append, length_of_matches stamp.ok]
  decide

/-- The characters of the file of a page. -/
theorem toList_pageFile (stamp : Stamp) :
    (pageFile stamp).toList = ("Weekly-".toList ++ stamp.text.toList) ++ ".md".toList := by
  rw [← toList_pageName]
  exact String.toList_append

theorem isPage_pageFile (stamp : Stamp) : isPage (pageFile stamp) = true := by
  have hname : matchesPattern ("Weekly-".toList.map some ++ stampPattern)
      ("Weekly-".toList ++ stamp.text.toList) = true :=
    matches_append (matches_map_some "Weekly-".toList) stamp.ok
  have hfile := matches_append hname (matches_map_some ".md".toList)
  rw [← toList_pageFile] at hfile
  exact hfile

/-- The stem of the file of a page is the name of the page. -/
theorem stem_pageFile (stamp : Stamp) : stem (pageFile stamp) = pageName stamp := by
  have hlength : (pageFile stamp).toList.length - 3 = (pageName stamp).toList.length := by
    rw [pageFile, String.toList_append, List.length_append, length_pageName]
    decide
  rw [stem, hlength, pageFile, String.toList_append, List.take_left, String.ofList_toList]

/-- A name of another length is no page. -/
theorem not_isPage {name : String} (h : name.toList.length ≠ 27) : isPage name = false := by
  rw [isPage, Bool.eq_false_iff]
  intro hmatches
  exact h ((length_of_matches hmatches).trans (by decide))

theorem not_isPage_chartFile (stamp : Stamp) : isPage (chartFile stamp) = false := by
  refine not_isPage ?_
  rw [chartFile, String.toList_append, List.length_append, length_pageName]
  decide

theorem not_isPage_equityFile (stamp : Stamp) : isPage (equityFile stamp) = false := by
  refine not_isPage ?_
  rw [equityFile, String.toList_append, List.length_append, length_pageName]
  decide

/-- A page is not what is no page. -/
theorem pageFile_ne {stamp : Stamp} {name : String} (h : isPage name = false) :
    pageFile stamp ≠ name := by
  rintro rfl
  rw [isPage_pageFile] at h
  cases h

/-- The two charts of a report are two files. -/
theorem chartFile_ne_equityFile (stamp other : Stamp) : chartFile stamp ≠ equityFile other := by
  intro h
  have hlist := congrArg String.toList h
  rw [chartFile, equityFile, String.toList_append, String.toList_append] at hlist
  have hsuffix := (List.append_inj' hlist (by decide)).2
  revert hsuffix
  decide

theorem chartFile_ne {stamp : Stamp} {name : String} (h : name.toList.length < 24) :
    chartFile stamp ≠ name ∧ equityFile stamp ≠ name := by
  constructor
  · rintro rfl
    rw [chartFile, String.toList_append, List.length_append, length_pageName] at h
    omega
  · rintro rfl
    rw [equityFile, String.toList_append, List.length_append, length_pageName] at h
    omega

/-- What is behind names of one length and one ending. -/
theorem stamp_of_names {stamp other : Stamp} {suffix : String}
    (h : pageName stamp ++ suffix = pageName other ++ suffix) : stamp = other := by
  have hlist := congrArg String.toList h
  rw [String.toList_append, String.toList_append] at hlist
  have hname := List.append_cancel_right hlist
  rw [toList_pageName, toList_pageName] at hname
  have htext := String.toList_injective (List.append_cancel_left hname)
  cases stamp
  cases other
  cases htext
  rfl

/-! ## The pages of a checkout -/

/-- The order of the names does not show in the sorted ones. -/
theorem sortedDescending_perm {names names' : List String} (h : names.Perm names') :
    sortedDescending names = sortedDescending names' := by
  have hperm : (sortedDescending names).Perm (sortedDescending names') :=
    ((List.perm_insertionSort _ names).trans h).trans (List.perm_insertionSort _ names').symm
  exact hperm.eq_of_pairwise' (List.pairwise_insertionSort (· ≥ ·) names)
    (List.pairwise_insertionSort (· ≥ ·) names')

section Pages

variable {tree tree' : Checkout χ}

/-- The names of the pages, when the checkouts have the same ones. -/
theorem pages_perm (h : ∀ name, isPage name = true → tree.lookup name = tree'.lookup name)
    (p : Option (Entry χ) → Bool) :
    ((tree.keys.filter isPage).filter fun name => p (tree.lookup name)).Perm
      ((tree'.keys.filter isPage).filter fun name => p (tree'.lookup name)) := by
  refine (List.perm_ext_iff_of_nodup ((tree.keys_nodup.filter _).filter _)
    ((tree'.keys_nodup.filter _).filter _)).mpr fun name => ?_
  simp only [List.mem_filter, AList.mem_keys.symm, ← AList.lookup_isSome]
  by_cases hpage : isPage name = true
  · rw [h name hpage]
  · simp [hpage]

/-- A page of a kind is there, when the checkouts have the same ones. -/
theorem any_pages (h : ∀ name, isPage name = true → tree.lookup name = tree'.lookup name)
    (p : Option (Entry χ) → Bool) :
    ((tree.keys.filter isPage).any fun name => p (tree.lookup name)) =
      ((tree'.keys.filter isPage).any fun name => p (tree'.lookup name)) := by
  rw [Bool.eq_iff_iff, List.any_eq_true, List.any_eq_true]
  refine exists_congr fun name => ?_
  have hmem := (pages_perm h p).mem_iff (a := name)
  simpa only [List.mem_filter] using hmem

/-- The wiki's index is made of the pages. -/
theorem wikiPages_congr (h : ∀ name, isPage name = true → tree.lookup name = tree'.lookup name) :
    wikiPages tree = wikiPages tree' := by
  have hunread := any_pages h fun entry => entry.any isUnreadable
  have hgenerated := pages_perm h fun entry => entry.any (isGenerated wikiMarker)
  unfold wikiPages
  dsimp only
  rw [hunread, sortedDescending_perm (hgenerated.map _)]

/-- The private list of pages depends only on the entries of the tree that are pages. -/
theorem privatePages_congr
    (h : ∀ name, isPage name = true → tree.lookup name = tree'.lookup name) :
    privatePages tree = privatePages tree' :=
  sortedDescending_perm (pages_perm h fun entry => entry.any isFile)

end Pages

/-! ## What an update does -/

/-- An archive of reports: the update of a checkout, with what it promises. -/
structure Archive (ρ χ : Type) where
  stamp : ρ → Stamp
  /-- The files of a report. -/
  files : ρ → List (String × Entry χ)
  /-- What the index calls the page of a report. -/
  link : Stamp → String
  /-- The pages of a checkout, where they can be read. -/
  pages : Checkout χ → Option (List String)
  indexFile : String
  index : List String → String
  /-- What an update may replace. -/
  owned : String → Entry χ → Bool
  /-- `_publish_sync` up to its commit, unless it refuses. -/
  update : ρ → Checkout χ → Option (Checkout χ)
  index_not_page : isPage indexFile = false
  names_nodup : ∀ report, ((files report).map Prod.fst ++ [indexFile]).Nodup
  files_apart : ∀ report other, ∀ file ∈ files report, ∀ file' ∈ files other,
    file.1 = file'.1 → stamp report = stamp other
  pages_congr : ∀ tree tree' : Checkout χ,
    (∀ name, isPage name = true → tree.lookup name = tree'.lookup name) →
      pages tree = pages tree'
  link_mem : ∀ report tree names, pages tree = some names →
    (∀ file ∈ files report, tree.lookup file.1 = some file.2) → link (stamp report) ∈ names
  update_eq : ∀ report tree tree', update report tree = some tree' →
    ∃ names, pages tree' = some names ∧
      tree' = tree.insertAll (files report ++ [(indexFile, .text (index names))])
  update_owned : ∀ report tree tree', update report tree = some tree' →
    ∀ name ∈ (files report).map Prod.fst ++ [indexFile], ∀ entry,
      tree.lookup name = some entry → owned name entry = true

section Wiki

variable {report : PublicReport χ} {tree tree' : Checkout χ} {name content : String}

/-- A page is written where there was none or one of the publisher. -/
theorem writeOwned_eq (h : writeOwned tree name content = some tree') :
    tree' = tree.insert name (.text content) ∧
      ∀ entry, tree.lookup name = some entry → isGenerated wikiMarker entry = true := by
  unfold writeOwned at h
  split at h
  · next hnone => exact ⟨(Option.some.inj h).symm, fun entry he => by rw [hnone] at he; cases he⟩
  · next old hold =>
    split at h
    · next howned =>
      refine ⟨(Option.some.inj h).symm, fun entry he => ?_⟩
      rw [hold] at he
      rwa [← Option.some.inj he]
    · cases h

/-- A chart replaces none or one of the publisher. -/
theorem writeChart_eq {charts : χ} (h : writeChart tree name charts = some tree') :
    tree' = tree.insert name (.image (some chartOwner) charts) ∧
      ∀ entry, tree.lookup name = some entry →
        ∃ old, entry = .image (some chartOwner) old := by
  unfold writeChart at h
  split at h
  · next hnone => exact ⟨(Option.some.inj h).symm, fun entry he => by rw [hnone] at he; cases he⟩
  · next software old hold =>
    split at h
    · next howned =>
      refine ⟨(Option.some.inj h).symm, fun entry he => ?_⟩
      rw [hold] at he
      exact ⟨old, by rw [← Option.some.inj he, howned]⟩
    · cases h
  · cases h

/-- The files of a public report. -/
def wikiFiles (report : PublicReport χ) : List (String × Entry χ) :=
  [(pageFile report.stamp, .text report.text),
    (chartFile report.stamp, .image (some chartOwner) report.charts)]

theorem not_isPage_wikiIndexFile : isPage wikiIndexFile = false := by decide

/-- **What the wiki client stages**: the files of the report and the index of the pages then. -/
theorem wikiUpdate_eq (h : wikiUpdate report tree = some tree') :
    ∃ names, wikiPages tree' = some names ∧
      tree' = tree.insertAll (wikiFiles report ++ [(wikiIndexFile, .text (wikiIndex names))]) := by
  unfold wikiUpdate at h
  obtain ⟨paged, hpaged, h⟩ := Option.bind_eq_some_iff.mp h
  obtain ⟨charted, hcharted, h⟩ := Option.bind_eq_some_iff.mp h
  obtain ⟨names, hnames, h⟩ := Option.bind_eq_some_iff.mp h
  have htree := (writeOwned_eq h).1
  refine ⟨names, ?_, ?_⟩
  · -- the index is no page, so the pages are those of the checkout before it was written
    rw [← hnames, htree]
    refine wikiPages_congr fun name hname => AList.lookup_insert_ne ?_
    rintro rfl
    rw [not_isPage_wikiIndexFile] at hname
    cases hname
  · rw [(writeChart_eq hcharted).1, (writeOwned_eq hpaged).1] at htree
    exact htree

/-- The index of the wiki has the page of a report that is stored. -/
theorem wikiLink_mem {names : List String} (hnames : wikiPages tree = some names)
    (h : ∀ file ∈ wikiFiles report, tree.lookup file.1 = some file.2) :
    pageName report.stamp ∈ names := by
  have hpage : tree.lookup (pageFile report.stamp) = some (.text report.text) :=
    h _ List.mem_cons_self
  have hmem : pageFile report.stamp ∈ (tree.keys.filter isPage).filter fun name =>
      (tree.lookup name).any (isGenerated wikiMarker) := by
    refine List.mem_filter.mpr ⟨List.mem_filter.mpr ⟨?_, isPage_pageFile _⟩, ?_⟩
    · rw [← AList.mem_keys, ← AList.lookup_isSome, hpage]
      rfl
    · rw [hpage]
      exact report.marked
  unfold wikiPages at hnames
  dsimp only at hnames
  split at hnames
  · cases hnames
  · rw [← Option.some.inj hnames]
    refine (List.perm_insertionSort _ _).mem_iff.mpr ?_
    exact List.mem_map.mpr ⟨_, hmem, stem_pageFile _⟩

/-- What the wiki client replaces. -/
def wikiOwned (_ : String) : Entry χ → Bool
  | .image software _ => software == some chartOwner
  | entry => isGenerated wikiMarker entry

/-- The files of a public report and its index have three names. -/
theorem wikiNames_nodup (report : PublicReport χ) :
    ((wikiFiles report).map Prod.fst ++ [wikiIndexFile]).Nodup := by
  have hpage : pageFile report.stamp ≠ wikiIndexFile := pageFile_ne not_isPage_wikiIndexFile
  have hchart : pageFile report.stamp ≠ chartFile report.stamp :=
    pageFile_ne (not_isPage_chartFile _)
  have hindex : chartFile report.stamp ≠ wikiIndexFile := (chartFile_ne (by decide)).1
  simp [wikiFiles, hpage, hchart, hindex]

/-- **What the wiki client replaces is its own.** -/
theorem wikiUpdate_owned (h : wikiUpdate report tree = some tree')
    (hname : name ∈ (wikiFiles report).map Prod.fst ++ [wikiIndexFile]) {entry : Entry χ}
    (hentry : tree.lookup name = some entry) : wikiOwned name entry = true := by
  have hgenerated : isGenerated wikiMarker entry = true → wikiOwned name entry = true := by
    cases entry <;> simp [wikiOwned, isGenerated]
  have hchart : chartFile report.stamp ≠ pageFile report.stamp :=
    (pageFile_ne (not_isPage_chartFile _)).symm
  have hindex : wikiIndexFile ≠ chartFile report.stamp := (chartFile_ne (by decide)).1.symm
  have hpage : wikiIndexFile ≠ pageFile report.stamp := (pageFile_ne not_isPage_wikiIndexFile).symm
  unfold wikiUpdate at h
  obtain ⟨paged, hpaged, h⟩ := Option.bind_eq_some_iff.mp h
  obtain ⟨charted, hcharted, h⟩ := Option.bind_eq_some_iff.mp h
  obtain ⟨pages, -, h⟩ := Option.bind_eq_some_iff.mp h
  obtain ⟨hpagedEq, hpagedOwned⟩ := writeOwned_eq hpaged
  obtain ⟨hchartedEq, hchartedOwned⟩ := writeChart_eq hcharted
  simp only [wikiFiles, List.map_cons, List.map_nil, List.cons_append, List.nil_append,
    List.mem_cons, List.not_mem_nil, or_false] at hname
  rcases hname with rfl | rfl | rfl
  · exact hgenerated (hpagedOwned entry hentry)
  · obtain ⟨old, rfl⟩ := hchartedOwned entry (by
      rw [hpagedEq, AList.lookup_insert_ne hchart, hentry])
    simp [wikiOwned]
  · refine hgenerated ((writeOwned_eq h).2 entry ?_)
    rw [hchartedEq, AList.lookup_insert_ne hindex, hpagedEq, AList.lookup_insert_ne hpage, hentry]

/-- `WikiClient`. -/
def wikiArchive : Archive (PublicReport χ) χ where
  stamp := PublicReport.stamp
  files := wikiFiles
  link := pageName
  pages := wikiPages
  indexFile := wikiIndexFile
  index := wikiIndex
  owned := wikiOwned
  update := wikiUpdate
  index_not_page := not_isPage_wikiIndexFile
  names_nodup := wikiNames_nodup
  files_apart := by
    intro report other file hfile file' hfile' hname
    simp only [wikiFiles, List.mem_cons, List.not_mem_nil, or_false] at hfile hfile'
    rcases hfile with rfl | rfl <;> rcases hfile' with rfl | rfl
    · exact stamp_of_names hname
    · exact absurd hname (pageFile_ne (not_isPage_chartFile _))
    · exact absurd hname.symm (pageFile_ne (not_isPage_chartFile _))
    · exact stamp_of_names hname
  pages_congr _ _ := wikiPages_congr
  link_mem _ _ _ := wikiLink_mem
  update_eq _ _ _ := wikiUpdate_eq
  update_owned _ _ _ h _ hname _ := wikiUpdate_owned h hname

end Wiki

section Private

variable {report : PrivateReport χ} {tree tree' : Checkout χ} {name : String}

/-- The files of a private report. -/
def privateFiles (report : PrivateReport χ) : List (String × Entry χ) :=
  [(pageFile report.stamp, .text report.text),
    (chartFile report.stamp, .image (some chartOwner) report.charts),
    (equityFile report.stamp, .image (some chartOwner) report.equity)]

theorem not_isPage_privateIndexFile : isPage privateIndexFile = false := by decide

/-- What counts as the private client's own: a Markdown file by its marker, and any other file of
one of its names, whoever wrote it. -/
def privateOwned (name : String) (entry : Entry χ) : Bool :=
  if name.endsWith ".md" then isGenerated privateMarker entry else isFile entry

/-- **What the private client writes over is its own.** -/
theorem privateOwned_of_writable {entry : Entry χ}
    (h : privateWritable name (some entry) = true) : privateOwned name entry = true := by
  unfold privateOwned
  cases entry with
  | text content =>
    split
    · next hmarkdown =>
      simp only [privateWritable, hmarkdown, Bool.not_true, Bool.false_or] at h
      exact h
    · rfl
  | image software content =>
    simp only [privateWritable, Bool.not_eq_true'] at h
    rw [h]
    rfl
  | symlink => simp [privateWritable] at h
  | directory => simp [privateWritable] at h

/-- The files of a private report and its index have four names. -/
theorem privateNames_nodup (report : PrivateReport χ) :
    ((privateFiles report).map Prod.fst ++ [privateIndexFile]).Nodup := by
  have hpage : pageFile report.stamp ≠ privateIndexFile := pageFile_ne not_isPage_privateIndexFile
  have hchart : pageFile report.stamp ≠ chartFile report.stamp :=
    pageFile_ne (not_isPage_chartFile _)
  have hequity : pageFile report.stamp ≠ equityFile report.stamp :=
    pageFile_ne (not_isPage_equityFile _)
  have hcharts : chartFile report.stamp ≠ equityFile report.stamp := chartFile_ne_equityFile _ _
  obtain ⟨hindex, hindex'⟩ := @chartFile_ne report.stamp privateIndexFile (by decide)
  simp [privateFiles, hpage, hchart, hequity, hcharts, hindex, hindex']

/-- **What the private client stages**: the files of the report and the index of the pages then. -/
theorem privateUpdate_eq (h : privateUpdate report tree = some tree') :
    tree' = tree.insertAll (privateFiles report ++
        [(privateIndexFile, .text (privateIndex (privatePages tree')))]) ∧
      ∀ name ∈ (privateFiles report).map Prod.fst ++ [privateIndexFile],
        privateWritable name (tree.lookup name) = true := by
  unfold privateUpdate at h
  dsimp only at h
  split at h
  · next hall =>
    have htree := (Option.some.inj h).symm
    refine ⟨?_, List.all_eq_true.mp hall⟩
    have hsame : privatePages tree' = privatePages (tree.insertAll (privateFiles report)) := by
      rw [htree]
      refine privatePages_congr fun name hname => AList.lookup_insert_ne ?_
      rintro rfl
      rw [not_isPage_privateIndexFile] at hname
      cases hname
    rw [hsame]
    exact htree
  · cases h

/-- The private index has the page of a report that is stored. -/
theorem privateLink_mem (h : ∀ file ∈ privateFiles report, tree.lookup file.1 = some file.2) :
    pageFile report.stamp ∈ privatePages tree := by
  have hpage : tree.lookup (pageFile report.stamp) = some (.text report.text) :=
    h _ List.mem_cons_self
  refine (List.perm_insertionSort _ _).mem_iff.mpr ?_
  refine List.mem_filter.mpr ⟨List.mem_filter.mpr ⟨?_, isPage_pageFile _⟩, ?_⟩
  · rw [← AList.mem_keys, ← AList.lookup_isSome, hpage]
    rfl
  · rw [hpage]
    rfl

/-- `PrivateReportClient`. -/
def privateArchive : Archive (PrivateReport χ) χ where
  stamp := PrivateReport.stamp
  files := privateFiles
  link := pageFile
  pages tree := some (privatePages tree)
  indexFile := privateIndexFile
  index := privateIndex
  owned := privateOwned
  update := privateUpdate
  index_not_page := not_isPage_privateIndexFile
  names_nodup := privateNames_nodup
  files_apart := by
    intro report other file hfile file' hfile' hname
    simp only [privateFiles, List.mem_cons, List.not_mem_nil, or_false] at hfile hfile'
    rcases hfile with rfl | rfl | rfl <;> rcases hfile' with rfl | rfl | rfl
    · exact stamp_of_names hname
    · exact absurd hname (pageFile_ne (not_isPage_chartFile _))
    · exact absurd hname (pageFile_ne (not_isPage_equityFile _))
    · exact absurd hname.symm (pageFile_ne (not_isPage_chartFile _))
    · exact stamp_of_names hname
    · exact absurd hname (chartFile_ne_equityFile _ _)
    · exact absurd hname.symm (pageFile_ne (not_isPage_equityFile _))
    · exact absurd hname.symm (chartFile_ne_equityFile _ _)
    · exact stamp_of_names hname
  pages_congr _ _ h := congrArg some (privatePages_congr h)
  link_mem report tree names hnames h := by
    rw [← Option.some.inj hnames]
    exact privateLink_mem h
  update_eq _ _ tree' h := ⟨privatePages tree', rfl, (privateUpdate_eq h).1⟩
  update_owned _ _ _ h name hname entry hentry := by
    have hwritable := (privateUpdate_eq h).2 name hname
    rw [hentry] at hwritable
    exact privateOwned_of_writable hwritable

end Private

/-! ## Publishing -/

/-- Where a call of `publish` stands: the attempt it is at, and the answer to its push. -/
inductive PublishPhase
  | trying (attempt : ℕ)
  | cloned (attempt : ℕ)
  | pushing (attempt : ℕ) (answer : Option Bool)
  | returned (published : Bool)
  deriving DecidableEq, Repr

/-- After an attempt that raised; the third is the last. -/
def PublishPhase.retry (attempt : ℕ) : PublishPhase :=
  if attempt < 2 then .trying (attempt + 1) else .returned false

/-- The remote with the clones of the attempts, the pushes it may still get, and the calls whose
commits it took, oldest first. -/
structure ArchiveWorld (ι : Type u) (χ : Type) where
  remote : OptimisticStore (ι × ℕ) (Checkout χ)
  phase : ι → PublishPhase
  pushes : List (ι × ℕ) := []
  commits : List ι := []

/-- One step of a call of `publish`, of the remote, or of another writer. -/
inductive PublishStep (ι : Type u) (χ : Type)
  | clone (i : ι)
  /-- The update, and the push of what it staged. -/
  | push (i : ι)
  /-- A push gets to the remote, whether or not its client still waits. -/
  | deliver (i : ι) (attempt : ℕ)
  | answer (i : ι)
  /-- A failed check or Git command, a timeout. -/
  | fault (i : ι)
  /-- A push of another writer. -/
  | other (tree : Checkout χ)

section Machine

variable {ι : Type u} {ρ : Type} [DecidableEq ι]

namespace ArchiveWorld

/-- The call moves on. -/
def moveTo (w : ArchiveWorld ι χ) (i : ι) (phase : PublishPhase) : ArchiveWorld ι χ :=
  { w with phase := Function.update w.phase i phase }

/-- The remote answers a push, which its client reads if it waits for it. -/
def answered (w : ArchiveWorld ι χ) (i : ι) (attempt : ℕ) (taken : Bool) : ArchiveWorld ι χ :=
  if w.phase i = .pushing attempt none then w.moveTo i (.pushing attempt (some taken)) else w

end ArchiveWorld

variable [DecidableEq χ]

/-- The names `git add` is given. -/
def Archive.staged (archive : Archive ρ χ) (report : ρ) : List String :=
  (archive.files report).map Prod.fst ++ [archive.indexFile]

/-- `git diff --cached --name-only` prints nothing. -/
def Archive.unchanged (archive : Archive ρ χ) (report : ρ) (tree made : Checkout χ) : Bool :=
  (archive.staged report).all fun name => made.lookup name = tree.lookup name

/-- One step; one that does not fit where the call stands changes nothing. -/
def publishStep (archive : Archive ρ χ) (report : ι → ρ) (w : ArchiveWorld ι χ) :
    PublishStep ι χ → ArchiveWorld ι χ
  | .clone i =>
    match w.phase i with
    | .trying attempt => { w with remote := w.remote.read (i, attempt) }.moveTo i (.cloned attempt)
    | _ => w
  | .push i =>
    match w.phase i with
    | .cloned attempt =>
      match w.remote.copies (i, attempt) with
      | some (_, tree) =>
        match archive.update (report i) tree with
        | some made =>
          if archive.unchanged (report i) tree made then w.moveTo i (.returned true)
          else { w with pushes := w.pushes ++ [(i, attempt)] }.moveTo i (.pushing attempt none)
        | none => w.moveTo i (.retry attempt)
      | none => w
    | _ => w
  | .deliver i attempt =>
    if (i, attempt) ∈ w.pushes then
      let w := { w with pushes := w.pushes.erase (i, attempt) }
      match w.remote.copies (i, attempt) with
      | some (_, tree) =>
        match archive.update (report i) tree with
        | some made =>
          match w.remote.write (i, attempt) made with
          | some remote =>
            { w with remote, commits := w.commits ++ [i] }.answered i attempt true
          | none => w.answered i attempt false
        | none => w
      | none => w
    else w
  | .answer i =>
    match w.phase i with
    | .pushing _ (some true) => w.moveTo i (.returned true)
    | .pushing attempt (some false) => w.moveTo i (.retry attempt)
    | _ => w
  | .fault i =>
    match w.phase i with
    | .trying attempt | .cloned attempt | .pushing attempt _ => w.moveTo i (.retry attempt)
    | .returned _ => w
  | .other tree => { w with remote := w.remote.replace tree }

end Machine

end TradeMind.Model.Reports
