import TradeMind.Library.Machine
import TradeMind.Model.ArchivePublishing

/-!
# A report that is published stays published

Publishers push without force, so what a push replaces is what its update was made of: files
that are not the publisher's are never lost, and a week that has a report in the archive keeps one,
whole and with its index, though a later report of the week may replace it.  Where all publishers
of a week hand over one report it is committed once, however often its push is tried again.
-/

set_option autoImplicit false

namespace TradeMind.Analysis

open TradeMind.Library TradeMind.Model.Reports

universe u

/-! ## What an archive holds -/

section Archive

variable {χ ρ : Type} {archive : Archive ρ χ} {report other : ρ} {tree made : Checkout χ}

/-- The archive has the files of the report, and an index of its pages. -/
structure Holds (archive : Archive ρ χ) (report : ρ) (tree : Checkout χ) : Prop where
  files : ∀ file ∈ archive.files report, tree.lookup file.1 = some file.2
  index : ∃ names, archive.pages tree = some names ∧
    tree.lookup archive.indexFile = some (.text (archive.index names))

theorem lookup_file (h : archive.update report tree = some made) {file : String × Entry χ}
    (hfile : file ∈ archive.files report) : made.lookup file.1 = some file.2 := by
  obtain ⟨names, -, rfl⟩ := archive.update_eq _ _ _ h
  refine Dict.lookup_insertAll_of_mem ?_ (List.mem_append_left _ hfile)
  rw [List.map_append]
  exact archive.names_nodup report

theorem lookup_index (h : archive.update report tree = some made) :
    ∃ names, archive.pages made = some names ∧
      made.lookup archive.indexFile = some (.text (archive.index names)) := by
  obtain ⟨names, hnames, hmade⟩ := archive.update_eq _ _ _ h
  refine ⟨names, hnames, ?_⟩
  rw [hmade]
  refine @Dict.lookup_insertAll_of_mem _ _ _ _ _ (archive.indexFile, _) ?_
    (List.mem_append_right _ List.mem_cons_self)
  rw [List.map_append]
  exact archive.names_nodup report

theorem lookup_frame (h : archive.update report tree = some made) {name : String}
    (hname : name ∉ archive.staged report) : made.lookup name = tree.lookup name := by
  obtain ⟨names, -, rfl⟩ := archive.update_eq _ _ _ h
  refine Dict.lookup_insertAll_of_ne fun entry hentry heq => hname ?_
  have hmem := List.mem_map_of_mem (f := Prod.fst) hentry
  rw [List.map_append, heq] at hmem
  exact hmem

theorem holds_of_update (h : archive.update report tree = some made) :
    Holds archive report made :=
  ⟨fun _ hfile => lookup_file h hfile, lookup_index h⟩

/-- The index is no file of a report. -/
theorem file_ne_index {file : String × Entry χ} (hfile : file ∈ archive.files report) :
    file.1 ≠ archive.indexFile := by
  intro heq
  have hnodup := archive.names_nodup report
  rw [List.nodup_append] at hnodup
  exact hnodup.2.2 _ (List.mem_map_of_mem hfile) _ List.mem_cons_self heq

/-- **An update keeps what the archive holds**, unless it is of another report of that week. -/
theorem Holds.update (hholds : Holds archive report tree)
    (hsame : archive.stamp other = archive.stamp report → other = report)
    (h : archive.update other tree = some made) : Holds archive report made := by
  refine ⟨fun file hfile => ?_, lookup_index h⟩
  by_cases hstaged : file.1 ∈ archive.staged other
  · rcases List.mem_append.mp hstaged with hname | hindex
    · obtain ⟨file', hfile', heq⟩ := List.mem_map.mp hname
      have hreport := hsame (archive.files_apart other report file' hfile' file hfile heq)
      rw [← hreport] at hfile
      exact lookup_file h hfile
    · exact absurd (List.mem_singleton.mp hindex) (file_ne_index hfile)
  · rw [lookup_frame h hstaged]
    exact hholds.files file hfile

/-- **An update to an archive that holds the report stages nothing.** -/
theorem Holds.unchanged [DecidableEq χ] (hholds : Holds archive report tree)
    (h : archive.update report tree = some made) :
    archive.unchanged report tree made = true := by
  have hfile : ∀ name ∈ (archive.files report).map Prod.fst,
      made.lookup name = tree.lookup name := by
    intro name hname
    obtain ⟨file, hfile, rfl⟩ := List.mem_map.mp hname
    rw [lookup_file h hfile, hholds.files file hfile]
  have hpages : archive.pages made = archive.pages tree := by
    refine archive.pages_congr _ _ fun name hpage => ?_
    by_cases hstaged : name ∈ archive.staged report
    · rcases List.mem_append.mp hstaged with hname | hindex
      · exact hfile name hname
      · rw [List.mem_singleton.mp hindex, archive.index_not_page] at hpage
        cases hpage
    · exact lookup_frame h hstaged
  obtain ⟨names, hnames, hindex⟩ := hholds.index
  obtain ⟨names', hnames', hindex'⟩ := lookup_index h
  refine List.all_eq_true.mpr fun name hname => decide_eq_true ?_
  rcases List.mem_append.mp hname with hname | hname
  · exact hfile name hname
  · rw [hpages, hnames] at hnames'
    rw [List.mem_singleton.mp hname, hindex, hindex', Option.some.inj hnames']

/-- What an update that stages nothing was made of holds the report. -/
theorem holds_of_unchanged [DecidableEq χ] (h : archive.update report tree = some made)
    (hunchanged : archive.unchanged report tree made = true) : Holds archive report tree := by
  have hlookup : ∀ name, made.lookup name = tree.lookup name := by
    intro name
    by_cases hstaged : name ∈ archive.staged report
    · exact of_decide_eq_true (List.all_eq_true.mp hunchanged name hstaged)
    · exact lookup_frame h hstaged
  obtain ⟨names, hnames, hindex⟩ := lookup_index h
  refine ⟨fun file hfile => ?_, names, ?_, ?_⟩
  · rw [← hlookup, lookup_file h hfile]
  · rw [← hnames]
    exact archive.pages_congr _ _ fun name _ => (hlookup name).symm
  · rw [← hlookup, hindex]

end Archive

/-! ## What the remote keeps -/

section Machine

variable {ι : Type u} {χ ρ : Type} {archive : Archive ρ χ} {report : ι → ρ}
  {w w' : ArchiveWorld ι χ}

/-- Writers other than this publisher may change any file, but they leave the report pages and the
files staged for a report as they are. -/
def LeavesReports (archive : Archive ρ χ) (report : ι → ρ) (w : ArchiveWorld ι χ) :
    PublishStep ι χ → Prop
  | .other tree =>
    ∀ name, isPage name = true ∨ (∃ i, name ∈ archive.staged (report i)) →
      tree.lookup name = w.remote.value.lookup name
  | _ => True

/-- What other writers leave alone, the remote goes on holding. -/
theorem Holds.other {i : ι} {tree : Checkout χ}
    (h : Holds archive (report i) w.remote.value)
    (hleaves : LeavesReports archive report w (.other tree)) :
    Holds archive (report i) tree := by
  obtain ⟨names, hnames, hindex⟩ := h.index
  refine ⟨fun file hfile => ?_, names, ?_, ?_⟩
  · rw [hleaves file.1 (.inr ⟨i, List.mem_append_left _ (List.mem_map_of_mem hfile)⟩)]
    exact h.files file hfile
  · rw [← hnames]
    exact archive.pages_congr _ _ fun name hname => hleaves name (.inl hname)
  · rw [hleaves _ (.inr ⟨i, List.mem_append_right _ List.mem_cons_self⟩)]
    exact hindex

/-- The archive has, whole, a report of the week that the call is for. -/
def HoldsWeek (archive : Archive ρ χ) (report : ι → ρ) (i : ι) (tree : Checkout χ) : Prop :=
  ∃ j, archive.stamp (report j) = archive.stamp (report i) ∧ Holds archive (report j) tree

/-- An update of the week puts its own report in the place of the old one, and an update of
another week keeps it. -/
theorem HoldsWeek.update {i k : ι} {tree made : Checkout χ} (h : HoldsWeek archive report i tree)
    (hmade : archive.update (report k) tree = some made) : HoldsWeek archive report i made := by
  obtain ⟨j, hweek, hholds⟩ := h
  by_cases hsame : archive.stamp (report k) = archive.stamp (report j)
  · exact ⟨k, hsame.trans hweek, holds_of_update hmade⟩
  · exact ⟨j, hweek, hholds.update (fun heq => absurd heq hsame) hmade⟩

/-- What other writers leave alone, the remote goes on holding. -/
theorem HoldsWeek.other {i : ι} {tree : Checkout χ}
    (h : HoldsWeek archive report i w.remote.value)
    (hleaves : LeavesReports archive report w (.other tree)) :
    HoldsWeek archive report i tree := by
  obtain ⟨j, hweek, hholds⟩ := h
  exact ⟨j, hweek, hholds.other hleaves⟩

/-- Where the week has one report, it is the call's. -/
theorem HoldsWeek.own {i : ι} {tree : Checkout χ}
    (hreports : ∀ i j, archive.stamp (report i) = archive.stamp (report j) → report i = report j)
    (h : HoldsWeek archive report i tree) : Holds archive (report i) tree := by
  obtain ⟨j, hweek, hholds⟩ := h
  exact hreports j i hweek ▸ hholds

/-- A call that knows that its report is published. -/
def Succeeded : PublishPhase → Prop
  | .returned published => published = true
  | .pushing _ answer => answer = some true
  | .trying _ | .cloned _ => False

/-- A call that tries again does not know it. -/
theorem not_succeeded_retry (attempt : ℕ) : ¬ Succeeded (.retry attempt) := by
  unfold PublishPhase.retry
  split <;> simp [Succeeded]

/-- What the remote and the clones of it hold of the reports. -/
structure ReportsKept (archive : Archive ρ χ) (report : ι → ρ) (w : ArchiveWorld ι χ) : Prop where
  sound : w.remote.Sound
  copies : ∀ p base tree, w.remote.copies p = some (base, tree) →
    ∀ i, HoldsWeek archive report i tree → HoldsWeek archive report i w.remote.value
  done : ∀ i, Succeeded (w.phase i) ∨ i ∈ w.commits →
    HoldsWeek archive report i w.remote.value

/-- **The step rule.**  The remote goes on holding what it held, a clone is an old one or of the
present value, and whoever learns that it succeeded is right. -/
theorem ReportsKept.step (h : ReportsKept archive report w) (hsound : w'.remote.Sound)
    (hvalue : ∀ i, HoldsWeek archive report i w.remote.value →
      HoldsWeek archive report i w'.remote.value)
    (hcopies : ∀ p base tree, w'.remote.copies p = some (base, tree) →
      w.remote.copies p = some (base, tree) ∨ tree = w'.remote.value)
    (hdone : ∀ i, Succeeded (w'.phase i) ∨ i ∈ w'.commits →
      (Succeeded (w.phase i) ∨ i ∈ w.commits) ∨ HoldsWeek archive report i w'.remote.value) :
    ReportsKept archive report w' := by
  refine ⟨hsound, fun p base tree hp i hi => ?_, fun i hi => ?_⟩
  · rcases hcopies p base tree hp with hold | rfl
    · exact hvalue i (h.copies p base tree hold i hi)
    · exact hi
  · rcases hdone i hi with hold | hnew
    · exact hvalue i (h.done i hold)
    · exact hnew

/-- Pushes under way are none of what is kept. -/
theorem ReportsKept.pushes (h : ReportsKept archive report w) (pushes : List (ι × ℕ)) :
    ReportsKept archive report { w with pushes } :=
  ⟨h.sound, h.copies, h.done⟩

/-! ## What is committed -/

/-- The call is past the push of an attempt. -/
def PastPush (attempt : ℕ) : PublishPhase → Prop
  | .trying next | .cloned next => attempt < next
  | .pushing next _ => attempt ≤ next
  | .returned _ => True

/-- A call that is past the push of an attempt is still past it when it tries again. -/
theorem pastPush_retry {attempt next : ℕ} (h : attempt ≤ next) :
    PastPush attempt (.retry next) := by
  unfold PublishPhase.retry
  split
  · exact Nat.lt_succ_of_le h
  · trivial

/-- A report that is committed leaves only clones that hold it or are of an older version, and
pushes of the latter. -/
structure CommittedOnce (archive : Archive ρ χ) (report : ι → ρ) (w : ArchiveWorld ι χ) :
    Prop where
  past : ∀ p ∈ w.pushes, PastPush p.2 (w.phase p.1)
  clones : ∀ i ∈ w.commits, ∀ p base tree, report p.1 = report i →
    w.remote.copies p = some (base, tree) →
      Holds archive (report i) tree ∨ base < w.remote.version
  pushes : ∀ i ∈ w.commits, ∀ p ∈ w.pushes, report p.1 = report i → ∀ base tree,
    w.remote.copies p = some (base, tree) → base < w.remote.version
  once : (w.commits.map report).Nodup

/-- **The step rule.**  No version is taken back, no push is new, and what is committed stays. -/
theorem CommittedOnce.step (h : CommittedOnce archive report w)
    (hversion : w.remote.version ≤ w'.remote.version)
    (hcommits : w'.commits = w.commits) (hcopies : w'.remote.copies = w.remote.copies)
    (hpushes : ∀ p ∈ w'.pushes, p ∈ w.pushes)
    (hpast : ∀ p ∈ w'.pushes, PastPush p.2 (w'.phase p.1)) : CommittedOnce archive report w' := by
  refine ⟨hpast, fun i hi p base tree hreport hp => ?_,
    fun i hi p hpush hreport base tree hp => ?_, ?_⟩
  · rw [hcommits] at hi
    rw [hcopies] at hp
    exact (h.clones i hi p base tree hreport hp).imp_right fun hlt => hlt.trans_le hversion
  · rw [hcommits] at hi
    rw [hcopies] at hp
    exact (h.pushes i hi p (hpushes p hpush) hreport base tree hp).trans_le hversion
  · rw [hcommits]
    exact h.once

/-! ## The start -/

/-- Before any call of `publish` has cloned; one that is not configured returns at once. -/
def Unpublished (w : ArchiveWorld ι χ) : Prop :=
  (∀ p, w.remote.copies p = none) ∧ w.pushes = [] ∧ w.commits = [] ∧
    ∀ i, w.phase i = .trying 0 ∨ w.phase i = .returned false

/-- Before any call of `publish` has cloned, there is no report that the remote must keep. -/
theorem reportsKept_of_unpublished (h : Unpublished w) : ReportsKept archive report w := by
  obtain ⟨hcopies, -, hcommits, hphase⟩ := h
  refine ⟨OptimisticStore.sound_of_none hcopies, fun p base tree hp => ?_, fun i hi => ?_⟩
  · rw [hcopies] at hp
    cases hp
  · rcases hi with hi | hi
    · rcases hphase i with hstart | hstart <;> rw [hstart] at hi <;> cases hi
    · rw [hcommits] at hi
      cases hi

/-- Before any call of `publish` has cloned, no report has been committed, so none has been twice.
-/
theorem committedOnce_of_unpublished (h : Unpublished w) : CommittedOnce archive report w := by
  obtain ⟨-, hpushes, hcommits, -⟩ := h
  constructor
  · rw [hpushes]
    exact fun _ hp => absurd hp List.not_mem_nil
  · rw [hcommits]
    exact fun _ hi => absurd hi List.not_mem_nil
  · rw [hcommits]
    exact fun _ hi => absurd hi List.not_mem_nil
  · rw [hcommits]
    exact List.nodup_nil

/-! ## Where the calls stand -/

variable [DecidableEq ι]

/-- Where the others stand, and the one that moves. -/
theorem phase_moveTo (w : ArchiveWorld ι χ) (i : ι) (phase : PublishPhase) (j : ι) :
    (w.moveTo i phase).phase j = if j = i then phase else w.phase j := by
  simp only [ArchiveWorld.moveTo, Function.update_apply]

/-- An answer changes where its client stands, if that waits for it. -/
theorem answered_cases (w : ArchiveWorld ι χ) (i : ι) (attempt : ℕ) (taken : Bool) :
    w.answered i attempt taken = w ∨ w.phase i = .pushing attempt none ∧
      w.answered i attempt taken = w.moveTo i (.pushing attempt (some taken)) := by
  unfold ArchiveWorld.answered
  split
  · next hphase => exact .inr ⟨hphase, rfl⟩
  · exact .inl rfl

/-- A call moves on, and if it succeeded then the remote holds its report. -/
theorem ReportsKept.moveTo (h : ReportsKept archive report w) (i : ι) (phase : PublishPhase)
    (hphase : Succeeded phase → HoldsWeek archive report i w.remote.value) :
    ReportsKept archive report (w.moveTo i phase) := by
  refine h.step h.sound (fun _ hi => hi) (fun _ _ _ hp => .inl hp) fun j hj => ?_
  rw [phase_moveTo] at hj
  by_cases heq : j = i
  · subst heq
    rw [if_pos rfl] at hj
    rcases hj with hj | hj
    · exact .inr (hphase hj)
    · exact .inl (.inr hj)
  · rw [if_neg heq] at hj
    exact .inl hj

/-- An answer that a push was taken is true. -/
theorem ReportsKept.answered (h : ReportsKept archive report w) (i : ι) (attempt : ℕ)
    (taken : Bool) (htaken : taken = true → i ∈ w.commits) :
    ReportsKept archive report (w.answered i attempt taken) := by
  rcases answered_cases w i attempt taken with heq | ⟨-, heq⟩
  · rw [heq]
    exact h
  · rw [heq]
    exact h.moveTo i _ fun hdone => h.done i (.inr (htaken (Option.some.inj hdone)))

/-- An answer is none of the remote's files. -/
theorem remote_answered (w : ArchiveWorld ι χ) (i : ι) (attempt : ℕ) (taken : Bool) :
    (w.answered i attempt taken).remote = w.remote := by
  rcases answered_cases w i attempt taken with heq | ⟨-, heq⟩ <;> rw [heq]
  rfl

theorem CommittedOnce.moveTo (h : CommittedOnce archive report w) {i : ι} {phase : PublishPhase}
    (hphase : ∀ attempt, PastPush attempt (w.phase i) → PastPush attempt phase) :
    CommittedOnce archive report (w.moveTo i phase) := by
  refine h.step le_rfl rfl rfl (fun _ hp => hp) fun p hp => ?_
  rw [phase_moveTo]
  split
  · next heq =>
    have hpast := h.past p hp
    rw [heq] at hpast
    exact hphase p.2 hpast
  · exact h.past p hp

/-- A call that gets the answer to its push commits nothing, whether it returns or tries again. -/
theorem CommittedOnce.answered (h : CommittedOnce archive report w) (i : ι) (attempt : ℕ)
    (taken : Bool) : CommittedOnce archive report (w.answered i attempt taken) := by
  rcases answered_cases w i attempt taken with heq | ⟨hphase, heq⟩
  · rw [heq]
    exact h
  · rw [heq]
    refine h.moveTo fun next hpast => ?_
    rw [hphase] at hpast
    exact hpast

/-- **A push that is taken is the first of its report.** -/
theorem CommittedOnce.take (h : CommittedOnce archive report w) (hsound : w.remote.Sound)
    {i : ι} {attempt : ℕ} {tree : Checkout χ} (hpush : (i, attempt) ∈ w.pushes)
    (hcopy : w.remote.copies (i, attempt) = some (w.remote.version, tree)) (made : Checkout χ) :
    CommittedOnce archive report
      { w with
        pushes := w.pushes.erase (i, attempt), remote := w.remote.replace made,
        commits := w.commits ++ [i] } := by
  have holder : ∀ p base tree, w.remote.copies p = some (base, tree) →
      base < w.remote.version + 1 := fun p base tree hp =>
    Nat.lt_succ_of_le (hsound p base tree hp).1
  refine ⟨fun p hp => h.past p (List.mem_of_mem_erase hp),
    fun _ _ p base tree _ hp => .inr (holder p base tree hp),
    fun _ _ p _ _ base tree hp => holder p base tree hp, ?_⟩
  rw [List.map_append, List.nodup_append']
  refine ⟨h.once, List.nodup_singleton _, List.disjoint_singleton.mpr fun hmem => ?_⟩
  obtain ⟨j, hj, hreport⟩ := List.mem_map.mp hmem
  exact lt_irrefl _ (h.pushes j hj _ hpush hreport.symm _ _ hcopy)

/-- A clone is of an archive that holds what is committed. -/
theorem CommittedOnce.read (h : CommittedOnce archive report w)
    (hreports : ∀ i j, archive.stamp (report i) = archive.stamp (report j) → report i = report j)
    (hkept : ReportsKept archive report w) {i : ι} {attempt : ℕ}
    (hphase : w.phase i = .trying attempt) :
    CommittedOnce archive report { w with remote := w.remote.read (i, attempt) } := by
  refine ⟨h.past, fun j hj p base tree hreport hp => ?_,
    fun j hj p hpush hreport base tree hp => ?_, h.once⟩
  · rcases OptimisticStore.copies_of_read hp with ⟨-, -, rfl⟩ | hold
    · exact .inl ((hkept.done j (.inr hj)).own hreports)
    · exact h.clones j hj p base tree hreport hold
  · rcases OptimisticStore.copies_of_read hp with ⟨rfl, -, -⟩ | hold
    · -- a call that is yet to clone has not pushed from that clone
      have hpast := h.past _ hpush
      rw [hphase] at hpast
      exact absurd hpast (lt_irrefl attempt)
    · exact h.pushes j hj p hpush hreport base tree hold

/-! ## What a step does -/

variable [DecidableEq χ]

/-- What a step of a publisher, or of another writer, does. -/
inductive PublishEffect (archive : Archive ρ χ) (report : ι → ρ) (w : ArchiveWorld ι χ) :
    PublishStep ι χ → ArchiveWorld ι χ → Prop
  | stayed (s : PublishStep ι χ) : PublishEffect archive report w s w
  | cloned (i : ι) (attempt : ℕ) (hphase : w.phase i = .trying attempt) :
      PublishEffect archive report w (.clone i)
        ({ w with remote := w.remote.read (i, attempt) }.moveTo i (.cloned attempt))
  | unchanged (i : ι) (attempt base : ℕ) (tree made : Checkout χ)
      (hphase : w.phase i = .cloned attempt)
      (hcopy : w.remote.copies (i, attempt) = some (base, tree))
      (hmade : archive.update (report i) tree = some made)
      (hsame : archive.unchanged (report i) tree made = true) :
      PublishEffect archive report w (.push i) (w.moveTo i (.returned true))
  | pushed (i : ι) (attempt base : ℕ) (tree made : Checkout χ)
      (hphase : w.phase i = .cloned attempt)
      (hcopy : w.remote.copies (i, attempt) = some (base, tree))
      (hmade : archive.update (report i) tree = some made)
      (hsame : archive.unchanged (report i) tree made = false) :
      PublishEffect archive report w (.push i)
        ({ w with pushes := w.pushes ++ [(i, attempt)] }.moveTo i (.pushing attempt none))
  | gaveUp (s : PublishStep ι χ) (i : ι) (attempt : ℕ) (hs : ∀ tree, s ≠ .other tree)
      (hphase : w.phase i = .trying attempt ∨ w.phase i = .cloned attempt ∨
        ∃ answer, w.phase i = .pushing attempt answer) :
      PublishEffect archive report w s (w.moveTo i (.retry attempt))
  | confirmed (i : ι) (attempt : ℕ) (hphase : w.phase i = .pushing attempt (some true)) :
      PublishEffect archive report w (.answer i) (w.moveTo i (.returned true))
  | dropped (i : ι) (attempt : ℕ) :
      PublishEffect archive report w (.deliver i attempt)
        { w with pushes := w.pushes.erase (i, attempt) }
  | rejected (i : ι) (attempt : ℕ) :
      PublishEffect archive report w (.deliver i attempt)
        ({ w with pushes := w.pushes.erase (i, attempt) }.answered i attempt false)
  | taken (i : ι) (attempt base : ℕ) (tree made : Checkout χ) (remote : _)
      (hpush : (i, attempt) ∈ w.pushes)
      (hcopy : w.remote.copies (i, attempt) = some (base, tree))
      (hmade : archive.update (report i) tree = some made)
      (hremote : w.remote.write (i, attempt) made = some remote) :
      PublishEffect archive report w (.deliver i attempt)
        (({ w with
            pushes := w.pushes.erase (i, attempt), remote,
            commits := w.commits ++ [i] } : ArchiveWorld ι χ).answered i attempt true)
  | other (tree : Checkout χ) :
      PublishEffect archive report w (.other tree) { w with remote := w.remote.replace tree }

theorem publishStep_effect (archive : Archive ρ χ) (report : ι → ρ) (w : ArchiveWorld ι χ)
    (s : PublishStep ι χ) :
    PublishEffect archive report w s (publishStep archive report w s) := by
  cases s with
  | clone i =>
    rw [publishStep]
    split
    · next attempt hphase => exact .cloned i attempt hphase
    · exact .stayed _
  | push i =>
    rw [publishStep]
    split
    · next attempt hphase =>
      split
      · next base tree hcopy =>
        split
        · next made hmade =>
          split
          · next hsame => exact .unchanged i attempt base tree made hphase hcopy hmade hsame
          · next hsame =>
            exact .pushed i attempt base tree made hphase hcopy hmade
              (Bool.eq_false_iff.mpr hsame)
        · exact .gaveUp _ i attempt nofun (.inr (.inl hphase))
      · exact .stayed _
    · exact .stayed _
  | deliver i attempt =>
    rw [publishStep]
    split
    · next hpush =>
      dsimp only
      split
      · next base tree hcopy =>
        split
        · next made hmade =>
          split
          · next remote hremote =>
            exact .taken i attempt base tree made remote hpush hcopy hmade hremote
          · exact .rejected i attempt
        · exact .dropped i attempt
      · exact .dropped i attempt
    · exact .stayed _
  | answer i =>
    rw [publishStep]
    split
    · next attempt hphase => exact .confirmed i attempt hphase
    · next attempt hphase => exact .gaveUp _ i attempt nofun (.inr (.inr ⟨_, hphase⟩))
    · exact .stayed _
  | fault i =>
    rw [publishStep]
    split
    · next attempt hphase => exact .gaveUp _ i attempt nofun (.inl hphase)
    · next attempt hphase => exact .gaveUp _ i attempt nofun (.inr (.inl hphase))
    · next attempt answer hphase =>
      exact .gaveUp _ i attempt nofun (.inr (.inr ⟨answer, hphase⟩))
    · exact .stayed _
  | other tree => exact .other tree

theorem PublishEffect.sound {s : PublishStep ι χ} (heffect : PublishEffect archive report w s w')
    (h : w.remote.Sound) : w'.remote.Sound := by
  cases heffect with
  | stayed | unchanged | pushed | gaveUp | confirmed | dropped => exact h
  | cloned i attempt hphase => exact h.read _
  | rejected i attempt =>
    rw [remote_answered]
    exact h
  | taken i attempt base tree made remote hpush hcopy hmade hremote =>
    obtain ⟨-, -, rfl⟩ := OptimisticStore.value_of_write h hcopy hremote
    rw [remote_answered]
    exact h.replace made
  | other tree => exact h.replace tree

/-- **What a step makes of the archive**: an update of it, unless another writer moves it. -/
theorem PublishEffect.value {s : PublishStep ι χ} (heffect : PublishEffect archive report w s w')
    (h : w.remote.Sound) :
    w'.remote.value = w.remote.value ∨ (∃ tree, s = .other tree) ∨
      ∃ i made, archive.update (report i) w.remote.value = some made ∧
        w'.remote.value = made := by
  cases heffect with
  | stayed | cloned | unchanged | pushed | gaveUp | confirmed | dropped => exact .inl rfl
  | rejected i attempt =>
    rw [remote_answered]
    exact .inl rfl
  | taken i attempt base tree made remote hpush hcopy hmade hremote =>
    obtain ⟨-, rfl, rfl⟩ := OptimisticStore.value_of_write h hcopy hremote
    rw [remote_answered]
    exact .inr (.inr ⟨i, made, hmade, rfl⟩)
  | other tree => exact .inr (.inl ⟨tree, rfl⟩)

/-- **Every step keeps the reports.** -/
theorem PublishEffect.kept {s : PublishStep ι χ} (heffect : PublishEffect archive report w s w')
    (h : ReportsKept archive report w) (hs : LeavesReports archive report w s) :
    ReportsKept archive report w' := by
  cases heffect with
  | stayed => exact h
  | cloned i attempt hphase =>
    have hread : ReportsKept archive report
        { w with remote := w.remote.read (i, attempt) } := by
      refine h.step (h.sound.read _) (fun _ hi => hi) (fun p base tree hp => ?_) fun _ hi => .inl hi
      rcases OptimisticStore.copies_of_read hp with ⟨-, -, htree⟩ | hold
      · exact .inr htree
      · exact .inl hold
    exact hread.moveTo i _ nofun
  | unchanged i attempt base tree made hphase hcopy hmade hsame =>
    exact h.moveTo i _ fun _ =>
      h.copies _ _ _ hcopy i ⟨i, rfl, holds_of_unchanged hmade hsame⟩
  | pushed i attempt base tree made => exact (h.pushes _).moveTo i _ nofun
  | gaveUp s i attempt => exact h.moveTo i _ fun hdone => absurd hdone (not_succeeded_retry attempt)
  | confirmed i attempt hphase =>
    exact h.moveTo i _ fun _ => h.done i (.inl (by rw [hphase]; rfl))
  | dropped i attempt => exact h.pushes _
  | rejected i attempt => exact (h.pushes _).answered i attempt false nofun
  | taken i attempt base tree made remote hpush hcopy hmade hremote =>
    obtain ⟨-, rfl, rfl⟩ := OptimisticStore.value_of_write h.sound hcopy hremote
    have htaken : ReportsKept archive report
        { w with
          pushes := w.pushes.erase (i, attempt), remote := w.remote.replace made,
          commits := w.commits ++ [i] } := by
      refine h.step (h.sound.replace _) (fun j hj => hj.update hmade)
        (fun _ _ _ hp => .inl hp) fun j hj => ?_
      rcases hj with hj | hj
      · exact .inl (.inl hj)
      · rcases List.mem_append.mp hj with hold | hnew
        · exact .inl (.inr hold)
        · rw [List.mem_singleton.mp hnew]
          exact .inr ⟨i, rfl, holds_of_update hmade⟩
    exact htaken.answered i attempt true fun _ => List.mem_append_right _ List.mem_cons_self
  | other tree =>
    exact h.step (h.sound.replace _) (fun _ hi => hi.other hs) (fun _ _ _ hp => .inl hp)
      fun _ hi => .inl hi

/-- A push is of what the remote does not hold, or of an older version. -/
theorem CommittedOnce.push (h : CommittedOnce archive report w) {i : ι} {attempt base : ℕ}
    {tree made : Checkout χ} (hphase : w.phase i = .cloned attempt)
    (hcopy : w.remote.copies (i, attempt) = some (base, tree))
    (hmade : archive.update (report i) tree = some made)
    (hsame : archive.unchanged (report i) tree made = false) :
    CommittedOnce archive report
      ({ w with pushes := w.pushes ++ [(i, attempt)] }.moveTo i (.pushing attempt none)) := by
  have hpushed : ∀ p ∈ w.pushes ++ [(i, attempt)], p ∈ w.pushes ∨ p = (i, attempt) := fun p hp =>
    (List.mem_append.mp hp).imp_right List.mem_singleton.mp
  refine ⟨fun p hp => ?_, h.clones, fun j hj p hp hreport base' tree' hp' => ?_, h.once⟩
  · rw [phase_moveTo]
    split
    · next heq =>
      rcases hpushed p hp with hold | rfl
      · have hpast := h.past p hold
        rw [heq, hphase] at hpast
        exact hpast.le
      · exact le_rfl
    · next hne =>
      rcases hpushed p hp with hold | rfl
      · exact h.past p hold
      · exact absurd rfl hne
  · rcases hpushed p hp with hold | rfl
    · exact h.pushes j hj p hold hreport base' tree' hp'
    · have hclone : w.remote.copies (i, attempt) = some (base', tree') := hp'
      rw [hcopy] at hclone
      cases hclone
      rcases h.clones j hj _ _ _ hreport hcopy with hholds | hlt
      · rw [← hreport] at hholds
        rw [hholds.unchanged hmade] at hsame
        cases hsame
      · exact hlt

/-- **Every step commits a report that was not.** -/
theorem PublishEffect.once {s : PublishStep ι χ} (heffect : PublishEffect archive report w s w')
    (hreports : ∀ i j, archive.stamp (report i) = archive.stamp (report j) → report i = report j)
    (hkept : ReportsKept archive report w) (h : CommittedOnce archive report w) :
    CommittedOnce archive report w' := by
  have herase : ∀ p, CommittedOnce archive report { w with pushes := w.pushes.erase p } := fun p =>
    h.step le_rfl rfl rfl (fun _ hq => List.mem_of_mem_erase hq)
      fun q hq => h.past q (List.mem_of_mem_erase hq)
  cases heffect with
  | stayed => exact h
  | cloned i attempt hphase =>
    refine (h.read hreports hkept hphase).moveTo fun next hpast => ?_
    have htrying : PastPush next (w.phase i) := hpast
    rw [hphase] at htrying
    exact htrying
  | unchanged i attempt base tree made hphase => exact h.moveTo fun _ _ => trivial
  | pushed i attempt base tree made hphase hcopy hmade hsame =>
    exact h.push hphase hcopy hmade hsame
  | gaveUp s i attempt hs hphase =>
    refine h.moveTo fun next hpast => pastPush_retry ?_
    rcases hphase with hphase | hphase | ⟨answer, hphase⟩ <;> rw [hphase] at hpast
    · exact hpast.le
    · exact hpast.le
    · exact hpast
  | confirmed i attempt hphase => exact h.moveTo fun _ _ => trivial
  | dropped i attempt => exact herase _
  | rejected i attempt => exact (herase _).answered i attempt false
  | taken i attempt base tree made remote hpush hcopy hmade hremote =>
    obtain ⟨rfl, -, rfl⟩ := OptimisticStore.value_of_write hkept.sound hcopy hremote
    exact (h.take hkept.sound hpush hcopy made).answered i attempt true
  | other tree => exact h.step (Nat.le_succ _) rfl rfl (fun _ hp => hp) h.past

/-! ## Runs -/

/-- **Every run keeps the reports.** -/
theorem reachable_kept
    (h : Reachable (publishStep archive report) (LeavesReports archive report) Unpublished w) :
    ReportsKept archive report w :=
  h.inv (fun _ hw => reportsKept_of_unpublished hw)
    fun w s hw hs => (publishStep_effect archive report w s).kept hw hs

/-- **A run in which each week has one report commits it once.** -/
theorem reachable_once
    (hreports : ∀ i j, archive.stamp (report i) = archive.stamp (report j) → report i = report j)
    (h : Reachable (publishStep archive report) (LeavesReports archive report) Unpublished w) :
    CommittedOnce archive report w := by
  have hboth : ReportsKept archive report w ∧ CommittedOnce archive report w := by
    refine h.inv (P := fun w => ReportsKept archive report w ∧ CommittedOnce archive report w)
      (fun w hw => ⟨reportsKept_of_unpublished hw, committedOnce_of_unpublished hw⟩) ?_
    intro w s hw hs
    have heffect := publishStep_effect archive report w s
    exact ⟨heffect.kept hw.1 hs, heffect.once hreports hw.1 hw.2⟩
  exact hboth.2

end Machine

section Runs

/-- The end of the first week of 2026. -/
def firstMonday : Stamp := ⟨"2026-01-05-080000", by decide⟩

/-- The report of the first week of 2026. -/
def firstWeek : PublicReport ℕ :=
  ⟨firstMonday, wikiMarker, 1, List.isPrefixOf_iff_prefix.mpr (List.prefix_refl _)⟩

/-- An empty wiki, and two calls for the week. -/
def freshWiki : ArchiveWorld Bool ℕ where
  remote := { value := ∅ }
  phase _ := .trying 0

/-- After the push of a call is taken, and the call, which does not learn of it, tries again. -/
def afterLostAnswer : ArchiveWorld Bool ℕ :=
  runFrom (publishStep wikiArchive fun _ => firstWeek) freshWiki
    [.clone true, .clone false, .push true, .deliver true 0, .fault true, .clone true, .push true]

theorem freshWiki_unpublished : Unpublished freshWiki :=
  ⟨fun _ => rfl, rfl, rfl, fun _ => .inl rfl⟩

/-- The run is one of the publishers alone. -/
theorem reachable_afterLostAnswer :
    Reachable (publishStep wikiArchive fun _ => firstWeek)
      (LeavesReports wikiArchive fun _ => firstWeek) Unpublished afterLostAnswer :=
  reachable_runFrom (.start _ freshWiki_unpublished) _ (by simp [AllSteps, LeavesReports])

variable {ι : Type u} {χ ρ : Type} [DecidableEq ι] [DecidableEq χ]

/-- The second push of the run finds nothing to commit. -/
theorem afterLostAnswer_true :
    afterLostAnswer.phase true = .returned true ∧ afterLostAnswer.commits = [true] := by
  decide +kernel

/-- **A week whose publication succeeded, or was committed, stays in the archive and in its
index**, whoever else publishes and however the attempts fail: with all the files of one of the
reports that were handed over for the week. -/
theorem published_report_stays (archive : Archive ρ χ) (report : ι → ρ) (w : ArchiveWorld ι χ)
    (h : Reachable (publishStep archive report) (LeavesReports archive report) Unpublished w)
    (i : ι) (hi : w.phase i = .returned true ∨ i ∈ w.commits) :
    ∃ j, archive.stamp (report j) = archive.stamp (report i) ∧
      (∀ file ∈ archive.files (report j), w.remote.value.lookup file.1 = some file.2) ∧
      ∃ names, archive.pages w.remote.value = some names ∧
        w.remote.value.lookup archive.indexFile = some (.text (archive.index names)) ∧
        archive.link (archive.stamp (report i)) ∈ names := by
  obtain ⟨j, hweek, hholds⟩ := (reachable_kept h).done i (hi.imp_left fun hphase => by
    rw [hphase]
    rfl)
  obtain ⟨names, hnames, hindex⟩ := hholds.index
  exact ⟨j, hweek, hholds.files, names, hnames, hindex,
    hweek ▸ archive.link_mem _ _ _ hnames hholds.files⟩

/-- The private report of the first week, as it is at first and after a restart. -/
def firstPrivate (again : Bool) : PrivateReport ℕ :=
  if again then ⟨firstMonday, privateMarker ++ "again", 3, 4, by decide⟩
  else ⟨firstMonday, privateMarker, 1, 2, by decide⟩

/-- A private archive that is empty, and a call for the week before and after a restart. -/
def afterRestart : ArchiveWorld Bool ℕ :=
  runFrom (publishStep privateArchive firstPrivate) freshWiki
    [.clone false, .push false, .deliver false 0, .answer false,
      .clone true, .push true, .deliver true 0, .answer true]

/-- Both calls of the run after a restart succeed, and both commit. -/
theorem afterRestart_returned :
    afterRestart.phase false = .returned true ∧ afterRestart.commits = [false, true] := by
  decide +kernel

/-- After the restart the week has the files of one report. -/
theorem published_report_stays_afterRestart :
    ∃ again, afterRestart.remote.value.lookup (pageFile firstMonday) =
        some (.text (firstPrivate again).text) ∧
      afterRestart.remote.value.lookup (equityFile firstMonday) =
        some (.image (some chartOwner) (firstPrivate again).equity) := by
  have hreachable : Reachable (publishStep privateArchive firstPrivate)
      (LeavesReports privateArchive firstPrivate) Unpublished afterRestart :=
    reachable_runFrom (.start _ freshWiki_unpublished) _ (by simp [AllSteps, LeavesReports])
  obtain ⟨again, hweek, hfiles, -⟩ := published_report_stays privateArchive firstPrivate
    afterRestart hreachable false (.inl afterRestart_returned.1)
  have hstamp : (firstPrivate again).stamp = firstMonday := hweek
  have hpage := hfiles (pageFile (firstPrivate again).stamp, _) List.mem_cons_self
  have hequity := hfiles (equityFile (firstPrivate again).stamp, _)
    (List.mem_cons_of_mem _ (List.mem_cons_of_mem _ List.mem_cons_self))
  rw [hstamp] at hpage hequity
  exact ⟨again, hpage, hequity⟩

/-- **A week is committed once** where all its publishers hand over one report, though calls for it
overlap and a push may succeed without its client knowing. -/
theorem report_committed_once (archive : Archive ρ χ) (report : ι → ρ)
    (hreports : ∀ i j, archive.stamp (report i) = archive.stamp (report j) → report i = report j)
    (w : ArchiveWorld ι χ)
    (h : Reachable (publishStep archive report) (LeavesReports archive report) Unpublished w) :
    (w.commits.map fun i => archive.stamp (report i)).Nodup := by
  have honce := (reachable_once hreports h).once
  have hcommits := honce.of_map
  rw [List.nodup_map_iff_inj_on hcommits] at honce ⊢
  exact fun i hi j hj heq => honce i hi j hj (hreports i j heq)

/-- Though it pushes twice it commits once. -/
theorem report_committed_once_lostAnswer :
    afterLostAnswer.commits ≠ [] ∧
      (afterLostAnswer.commits.map fun _ => firstWeek.stamp).Nodup := by
  refine ⟨?_, report_committed_once wikiArchive (fun _ => firstWeek) (fun _ _ _ => rfl)
    afterLostAnswer reachable_afterLostAnswer⟩
  rw [afterLostAnswer_true.2]
  exact List.cons_ne_nil _ _

/-- **A publisher loses no file of another writer**: its steps keep what the reports do not
name and what it does not own, as it is when the push gets there. -/
theorem publisher_keeps_files (archive : Archive ρ χ) (report : ι → ρ) (w : ArchiveWorld ι χ)
    (h : Reachable (publishStep archive report) (fun _ _ => True) Unpublished w)
    (s : PublishStep ι χ) (hs : ∀ tree, s ≠ .other tree) (name : String)
    (hname : (∀ i, name ∉ archive.staged (report i)) ∨
      ∃ entry, w.remote.value.lookup name = some entry ∧ archive.owned name entry = false) :
    (publishStep archive report w s).remote.value.lookup name = w.remote.value.lookup name := by
  have hsound : w.remote.Sound := h.inv
    (fun w hw => OptimisticStore.sound_of_none hw.1)
    (fun w s hw _ => (publishStep_effect archive report w s).sound hw)
  rcases (publishStep_effect archive report w s).value hsound with
    heq | ⟨tree, rfl⟩ | ⟨i, made, hmade, heq⟩
  · rw [heq]
  · exact absurd rfl (hs tree)
  · rw [heq]
    refine lookup_frame hmade fun hstaged => ?_
    rcases hname with hout | ⟨entry, hentry, howned⟩
    · exact hout i hstaged
    · rw [archive.update_owned _ _ _ hmade name hstaged entry hentry] at howned
      cases howned

/-- A page without the marker that another writer makes between the clone and the push of the
private client is not lost. -/
theorem publisher_keeps_files_foreign :
    let edited := (∅ : Checkout ℕ).insert (pageFile firstMonday) (.text "by hand")
    let w := runFrom (publishStep privateArchive firstPrivate) freshWiki
      [.clone true, .push true, .other edited]
    (publishStep privateArchive firstPrivate w (.deliver true 0)).remote.value.lookup
        (pageFile firstMonday) = some (.text "by hand") := by
  intro edited w
  have hthere : w.remote.value.lookup (pageFile firstMonday) = some (.text "by hand") := by
    decide +kernel
  rw [← hthere]
  refine publisher_keeps_files privateArchive firstPrivate w ?_ _ ?_ _ ?_
  · exact reachable_runFrom (.start _ freshWiki_unpublished) _
      (allSteps_of_forall (fun _ _ => trivial) _ _)
  · intro tree heq
    cases heq
  · exact .inr ⟨_, hthere, by decide +kernel⟩

end Runs

end TradeMind.Analysis
