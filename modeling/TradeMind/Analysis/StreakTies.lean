import Mathlib.Data.List.TakeWhile
import Mathlib.Data.Set.Finite.Lemmas
import TradeMind.Analysis.LossEvents
import TradeMind.Library.Ties

/-!
# The loss streak and the order of ties

The query that feeds `_count_consecutive_losses` orders by close time alone.  Only the tie of
the newest position that ends the run leaves a choice: a loss that closes at that instant is
counted or not.  The result is one for all orders exactly where no such loss exists, or where
it joins a window that the later losses need anyway (`streak_wellDefined_iff`).
-/

set_option autoImplicit false

namespace TradeMind.Analysis

open TradeMind.Model TradeMind.Library

/-- A list of the positions in an order the query may return them in. -/
def QueryOrder (positions order : List Position) : Prop :=
  order.Perm positions ∧ NewestFirst order

/-- `t` is the newest close of a position that ends the run. -/
def NewestStop (resetAt : Option Time) (positions : List Position) (t : Time) : Prop :=
  IsGreatest
    {t | ∃ position ∈ positions, position.closedAt = some t ∧
      extendsRun resetAt position = false} t

/-- The close times after `t`. -/
def closesAfter (t : Time) (positions : List Position) : List Time :=
  (positions.filterMap Position.closedAt).filter fun closedAt => t < closedAt

/-- Covering the instant `t` with the later closes takes no more windows than covering them
alone. -/
def AbsorbsTie (window t : Time) (positions : List Position) : Prop :=
  ∃ n, CoverableBy window (t :: closesAfter t positions) n ∧
    ∀ m, CoverableBy window (closesAfter t positions) m → n ≤ m

/-- No loss after the reset closes with the newest stop, unless its instant is absorbed. -/
def TieFree (window : Time) (resetAt : Option Time) (positions : List Position) : Prop :=
  ∀ t, NewestStop resetAt positions t →
    (∃ position ∈ positions, position.closedAt = some t ∧ extendsRun resetAt position = true) →
    AbsorbsTie window t positions

/-- The close time of a closed position. -/
def closeTime (position : Position) : Time := position.closedAt.getD 0

variable {positions order : List Position} {resetAt : Option Time} {window t : Time}

/-- Known close times are the closed positions' close times. -/
theorem filterMap_closedAt (hknown : ∀ position ∈ positions, position.closedAt.isSome) :
    positions.filterMap Position.closedAt = positions.map closeTime := by
  induction positions with
  | nil => rfl
  | cons position rest ih =>
    obtain ⟨closedAt, hclosedAt⟩ :=
      Option.isSome_iff_exists.mp (hknown position List.mem_cons_self)
    have hrest := ih fun p hp => hknown p (List.mem_cons_of_mem position hp)
    rw [List.filterMap_cons_some hclosedAt, List.map_cons, hrest, closeTime, hclosedAt,
      Option.getD_some]

theorem closedAt_eq_some_iff {position : Position} (hknown : position.closedAt.isSome) :
    position.closedAt = some t ↔ closeTime position = t := by
  obtain ⟨closedAt, hclosedAt⟩ := Option.isSome_iff_exists.mp hknown
  simp [closeTime, hclosedAt]

/-- On known close times, newest first is descending. -/
theorem newestFirst_iff (hknown : ∀ position ∈ positions, position.closedAt.isSome) :
    NewestFirst positions ↔ Descending closeTime positions := by
  unfold NewestFirst Descending
  rw [filterMap_closedAt hknown, List.pairwise_map]

/-- The close times of any order are those of the positions, newest first. -/
theorem QueryOrder.closeTimes_eq {order' : List Position} (h : QueryOrder positions order)
    (h' : QueryOrder positions order') :
    order.filterMap Position.closedAt = order'.filterMap Position.closedAt :=
  ((h.1.trans h'.1.symm).filterMap _).eq_of_pairwise' h.2 h'.2

/-- The order with the given positions of a tie first is one the query may return. -/
theorem queryOrder_tieOrder (hknown : ∀ position ∈ positions, position.closedAt.isSome)
    (first : Position → Bool) : QueryOrder positions (tieOrder closeTime first positions) := by
  have hperm : (tieOrder closeTime first positions).Perm positions := tieOrder_perm first
  refine ⟨hperm, (newestFirst_iff fun p hp => ?_).mpr (tieOrder_descending first)⟩
  exact hknown p (hperm.mem_iff.mp hp)

/-! ## What an order lets the scan take -/

/-- The losses of the tie at `t` that come before its first stop. -/
def tieRun (resetAt : Option Time) (t : Time) (order : List Position) : List Position :=
  (order.filter fun position => closeTime position = t).takeWhile (extendsRun resetAt)

/-- **The run of an order**: the closes after the newest stop, and a part of its tie. -/
theorem runCloseTimes_of_stop (hknown : ∀ position ∈ positions, position.closedAt.isSome)
    (h : QueryOrder positions order) (hstop : NewestStop resetAt positions t) :
    runCloseTimes resetAt order =
      closesAfter t order ++ List.replicate (tieRun resetAt t order).length t := by
  have horder : ∀ position ∈ order, position.closedAt.isSome := fun p hp =>
    hknown p (h.1.mem_iff.mp hp)
  have hrun : ∀ position ∈ losingRun resetAt order, position.closedAt.isSome := fun p hp =>
    horder p ((List.takeWhile_sublist _).subset hp)
  obtain ⟨⟨stop, hmem, hclosedAt, hends⟩, hmax⟩ := hstop
  have hbound : ∀ position ∈ order, extendsRun resetAt position = false →
      closeTime position ≤ t := by
    intro p hp hbad
    exact hmax ⟨p, h.1.mem_iff.mp hp, (closedAt_eq_some_iff (horder p hp)).mpr rfl, hbad⟩
  have hexists : ∃ position ∈ order, closeTime position = t ∧
      extendsRun resetAt position = false :=
    ⟨stop, h.1.mem_iff.mpr hmem, (closedAt_eq_some_iff (hknown stop hmem)).mp hclosedAt, hends⟩
  have hscan := map_takeWhile_of_descending ((newestFirst_iff horder).mp h.2) hbound hexists
  rw [runCloseTimes, filterMap_closedAt hrun, closesAfter, filterMap_closedAt horder]
  exact hscan

/-- The closes after an instant do not depend on the order. -/
theorem QueryOrder.closesAfter_perm (h : QueryOrder positions order) (t : Time) :
    (closesAfter t order).Perm (closesAfter t positions) :=
  (h.1.filterMap _).filter _

/-- Of the positions that end the run, one closed last. -/
theorem exists_newestStop (hknown : ∀ position ∈ positions, position.closedAt.isSome)
    (hstop : ∃ position ∈ positions, extendsRun resetAt position = false) :
    ∃ t, NewestStop resetAt positions t := by
  have hfinite : {p | p ∈ positions ∧ extendsRun resetAt p = false}.Finite :=
    (List.finite_toSet positions).subset fun p hp => hp.1
  obtain ⟨last, ⟨hlast, hends⟩, hmax⟩ := Set.exists_max_image _ closeTime hfinite hstop
  refine ⟨closeTime last, ⟨last, hlast, ?_, hends⟩, ?_⟩
  · exact (closedAt_eq_some_iff (hknown last hlast)).mpr rfl
  · rintro t ⟨p, hp, hclosedAt, hbad⟩
    rw [← (closedAt_eq_some_iff (hknown p hp)).mp hclosedAt]
    exact hmax p ⟨hp, hbad⟩

/-- Without a stop every order is one run. -/
theorem runCloseTimes_of_no_stop (hknown : ∀ position ∈ positions, position.closedAt.isSome)
    (h : QueryOrder positions order) (hnone : ¬∃ t, NewestStop resetAt positions t) :
    runCloseTimes resetAt order = order.filterMap Position.closedAt := by
  have hall : ∀ position ∈ order, extendsRun resetAt position = true := by
    intro position hposition
    by_contra hbad
    exact hnone (exists_newestStop hknown
      ⟨position, h.1.mem_iff.mp hposition, Bool.eq_false_iff.mpr hbad⟩)
  rw [runCloseTimes, losingRun, List.takeWhile_eq_self_iff.mpr hall]

/-! ## Absorbed ties -/

/-- An absorbed instant costs no event, however much of its tie the scan takes. -/
theorem lossEvents_of_absorbed (hknown : ∀ position ∈ positions, position.closedAt.isSome)
    (h : QueryOrder positions order) (hstop : NewestStop resetAt positions t) {n : ℕ}
    (hcover : CoverableBy window (t :: closesAfter t positions) n)
    (hleast : ∀ m, CoverableBy window (closesAfter t positions) m → n ≤ m) :
    (greedyStarts window (runCloseTimes resetAt order).reverse).length = n := by
  have hwindow : 0 ≤ window := by
    obtain ⟨starts, -, hcovers⟩ := hcover
    obtain ⟨s, -, hle, hin⟩ := hcovers t List.mem_cons_self
    exact (sub_nonneg.mpr hle).trans hin
  have hperm := h.closesAfter_perm t
  obtain ⟨hrun, hmin⟩ := isLeast_lossEvents h.2 resetAt hwindow
  have hsplit := runCloseTimes_of_stop hknown h hstop
  apply le_antisymm
  · refine hmin (hcover.subset fun c hc => ?_)
    rw [hsplit, List.mem_append] at hc
    rcases hc with hlater | htied
    · exact List.mem_cons_of_mem t (hperm.mem_iff.mp hlater)
    · rw [List.eq_of_mem_replicate htied]
      exact List.mem_cons_self
  · refine hleast _ (hrun.subset fun c hc => ?_)
    rw [hsplit]
    exact List.mem_append_left _ (hperm.mem_iff.mpr hc)

/-- **A tie-free set has one streak**, whatever order the query returns it in. -/
theorem countConsecutiveLosses_eq_of_tieFree
    (hknown : ∀ position ∈ positions, position.closedAt.isSome)
    (hfree : TieFree window resetAt positions) {order' : List Position}
    (h : QueryOrder positions order) (h' : QueryOrder positions order') :
    countConsecutiveLosses order resetAt window =
      countConsecutiveLosses order' resetAt window := by
  have hkept : ∀ {list : List Position}, QueryOrder positions list →
      ∀ position ∈ list, position.closedAt.isSome := fun hlist p hp =>
    hknown p (hlist.1.mem_iff.mp hp)
  rw [countConsecutiveLosses_known (hkept h), countConsecutiveLosses_known (hkept h')]
  have htimes := h.closeTimes_eq h'
  by_cases hstops : ∃ t, NewestStop resetAt positions t
  · obtain ⟨t, hstop⟩ := hstops
    have hlater : closesAfter t order = closesAfter t order' := by
      unfold closesAfter
      rw [htimes]
    have hrun := runCloseTimes_of_stop hknown h hstop
    have hrun' := runCloseTimes_of_stop hknown h' hstop
    by_cases htied : ∃ position ∈ positions, position.closedAt = some t ∧
        extendsRun resetAt position = true
    · obtain ⟨n, hcover, hleast⟩ := hfree t hstop htied
      have hsome : closesAfter t order' ≠ [] := by
        intro hnil
        have hempty : closesAfter t positions = [] :=
          (hnil ▸ h'.closesAfter_perm t).symm.eq_nil
        have hzero : n ≤ 0 := hleast 0 ⟨[], rfl, by simp [hempty, Covers]⟩
        obtain ⟨starts, hlength, hcovers⟩ := hcover
        obtain ⟨s, hs, -⟩ := hcovers t List.mem_cons_self
        have hpos := List.length_pos_of_mem hs
        omega
      have hhead : (runCloseTimes resetAt order).head? = (runCloseTimes resetAt order').head? := by
        rw [hrun, hrun', hlater, List.head?_append_of_ne_nil _ hsome,
          List.head?_append_of_ne_nil _ hsome]
      rw [lossEvents_of_absorbed hknown h hstop hcover hleast,
        lossEvents_of_absorbed hknown h' hstop hcover hleast, hhead]
    · -- no loss closes with the stop
      have hnone : ∀ {list : List Position}, QueryOrder positions list →
          tieRun resetAt t list = [] := by
        intro list hlist
        refine List.eq_nil_iff_forall_not_mem.mpr fun p hp => htied ?_
        have hmem := List.mem_filter.mp ((List.takeWhile_sublist _).subset hp)
        refine ⟨p, hlist.1.mem_iff.mp hmem.1, ?_, List.mem_takeWhile_imp hp⟩
        exact (closedAt_eq_some_iff (hkept hlist p hmem.1)).mpr (of_decide_eq_true hmem.2)
      rw [hrun, hrun', hnone h, hnone h', hlater]
  · rw [runCloseTimes_of_no_stop hknown h hstops, runCloseTimes_of_no_stop hknown h' hstops,
      htimes]

/-! ## Ties that are not absorbed -/

/-- Losses first, the scan takes a loss of the tie. -/
theorem tieRun_lossesFirst (hknown : ∀ position ∈ positions, position.closedAt.isSome)
    (htied : ∃ position ∈ positions, position.closedAt = some t ∧
      extendsRun resetAt position = true) :
    0 < (tieRun resetAt t (tieOrder closeTime (extendsRun resetAt) positions)).length := by
  obtain ⟨p, hp, hclosedAt, hgood⟩ := htied
  have hkey : closeTime p = t := (closedAt_eq_some_iff (hknown p hp)).mp hclosedAt
  have hmem : p ∈ tieRun resetAt t (tieOrder closeTime (extendsRun resetAt) positions) := by
    rw [tieRun, takeWhile_goodFirst]
    simp only [List.mem_filter, (tieOrder_perm _).mem_iff]
    exact ⟨⟨hp, by simpa using hkey⟩, hgood⟩
  exact List.length_pos_of_mem hmem

/-- Losses last, the scan takes nothing of the tie. -/
theorem tieRun_lossesLast (hknown : ∀ position ∈ positions, position.closedAt.isSome)
    (hstop : NewestStop resetAt positions t) :
    tieRun resetAt t (tieOrder closeTime (fun p => !extendsRun resetAt p) positions) = [] := by
  obtain ⟨⟨stop, hmem, hclosedAt, hends⟩, -⟩ := hstop
  exact takeWhile_goodLast
    ⟨stop, hmem, (closedAt_eq_some_iff (hknown stop hmem)).mp hclosedAt, hends⟩

/-- With a negative window every loss is an event. -/
theorem lossEvents_of_neg (horder : NewestFirst order) (resetAt : Option Time)
    (hwindow : window < 0) :
    greedyStarts window (runCloseTimes resetAt order).reverse =
      (runCloseTimes resetAt order).reverse := by
  refine greedyStarts_eq_self (List.Pairwise.isChain ?_)
  refine (List.pairwise_reverse.mpr (horder.run resetAt)).imp fun {p q} hle => ?_
  exact hwindow.trans_le (sub_nonneg.mpr hle)

/-- If all orders give one streak, every tie with the newest stop is absorbed. -/
theorem tieFree_of_wellDefined (hknown : ∀ position ∈ positions, position.closedAt.isSome)
    (hsame : ∀ order order', QueryOrder positions order → QueryOrder positions order' →
      countConsecutiveLosses order resetAt window =
        countConsecutiveLosses order' resetAt window) :
    TieFree window resetAt positions := by
  intro t hstop htied
  -- the two extreme orders
  have hfirst := queryOrder_tieOrder hknown (extendsRun resetAt)
  have hlast := queryOrder_tieOrder hknown fun p => !extendsRun resetAt p
  have htaken := tieRun_lossesFirst hknown htied
  have hrunLast := runCloseTimes_of_stop hknown hlast hstop
  rw [tieRun_lossesLast hknown hstop, List.length_nil, List.replicate_zero,
    List.append_nil] at hrunLast
  have hrunFirst := runCloseTimes_of_stop hknown hfirst hstop
  have hcount := hsame _ _ hfirst hlast
  rw [countConsecutiveLosses_known fun p hp => hknown p (hfirst.1.mem_iff.mp hp),
    countConsecutiveLosses_known fun p hp => hknown p (hlast.1.mem_iff.mp hp)] at hcount
  have hlength := Int.ofNat.inj (Prod.mk.inj hcount).1
  have hwindow : 0 ≤ window := by
    by_contra hneg
    rw [lossEvents_of_neg hfirst.2 resetAt (not_le.mp hneg),
      lossEvents_of_neg hlast.2 resetAt (not_le.mp hneg), List.length_reverse,
      List.length_reverse, hrunFirst, hrunLast, List.length_append, List.length_replicate,
      ((hfirst.closesAfter_perm t).trans (hlast.closesAfter_perm t).symm).length_eq] at hlength
    omega
  obtain ⟨hcover, -⟩ := isLeast_lossEvents hfirst.2 resetAt hwindow
  obtain ⟨-, hleast⟩ := isLeast_lossEvents hlast.2 resetAt hwindow
  refine ⟨_, hcover.subset ?_, fun m hm => hlength ▸ hleast (hm.subset ?_)⟩
  · intro c hc
    rw [hrunFirst]
    rcases List.mem_cons.mp hc with rfl | hlater
    · exact List.mem_append_right _ (List.mem_replicate.mpr ⟨htaken.ne', rfl⟩)
    · exact List.mem_append_left _ ((hfirst.closesAfter_perm t).mem_iff.mpr hlater)
  · rw [hrunLast]
    exact (hlast.closesAfter_perm t).subset

/-- **When the loss streak is well defined.**  All orders the query may return the positions
in give the same events and the same last loss exactly where no loss after the reset closes
with the newest stop, unless the later losses need a window that holds its instant too. -/
theorem streak_wellDefined_iff (positions : List Position)
    (hknown : ∀ position ∈ positions, position.closedAt.isSome) (resetAt : Option Time)
    (window : Time) :
    (∀ order order', QueryOrder positions order → QueryOrder positions order' →
        countConsecutiveLosses order resetAt window =
          countConsecutiveLosses order' resetAt window) ↔
      TieFree window resetAt positions :=
  ⟨tieFree_of_wellDefined hknown, fun hfree _ _ =>
    countConsecutiveLosses_eq_of_tieFree hknown hfree⟩

/-- A win and a loss that close at one instant, and a later loss. -/
def tiedWin : List Position :=
  [closedPosition (-1) (minutes 90), closedPosition 1 (minutes 60),
    closedPosition (-1) (minutes 60)]

/-- The window of an hour that the later loss needs holds the tied one too. -/
theorem tieFree_tiedWin : TieFree (minutes 60) none tiedWin := by
  rintro t ⟨⟨stop, hstop, hclosedAt, hends⟩, -⟩ -
  -- only the win ends the run
  have ht : t = minutes 60 := by
    have honly : ∀ p ∈ tiedWin, extendsRun none p = false → p.closedAt = some (minutes 60) := by
      decide +kernel
    exact Option.some.inj (hclosedAt.symm.trans (honly stop hstop hends))
  subst ht
  refine ⟨1, ⟨[minutes 60], rfl, ?_⟩, ?_⟩
  · unfold Covers
    decide +kernel
  · rintro m ⟨starts, rfl, hcovers⟩
    obtain ⟨start, hstart, -⟩ := hcovers (minutes 90) (by decide +kernel)
    exact List.length_pos_of_mem hstart

/-- Whichever of the two comes first, the streak is the same. -/
theorem streak_wellDefined_tiedWin :
    TieFree (minutes 60) none tiedWin ∧
      ∀ order order', QueryOrder tiedWin order → QueryOrder tiedWin order' →
        countConsecutiveLosses order none (minutes 60) =
          countConsecutiveLosses order' none (minutes 60) :=
  ⟨tieFree_tiedWin,
    (streak_wellDefined_iff tiedWin (by decide +kernel) none (minutes 60)).mpr tieFree_tiedWin⟩

/-- A win and a loss that close at one instant. -/
theorem streak_depends_on_tie :
    let positions := [closedPosition 1 (minutes 60), closedPosition (-1) (minutes 60)]
    QueryOrder positions positions ∧ QueryOrder positions positions.reverse ∧
      countConsecutiveLosses positions none (minutes 60) = (0, none) ∧
      countConsecutiveLosses positions.reverse none (minutes 60) = (1, some (minutes 60)) := by
  refine ⟨⟨List.Perm.refl _, ?_⟩, ⟨List.reverse_perm _, ?_⟩, ?_⟩
  · unfold NewestFirst
    decide +kernel
  · unfold NewestFirst
    decide +kernel
  · decide +kernel

/-! ## The account state -/

/-- The positions a decision reads the streak from. -/
def closedRows (db : Database) : List Position :=
  db.positions.filter fun p => p.status = .CLOSED ∧ p.closedAt.isSome

/-- The positions a decision reads the streak from have known close times. -/
theorem closedRows_known (db : Database) :
    ∀ position ∈ closedRows db, position.closedAt.isSome := by
  intro position hposition
  have hrow := of_decide_eq_true (List.mem_filter.mp hposition).2
  exact hrow.2

/-- What the query returns is one of the orders. -/
theorem queryOrder_closedPositions (rows : RowOrder) (db : Database) :
    QueryOrder (closedRows db) (db.closedPositions rows) := by
  have hperm : (db.closedPositions rows).Perm (closedRows db) :=
    rows.positions.sortedDesc_perm _ _
  refine ⟨hperm, (newestFirst_iff fun p hp => ?_).mpr ?_⟩
  · exact closedRows_known db p (hperm.mem_iff.mp hp)
  · exact rows.positions.sortedDesc_pairwise _ _

/-- An order of the positions orders every part of them. -/
theorem QueryOrder.filter (h : QueryOrder positions order) (keep : Position → Bool) :
    QueryOrder (positions.filter keep) (order.filter keep) :=
  ⟨h.1.filter keep, h.2.sublist ((List.filter_sublist).filterMap _)⟩

/-- The newest close of a symbol does not depend on the order. -/
theorem QueryOrder.symbolLast_eq {order' : List Position}
    (hknown : ∀ position ∈ positions, position.closedAt.isSome)
    (h : QueryOrder positions order) (h' : QueryOrder positions order') (symbol : Symbol) :
    (order.find? fun p => p.symbol = symbol).bind Position.closedAt =
      (order'.find? fun p => p.symbol = symbol).bind Position.closedAt := by
  have hnewest : ∀ {list : List Position}, QueryOrder positions list →
      (list.find? fun p => p.symbol = symbol).bind Position.closedAt =
        ((list.filter fun p => p.symbol = symbol).filterMap Position.closedAt).head? := by
    intro list hlist
    have hkept : ∀ p ∈ list.filter fun p => p.symbol = symbol, p.closedAt.isSome := fun p hp =>
      hknown p (hlist.1.mem_iff.mp (List.mem_filter.mp hp).1)
    rw [← List.head?_filter]
    cases hcase : list.filter fun p => p.symbol = symbol with
    | nil => rfl
    | cons p rest =>
      obtain ⟨closedAt, hclosedAt⟩ :=
        Option.isSome_iff_exists.mp (hkept p (hcase ▸ List.mem_cons_self))
      rw [List.head?_cons, Option.bind_some, List.filterMap_cons_some hclosedAt,
        List.head?_cons, hclosedAt]
  rw [hnewest h, hnewest h', (h.filter _).closeTimes_eq (h'.filter _)]

/-- **A tie-free database has one account state**, whatever order its rows come in. -/
theorem loadAccountState_eq_of_tieFree (rows rows' : RowOrder) (db : Database)
    (balance : AccountBalanceSnapshot) (window now : Time)
    (hfree : TieFree window (db.systemState.bind SystemState.consecutiveLossResetAt)
      (closedRows db)) :
    loadAccountState rows db balance window now =
      loadAccountState rows' db balance window now := by
  have h := queryOrder_closedPositions rows db
  have h' := queryOrder_closedPositions rows' db
  have hperm := h.1.trans h'.1.symm
  have hstreak := countConsecutiveLosses_eq_of_tieFree (closedRows_known db) hfree h h'
  have hsymbol := funext (h.symbolLast_eq (closedRows_known db) h')
  have hdaily := (((hperm.filter fun p =>
    p.closedAt.any fun closedAt => dateOf closedAt = dateOf now).map
      fun p => p.pnlUsdt.getD 0)).sum_eq
  unfold loadAccountState
  dsimp only
  rw [hstreak, hdaily, hsymbol]

end TradeMind.Analysis
