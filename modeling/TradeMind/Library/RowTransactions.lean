import TradeMind.Library.Machine

/-!
# Read–modify–write transactions on one row

Transactions that load a row, work out the row they want in memory, flush the difference
and commit, interleaved under read committed.  An UPDATE writes the columns whose value
differs from the one loaded (`writeBack`), into the row as it is by then, and holds the row
from the flush to the end of its transaction.  The log is what the committed requests
leave beside the row; `Agrees` says that reading the row gives what replaying the log
gives, and `agrees_step_iff` that a commit keeps it exactly where it applies its own
request.
-/

set_option autoImplicit false

namespace TradeMind.Library

/-! ## The columns of a row -/

/-- A column of a row: the type of its values, how one is read from the row and how it is written.
-/
structure Column (ρ : Type) where
  Value : Type
  decEq : DecidableEq Value
  get : ρ → Value
  set : Value → ρ → ρ

variable {κ ρ : Type}

instance (c : Column ρ) : DecidableEq c.Value := c.decEq

/-- One column of an UPDATE: written where the value wanted differs from the one loaded. -/
def Column.carry (c : Column ρ) (loaded wanted current : ρ) : ρ :=
  if c.get wanted = c.get loaded then current else c.set (c.get wanted) current

/-- The row an UPDATE leaves. -/
def writeBack (columns : List (Column ρ)) (loaded wanted current : ρ) : ρ :=
  columns.foldl (fun row c => c.carry loaded wanted row) current

/-- The value wanted of some column differs from the one loaded. -/
def Changed (columns : List (Column ρ)) (loaded wanted : ρ) : Prop :=
  ∃ c ∈ columns, c.get wanted ≠ c.get loaded

instance (columns : List (Column ρ)) (loaded wanted : ρ) :
    Decidable (Changed columns loaded wanted) :=
  inferInstanceAs (Decidable (∃ c ∈ columns, _))

/-! ## The machine -/

/-- What the transactions of a program do: the columns of their row, and the row a request
wants from the one it loaded, or none where the request is refused. -/
structure RowProgram (κ ρ : Type) where
  columns : List (Column ρ)
  plan : κ → Option ρ → Option ρ

/-- How far a transaction has come.  A flushed one carries the row version it wrote, if it
wrote one. -/
inductive Phase (ρ : Type)
  | started
  | read (loaded : Option ρ)
  | flushed (loaded : Option ρ) (write : Option ρ)

/-- The committed row, the open transactions with their requests, the one that holds the row,
and the requests committed so far. -/
structure Table (κ ρ : Type) where
  committed : Option ρ
  transactions : ℕ → Option (κ × Phase ρ) := fun _ => none
  lock : Option ℕ := none
  log : List κ := []

namespace Table

/-- The transaction comes to another phase. -/
def put (s : Table κ ρ) (t : ℕ) (tx : Option (κ × Phase ρ)) : Table κ ρ :=
  { s with transactions := fun t' => if t' = t then tx else s.transactions t' }

/-- The transaction ends and gives the row free. -/
def close (s : Table κ ρ) (t : ℕ) : Table κ ρ :=
  { s.put t none with lock := if s.lock = some t then none else s.lock }

/-- No transaction on the table is open. -/
def Quiescent (s : Table κ ρ) : Prop := ∀ t, s.transactions t = none

end Table

/-- The flush: an UPDATE of the changed columns, or an INSERT where no row was loaded.  It
waits for the row, writes nothing where nothing changed, and fails where the row it would
insert is there or the row it would update is not. -/
def RowProgram.flush (program : RowProgram κ ρ) (s : Table κ ρ) (t : ℕ) (request : κ)
    (loaded : Option ρ) : Table κ ρ :=
  match program.plan request loaded, loaded with
  | none, _ => s.close t
  | some wanted, some row =>
    if ¬ Changed program.columns row wanted then s.put t (some (request, .flushed loaded none))
    else if s.lock ≠ none then s
    else
      match s.committed with
      | none => s.close t
      | some current =>
        { s.put t (some (request,
            .flushed loaded (some (writeBack program.columns row wanted current)))) with
          lock := some t }
  | some wanted, none =>
    if s.lock ≠ none then s
    else
      match s.committed with
      | some _ => s.close t
      | none =>
        { s.put t (some (request, .flushed loaded (some wanted))) with lock := some t }

/-- The steps of a transaction on one row, in the order an ORM session makes them. -/
inductive RowStep (κ : Type)
  | start (t : ℕ) (request : κ)
  | read (t : ℕ)
  | flush (t : ℕ)
  | commit (t : ℕ)
  | rollback (t : ℕ)

/-- What the step leaves; a step its transaction is not ready for does nothing. -/
def rowStep (program : RowProgram κ ρ) (s : Table κ ρ) : RowStep κ → Table κ ρ
  | .start t request =>
    match s.transactions t with
    | none => s.put t (some (request, .started))
    | some _ => s
  | .read t =>
    match s.transactions t with
    | some (request, .started) => s.put t (some (request, .read s.committed))
    | _ => s
  | .flush t =>
    match s.transactions t with
    | some (request, .read loaded) => program.flush s t request loaded
    | _ => s
  | .commit t =>
    match s.transactions t with
    | some (request, .flushed _ write) =>
      { s.close t with
        committed := write.or s.committed
        log := s.log ++ [request] }
    | _ => s
  | .rollback t => s.close t

/-- The steps of a transaction that nothing comes between. -/
def undisturbed (t : ℕ) (request : κ) : List (RowStep κ) :=
  [.start t request, .read t, .flush t, .commit t]

variable {program : RowProgram κ ρ} {s : Table κ ρ}

/-! ## What a flushed transaction has written -/

/-- What a flushed transaction has written, over the committed row. -/
inductive Writes (program : RowProgram κ ρ) (committed : Option ρ) (request : κ) :
    Option ρ → Option ρ → Prop
  | updated (row wanted current : ρ) (hplan : program.plan request (some row) = some wanted)
      (hcommitted : committed = some current) :
      Writes program committed request (some row)
        (some (writeBack program.columns row wanted current))
  | inserted (wanted : ρ) (hplan : program.plan request none = some wanted)
      (hcommitted : committed = none) :
      Writes program committed request none (some wanted)
  | unchanged (row wanted : ρ) (hplan : program.plan request (some row) = some wanted)
      (hsame : ¬ Changed program.columns row wanted) :
      Writes program committed request (some row) none

/-- What flushed transactions have written still stands over the committed row, and those
that have written hold the row. -/
structure Table.WellFormed (program : RowProgram κ ρ) (s : Table κ ρ) : Prop where
  writes : ∀ t request loaded write,
    s.transactions t = some (request, .flushed loaded write) →
      Writes program s.committed request loaded write
  locked : ∀ t request loaded row,
    s.transactions t = some (request, .flushed loaded (some row)) → s.lock = some t

/-- A table without open transactions is well formed. -/
theorem Table.Quiescent.wellFormed (h : s.Quiescent) : s.WellFormed program where
  writes := by
    intro t request loaded write ht
    rw [h t] at ht
    cases ht
  locked := by
    intro t request loaded row ht
    rw [h t] at ht
    cases ht

/-- A transaction that ends takes nothing from the others. -/
theorem Table.WellFormed.close (h : s.WellFormed program) (t : ℕ) :
    (s.close t).WellFormed program where
  writes := by
    intro t' request loaded write ht'
    unfold Table.close Table.put at ht'
    dsimp only at ht'
    split at ht'
    · cases ht'
    · exact h.writes t' request loaded write ht'
  locked := by
    intro t' request loaded row ht'
    unfold Table.close Table.put at ht' ⊢
    dsimp only at ht' ⊢
    split at ht'
    · cases ht'
    · rename_i hne
      have hlock := h.locked t' request loaded row ht'
      rw [hlock, if_neg]
      exact fun heq => hne (Option.some.inj heq)

/-- A transaction that has not flushed, or wrote nothing, comes to another such phase. -/
theorem Table.WellFormed.put (h : s.WellFormed program) (t : ℕ) {tx : κ × Phase ρ}
    (hwrites : ∀ request loaded write, tx = (request, .flushed loaded write) →
      Writes program s.committed request loaded write)
    (hnone : ∀ request loaded row, tx ≠ (request, .flushed loaded (some row))) :
    (s.put t (some tx)).WellFormed program where
  writes := by
    intro t' request loaded write ht'
    unfold Table.put at ht'
    dsimp only at ht'
    split at ht'
    · exact hwrites request loaded write (Option.some.inj ht')
    · exact h.writes t' request loaded write ht'
  locked := by
    intro t' request loaded row ht'
    unfold Table.put at ht'
    dsimp only at ht'
    split at ht'
    · exact absurd (Option.some.inj ht') (hnone request loaded row)
    · exact h.locked t' request loaded row ht'

/-- A transaction that finds the row free writes it and holds it. -/
theorem Table.WellFormed.write (h : s.WellFormed program) (hfree : s.lock = none) (t : ℕ)
    {request : κ} {loaded : Option ρ} {row : ρ}
    (hwrites : Writes program s.committed request loaded (some row)) :
    { s.put t (some (request, .flushed loaded (some row))) with lock := some t }.WellFormed
      program where
  writes := by
    intro t' request' loaded' write ht'
    unfold Table.put at ht'
    dsimp only at ht'
    split at ht'
    · cases ht'
      exact hwrites
    · exact h.writes t' request' loaded' write ht'
  locked := by
    intro t' request' loaded' row' ht'
    unfold Table.put at ht'
    dsimp only at ht'
    split at ht'
    · rename_i heq
      rw [heq]
    · have hlock := h.locked t' request' loaded' row' ht'
      rw [hfree] at hlock
      cases hlock

/-- A flush keeps the table well formed. -/
theorem Table.WellFormed.flush (h : s.WellFormed program) (t : ℕ) (request : κ)
    (loaded : Option ρ) : (program.flush s t request loaded).WellFormed program := by
  unfold RowProgram.flush
  split
  · exact h.close t
  · rename_i wanted row hplan
    split
    · rename_i hsame
      refine h.put t ?_ (fun _ _ _ heq => by cases heq)
      rintro _ _ _ ⟨⟩
      exact .unchanged row wanted hplan hsame
    · split
      · exact h
      · rename_i hfree
        split
        · exact h.close t
        · rename_i current hcommitted
          exact h.write (not_not.mp hfree) t (.updated row wanted current hplan hcommitted)
  · rename_i wanted hplan
    split
    · exact h
    · rename_i hfree
      split
      · exact h.close t
      · rename_i hcommitted
        exact h.write (not_not.mp hfree) t (.inserted wanted hplan hcommitted)

/-- A commit keeps the table well formed: it changes the row only where its transaction
holds it, and then no other has written. -/
theorem Table.WellFormed.commit (h : s.WellFormed program) {t : ℕ} {request : κ}
    {loaded write : Option ρ} (ht : s.transactions t = some (request, .flushed loaded write))
    (log : List κ) :
    { s.close t with committed := write.or s.committed, log }.WellFormed program where
  writes := by
    intro t' request' loaded' write' ht'
    have hclosed := (h.close t).writes t' request' loaded' write' ht'
    cases write with
    | none => exact hclosed
    | some row =>
      cases write' with
      | none =>
        cases hclosed with
        | unchanged row' wanted hplan hsame => exact .unchanged row' wanted hplan hsame
      | some row' =>
        -- two transactions would hold the row
        have hlock := h.locked t request loaded row ht
        have hlock' := (h.close t).locked t' request' loaded' row' ht'
        unfold Table.close at hlock'
        dsimp only at hlock'
        rw [if_pos hlock] at hlock'
        cases hlock'
  locked := (h.close t).locked

/-- **Every step keeps the table well formed.** -/
theorem rowStep_wellFormed (h : s.WellFormed program) (i : RowStep κ) :
    (rowStep program s i).WellFormed program := by
  cases i with
  | start t request =>
    dsimp only [rowStep]
    split
    · exact h.put t (fun _ _ _ heq => by cases heq) (fun _ _ _ heq => by cases heq)
    · exact h
  | read t =>
    dsimp only [rowStep]
    split
    · exact h.put t (fun _ _ _ heq => by cases heq) (fun _ _ _ heq => by cases heq)
    · exact h
  | flush t =>
    dsimp only [rowStep]
    split
    · exact h.flush t _ _
    · exact h
  | commit t =>
    dsimp only [rowStep]
    split
    · rename_i request loaded write ht
      exact h.commit ht _
    · exact h
  | rollback t => exact h.close t

/-! ## The row and the log -/

variable {ν : Type} (view : Option ρ → ν) (apply : ν → κ → ν)

/-- Reading the row gives what replaying the log from `start` gives. -/
def Agrees (start : ν) (s : Table κ ρ) : Prop :=
  view s.committed = s.log.foldl apply start

/-- A commit applies its own request to what the row says before it. -/
def AppliesRequest (s : Table κ ρ) : RowStep κ → Prop
  | .commit t => ∀ request loaded write,
    s.transactions t = some (request, .flushed loaded write) →
      view (write.or s.committed) = apply (view s.committed) request
  | _ => True

/-- **One step keeps row and log in agreement** exactly where, if it is a commit, it applies
its own request. -/
theorem agrees_step_iff {start : ν} (h : Agrees view apply start s) (i : RowStep κ) :
    Agrees view apply start (rowStep program s i) ↔ AppliesRequest view apply s i := by
  cases i with
  | start t request =>
    refine iff_of_true ?_ trivial
    dsimp only [rowStep]
    split <;> exact h
  | read t =>
    refine iff_of_true ?_ trivial
    dsimp only [rowStep]
    split <;> exact h
  | flush t =>
    refine iff_of_true ?_ trivial
    dsimp only [rowStep]
    split
    · unfold RowProgram.flush
      split
      · exact h
      · split
        · exact h
        · split
          · exact h
          · split <;> exact h
      · split
        · exact h
        · split <;> exact h
    · exact h
  | commit t =>
    dsimp only [rowStep, AppliesRequest]
    split
    · rename_i request loaded write ht
      unfold Agrees at h ⊢
      dsimp only
      rw [List.foldl_append, ← h]
      constructor
      · intro hview request' loaded' write' ht'
        cases ht.symm.trans ht'
        exact hview
      · exact fun happlies => happlies request loaded write ht
    · rename_i hnone
      refine iff_of_true h ?_
      intro request loaded write ht
      exact absurd ht (hnone request loaded write)
  | rollback t => exact iff_of_true h trivial

/-- **A run keeps row and log in agreement**, in every state, if and only if each of its
commits applies its own request. -/
theorem allStates_agrees_iff {start : ν} {ok : Table κ ρ → RowStep κ → Prop}
    (hok : ∀ s i, s.WellFormed program → Agrees view apply start s →
      (AppliesRequest view apply s i ↔ ok s i))
    (hs : s.WellFormed program) (h : Agrees view apply start s) (steps : List (RowStep κ)) :
    AllStates (rowStep program) (Agrees view apply start) s steps ↔
      AllSteps (rowStep program) ok s steps :=
  allStates_iff_allSteps (fun s => s.WellFormed program) (fun _ i hs => rowStep_wellFormed hs i)
    (fun s i hs h => (agrees_step_iff view apply h i).trans (hok s i hs h)) hs h steps

end TradeMind.Library
