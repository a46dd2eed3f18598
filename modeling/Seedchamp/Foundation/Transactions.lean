import Mathlib.Logic.Basic
import Mathlib.Data.Option.Basic
import Mathlib.Tactic.SplitIfs

/-!
Transactions on a connection to a database. A statement works on the open transaction, or commits by
itself. A call can meet an error of the database at one statement, and the database may then have rolled
back by itself.
-/

namespace Seedchamp.Foundation.Transactions

/-- `ran` counts the statements since the transaction was opened. -/
structure Connection (σ : Type) where
  committed : σ
  working : Option σ
  ran : Nat

/-- Where the database reports an error, and whether that ends the transaction. -/
inductive Site where
  | opening
  | statement (k : Nat) (rollsBack : Bool)
  | closing (rollsBack : Bool)
  deriving DecidableEq

/-- A run keeps the connection also where it stops with an error. -/
def Run (σ ε α : Type) : Type := Connection σ → Except ε α × Connection σ

variable {σ ε α β : Type}

def Run.pure (a : α) : Run σ ε α := fun c => (.ok a, c)

def Run.bind (x : Run σ ε α) (f : α → Run σ ε β) : Run σ ε β := fun c =>
  match x c with
  | (.ok a, c') => f a c'
  | (.error e, c') => (.error e, c')

instance : Monad (Run σ ε) where
  pure := Run.pure
  bind := Run.bind

section
variable (site : Option Site) (fault : ε)

/-- `BEGIN`; a transaction cannot be opened inside another. -/
def opening : Run σ ε Unit := fun c =>
  if c.working.isSome then (.error fault, c)
  else if site = some .opening then (.error fault, c)
  else (.ok (), ⟨c.committed, some c.committed, 0⟩)

def statement (act : σ → Except ε (α × σ)) : Run σ ε α := fun c =>
  if site = some (.statement c.ran true) then (.error fault, { c with working := none, ran := c.ran + 1 })
  else if site = some (.statement c.ran false) then (.error fault, { c with ran := c.ran + 1 })
  else
    match c.working with
    | none =>
      match act c.committed with
      | .ok (a, s) => (.ok a, { c with committed := s, ran := c.ran + 1 })
      | .error e => (.error e, { c with ran := c.ran + 1 })
    | some s =>
      match act s with
      | .ok (a, s') => (.ok a, { c with working := some s', ran := c.ran + 1 })
      | .error e => (.error e, { c with ran := c.ran + 1 })

/-- `COMMIT`; an error may leave the transaction open. -/
def closing : Run σ ε Unit := fun c =>
  match c.working with
  | none => (.error fault, c)
  | some s =>
    if site = some (.closing true) then (.error fault, { c with working := none })
    else if site = some (.closing false) then (.error fault, c)
    else (.ok (), { c with committed := s, working := none })

/-- `ROLLBACK`; without a transaction it has nothing to do. -/
def rollback (c : Connection σ) : Connection σ := { c with working := none }

/-- `BEGIN`, the body, and `COMMIT`; only an error of the body is followed by `ROLLBACK`. -/
def transact (body : Run σ ε α) : Run σ ε α := do
  opening site fault
  fun c =>
    match body c with
    | (.ok a, c') =>
      match closing site fault c' with
      | (.ok _, c'') => (.ok a, c'')
      | (.error e, c'') => (.error e, c'')
    | (.error e, c') => (.error e, rollback c')

/-! ### Inside a transaction -/

/-- A body leaves what is committed alone, and the transaction open unless it stops. -/
def Inside (x : Run σ ε α) : Prop :=
  ∀ c, c.working.isSome = true → (x c).2.committed = c.committed ∧
    ((x c).1.isOk = true → (x c).2.working.isSome = true)

theorem inside_pure (a : α) : Inside (Run.pure a : Run σ ε α) := fun _ inside => ⟨rfl, fun _ => inside⟩

theorem inside_bind (x : Run σ ε α) (f : α → Run σ ε β) (first : Inside x) (second : ∀ a, Inside (f a)) :
    Inside (Run.bind x f) := by
  intro c inside
  obtain ⟨kept, still⟩ := first c inside
  unfold Run.bind
  cases result : x c with
  | mk outcome c' =>
    rw [result] at kept still
    cases outcome with
    | error e => exact ⟨kept, nofun⟩
    | ok a =>
      obtain ⟨kept', still'⟩ := second a c' (still rfl)
      exact ⟨kept'.trans kept, still'⟩

theorem inside_statement (act : σ → Except ε (α × σ)) : Inside (statement site fault act) := by
  intro c inside
  obtain ⟨s, open'⟩ := Option.isSome_iff_exists.1 inside
  unfold statement
  split_ifs
  · exact ⟨rfl, nofun⟩
  · exact ⟨rfl, nofun⟩
  · rw [open']
    dsimp only
    cases act s with
    | error e => exact ⟨rfl, nofun⟩
    | ok result => exact ⟨rfl, fun _ => rfl⟩

/-- The body that runs when the transaction could be opened. -/
def opened (c : Connection σ) : Connection σ := ⟨c.committed, some c.committed, 0⟩

theorem transact_opened (body : Run σ ε α) (c : Connection σ) (closed : c.working = none)
    (opens : site ≠ some .opening) : transact site fault body c =
      match body (opened c) with
      | (.ok a, c') =>
        match closing site fault c' with
        | (.ok _, c'') => (.ok a, c'')
        | (.error e, c'') => (.error e, c'')
      | (.error e, c') => (.error e, rollback c') := by
  change Run.bind (opening site fault) _ c = _
  unfold Run.bind opening
  rw [closed, if_neg nofun, if_neg opens]
  rfl

/-- A call that fails has committed nothing; it leaves its transaction open exactly where the body was done
and `COMMIT` failed without ending it. -/
theorem transact_error (body : Run σ ε α) (inside : Inside body) (c c' : Connection σ) (e : ε)
    (closed : c.working = none) (failed : transact site fault body c = (.error e, c')) :
    c'.committed = c.committed ∧
      (c'.working = none ↔ ¬(site = some (.closing false) ∧ (body (opened c)).1.isOk = true)) := by
  by_cases opens : site = some .opening
  · have stopped : transact site fault body c = (.error fault, c) := by
      change Run.bind (opening site fault) _ c = _
      unfold Run.bind opening
      rw [closed, if_neg nofun, if_pos opens]
    rw [stopped] at failed
    cases failed
    refine ⟨rfl, ?_⟩
    rw [opens, closed]
    exact ⟨fun _ => (fun both => by cases both.1), fun _ => rfl⟩
  · rw [transact_opened site fault body c closed opens] at failed
    obtain ⟨kept, still⟩ := inside (opened c) rfl
    cases result : body (opened c) with
    | mk outcome after =>
      rw [result] at failed kept still
      cases outcome with
      | error problem =>
        cases failed
        exact ⟨kept, fun _ => (fun both => by cases both.2), fun _ => rfl⟩
      | ok a =>
        obtain ⟨s, open'⟩ := Option.isSome_iff_exists.1 (still rfl)
        dsimp only at open' failed
        unfold closing at failed
        rw [open'] at failed
        dsimp only at failed
        split_ifs at failed with ended stays
        · cases failed
          refine ⟨kept, fun _ => ?_, fun _ => rfl⟩
          rintro ⟨other, _⟩
          rw [ended] at other
          cases other
        · cases failed
          refine ⟨kept, ?_⟩
          rw [open']
          exact ⟨nofun, fun free => absurd ⟨stays, rfl⟩ free⟩
        · cases failed

/-! ### Bodies that succeed -/

/-- On an open transaction in state `s` the run answers `a` and leaves the transaction in state `s'`. -/
def Does (x : Run σ ε α) (s : σ) (a : α) (s' : σ) : Prop :=
  ∀ c, c.working = some s → ∃ n, x c = (.ok a, ⟨c.committed, some s', n⟩)

def Fails (x : Run σ ε α) (s : σ) (e : ε) : Prop :=
  ∀ c, c.working = some s → ∃ c', x c = (.error e, c')

theorem does_pure (s : σ) (a : α) : Does (Run.pure a : Run σ ε α) s a s := by
  intro c open'
  refine ⟨c.ran, ?_⟩
  rw [Run.pure, ← open']

theorem does_bind (x : Run σ ε α) (f : α → Run σ ε β) (s s' s'' : σ) (a : α) (b : β) (first : Does x s a s')
    (second : Does (f a) s' b s'') : Does (Run.bind x f) s b s'' := by
  intro c open'
  obtain ⟨n, ran⟩ := first c open'
  obtain ⟨m, ran'⟩ := second ⟨c.committed, some s', n⟩ rfl
  refine ⟨m, ?_⟩
  rw [Run.bind, ran]
  exact ran'

theorem fails_bind (x : Run σ ε α) (f : α → Run σ ε β) (s : σ) (e : ε) (first : Fails x s e) :
    Fails (Run.bind x f) s e := by
  intro c open'
  obtain ⟨c', ran⟩ := first c open'
  exact ⟨c', by rw [Run.bind, ran]⟩

theorem fails_bind_later (x : Run σ ε α) (f : α → Run σ ε β) (s s' : σ) (a : α) (e : ε) (first : Does x s a s')
    (second : Fails (f a) s' e) : Fails (Run.bind x f) s e := by
  intro c open'
  obtain ⟨n, ran⟩ := first c open'
  obtain ⟨c', ran'⟩ := second ⟨c.committed, some s', n⟩ rfl
  refine ⟨c', ?_⟩
  rw [Run.bind, ran]
  exact ran'

/-- No statement of the body meets an error. -/
def Spared (site : Option Site) : Prop := ∀ k rollsBack, site ≠ some (.statement k rollsBack)

variable {site} (spared : Spared site)
include spared

theorem does_statement (act : σ → Except ε (α × σ)) (s s' : σ) (a : α) (acts : act s = .ok (a, s')) :
    Does (statement site fault act) s a s' := by
  intro c open'
  refine ⟨c.ran + 1, ?_⟩
  rw [statement, if_neg (spared _ _), if_neg (spared _ _), open']
  dsimp only
  rw [acts]

theorem fails_statement (act : σ → Except ε (α × σ)) (s : σ) (e : ε) (acts : act s = .error e) :
    Fails (statement site fault act) s e := by
  intro c open'
  refine ⟨{ c with ran := c.ran + 1 }, ?_⟩
  rw [statement, if_neg (spared _ _), if_neg (spared _ _), open']
  dsimp only
  rw [acts]

end

end Seedchamp.Foundation.Transactions
