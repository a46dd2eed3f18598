import Seedchamp.Foundation.Transactions

/-!
Calls to a database whose statements are numbered through, `BEGIN` and `COMMIT` among them: transactions
that a guard rolls back, and statements that each commit by themselves.
-/

namespace Seedchamp.Foundation.GuardedTransactions
open Foundation.Transactions

variable {σ ε α β : Type} (site : Option Site) (fault : ε)

/-- The database reports an error at this statement. -/
def Hit (k : Nat) : Prop := site = some (.statement k true) ∨ site = some (.statement k false)

instance (k : Nat) : Decidable (Hit site k) := inferInstanceAs (Decidable (_ ∨ _))

def beginning : Run σ ε Unit := fun c =>
  if c.working.isSome ∨ Hit site c.ran then (.error fault, { c with ran := c.ran + 1 })
  else (.ok (), ⟨c.committed, some c.committed, c.ran + 1⟩)

def committing : Run σ ε Unit := fun c =>
  match c.working with
  | none => (.error fault, { c with ran := c.ran + 1 })
  | some s =>
    if site = some (.statement c.ran true) then (.error fault, ⟨c.committed, none, c.ran + 1⟩)
    else if site = some (.statement c.ran false) then (.error fault, { c with ran := c.ran + 1 })
    else (.ok (), ⟨s, none, c.ran + 1⟩)

/-- What an error leaves of a transaction is rolled back when the guard is dropped. -/
def dropped (x : Run σ ε α) : Run σ ε α := fun c =>
  match x c with
  | (.ok a, c') => (.ok a, c')
  | (.error e, c') => (.error e, rollback c')

def guarded (body : Run σ ε α) : Run σ ε α := do
  beginning site fault
  dropped (do
    let a ← body
    committing site fault
    pure a)

theorem committing_error (c c' : Connection σ) (e : ε) (failed : committing site fault c = (.error e, c')) :
    c'.committed = c.committed := by
  unfold committing at failed
  cases open' : c.working with
  | none =>
    rw [open'] at failed
    cases failed
    rfl
  | some s =>
    rw [open'] at failed
    dsimp only at failed
    split_ifs at failed
    · cases failed
      rfl
    · cases failed
      rfl
    · cases failed

/-- A guarded transaction that fails has committed nothing, and none is left open. -/
theorem guarded_error (body : Run σ ε α) (inside : Inside body) (c c' : Connection σ) (e : ε)
    (closed : c.working = none) (failed : guarded site fault body c = (.error e, c')) :
    c'.committed = c.committed ∧ c'.working = none := by
  change Run.bind (beginning site fault) (fun _ => dropped (Run.bind body fun a =>
    Run.bind (committing site fault) fun _ => Run.pure a)) c = _ at failed
  unfold Run.bind at failed
  by_cases refused : c.working.isSome ∨ Hit site c.ran
  · rw [beginning, if_pos refused] at failed
    cases failed
    exact ⟨rfl, closed⟩
  · rw [beginning, if_neg refused] at failed
    dsimp only at failed
    unfold dropped at failed
    dsimp only at failed
    obtain ⟨kept, -⟩ := inside ⟨c.committed, some c.committed, c.ran + 1⟩ rfl
    cases ran : body ⟨c.committed, some c.committed, c.ran + 1⟩ with
    | mk outcome after =>
      rw [ran] at failed kept
      cases outcome with
      | error problem =>
        cases failed
        exact ⟨kept, rfl⟩
      | ok a =>
        dsimp only at failed kept
        cases finished : committing site fault after with
        | mk outcome after' =>
          rw [finished] at failed
          cases outcome with
          | error problem =>
            cases failed
            exact ⟨(committing_error site fault after _ _ finished).trans kept, rfl⟩
          | ok done => cases failed

theorem inside_forM (xs : List β) (f : β → Run σ ε Unit) (each : ∀ x ∈ xs, Inside (f x)) : Inside (xs.forM f) := by
  induction xs with
  | nil => exact inside_pure ()
  | cons x xs ih =>
    exact inside_bind (f x) (fun _ => xs.forM f) (each x List.mem_cons_self)
      (fun _ => ih (fun y member => each y (List.mem_cons_of_mem _ member)))

/-! ### Statements that commit by themselves -/

theorem hit_unique (j k : Nat) (first : Hit site j) (second : Hit site k) : j = k := by
  rcases first with first | first
  all_goals
    rcases second with second | second
    all_goals
      rw [first] at second
      injection second with statements
      injection statements

/-- Outside of a transaction the run is so many statements that end in `s'`; where the `i`-th meets an
error, what has been committed has the property for `i`. -/
def Alone (x : Run σ ε α) (s : σ) (length : Nat) (a : α) (s' : σ) (Left : Nat → σ → Prop) : Prop :=
  ∀ n, (∀ i, i < length → Hit site (n + i) →
      ∃ e c, x ⟨s, none, n⟩ = (.error e, c) ∧ Left i c.committed ∧ c.working = none) ∧
    ((∀ i, i < length → ¬Hit site (n + i)) → x ⟨s, none, n⟩ = (.ok a, ⟨s', none, n + length⟩))

theorem alone_pure (s : σ) (a : α) (Left : Nat → σ → Prop) : Alone site (Run.pure a : Run σ ε α) s 0 a s Left :=
  fun _ => ⟨fun _ none _ => absurd none (Nat.not_lt_zero _), fun _ => rfl⟩

theorem alone_statement (act : σ → Except ε (α × σ)) (s s' : σ) (a : α) (acts : act s = .ok (a, s'))
    (Left : Nat → σ → Prop) (left : Left 0 s) : Alone site (statement site fault act) s 1 a s' Left := by
  intro n
  constructor
  · intro i here hit
    have first : i = 0 := by omega
    rw [first, Nat.add_zero] at hit
    rw [first, statement]
    by_cases rollsBack : site = some (.statement n true)
    · exact ⟨fault, _, if_pos rollsBack, left, rfl⟩
    · exact ⟨fault, _, (if_neg rollsBack).trans (if_pos (hit.resolve_left rollsBack)), left, rfl⟩
  · intro spared
    have free : ¬Hit site n := spared 0 Nat.one_pos
    rw [statement, if_neg (fun hit => free (Or.inl hit)), if_neg (fun hit => free (Or.inr hit))]
    dsimp only
    rw [acts]

theorem alone_bind (x : Run σ ε α) (f : α → Run σ ε β) (s s' s'' : σ) (n m : Nat) (a : α) (b : β)
    (Left : Nat → σ → Prop) (first : Alone site x s n a s' Left)
    (second : Alone site (f a) s' m b s'' (fun i => Left (n + i))) :
    Alone site (Run.bind x f) s (n + m) b s'' Left := by
  intro start
  obtain ⟨stops, runs⟩ := first start
  obtain ⟨stops', runs'⟩ := second (start + n)
  constructor
  · intro i within hit
    by_cases early : i < n
    · obtain ⟨e, c, ran, left, closed⟩ := stops i early hit
      exact ⟨e, c, by rw [Run.bind, ran], left, closed⟩
    · have ran := runs (fun j before again => by
        have same := hit_unique site _ _ hit again
        omega)
      have place : start + n + (i - n) = start + i := by omega
      obtain ⟨e, c, ran', left, closed⟩ := stops' (i - n) (by omega) (by rw [place]; exact hit)
      rw [show n + (i - n) = i by omega] at left
      exact ⟨e, c, by rw [Run.bind, ran]; exact ran', left, closed⟩
  · intro spared
    have ran := runs (fun j before => spared j (by omega))
    have ran' := runs' (fun j before => by
      rw [Nat.add_assoc]
      exact spared (n + j) (by omega))
    rw [Run.bind, ran]
    dsimp only
    rw [ran', Nat.add_assoc]

end Seedchamp.Foundation.GuardedTransactions
