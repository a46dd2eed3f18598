import Seedchamp.Crypto.PayloadCipher

/-!
RC4 as the engine runs it, with word-sized indices, masks and checked array accesses, against the
textbook generator on bytes.
-/

namespace Seedchamp.Crypto.KeyStream
open Foundation

abbrev Permutation := Vector UInt8 256

/-! ### The engine's RC4 -/

/-- `i` and `j` are `usize`. -/
structure Rc4 where
  s : Permutation
  i : Nat
  j : Nat
  deriving DecidableEq

/-- `s[n]`; an access past the end panics. -/
def load (s : Permutation) (n : Nat) : Option UInt8 := s[n]?

def store (s : Permutation) (n : Nat) (b : UInt8) : Option Permutation :=
  if inside : n < 256 then some (s.set n b) else none

def swap (s : Permutation) (m n : Nat) : Option Permutation :=
  if inside : m < 256 ∧ n < 256 then some (s.swap m n inside.1 inside.2) else none

def identity : Permutation := Vector.ofFn (fun n => UInt8.ofNat n.val)

def scheduleTurn (key : List UInt8) (state : Permutation × Nat) (i : Nat) : Option (Permutation × Nat) :=
  (load state.1 i).bind fun si =>
  (key[i % key.length]?).bind fun k =>
  let j := (state.2 + si.toNat + k.toNat) &&& 255
  (swap state.1 i j).bind fun s => some (s, j)

namespace Rc4

/-- The key schedule; an empty key is refused by an assertion. -/
def new (key : List UInt8) : Option Rc4 :=
  if key.isEmpty then none
  else ((List.range 256).foldlM (scheduleTurn key) (identity, 0)).map (fun state => ⟨state.1, 0, 0⟩)

def dropTurn (rc4 : Rc4) : Option Rc4 :=
  let i := (rc4.i + 1) &&& 255
  (load rc4.s i).bind fun si =>
  let j := (rc4.j + si.toNat) &&& 255
  (swap rc4.s i j).bind fun s => some ⟨s, i, j⟩

def dropKeystream (rc4 : Rc4) : Nat → Option Rc4
  | 0 => some rc4
  | n + 1 => rc4.dropTurn.bind (fun rc4 => dropKeystream rc4 n)

/-- The keystream index is computed from the values read before the swap. -/
def cryptTurn (rc4 : Rc4) : Option (UInt8 × Rc4) :=
  let i := (rc4.i + 1) &&& 255
  (load rc4.s i).bind fun si =>
  let j := (rc4.j + si.toNat) &&& 255
  (load rc4.s j).bind fun sj =>
  (store rc4.s i sj).bind fun s =>
  (store s j si).bind fun s =>
  (load s ((si.toNat + sj.toNat) &&& 255)).bind fun k => some (k, ⟨s, i, j⟩)

def cryptInplace (rc4 : Rc4) : List UInt8 → Option (List UInt8 × Rc4)
  | [] => some ([], rc4)
  | b :: rest =>
    rc4.cryptTurn.bind fun turn =>
    (cryptInplace turn.2 rest).map fun done => ((b ^^^ turn.1) :: done.1, done.2)

end Rc4

/-- Both indices are 1 in the first turn on the unscheduled array. -/
example : ((⟨identity, 0, 0⟩ : Rc4).cryptInplace [7]).map Prod.fst = some [5] := by decide +kernel

/-! ### The textbook generator -/

/-- All arithmetic is that of bytes. -/
structure Arc4 where
  s : Permutation
  i : UInt8
  j : UInt8
  deriving DecidableEq

def at' (s : Permutation) (x : UInt8) : UInt8 := s.get ⟨x.toNat, x.toNat_lt⟩

def exchange (s : Permutation) (x y : UInt8) : Permutation := s.swap x.toNat y.toNat x.toNat_lt y.toNat_lt

namespace Arc4

def scheduleTurn (key : List UInt8) (state : Permutation × UInt8) (i : Nat) : Permutation × UInt8 :=
  let j := state.2 + at' state.1 (UInt8.ofNat i) + key.getD (i % key.length) 0
  (exchange state.1 (UInt8.ofNat i) j, j)

def new (key : List UInt8) : Arc4 :=
  ⟨((List.range 256).foldl (scheduleTurn key) (identity, 0)).1, 0, 0⟩

/-- One keystream byte, read after the swap. -/
def next (a : Arc4) : UInt8 × Arc4 :=
  let i := a.i + 1
  let j := a.j + at' a.s i
  let s := exchange a.s i j
  (at' s (at' s i + at' s j), ⟨s, i, j⟩)

end Arc4

/-! ### Accesses inside the array -/

/-- The state of the textbook as the engine holds it. -/
def embed (a : Arc4) : Rc4 := ⟨a.s, a.i.toNat, a.j.toNat⟩

theorem mask (n : Nat) : n &&& 255 = n % 256 := Nat.and_two_pow_sub_one_eq_mod n 8

theorem mask_add (x y : UInt8) : (x.toNat + y.toNat) &&& 255 = (x + y).toNat := by
  rw [mask, UInt8.toNat_add]

theorem mask_succ (x : UInt8) : (x.toNat + 1) &&& 255 = (x + 1).toNat := mask_add x 1

theorem load_toNat (s : Permutation) (x : UInt8) : load s x.toNat = some (at' s x) := by
  rw [load, Vector.getElem?_eq_getElem x.toNat_lt]
  rfl

theorem swap_toNat (s : Permutation) (x y : UInt8) : swap s x.toNat y.toNat = some (exchange s x y) := by
  rw [swap, dif_pos ⟨x.toNat_lt, y.toNat_lt⟩]
  rfl

/-- The two stores are the swap, also when they hit one place. -/
theorem store_store (s : Permutation) (x y : UInt8) :
    ((store s x.toNat (at' s y)).bind fun s' => store s' y.toNat (at' s x)) = some (exchange s x y) := by
  rw [store, dif_pos x.toNat_lt, Option.bind_some, store, dif_pos y.toNat_lt]
  rfl

theorem at_exchange_left (s : Permutation) (x y : UInt8) : at' (exchange s x y) x = at' s y :=
  Vector.getElem_swap_left _ _

theorem at_exchange_right (s : Permutation) (x y : UInt8) : at' (exchange s x y) y = at' s x :=
  Vector.getElem_swap_right _ _

theorem exchange_perm (s : Permutation) (x y : UInt8) : (exchange s x y).Perm s :=
  Vector.swap_perm _ _

/-! ### The simulation -/

theorem scheduleTurn_eq (key : List UInt8) (nonempty : key ≠ []) (state : Permutation × UInt8) (i : Nat)
    (inside : i < 256) : scheduleTurn key (state.1, state.2.toNat) i =
      some ((Arc4.scheduleTurn key state i).1, (Arc4.scheduleTurn key state i).2.toNat) := by
  have index : (UInt8.ofNat i).toNat = i := by
    rw [UInt8.toNat_ofNat']
    exact Nat.mod_eq_of_lt inside
  have place : i % key.length < key.length := Nat.mod_lt _ (List.length_pos_iff.2 nonempty)
  have read : key[i % key.length]? = some (key.getD (i % key.length) 0) := by
    rw [List.getD_eq_getElem?_getD, List.getElem?_eq_getElem place, Option.getD_some]
  have first : load state.1 i = some (at' state.1 (UInt8.ofNat i)) := by
    rw [← load_toNat, index]
  rw [scheduleTurn, first, read, Option.bind_some, Option.bind_some]
  dsimp only
  have sum : (state.2.toNat + (at' state.1 (UInt8.ofNat i)).toNat + (key.getD (i % key.length) 0).toNat) &&&
      255 = (state.2 + at' state.1 (UInt8.ofNat i) + key.getD (i % key.length) 0).toNat := by
    rw [mask, UInt8.toNat_add, UInt8.toNat_add, Nat.mod_add_mod]
  have turned := swap_toNat state.1 (UInt8.ofNat i)
    (state.2 + at' state.1 (UInt8.ofNat i) + key.getD (i % key.length) 0)
  rw [index] at turned
  rw [sum, turned]
  rfl

theorem new_eq (key : List UInt8) (nonempty : key ≠ []) : Rc4.new key = some (embed (Arc4.new key)) := by
  have folded : ∀ (turns : List Nat) (state : Permutation × UInt8), (∀ i ∈ turns, i < 256) →
      turns.foldlM (scheduleTurn key) (state.1, state.2.toNat) =
        some ((turns.foldl (Arc4.scheduleTurn key) state).1,
          (turns.foldl (Arc4.scheduleTurn key) state).2.toNat) := by
    intro turns
    induction turns with
    | nil => exact fun state _ => rfl
    | cons i rest ih =>
      intro state inside
      rw [List.foldlM_cons, scheduleTurn_eq key nonempty state i (inside i List.mem_cons_self)]
      exact ih _ (fun k member => inside k (List.mem_cons_of_mem _ member))
  have all := folded (List.range 256) (identity, 0) (fun i member => List.mem_range.1 member)
  rw [Rc4.new, if_neg (by rw [List.isEmpty_iff]; exact nonempty), show ((identity, 0) : Permutation × Nat) =
    (identity, (0 : UInt8).toNat) from rfl, all]
  rfl

theorem cryptTurn_embed (a : Arc4) : (embed a).cryptTurn = some (a.next.1, embed a.next.2) := by
  rw [Rc4.cryptTurn]
  dsimp only [embed]
  rw [mask_succ, load_toNat, Option.bind_some, mask_add, load_toNat, Option.bind_some, ← Option.bind_assoc,
    store_store, Option.bind_some, mask_add, load_toNat, Option.bind_some]
  rw [Arc4.next]
  dsimp only
  rw [at_exchange_left, at_exchange_right, UInt8.add_comm (at' a.s (a.i + 1))]

theorem dropTurn_embed (a : Arc4) : (embed a).dropTurn = some (embed a.next.2) := by
  rw [Rc4.dropTurn]
  dsimp only [embed]
  rw [mask_succ, load_toNat, Option.bind_some, mask_add, swap_toNat, Option.bind_some]
  rfl

/-- The engine's stream is the textbook's. -/
theorem cryptInplace_embed (a : Arc4) (data : List UInt8) : (embed a).cryptInplace data =
    some ((StreamCipher.crypt Arc4.next a data).1, embed (StreamCipher.crypt Arc4.next a data).2) := by
  induction data generalizing a with
  | nil => rfl
  | cons b rest ih =>
    rw [Rc4.cryptInplace, cryptTurn_embed, Option.bind_some, ih]
    rfl

theorem dropKeystream_embed (a : Arc4) (n : Nat) :
    (embed a).dropKeystream n = some (embed (StreamCipher.advance Arc4.next a n)) := by
  induction n generalizing a with
  | zero => rfl
  | succ n ih =>
    rw [Rc4.dropKeystream, dropTurn_embed, Option.bind_some, ih]
    rfl

/-! ### Sequences of calls -/

inductive Call where
  | crypt (data : List UInt8)
  | drop (n : Nat)
  deriving DecidableEq

/-- The outputs of the calls and the state after them; `none` is a panic. -/
def Rc4.run (rc4 : Rc4) : List Call → Option (List (List UInt8) × Rc4)
  | [] => some ([], rc4)
  | .crypt data :: rest =>
    (rc4.cryptInplace data).bind fun done =>
    (Rc4.run done.2 rest).map fun later => (done.1 :: later.1, later.2)
  | .drop n :: rest => (rc4.dropKeystream n).bind (fun rc4 => Rc4.run rc4 rest)

def Arc4.run (a : Arc4) : List Call → List (List UInt8) × Arc4
  | [] => ([], a)
  | .crypt data :: rest =>
    let done := StreamCipher.crypt Arc4.next a data
    let later := Arc4.run done.2 rest
    (done.1 :: later.1, later.2)
  | .drop n :: rest => Arc4.run (StreamCipher.advance Arc4.next a n) rest

theorem run_embed (a : Arc4) (calls : List Call) :
    (embed a).run calls = some ((a.run calls).1, embed (a.run calls).2) := by
  induction calls generalizing a with
  | nil => rfl
  | cons call rest ih =>
    cases call with
    | crypt data =>
      rw [Rc4.run, cryptInplace_embed, Option.bind_some, ih]
      rfl
    | drop n =>
      rw [Rc4.run, dropKeystream_embed, Option.bind_some, ih]
      rfl

theorem new_perm (key : List UInt8) : (Arc4.new key).s.Perm identity := by
  have folded : ∀ (turns : List Nat) (state : Permutation × UInt8), state.1.Perm identity →
      (turns.foldl (Arc4.scheduleTurn key) state).1.Perm identity := by
    intro turns
    induction turns with
    | nil => exact fun state perm => perm
    | cons i rest ih =>
      intro state perm
      exact ih _ ((exchange_perm _ _ _).trans perm)
  exact folded _ _ (Vector.Perm.refl _)

theorem next_perm (a : Arc4) (perm : a.s.Perm identity) : a.next.2.s.Perm identity :=
  (exchange_perm _ _ _).trans perm

theorem run_perm (a : Arc4) (calls : List Call) (perm : a.s.Perm identity) :
    (a.run calls).2.s.Perm identity := by
  induction calls generalizing a with
  | nil => exact perm
  | cons call rest ih =>
    cases call with
    | crypt data =>
      apply ih
      rw [StreamCipher.crypt_state]
      exact StreamCipher.advance_invariant Arc4.next (fun a => a.s.Perm identity) next_perm a _ perm
    | drop n =>
      exact ih _ (StreamCipher.advance_invariant Arc4.next (fun a => a.s.Perm identity) next_perm a n perm)

/-! ### The laws -/

/-- What holds of RC4 in a state: the invariant, and how its calls compose. -/
structure Lawful (rc4 : Rc4) : Prop where
  permutation : rc4.s.Perm identity
  i : rc4.i < 256
  j : rc4.j < 256
  append : ∀ first second, rc4.cryptInplace (first ++ second) =
    (rc4.cryptInplace first).bind fun done =>
    (done.2.cryptInplace second).map fun later => (done.1 ++ later.1, later.2)
  dropped : ∀ data, rc4.dropKeystream data.length = (rc4.cryptInplace data).map Prod.snd
  restored : ∀ data, ((rc4.cryptInplace data).bind fun done => rc4.cryptInplace done.1).map Prod.fst =
    some data

theorem lawful_embed (a : Arc4) (perm : a.s.Perm identity) : Lawful (embed a) := by
  refine ⟨perm, a.i.toNat_lt, a.j.toNat_lt, ?_, ?_, ?_⟩
  · intro first second
    rw [cryptInplace_embed, cryptInplace_embed, Option.bind_some, cryptInplace_embed,
      StreamCipher.crypt_append]
    rfl
  · intro data
    rw [dropKeystream_embed, cryptInplace_embed, StreamCipher.crypt_state]
    rfl
  · intro data
    rw [cryptInplace_embed, Option.bind_some, cryptInplace_embed, Option.map_some,
      StreamCipher.crypt_crypt]

/-- Under every key and for every sequence of calls the engine's RC4 never panics, puts out what the
textbook generator does, and is lawful in the state it reaches. -/
theorem rc4_is_arc4 (key : List UInt8) (nonempty : key ≠ []) (calls : List Call) :
    ∃ rc4, (Rc4.new key).bind (fun rc4 => rc4.run calls) = some (((Arc4.new key).run calls).1, rc4) ∧
      Lawful rc4 := by
  refine ⟨embed ((Arc4.new key).run calls).2, ?_, ?_⟩
  · rw [new_eq key nonempty, Option.bind_some, run_embed]
  · exact lawful_embed _ (run_perm _ _ (new_perm key))

theorem rc4_is_arc4_key : ∃ rc4, (Rc4.new [75, 101, 121]).bind (fun rc4 => rc4.run [.drop 2, .crypt [80, 108]]) =
      some (((Arc4.new [75, 101, 121]).run [.drop 2, .crypt [80, 108]]).1, rc4) ∧ Lawful rc4 :=
  rc4_is_arc4 [75, 101, 121] (by decide) [.drop 2, .crypt [80, 108]]

end Seedchamp.Crypto.KeyStream
