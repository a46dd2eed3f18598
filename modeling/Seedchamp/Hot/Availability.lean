import Seedchamp.Catalog.Bitfield
import Seedchamp.Foundation.Tasks
import Seedchamp.Foundation.TransitionSystem
import Seedchamp.Wire.Messages

/-!
How many connections have each piece: every connection adds its bitfield to the counts of the
torrent and takes it out again. The counts are locked for one bitfield at a time, so a connection
that replaces its bitfield is for a while not counted at all.
-/

namespace Seedchamp.Hot.Availability
open Catalog.Bitfield Wire.Messages Foundation.Tasks Foundation.TransitionSystem

def u16Max : Nat := 65535

def availInc (availability : List Nat) (index : Nat) : List Nat :=
  availability.modify index fun c => min (c + 1) u16Max

def availDec (availability : List Nat) (index : Nat) : List Nat :=
  availability.modify index fun c => c - 1

/-- The loop `for i in 0..pc` over the set bits. -/
def sweep (change : List Nat → Nat → List Nat) (pieceCount : Nat) (bf : Bits)
    (availability : List Nat) : List Nat :=
  (List.range pieceCount).foldl (fun a i => if bitfieldGet bf i then change a i else a) availability

def availAddBitfield (pieceCount : Nat) (bf : Bits) (availability : List Nat) : List Nat :=
  sweep availInc pieceCount bf
    (if availability.length < pieceCount then
      availability ++ List.replicate (pieceCount - availability.length) 0
    else availability)

def availSubBitfield (pieceCount : Nat) (bf : Bits) (availability : List Nat) : List Nat :=
  sweep availDec pieceCount bf availability

/-- `bf[..n].copy_from_slice(&new[..n])` for the shorter length. -/
def copyPrefix (bf new : Bits) : Bits := new.take bf.length ++ bf.drop new.length

def applyHaveAllNone (peerBf : Bits) (pieceCount : Nat) (all : Bool) : Bits :=
  if all then
    let filled := List.replicate peerBf.length (0xff : UInt8)
    if pieceCount % 8 ≠ 0 then
      filled.modify (filled.length - 1) (fun last => last &&& 0xff <<< UInt8.ofNat (8 - pieceCount % 8))
    else filled
  else List.replicate peerBf.length 0

/-- The record of a connection. `counted` fails while its bitfield is taken out and not yet added. -/
structure PeerAvailability where
  bf : Bits
  counted : Bool
  deriving DecidableEq, Repr

structure Connection where
  peerBf : Bits
  peerAvail : Option PeerAvailability
  live : Bool
  deriving DecidableEq, Repr

structure Swarm where
  pieceCount : Nat
  availability : List Nat
  connections : List Connection
  deriving DecidableEq, Repr

def start (pieceCount : Nat) : Swarm := ⟨pieceCount, List.replicate pieceCount 0, []⟩

/-- The connection is between two messages. -/
def Connection.settled (conn : Connection) : Bool :=
  match conn.peerAvail with
  | some record => record.counted
  | none => true

/-- The connection has bit `i` set and counted. -/
def Connection.counts (i : Nat) (conn : Connection) : Bool :=
  match conn.peerAvail with
  | some record => record.counted && bitfieldGet record.bf i
  | none => false

namespace Swarm

def idle (swarm : Swarm) (c : Nat) : Option Connection :=
  swarm.connections[c]?.filter fun conn => conn.live && conn.settled

def setConnection (swarm : Swarm) (c : Nat) (conn : Connection) : Swarm :=
  { swarm with connections := swarm.connections.set c conn }

/-- The first half of `on_bitfield`: the old bits leave the counts, the record takes the new ones. -/
def onBitfield (swarm : Swarm) (c : Nat) (conn : Connection) : Swarm :=
  match conn.peerAvail with
  | none => swarm.setConnection c conn
  | some record =>
    { swarm.setConnection c { conn with
        peerAvail := some ⟨copyPrefix (List.replicate record.bf.length 0) conn.peerBf, false⟩ } with
      availability := availSubBitfield swarm.pieceCount record.bf swarm.availability }

/-- The handler of `Have`, with `on_have`. -/
def onHave (swarm : Swarm) (c : Nat) (conn : Connection) (index : Nat) : Swarm :=
  if index / 8 < conn.peerBf.length then
    let told := { conn with peerBf := bitfieldSet conn.peerBf index }
    match conn.peerAvail with
    | none => swarm.setConnection c told
    | some record =>
      if swarm.pieceCount ≤ index ∨ bitfieldGet record.bf index then swarm.setConnection c told
      else
        { swarm.setConnection c { told with
            peerAvail := some { record with bf := bitfieldSet record.bf index } } with
          availability := availInc swarm.availability index }
  else swarm

end Swarm

/-- `download` is the connection beginning to download late, when it makes its record. `addBitfield`
is the second half of `on_bitfield`. -/
inductive Event where
  | connect (wantDownload : Bool)
  | message (c : Nat) (message : Message)
  | addBitfield (c : Nat)
  | download (c : Nat)
  | disconnect (c : Nat)
  deriving DecidableEq, Repr

def step (swarm : Swarm) : Event → Option Swarm
  | .connect wantDownload =>
    some { swarm with
      connections := swarm.connections ++ [{
        peerBf := emptyBitfield swarm.pieceCount
        peerAvail := if wantDownload then some ⟨emptyBitfield swarm.pieceCount, true⟩ else none
        live := true }] }
  | .message c message =>
    (swarm.idle c).map fun conn =>
      match message with
      | .have_ index => swarm.onHave c conn index
      | .haveAll =>
        swarm.onBitfield c { conn with peerBf := applyHaveAllNone conn.peerBf swarm.pieceCount true }
      | .haveNone =>
        swarm.onBitfield c { conn with peerBf := applyHaveAllNone conn.peerBf swarm.pieceCount false }
      | .bitfield bits => swarm.onBitfield c { conn with peerBf := copyPrefix conn.peerBf bits }
      | _ => swarm
  | .addBitfield c =>
    swarm.connections[c]?.bind fun conn =>
      conn.peerAvail.bind fun record =>
        if record.counted then none
        else
          some { swarm.setConnection c { conn with peerAvail := some { record with counted := true } } with
            availability := availAddBitfield swarm.pieceCount record.bf swarm.availability }
  | .download c =>
    (swarm.idle c).map fun conn =>
      match conn.peerAvail with
      | some _ => swarm
      | none =>
        swarm.onBitfield c { conn with peerAvail := some ⟨emptyBitfield swarm.pieceCount, true⟩ }
  | .disconnect c =>
    (swarm.idle c).map fun conn =>
      match conn.peerAvail with
      | none => swarm.setConnection c { conn with live := false }
      | some record =>
        { swarm.setConnection c { conn with peerAvail := none, live := false } with
          availability := availSubBitfield swarm.pieceCount record.bf swarm.availability }

/-- The number of connections that have a piece. -/
def holders (swarm : Swarm) (i : Nat) : Nat := swarm.connections.countP (Connection.counts i)

def liveCount (swarm : Swarm) : Nat := swarm.connections.countP Connection.live

/-- Fewer than 65536 connections are open at once. -/
def Few (swarm : Swarm) : Event → Prop
  | .connect _ => liveCount swarm + 1 < 65536
  | _ => True

instance (swarm : Swarm) (event : Event) : Decidable (Few swarm event) := by
  cases event <;> unfold Few <;> infer_instance

/-- The invariant. -/
structure Exact (swarm : Swarm) : Prop where
  exact_ : ∀ i, i < swarm.pieceCount → swarm.availability[i]? = some (holders swarm i)
  sized : swarm.availability.length = swarm.pieceCount
  few : liveCount swarm ≤ u16Max
  closed : ∀ conn ∈ swarm.connections, conn.live = false → conn.peerAvail = none
  fitting : ∀ conn ∈ swarm.connections, ∀ record, conn.peerAvail = some record →
    record.bf.length = bitfieldSizeBytes swarm.pieceCount

/-! ### The counting loops -/

theorem sweep_getElem? (update : Nat → Nat) (pieceCount : Nat) (bf : Bits) (availability : List Nat)
    (i : Nat) :
    (sweep (fun a i => a.modify i update) pieceCount bf availability)[i]? =
      availability[i]?.map fun c => if i < pieceCount ∧ bitfieldGet bf i = true then update c else c := by
  rw [sweep]
  induction pieceCount with
  | zero =>
    rw [List.range_zero, List.foldl_nil]
    cases availability[i]? with
    | none => rfl
    | some c => simp
  | succ n ih =>
    have before : i ≠ n → (i < n + 1 ↔ i < n) := by omega
    rw [List.range_succ, List.foldl_append, List.foldl_cons, List.foldl_nil]
    by_cases bit : bitfieldGet bf n = true
    · rw [if_pos bit, List.getElem?_modify, ih]
      cases availability[i]? with
      | none => rfl
      | some c =>
        by_cases last : i = n
        · subst last
          simp [bit]
        · have other : ¬ n = i := fun same => last same.symm
          simp [before last, other]
    · rw [if_neg bit, ih]
      cases availability[i]? with
      | none => rfl
      | some c =>
        by_cases last : i = n
        · subst last
          simp [bit]
        · simp [before last]

theorem sweep_length (update : Nat → Nat) (pieceCount : Nat) (bf : Bits) (availability : List Nat) :
    (sweep (fun a i => a.modify i update) pieceCount bf availability).length = availability.length := by
  rw [sweep]
  induction pieceCount with
  | zero => rfl
  | succ n ih =>
    rw [List.range_succ, List.foldl_append, List.foldl_cons, List.foldl_nil]
    split_ifs
    · rw [List.length_modify, ih]
    · exact ih

theorem copyPrefix_length (bf new : Bits) : (copyPrefix bf new).length = bf.length := by
  rw [copyPrefix, List.length_append, List.length_take, List.length_drop]
  omega

theorem holders_le_live (swarm : Swarm) (closed : ∀ conn ∈ swarm.connections, conn.live = false →
    conn.peerAvail = none) (i : Nat) : holders swarm i ≤ liveCount swarm := by
  apply List.countP_mono_left
  intro conn member counted
  by_contra dead
  rw [Bool.not_eq_true] at dead
  rw [Connection.counts, closed conn member dead] at counted
  cases counted

theorem idle_some (swarm : Swarm) (c : Nat) (conn : Connection) (there : swarm.idle c = some conn) :
    swarm.connections[c]? = some conn ∧ conn.live = true ∧ conn.settled = true := by
  rw [Swarm.idle, Option.filter_eq_some_iff, Bool.and_eq_true] at there
  exact ⟨there.1, there.2.1, there.2.2⟩

/-! ### One step -/

section
variable (swarm : Swarm) (exact_ : Exact swarm)
include exact_

/-- One connection changes, and the counts change by what it had and has. -/
theorem exact_move (c : Nat) (conn conn' : Connection) (there : swarm.connections[c]? = some conn)
    (availability : List Nat) (sized : availability.length = swarm.pieceCount)
    (moved : ∀ i, i < swarm.pieceCount → ∀ n m, swarm.availability[i]? = some n →
      m + (if conn.counts i then 1 else 0) = n + (if conn'.counts i then 1 else 0) → m ≤ u16Max →
        availability[i]? = some m)
    (alive : conn'.live = true → conn.live = true)
    (closed : conn'.live = false → conn'.peerAvail = none)
    (fitting : ∀ record, conn'.peerAvail = some record →
      record.bf.length = bitfieldSizeBytes swarm.pieceCount) :
    Exact { swarm.setConnection c conn' with availability := availability } := by
  have all_closed : ∀ other ∈ swarm.connections.set c conn', other.live = false →
      other.peerAvail = none :=
    forall_mem_set swarm.connections c conn' (fun other => other.live = false → other.peerAvail = none)
      exact_.closed closed
  have live := countP_set swarm.connections c conn conn' Connection.live there
  have few : liveCount { swarm.setConnection c conn' with availability := availability } ≤ u16Max := by
    have before := exact_.few
    rw [liveCount] at before ⊢
    change (swarm.connections.set c conn').countP Connection.live ≤ _
    by_cases now : conn'.live = true
    · rw [if_pos (alive now), if_pos now] at live
      omega
    · rw [if_neg now] at live
      omega
  constructor
  · intro i inside
    have shift := countP_set swarm.connections c conn conn' (Connection.counts i) there
    have bound := holders_le_live { swarm.setConnection c conn' with availability := availability }
      all_closed i
    exact moved i inside _ _ (exact_.exact_ i inside) shift (le_trans bound few)
  · exact sized
  · exact few
  · exact all_closed
  · exact forall_mem_set swarm.connections c conn'
      (fun other => ∀ record, other.peerAvail = some record →
        record.bf.length = bitfieldSizeBytes swarm.pieceCount) exact_.fitting fitting

/-- A connection changes nothing that is counted. -/
theorem exact_setConnection (c : Nat) (conn conn' : Connection)
    (there : swarm.connections[c]? = some conn) (same : conn'.peerAvail = conn.peerAvail)
    (alive : conn'.live = true → conn.live = true)
    (closed : conn'.live = false → conn'.peerAvail = none) : Exact (swarm.setConnection c conn') := by
  apply exact_move swarm exact_ c conn conn' there swarm.availability exact_.sized _ alive closed
  · intro record found
    rw [same] at found
    exact exact_.fitting conn (List.mem_of_getElem? there) record found
  · intro i inside n m before shift _
    have counts : conn'.counts i = conn.counts i := by
      rw [Connection.counts, Connection.counts, same]
    rw [counts] at shift
    rw [before, Nat.add_right_cancel shift]

omit exact_ in
theorem sub_moved (record : PeerAvailability) (counted : record.counted = true) (conn conn' : Connection)
    (own : conn.peerAvail = some record) (gone : ∀ i, conn'.counts i = false) (i : Nat)
    (inside : i < swarm.pieceCount) (n m : Nat) (before : swarm.availability[i]? = some n)
    (shift : m + (if conn.counts i then 1 else 0) = n + (if conn'.counts i then 1 else 0)) :
    (availSubBitfield swarm.pieceCount record.bf swarm.availability)[i]? = some m := by
  have swept := sweep_getElem? (fun c => c - 1) swarm.pieceCount record.bf swarm.availability i
  have has : conn.counts i = bitfieldGet record.bf i := by
    rw [Connection.counts, own]
    dsimp only
    rw [counted, Bool.true_and]
  rw [has, gone i] at shift
  change (sweep (fun a i => a.modify i fun c => c - 1) _ _ _)[i]? = _
  rw [swept, before, Option.map_some, Option.some.injEq]
  by_cases bit : bitfieldGet record.bf i = true
  · rw [if_pos ⟨inside, bit⟩]
    rw [if_pos bit, if_neg Bool.false_ne_true] at shift
    omega
  · rw [if_neg (fun both => bit both.2)]
    rw [if_neg bit, if_neg Bool.false_ne_true] at shift
    omega

omit exact_ in
theorem sub_length (bf : Bits) :
    (availSubBitfield swarm.pieceCount bf swarm.availability).length = swarm.availability.length :=
  sweep_length (fun c => c - 1) swarm.pieceCount bf swarm.availability

theorem exact_onBitfield (c : Nat) (conn conn' : Connection) (there : swarm.connections[c]? = some conn)
    (live : conn.live = true) (settled : conn'.settled = true)
    (alive : conn'.live = true)
    (same : conn'.peerAvail = conn.peerAvail ∨ conn.peerAvail = none ∧
      conn'.peerAvail = some ⟨emptyBitfield swarm.pieceCount, true⟩) :
    Exact (swarm.onBitfield c conn') := by
  rw [Swarm.onBitfield]
  cases own : conn'.peerAvail with
  | none =>
    have equal : conn'.peerAvail = conn.peerAvail := by
      rcases same with equal | ⟨_, fresh⟩
      · exact equal
      · rw [own] at fresh
        cases fresh
    exact exact_setConnection swarm exact_ c conn conn' there equal (fun _ => live)
      (fun dead => by rw [alive] at dead; cases dead)
  | some record =>
    have counted : record.counted = true := by
      rw [Connection.settled, own] at settled
      exact settled
    have fits : record.bf.length = bitfieldSizeBytes swarm.pieceCount := by
      rcases same with equal | ⟨_, fresh⟩
      · exact exact_.fitting conn (List.mem_of_getElem? there) record (equal.symm.trans own)
      · rw [own, Option.some.injEq] at fresh
        rw [fresh]
        exact emptyBitfield_length swarm.pieceCount
    dsimp only
    have uncounted : ∀ i, ({ conn' with
        peerAvail := some ⟨copyPrefix (List.replicate record.bf.length 0) conn'.peerBf, false⟩ } :
          Connection).counts i = false := fun i => rfl
    apply exact_move swarm exact_ c conn _ there
    · rw [sub_length, exact_.sized]
    · intro i inside n m before shift _
      rcases same with equal | ⟨absent, fresh⟩
      · exact sub_moved swarm record counted conn _ (equal.symm.trans own) uncounted i inside n m
          before shift
      · have none_ : conn.counts i = conn'.counts i := by
          rw [Connection.counts, Connection.counts, absent, fresh]
          dsimp only
          rw [bitfieldGet_emptyBitfield, Bool.and_false]
        rw [none_] at shift
        exact sub_moved swarm record counted conn' _ own uncounted i inside n m before shift
    · exact fun _ => live
    · intro dead
      rw [alive] at dead
      cases dead
    · intro other found
      cases found
      rw [copyPrefix_length, List.length_replicate]
      exact fits

theorem exact_addBitfield (c : Nat) (conn : Connection) (there : swarm.connections[c]? = some conn)
    (record : PeerAvailability) (own : conn.peerAvail = some record) (waiting : record.counted = false) :
    Exact { swarm.setConnection c { conn with peerAvail := some { record with counted := true } } with
      availability := availAddBitfield swarm.pieceCount record.bf swarm.availability } := by
  have member := List.mem_of_getElem? there
  have whole : availAddBitfield swarm.pieceCount record.bf swarm.availability =
      sweep availInc swarm.pieceCount record.bf swarm.availability := by
    rw [availAddBitfield, if_neg (by rw [exact_.sized]; exact Nat.lt_irrefl _)]
  rw [whole]
  apply exact_move swarm exact_ c conn _ there
  · exact (sweep_length (fun c => min (c + 1) u16Max) _ _ _).trans exact_.sized
  · intro i inside n m before shift bound
    have has : ({ conn with peerAvail := some { record with counted := true } } : Connection).counts i =
        bitfieldGet record.bf i := rfl
    have had : conn.counts i = false := by
      rw [Connection.counts, own]
      dsimp only
      rw [waiting, Bool.false_and]
    rw [has, had, if_neg Bool.false_ne_true] at shift
    change (sweep (fun a i => a.modify i fun c => min (c + 1) u16Max) _ _ _)[i]? = _
    rw [sweep_getElem?, before, Option.map_some, Option.some.injEq]
    by_cases bit : bitfieldGet record.bf i = true
    · rw [if_pos ⟨inside, bit⟩]
      rw [if_pos bit] at shift
      omega
    · rw [if_neg (fun both => bit both.2)]
      rw [if_neg bit] at shift
      omega
  · exact fun live => live
  · intro dead
    have closed := exact_.closed conn member dead
    rw [own] at closed
    cases closed
  · intro other found
    cases found
    exact exact_.fitting conn member record own

theorem exact_onHave (c : Nat) (conn : Connection) (there : swarm.connections[c]? = some conn)
    (live : conn.live = true) (settled : conn.settled = true) (index : Nat) :
    Exact (swarm.onHave c conn index) := by
  have member := List.mem_of_getElem? there
  rw [Swarm.onHave]
  by_cases known : index / 8 < conn.peerBf.length
  · rw [if_pos known]
    dsimp only
    cases own : conn.peerAvail with
    | none =>
      exact exact_setConnection swarm exact_ c conn _ there own.symm (fun _ => live) (fun _ => rfl)
    | some record =>
      have told : Exact (swarm.setConnection c { conn with peerBf := bitfieldSet conn.peerBf index }) :=
        exact_setConnection swarm exact_ c conn _ there rfl (fun _ => live)
          (exact_.closed conn member)
      have counted : record.counted = true := by
        rw [Connection.settled, own] at settled
        exact settled
      have fits := exact_.fitting conn member record own
      dsimp only
      by_cases skip : swarm.pieceCount ≤ index ∨ bitfieldGet record.bf index = true
      · rw [if_pos skip]
        rw [own] at told
        exact told
      · rw [if_neg skip]
        rw [not_or, Nat.not_le, Bool.not_eq_true] at skip
        have room : index / 8 < record.bf.length := by
          rw [fits]
          exact index_div_lt_size index swarm.pieceCount skip.1
        apply exact_move swarm exact_ c conn _ there
        · exact (List.length_modify _ _ _).trans exact_.sized
        · intro i inside n m before shift bound
          have has : (⟨bitfieldSet conn.peerBf index, some ⟨bitfieldSet record.bf index, record.counted⟩,
              conn.live⟩ : Connection).counts i = bitfieldGet (bitfieldSet record.bf index) i := by
            change (record.counted && _) = _
            rw [counted, Bool.true_and]
          have had : conn.counts i = bitfieldGet record.bf i := by
            rw [Connection.counts, own]
            dsimp only
            rw [counted, Bool.true_and]
          rw [has, had] at shift
          rw [availInc, List.getElem?_modify, before, Option.map_eq_map, Option.map_some,
            Option.some.injEq]
          by_cases same : index = i
          · subst same
            rw [bitfieldGet_bitfieldSet_self record.bf index room, skip.2, if_pos rfl,
              if_neg Bool.false_ne_true] at shift
            rw [if_pos rfl]
            omega
          · rw [bitfieldGet_bitfieldSet_other record.bf index i (fun equal => same equal.symm)] at shift
            rw [if_neg same]
            omega
        · exact fun _ => live
        · intro dead
          change conn.live = false at dead
          rw [live] at dead
          cases dead
        · intro other found
          cases found
          rw [bitfieldSet_length]
          exact fits
  · rw [if_neg known]
    exact exact_

theorem exact_disconnect (c : Nat) (conn : Connection) (there : swarm.connections[c]? = some conn)
    (record : PeerAvailability) (own : conn.peerAvail = some record) (settled : conn.settled = true) :
    Exact { swarm.setConnection c { conn with peerAvail := none, live := false } with
      availability := availSubBitfield swarm.pieceCount record.bf swarm.availability } := by
  have counted : record.counted = true := by
    rw [Connection.settled, own] at settled
    exact settled
  apply exact_move swarm exact_ c conn _ there
  · rw [sub_length, exact_.sized]
  · intro i inside n m before shift _
    exact sub_moved swarm record counted conn _ own (fun _ => rfl) i inside n m before shift
  · nofun
  · exact fun _ => rfl
  · nofun

theorem exact_connect (wantDownload : Bool) (room : liveCount swarm + 1 < 65536) :
    Exact { swarm with
      connections := swarm.connections ++ [{
        peerBf := emptyBitfield swarm.pieceCount
        peerAvail := if wantDownload then some ⟨emptyBitfield swarm.pieceCount, true⟩ else none
        live := true }] } := by
  constructor
  · intro i inside
    have blank : Connection.counts i ⟨emptyBitfield swarm.pieceCount,
        if wantDownload then some ⟨emptyBitfield swarm.pieceCount, true⟩ else none, true⟩ = false := by
      cases wantDownload with
      | false => rfl
      | true => exact bitfieldGet_emptyBitfield swarm.pieceCount i
    rw [holders]
    dsimp only
    rw [countP_append_singleton, blank, if_neg Bool.false_ne_true]
    exact exact_.exact_ i inside
  · exact exact_.sized
  · rw [liveCount]
    dsimp only
    rw [countP_append_singleton, if_pos rfl, u16Max]
    rw [liveCount] at room
    omega
  · exact forall_mem_append swarm.connections _ (fun conn => conn.live = false → conn.peerAvail = none)
      exact_.closed nofun
  · apply forall_mem_append swarm.connections _ (fun conn => ∀ record, conn.peerAvail = some record →
      record.bf.length = bitfieldSizeBytes swarm.pieceCount) exact_.fitting
    intro record found
    cases wantDownload with
    | false => cases found
    | true =>
      cases found
      exact emptyBitfield_length swarm.pieceCount

theorem step_exact (event : Event) (few : Few swarm event) (after : Swarm)
    (taken : step swarm event = some after) : Exact after := by
  cases event with
  | connect wantDownload =>
    cases taken
    exact exact_connect swarm exact_ wantDownload few
  | message c message =>
    obtain ⟨conn, there, same⟩ := Option.map_eq_some_iff.1 taken
    obtain ⟨found, live, settled⟩ := idle_some swarm c conn there
    rw [← same]
    have possession : ∀ bf, Exact (swarm.onBitfield c { conn with peerBf := bf }) := fun bf =>
      exact_onBitfield swarm exact_ c conn _ found live settled live (Or.inl rfl)
    split
    · exact exact_onHave swarm exact_ c conn found live settled _
    · exact possession _
    · exact possession _
    · exact possession _
    · exact exact_
  | addBitfield c =>
    obtain ⟨conn, found, later⟩ := Option.bind_eq_some_iff.1 taken
    obtain ⟨record, own, added⟩ := Option.bind_eq_some_iff.1 later
    split_ifs at added with counted
    cases added
    rw [Bool.not_eq_true] at counted
    exact exact_addBitfield swarm exact_ c conn found record own counted
  | download c =>
    obtain ⟨conn, there, same⟩ := Option.map_eq_some_iff.1 taken
    obtain ⟨found, live, settled⟩ := idle_some swarm c conn there
    rw [← same]
    split
    · exact exact_
    · rename_i absent
      exact exact_onBitfield swarm exact_ c conn _ found live rfl live (Or.inr ⟨absent, rfl⟩)
  | disconnect c =>
    obtain ⟨conn, there, same⟩ := Option.map_eq_some_iff.1 taken
    obtain ⟨found, live, settled⟩ := idle_some swarm c conn there
    rw [← same]
    split
    · rename_i absent
      exact exact_setConnection swarm exact_ c conn _ found rfl nofun (fun _ => absent)
    · rename_i record own
      exact exact_disconnect swarm exact_ c conn found record own settled

end

theorem start_exact (pieceCount : Nat) : Exact (start pieceCount) where
  exact_ := fun _ inside => List.getElem?_replicate_of_lt inside
  sized := List.length_replicate
  few := Nat.zero_le _
  closed := nofun
  fitting := nofun

theorem onBitfield_pieceCount (swarm : Swarm) (c : Nat) (conn : Connection) :
    (swarm.onBitfield c conn).pieceCount = swarm.pieceCount := by
  rw [Swarm.onBitfield]
  split <;> rfl

theorem onHave_pieceCount (swarm : Swarm) (c : Nat) (conn : Connection) (index : Nat) :
    (swarm.onHave c conn index).pieceCount = swarm.pieceCount := by
  rw [Swarm.onHave]
  dsimp only
  split_ifs
  · split
    · rfl
    · split_ifs <;> rfl
  · rfl

theorem step_pieceCount (swarm after : Swarm) (event : Event) (taken : step swarm event = some after) :
    after.pieceCount = swarm.pieceCount := by
  cases event with
  | connect wantDownload =>
    cases taken
    rfl
  | message c message =>
    obtain ⟨conn, _, same⟩ := Option.map_eq_some_iff.1 taken
    rw [← same]
    split
    · exact onHave_pieceCount swarm c conn _
    · exact onBitfield_pieceCount swarm c _
    · exact onBitfield_pieceCount swarm c _
    · exact onBitfield_pieceCount swarm c _
    · rfl
  | addBitfield c =>
    obtain ⟨conn, _, later⟩ := Option.bind_eq_some_iff.1 taken
    obtain ⟨record, _, added⟩ := Option.bind_eq_some_iff.1 later
    split_ifs at added
    cases added
    rfl
  | download c =>
    obtain ⟨conn, _, same⟩ := Option.map_eq_some_iff.1 taken
    rw [← same]
    split
    · rfl
    · exact onBitfield_pieceCount swarm c _
  | disconnect c =>
    obtain ⟨conn, _, same⟩ := Option.map_eq_some_iff.1 taken
    rw [← same]
    split <;> rfl

/-! ### Repeated messages -/

/-- What a possession message makes of the bitfield of a peer. -/
def possessed (pieceCount : Nat) (peerBf : Bits) : Message → Option Bits
  | .haveAll => some (applyHaveAllNone peerBf pieceCount true)
  | .haveNone => some (applyHaveAllNone peerBf pieceCount false)
  | .bitfield bits => some (copyPrefix peerBf bits)
  | _ => none

theorem applyHaveAllNone_again (peerBf : Bits) (pieceCount : Nat) (all : Bool) :
    applyHaveAllNone (applyHaveAllNone peerBf pieceCount all) pieceCount all =
      applyHaveAllNone peerBf pieceCount all := by
  have sized : (applyHaveAllNone peerBf pieceCount all).length = peerBf.length := by
    simp only [applyHaveAllNone]
    split_ifs
    · rw [List.length_modify, List.length_replicate]
    · rw [List.length_replicate]
    · rw [List.length_replicate]
  simp only [applyHaveAllNone] at sized ⊢
  rw [sized]

theorem copyPrefix_again (bf new : Bits) :
    copyPrefix (copyPrefix bf new) new = copyPrefix bf new := by
  have sized := copyPrefix_length bf new
  rw [copyPrefix, sized, copyPrefix]
  congr 1
  by_cases short : new.length ≤ bf.length
  · have front : (new.take bf.length).length = new.length := by
      rw [List.length_take, Nat.min_eq_right short]
    rw [← front, List.drop_left]
  · rw [List.drop_eq_nil_of_le, List.drop_eq_nil_of_le (by omega)]
    rw [List.length_append, List.length_take, List.length_drop]
    omega

theorem possessed_again (pieceCount : Nat) (peerBf told : Bits) (message : Message)
    (first : possessed pieceCount peerBf message = some told) :
    possessed pieceCount told message = some told := by
  cases message <;> cases first
  · exact congrArg some (copyPrefix_again peerBf _)
  · exact congrArg some (applyHaveAllNone_again peerBf pieceCount true)
  · exact congrArg some (applyHaveAllNone_again peerBf pieceCount false)

/-- A possession message that was handled to its end. -/
theorem possession_handled (swarm after : Swarm) (c : Nat) (message : Message)
    (possession : ∀ peerBf, (possessed swarm.pieceCount peerBf message).isSome = true)
    (ran : exec step swarm [.message c message, .addBitfield c] = some after) :
    ∃ conn record told, swarm.connections[c]? = some conn ∧ conn.peerAvail = some record ∧
      possessed swarm.pieceCount conn.peerBf message = some told ∧
      after.connections = swarm.connections.set c
        ⟨told, some ⟨copyPrefix (List.replicate record.bf.length 0) told, true⟩, conn.live⟩ := by
  obtain ⟨middle, first, rest⟩ := (exec_cons step _ _ _ _).1 ran
  obtain ⟨last, second, done⟩ := (exec_cons step _ _ _ _).1 rest
  cases done
  obtain ⟨conn, there, same⟩ := Option.map_eq_some_iff.1 first
  obtain ⟨found, live, settled⟩ := idle_some swarm c conn there
  obtain ⟨told, becomes⟩ := Option.isSome_iff_exists.1 (possession conn.peerBf)
  have inside : c < swarm.connections.length := (List.getElem?_eq_some_iff.1 found).1
  have handled : middle = swarm.onBitfield c { conn with peerBf := told } := by
    rw [← same]
    cases message <;> cases becomes <;> rfl
  obtain ⟨conn', found', later⟩ := Option.bind_eq_some_iff.1 second
  obtain ⟨record', own', added⟩ := Option.bind_eq_some_iff.1 later
  split_ifs at added with counted
  cases added
  rw [handled, Swarm.onBitfield] at found'
  cases own : conn.peerAvail with
  | none =>
    dsimp only at found'
    rw [own] at found'
    rw [Swarm.setConnection, List.getElem?_set_self inside, Option.some.injEq] at found'
    rw [← found'] at own'
    cases own'
  | some record =>
    rw [own] at found'
    dsimp only [Swarm.setConnection] at found'
    rw [List.getElem?_set_self inside, Option.some.injEq] at found'
    subst found'
    cases own'
    refine ⟨conn, record, told, found, own, becomes, ?_⟩
    rw [handled, Swarm.onBitfield]
    dsimp only
    rw [own]
    dsimp only [Swarm.setConnection]
    rw [List.set_set]

/-- Exact counts are determined by the connections. -/
theorem exact_unique (first second : Swarm) (one : Exact first) (other : Exact second)
    (pieces : second.pieceCount = first.pieceCount) (same : second.connections = first.connections) :
    second.availability = first.availability := by
  ext1 i
  by_cases inside : i < first.pieceCount
  · rw [one.exact_ i inside, other.exact_ i (by omega), holders, holders, same]
  · rw [List.getElem?_eq_none (by rw [other.sized]; omega),
      List.getElem?_eq_none (by rw [one.sized]; omega)]

/-- A second HAVE of a piece finds the bit set. -/
theorem onHave_again (swarm : Swarm) (c : Nat) (conn : Connection)
    (found : swarm.connections[c]? = some conn) (index : Nat)
    (fitting : ∀ record, conn.peerAvail = some record →
      record.bf.length = bitfieldSizeBytes swarm.pieceCount) :
    ∀ again, (swarm.onHave c conn index).connections[c]? = some again →
      ((swarm.onHave c conn index).onHave c again index).availability =
        (swarm.onHave c conn index).availability := by
  have inside : c < swarm.connections.length := (List.getElem?_eq_some_iff.1 found).1
  have told : ∀ (other : Swarm) (next : Connection), (∀ record, next.peerAvail = some record →
      other.pieceCount ≤ index ∨ bitfieldGet record.bf index = true) →
        (other.onHave c next index).availability = other.availability := by
    intro other next skips
    rw [Swarm.onHave]
    dsimp only
    split_ifs
    · cases own : next.peerAvail with
      | none => rfl
      | some record =>
        dsimp only
        rw [if_pos (skips record own)]
        rfl
    · rfl
  intro again there
  by_cases known : index / 8 < conn.peerBf.length
  · apply told
    intro record own
    rw [onHave_pieceCount]
    rw [Swarm.onHave, if_pos known] at there
    dsimp only at there
    cases had : conn.peerAvail with
    | none =>
      rw [had] at there
      dsimp only [Swarm.setConnection] at there
      rw [List.getElem?_set_self inside, Option.some.injEq] at there
      rw [← there] at own
      cases own
    | some before =>
      rw [had] at there
      dsimp only at there
      by_cases skip : swarm.pieceCount ≤ index ∨ bitfieldGet before.bf index = true
      · rw [if_pos skip] at there
        dsimp only [Swarm.setConnection] at there
        rw [List.getElem?_set_self inside, Option.some.injEq] at there
        rw [← there] at own
        cases own
        exact skip
      · rw [if_neg skip] at there
        dsimp only [Swarm.setConnection] at there
        rw [List.getElem?_set_self inside, Option.some.injEq] at there
        rw [← there] at own
        cases own
        rw [not_or, Nat.not_le] at skip
        have room : index / 8 < before.bf.length := by
          rw [fitting before had]
          exact index_div_lt_size index swarm.pieceCount skip.1
        exact Or.inr (bitfieldGet_bitfieldSet_self before.bf index room)
  · have same : swarm.onHave c conn index = swarm := by rw [Swarm.onHave, if_neg known]
    rw [same, found, Option.some.injEq] at there
    subst there
    rw [same, same]

/-- The record of a connection has a piece. -/
def hasBit (i : Nat) (conn : Connection) : Bool :=
  match conn.peerAvail with
  | some record => bitfieldGet record.bf i
  | none => false

theorem run_exact (pieceCount : Nat) (events : List Event) (swarm : Swarm)
    (few : Guarded step Few (start pieceCount) events)
    (ran : exec step (start pieceCount) events = some swarm) :
    Exact swarm ∧ swarm.pieceCount = pieceCount := by
  apply exec_invariant step Few (fun swarm => Exact swarm ∧ swarm.pieceCount = pieceCount) _
    (start pieceCount) swarm events ⟨start_exact pieceCount, rfl⟩ few ran
  intro swarm event after both allowed taken
  exact ⟨step_exact swarm both.1 event allowed after taken,
    (step_pieceCount swarm after event taken).trans both.2⟩

theorem message_exact (swarm after : Swarm) (exact_ : Exact swarm) (c : Nat) (message : Message)
    (ran : exec step swarm [.message c message, .addBitfield c] = some after) :
    Exact after ∧ after.pieceCount = swarm.pieceCount := by
  apply exec_invariant step (fun _ event => event = .message c message ∨ event = .addBitfield c)
    (fun later => Exact later ∧ later.pieceCount = swarm.pieceCount) _ swarm after _ ⟨exact_, rfl⟩ _ ran
  · intro later event next both allowed taken
    have few : Few later event := by
      rcases allowed with same | same <;> rw [same] <;> trivial
    exact ⟨step_exact later both.1 event few next taken,
      (step_pieceCount later next event taken).trans both.2⟩
  · exact ⟨Or.inl rfl, fun _ _ => ⟨Or.inr rfl, fun _ _ => trivial⟩⟩

/-- A repeated possession message leaves the connections as they are. -/
theorem possession_again (swarm once twice : Swarm) (c : Nat) (message : Message)
    (pieces : once.pieceCount = swarm.pieceCount)
    (possession : ∀ peerBf, (possessed swarm.pieceCount peerBf message).isSome = true)
    (first : exec step swarm [.message c message, .addBitfield c] = some once)
    (second : exec step once [.message c message, .addBitfield c] = some twice) :
    twice.connections = once.connections := by
  obtain ⟨conn, record, told, found, own, becomes, once_⟩ :=
    possession_handled swarm once c message possession first
  obtain ⟨conn', record', told', found', own', becomes', twice_⟩ :=
    possession_handled once twice c message (by rw [pieces]; exact possession) second
  have inside : c < swarm.connections.length := (List.getElem?_eq_some_iff.1 found).1
  rw [once_, List.getElem?_set_self inside, Option.some.injEq] at found'
  subst found'
  cases own'
  rw [pieces, possessed_again swarm.pieceCount conn.peerBf told message becomes,
    Option.some.injEq] at becomes'
  subst becomes'
  rw [twice_, once_, List.set_set, copyPrefix_length, List.length_replicate]

/-- In every run with fewer than 65536 connections at once the availability of each piece is the
number of records that have it, no message counts twice, and when all connections are closed every
count is zero. A record whose bitfield is being replaced is in none of the counts. -/
theorem availability_exact (pieceCount : Nat) (events : List Event) (swarm : Swarm)
    (few : Guarded step Few (start pieceCount) events)
    (ran : exec step (start pieceCount) events = some swarm) :
    (∀ i, i < pieceCount → swarm.availability[i]? = some (holders swarm i)) ∧
      ((∀ conn ∈ swarm.connections, conn.settled = true) →
        ∀ i, i < pieceCount → swarm.availability[i]? = some (swarm.connections.countP (hasBit i))) ∧
      (∀ c index once twice, step swarm (.message c (.have_ index)) = some once →
        step once (.message c (.have_ index)) = some twice → twice.availability = once.availability) ∧
      (∀ c message once twice,
        (∀ peerBf, (possessed pieceCount peerBf message).isSome = true) →
        exec step swarm [.message c message, .addBitfield c] = some once →
        exec step once [.message c message, .addBitfield c] = some twice →
          twice.availability = once.availability) ∧
      ((∀ conn ∈ swarm.connections, conn.live = false) →
        ∀ i, i < pieceCount → swarm.availability[i]? = some 0) := by
  obtain ⟨exact_, pieces⟩ := run_exact pieceCount events swarm few ran
  have counted : ∀ i, i < pieceCount → swarm.availability[i]? = some (holders swarm i) := by
    intro i inside
    exact exact_.exact_ i (by omega)
  refine ⟨counted, ?_, ?_, ?_, ?_⟩
  · intro settled i inside
    rw [counted i inside, holders, Option.some.injEq]
    apply List.countP_congr
    intro conn member
    have calm := settled conn member
    rw [Connection.settled] at calm
    rw [Connection.counts, hasBit]
    cases own : conn.peerAvail with
    | none => exact Iff.rfl
    | some record =>
      rw [own] at calm
      dsimp only at calm ⊢
      rw [calm, Bool.true_and]
  · intro c index once twice first second
    obtain ⟨conn, there, same⟩ := Option.map_eq_some_iff.1 first
    obtain ⟨conn', there', same'⟩ := Option.map_eq_some_iff.1 second
    have found := (idle_some swarm c conn there).1
    have again := (idle_some once c conn' there').1
    dsimp only at same same'
    subst same
    rw [← same']
    exact onHave_again swarm c conn found index
      (exact_.fitting conn (List.mem_of_getElem? found)) conn' again
  · intro c message once twice possession first second
    obtain ⟨one, one_pieces⟩ := message_exact swarm once exact_ c message first
    obtain ⟨two, two_pieces⟩ := message_exact once twice one c message second
    apply exact_unique once twice one two two_pieces
    rw [← pieces] at possession
    exact possession_again swarm once twice c message one_pieces possession first second
  · intro closed i inside
    have none_ : holders swarm i = 0 := by
      rw [holders, List.countP_eq_zero]
      intro conn member
      rw [Connection.counts, exact_.closed conn member (closed conn member)]
      exact Bool.false_ne_true
    rw [counted i inside, none_]

/-- Two connections of a torrent of ten pieces; one sends its bitfield twice and leaves. -/
def bitfieldTwice : List Event :=
  [.connect true, .connect false, .message 0 (.bitfield [0x80, 0x40]), .addBitfield 0,
    .message 1 (.have_ 9), .download 1, .addBitfield 1, .message 0 (.bitfield [0x80, 0x40]),
    .addBitfield 0, .message 0 .haveNone, .addBitfield 0, .disconnect 0, .disconnect 1]

theorem availability_exact_bitfieldTwice :
    ∃ swarm, exec step (start 10) bitfieldTwice = some swarm ∧
      ∀ i, i < 10 → swarm.availability[i]? = some 0 := by
  obtain ⟨swarm, ran, closed⟩ : ∃ swarm, exec step (start 10) bitfieldTwice = some swarm ∧
      ∀ conn ∈ swarm.connections, conn.live = false := ⟨_, rfl, by decide⟩
  have few : Guarded step Few (start 10) bitfieldTwice := by
    have checked := guarded_of_guardedB step (fun swarm event => decide (Few swarm event)) (start 10)
      bitfieldTwice (by decide)
    exact guarded_mono step _ _ (fun _ _ allowed => of_decide_eq_true allowed) _ _ checked
  exact ⟨swarm, ran, (availability_exact 10 bitfieldTwice swarm few ran).2.2.2.2 closed⟩

end Seedchamp.Hot.Availability
