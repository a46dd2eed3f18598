import Seedchamp.Hot.Quiescence
import Seedchamp.Wire.Messages

/-!
One connection joins a torrent while `mark_have` calls run: it subscribes to the HAVE channel, then
takes a snapshot of possession, then sends it, and from then on forwards what the channel holds. A
piece reaches the peer through the snapshot or through the channel, in every interleaving.
-/

namespace Seedchamp.Hot.Announcement
open Catalog.Bitfield Foundation.Tally Foundation.TransitionSystem Hot.Torrent
open Hot.Torrent.HotTorrent Hot.Possession
open Hot.Interleaving hiding State Event step start
open Wire.Messages

def bitfieldSnapshot (t : HotTorrent) : Bits :=
  if t.pieces.complete then allSetBitfield t.pieceCount else t.pieces.bitfield

/-- First possession message after the handshake when Fast is mutual. -/
def encodePossessionFast (haveCount pieceCount : Nat) (bitfield : Bits) : Message :=
  if 0 < pieceCount ∧ pieceCount ≤ haveCount then .haveAll
  else if haveCount = 0 then .haveNone
  else .bitfield bitfield

/-- Whether a message tells the peer that we have a piece. -/
def announces (pieceCount : Nat) (i : Nat) : Message → Bool
  | .have_ index => index == i
  | .bitfield bits => bitfieldGet bits i
  | .haveAll => i < pieceCount
  | _ => false

/-- The session of one peer. `position` finds its receiver among the subscribers, `snapshot` is a
bitfield read and not yet sent, and `wire` is what was sent so far. -/
structure Connection where
  fast : Bool
  position : Option Nat
  snapshot : Option Bits
  greeted : Bool
  wire : List Message
  deriving DecidableEq, Repr

structure State where
  hot : Interleaving.State
  conn : Connection

def start (t : HotTorrent) (fast : Bool) : State := ⟨Interleaving.start t, ⟨fast, none, none, false, []⟩⟩

/-- The leech loop sends its possession once more when it loses interest, hence `snapshot` and
`announce` may come again after the setup. The last three are other sessions of the torrent. -/
inductive Event where
  | hot (event : Interleaving.Event)
  | subscribe
  | snapshot
  | announce
  | deliver
  | otherSubscribes
  | otherReceives (position : Nat)
  | otherLeaves (position : Nat)
  deriving DecidableEq, Repr

namespace Connection

/-- The possession message, from the snapshot and the count as it is now. -/
def possession (conn : Connection) (t : HotTorrent) (bf : Bits) : Message :=
  if conn.fast then encodePossessionFast t.haveCountAtomic t.pieceCount bf else .bitfield bf

def announced (conn : Connection) (pieceCount : Nat) (i : Nat) : Bool :=
  conn.wire.any (announces pieceCount i)

def pending (conn : Connection) (hub : HaveHub) : List Nat :=
  match conn.position with
  | some position => (hub[position]?).elim [] HaveSub.queue
  | none => []

/-- A publish forgets the receivers that are gone, so the later ones move down. -/
def moveDown (conn : Connection) (hub : HaveHub) : Connection :=
  { conn with
    position := conn.position.map fun position => (hub.take position).countP HaveSub.connected }

def follow (conn : Connection) (s : Interleaving.State) : Interleaving.Event → Connection
  | .advance tid =>
    match s.threads[tid]? with
    | some (.publish _ _) => conn.moveDown s.torrent.haveHub
    | _ => conn
  | .call _ => conn

end Connection

def State.rehub (s : State) (hub : HaveHub) : State :=
  ⟨{ s.hot with torrent := { s.hot.torrent with haveHub := hub } }, s.conn⟩

/-- Another session changes its own receiver. -/
def State.touchOther (s : State) (position : Nat) (change : HaveSub → HaveSub) : Option State :=
  if s.conn.position = some position then none
  else some (s.rehub (s.hot.torrent.haveHub.modify position change))

/-- `Message::Have` of the next index of the channel. -/
def State.forward (s : State) (position : Nat) : Option State :=
  match s.hot.torrent.haveHub[position]? with
  | some ⟨_, index :: _⟩ =>
    let read := s.rehub (s.hot.torrent.haveHub.modify position
      (fun sub => { sub with queue := sub.queue.tail }))
    some { read with conn := { s.conn with wire := s.conn.wire ++ [.have_ index] } }
  | _ => none

def step (s : State) : Event → Option State
  | .hot event => (Interleaving.step s.hot event).map (fun hot => ⟨hot, s.conn.follow s.hot event⟩)
  | .subscribe =>
    if s.conn.position.isSome then none
    else
      some { s.rehub s.hot.torrent.haveHub.subscribe with
        conn := { s.conn with position := some s.hot.torrent.haveHub.length } }
  | .snapshot =>
    if s.conn.position.isNone || s.conn.snapshot.isSome || s.hot.writer.isSome then none
    else some { s with conn := { s.conn with snapshot := some (bitfieldSnapshot s.hot.torrent) } }
  | .announce =>
    s.conn.snapshot.map fun bf =>
      { s with conn := { s.conn with
          snapshot := none
          greeted := true
          wire := s.conn.wire ++ [s.conn.possession s.hot.torrent bf] } }
  | .deliver => if s.conn.greeted then s.conn.position.bind s.forward else none
  | .otherSubscribes => some (s.rehub s.hot.torrent.haveHub.subscribe)
  | .otherReceives position =>
    s.touchOther position (fun sub => { sub with queue := sub.queue.tail })
  | .otherLeaves position => s.touchOther position (fun sub => { sub with connected := false })

/-! ### What one operation of a call does to possession -/

/-- The fields of a torrent that possession and its announcement use. -/
structure Books where
  pieceCount : Nat
  pieces : PieceState
  count : Nat
  hub : HaveHub

def books (t : HotTorrent) : Books := ⟨t.pieceCount, t.pieces, t.haveCountAtomic, t.haveHub⟩

/-- What a thread still owes: the mirrored count, the announcement, or only the announcement. -/
inductive Role where
  | idle
  | counting (index : Nat)
  | holding (index : Nat)
  | settling (index : Nat)
  | announcing (index : Nat)
  deriving DecidableEq, Repr

def roleOf : Thread → Role
  | .storeCount index _ => .counting index
  | .addPayload index _ | .takeMissing index _ | .testFully index | .zeroMissing index
  | .storeFullPayload index | .unlockPieces index _ => .holding index
  | .storeFullCount index => .settling index
  | .publish index _ => .announcing index
  | _ => .idle

/-- The index that will be published. -/
def Role.owes : Role → Option Nat
  | .idle => none
  | .counting index | .holding index | .settling index | .announcing index => some index

def Role.locks : Role → Bool
  | .counting _ | .holding _ | .settling _ => true
  | _ => false

def roles (threads : List Thread) (k : Nat) : Role :=
  match threads[k]? with
  | some thread => roleOf thread
  | none => .idle

/-- One operation of thread `tid`: its role before, and the books, the lock and its role after. -/
inductive Effect (b : Books) (writer : Option Nat) (tid : Nat) :
    Role → Books → Option Nat → Role → Prop where
  | quiet (role : Role) (silent : ∀ index, role ≠ .announcing index) :
      Effect b writer tid role b writer role
  | record (index : Nat) (below : index < b.pieceCount) (free : writer = none)
      (unfinished : b.pieces.complete = false)
      (fresh : bitfieldGet b.pieces.bitfield index = false) :
      Effect b writer tid .idle
        { b with
          pieces := ⟨bitfieldSet b.pieces.bitfield index, b.pieces.complete, b.pieces.haveCount + 1⟩ }
        (some tid) (.counting index)
  | count (index : Nat) :
      Effect b writer tid (.counting index) { b with count := b.pieces.haveCount } writer
        (.holding index)
  | settle (index : Nat) (fully : b.pieceCount ≤ b.pieces.haveCount) :
      Effect b writer tid (.holding index)
        { b with pieces := ⟨allSetBitfield b.pieceCount, true, b.pieceCount⟩ } writer
        (.settling index)
  | countAll (index : Nat) :
      Effect b writer tid (.settling index) { b with count := b.pieceCount } writer (.holding index)
  | unlock (index : Nat) : Effect b writer tid (.holding index) b none (.announcing index)
  | publish (index : Nat) :
      Effect b writer tid (.announcing index) { b with hub := b.hub.publish index } writer .idle

theorem books_dropPieceHashes (t : HotTorrent) : books t.dropPieceHashesIfComplete = books t := by
  unfold dropPieceHashesIfComplete
  split_ifs <;> rfl

theorem books_fillStagingPool (t : HotTorrent) : books t.fillStagingPool = books t := by
  unfold fillStagingPool
  split_ifs <;> rfl

theorem books_writePriority (t : HotTorrent) (fileIdx : Nat) (priority : Int) :
    books (t.writePriority fileIdx priority) = books t := by
  unfold HotTorrent.writePriority
  split_ifs <;> rfl

/-- Each operation of a call is one of the effects. -/
theorem advance_effect (s s' : Interleaving.State) (tid : Nat) (thread : Thread)
    (bounded : Quiescence.Bounded s.torrent.pieceCount thread)
    (taken : advance s tid thread = some s') :
    ∃ next, s'.threads = s.threads.set tid next ∧
      Effect (books s.torrent) s.writer tid (roleOf thread) (books s'.torrent) s'.writer
        (roleOf next) := by
  cases thread <;> simp only [advance] at taken
  case lockPieces index wanted =>
    split_ifs at taken with busy known <;> cases taken
    · exact ⟨.returned, rfl, .quiet .idle (by simp)⟩
    · have parts := Bool.or_eq_false_iff.1 (Bool.eq_false_of_not_eq_true known)
      exact ⟨.storeCount index wanted, rfl, .record index bounded (by simpa using busy) parts.1 parts.2⟩
  case storeCount index wanted =>
    cases taken
    exact ⟨_, rfl, .count index⟩
  case testFully index =>
    split_ifs at taken with fully <;> cases taken
    · simp only [fullyHad, decide_eq_true_eq] at fully
      exact ⟨.storeFullCount index, rfl, .settle index fully.1⟩
    · exact ⟨.unlockPieces index false, rfl, .quiet (.holding index) (by simp)⟩
  case storeFullCount index =>
    cases taken
    exact ⟨_, rfl, .countAll index⟩
  case unlockPieces index fully =>
    cases taken
    exact ⟨_, rfl, .unlock index⟩
  case publish index fully =>
    cases taken
    refine ⟨_, rfl, ?_⟩
    cases fully <;> exact .publish index
  case dropHashes =>
    split_ifs at taken
    cases taken
    refine ⟨.testDone, rfl, ?_⟩
    rw [State.update, books_dropPieceHashes]
    exact .quiet .idle (by simp)
  case writePriority fileIdx priority =>
    cases taken
    refine ⟨.readPriority true, rfl, ?_⟩
    rw [State.update, books_writePriority]
    exact .quiet .idle (by simp)
  case fillPool =>
    cases taken
    refine ⟨.returned, rfl, ?_⟩
    rw [State.update, books_fillStagingPool]
    exact .quiet .idle (by simp)
  case snapshotPieces reprio wanted =>
    split_ifs at taken
    cases taken
    exact ⟨.writeWanted reprio wanted _, rfl, .quiet .idle (by simp)⟩
  case testDone =>
    cases taken
    refine ⟨_, rfl, ?_⟩
    split_ifs <;> exact .quiet .idle (by simp)
  case storeMissing reprio missing =>
    cases taken
    refine ⟨_, rfl, ?_⟩
    cases reprio <;> exact .quiet .idle (by simp)
  case testPool =>
    cases taken
    refine ⟨_, rfl, ?_⟩
    split_ifs <;> exact .quiet .idle (by simp)
  case testEnsure =>
    cases taken
    refine ⟨_, rfl, ?_⟩
    split_ifs <;> exact .quiet .idle (by simp)
  case returned => cases taken
  all_goals
    cases taken
    exact ⟨_, rfl, .quiet _ (by simp [roleOf])⟩

theorem roles_set (threads : List Thread) (tid : Nat) (next : Thread) (below : tid < threads.length) :
    roles (threads.set tid next) = Function.update (roles threads) tid (roleOf next) := by
  funext k
  unfold roles
  rw [List.getElem?_set, Function.update_apply]
  by_cases same : tid = k
  · rw [if_pos same, if_pos below, if_pos same.symm]
  · rw [if_neg same, if_neg (fun equal => same equal.symm)]

theorem roles_append (threads : List Thread) (next : Thread) (idle : roleOf next = .idle) :
    roles (threads ++ [next]) = roles threads := by
  funext k
  unfold roles
  rw [List.getElem?_append]
  split_ifs with inside
  · rfl
  · rw [List.getElem?_eq_none (Nat.le_of_not_lt inside)]
    rcases Nat.eq_zero_or_pos (k - threads.length) with first | later
    · rw [first]
      exact idle
    · rw [List.getElem?_eq_none (by simp only [List.length_singleton]; omega)]

/-- The possession books and who holds the lock. The mirrored count lags by one exactly while the
holder has not stored it. -/
structure Kept (b : Books) (writer : Option Nat) (role : Nat → Role) : Prop where
  sized : b.pieces.bitfield.length = bitfieldSizeBytes b.pieceCount
  counted : b.pieces.haveCount = countHaveBits b.pieces.bitfield b.pieceCount
  full : b.pieces.complete = true → ∀ i, i < b.pieceCount → bitfieldGet b.pieces.bitfield i = true
  holder : ∀ k, (role k).locks = true → writer = some k
  settling : ∀ k index, role k = .settling index → b.pieces.complete = true
  mirrored : (∀ k index, role k ≠ .counting index) → b.count = b.pieces.haveCount
  behind : ∀ k index, role k = .counting index → b.count + 1 = b.pieces.haveCount
  owed : ∀ k index, (role k).owes = some index →
    index < b.pieceCount ∧ bitfieldGet b.pieces.bitfield index = true

/-- A full bitfield counts every piece. -/
theorem Kept.countAll {b : Books} {writer : Option Nat} {role : Nat → Role}
    (kept : Kept b writer role) (complete : b.pieces.complete = true) :
    b.pieces.haveCount = b.pieceCount := by
  rw [kept.counted]
  exact (tally_eq_bound_iff _ _).2 (kept.full complete)

theorem Kept.haveCount_le {b : Books} {writer : Option Nat} {role : Nat → Role}
    (kept : Kept b writer role) : b.pieces.haveCount ≤ b.pieceCount := by
  rw [kept.counted]
  exact tally_le _ _

theorem Kept.bits_of_count {b : Books} {writer : Option Nat} {role : Nat → Role}
    (kept : Kept b writer role) (all : b.pieceCount ≤ b.pieces.haveCount) (i : Nat)
    (below : i < b.pieceCount) : bitfieldGet b.pieces.bitfield i = true := by
  have counted : b.pieceCount = countHaveBits b.pieces.bitfield b.pieceCount :=
    (le_antisymm all kept.haveCount_le).trans kept.counted
  exact (tally_eq_bound_iff _ _).1 counted.symm i below

theorem Kept.count_le {b : Books} {writer : Option Nat} {role : Nat → Role}
    (kept : Kept b writer role) : b.count ≤ b.pieces.haveCount := by
  by_cases counting : ∃ k index, role k = .counting index
  · obtain ⟨k, index, at'⟩ := counting
    have lag := kept.behind k index at'
    omega
  · rw [kept.mirrored (fun k index at' => counting ⟨k, index, at'⟩)]

theorem kept_effect (b b' : Books) (writer writer' : Option Nat) (tid : Nat) (role : Nat → Role)
    (next : Role) (effect : Effect b writer tid (role tid) b' writer' next)
    (kept : Kept b writer role) : Kept b' writer' (Function.update role tid next) := by
  have all := kept.countAll
  have most := kept.haveCount_le
  obtain ⟨sized, counted, full, holder, settling, mirrored, behind, owed⟩ := kept
  have at' := fun k => Function.update_apply role tid next k
  generalize was : role tid = old at effect
  cases effect with
  | quiet _ silent =>
    rw [← was, Function.update_eq_self]
    exact ⟨sized, counted, full, holder, settling, mirrored, behind, owed⟩
  | record index below free unfinished fresh =>
    have inside : index / 8 < b.pieces.bitfield.length := by
      rw [sized]
      exact index_div_lt_size index _ below
    have more := countHaveBits_bitfieldSet b.pieces.bitfield b.pieceCount index below inside fresh
    have now := bitfieldGet_bitfieldSet_self b.pieces.bitfield index inside
    have frame := bitfieldGet_bitfieldSet_other b.pieces.bitfield index
    refine ⟨(bitfieldSet_length _ _).trans sized, (congrArg (· + 1) counted).trans more.symm,
      fun done => absurd done (by simp [unfinished]), ?_, ?_, ?_, ?_, ?_⟩
    all_goals grind -ring -linarith [Role.locks, Role.owes]
  | count index =>
    refine ⟨sized, counted, full, ?_, ?_, ?_, ?_, ?_⟩
    all_goals grind -ring -linarith [Role.locks, Role.owes]
  | settle index fully =>
    refine ⟨allSetBitfield_length _, (countHaveBits_allSetBitfield _).symm,
      fun _ => bitfieldGet_allSetBitfield _, ?_, ?_, ?_, ?_, ?_⟩
    all_goals grind -ring -linarith [Role.locks, Role.owes, bitfieldGet_allSetBitfield]
  | countAll index =>
    refine ⟨sized, counted, full, ?_, ?_, ?_, ?_, ?_⟩
    all_goals grind -ring -linarith [Role.locks, Role.owes]
  | unlock index =>
    refine ⟨sized, counted, full, ?_, ?_, ?_, ?_, ?_⟩
    all_goals grind -ring -linarith [Role.locks, Role.owes]
  | publish index =>
    refine ⟨sized, counted, full, ?_, ?_, ?_, ?_, ?_⟩
    all_goals grind -ring -linarith [Role.locks, Role.owes]

/-! ### Every piece had is on its way -/

/-- The piece is in the snapshot to be sent, was sent, waits in the channel or will be published. -/
def Reaches (b : Books) (role : Nat → Role) (conn : Connection) (i : Nat) : Prop :=
  (conn.greeted = false ∧ ∃ bf, conn.snapshot = some bf ∧ bitfieldGet bf i = true) ∨
    conn.announced b.pieceCount i = true ∨ i ∈ conn.pending b.hub ∨ ∃ k, (role k).owes = some i

structure Covered (b : Books) (role : Nat → Role) (conn : Connection) : Prop where
  live : ∀ position, conn.position = some position →
    ∃ queue, b.hub[position]? = some ⟨true, queue⟩
  joined : conn.greeted = true ∨ conn.snapshot.isSome = true → conn.position.isSome = true
  queued : ∀ i ∈ conn.pending b.hub, i < b.pieceCount ∧ bitfieldGet b.pieces.bitfield i = true
  told : ∀ i, i < b.pieceCount → conn.announced b.pieceCount i = true →
    bitfieldGet b.pieces.bitfield i = true
  taken : ∀ bf, conn.snapshot = some bf →
    (∀ i, i < b.pieceCount → bitfieldGet bf i = true → bitfieldGet b.pieces.bitfield i = true) ∧
      countHaveBits bf b.pieceCount ≤ b.count
  covered : conn.greeted = true ∨ conn.snapshot.isSome = true → ∀ i, i < b.pieceCount →
    bitfieldGet b.pieces.bitfield i = true → Reaches b role conn i

theorem owed_update (role : Nat → Role) (tid i : Nat) (next : Role)
    (keeps : (role tid).owes = some i → next.owes = some i) (owed : ∃ k, (role k).owes = some i) :
    ∃ k, (Function.update role tid next k).owes = some i := by
  obtain ⟨k, owes⟩ := owed
  refine ⟨k, ?_⟩
  rw [Function.update_apply]
  split_ifs with same
  · rw [same] at owes
    exact keeps owes
  · exact owes

/-- Possession grows, the channel is as before, and every new piece is owed. -/
theorem covered_grow (b b' : Books) (role role' : Nat → Role) (conn : Connection)
    (covered : Covered b role conn) (sameCount : b'.pieceCount = b.pieceCount)
    (sameHub : b'.hub = b.hub) (more : b.count ≤ b'.count)
    (grows : ∀ i, i < b.pieceCount → bitfieldGet b.pieces.bitfield i = true →
      bitfieldGet b'.pieces.bitfield i = true)
    (fresh : ∀ i, i < b.pieceCount → bitfieldGet b'.pieces.bitfield i = true →
      bitfieldGet b.pieces.bitfield i = true ∨ ∃ k, (role' k).owes = some i)
    (keeps : ∀ i, (∃ k, (role k).owes = some i) → ∃ k, (role' k).owes = some i) :
    Covered b' role' conn := by
  obtain ⟨live, joined, queued, told, taken, reaches⟩ := covered
  unfold Reaches at reaches
  constructor
  case live => rwa [sameHub]
  case joined => exact joined
  case queued =>
    intro i member
    rw [sameHub] at member
    have inside := queued i member
    exact ⟨by omega, grows i inside.1 inside.2⟩
  case told =>
    rw [sameCount]
    intro i below sent
    exact grows i below (told i below sent)
  case taken =>
    rw [sameCount]
    intro bf snapshot
    have before := taken bf snapshot
    exact ⟨fun i below set => grows i below (before.1 i below set), before.2.trans more⟩
  case covered =>
    unfold Reaches
    rw [sameCount, sameHub]
    intro begun i below set
    rcases fresh i below set with old | owed
    · rcases reaches begun i below old with snapshot | sent | waits | owed
      · exact Or.inl snapshot
      · exact Or.inr (Or.inl sent)
      · exact Or.inr (Or.inr (Or.inl waits))
      · exact Or.inr (Or.inr (Or.inr (keeps i owed)))
    · exact Or.inr (Or.inr (Or.inr owed))

theorem publish_at (hub : HaveHub) (index position : Nat) (queue : List Nat)
    (found : hub[position]? = some ⟨true, queue⟩) :
    (hub.publish index)[(hub.take position).countP HaveSub.connected]? =
      some ⟨true, queue ++ [index]⟩ := by
  obtain ⟨below, at'⟩ := List.getElem?_eq_some_iff.1 found
  have split : hub = hub.take position ++ ⟨true, queue⟩ :: hub.drop (position + 1) := by
    rw [← at', List.cons_getElem_drop_succ, List.take_append_drop]
  have kept : hub.filter HaveSub.connected = (hub.take position).filter HaveSub.connected ++
      ⟨true, queue⟩ :: (hub.drop (position + 1)).filter HaveSub.connected := by
    conv_lhs => rw [split]
    rw [List.filter_append, List.filter_cons_of_pos rfl]
  unfold HaveHub.publish
  rw [List.getElem?_map, kept, List.countP_eq_length_filter, List.getElem?_append_right le_rfl,
    Nat.sub_self]
  rfl

theorem pending_moveDown (conn : Connection) (hub : HaveHub) (index : Nat)
    (live : ∀ position, conn.position = some position →
      ∃ queue, hub[position]? = some ⟨true, queue⟩) :
    (conn.moveDown hub).pending (hub.publish index) =
      if conn.position.isSome then conn.pending hub ++ [index] else [] := by
  unfold Connection.pending Connection.moveDown
  cases place : conn.position with
  | none => rfl
  | some position =>
    obtain ⟨queue, found⟩ := live position place
    simp only [Option.map_some, publish_at hub index position queue found, found, Option.elim_some,
      Option.isSome_some, if_true]

theorem covered_publish (b : Books) (tid index : Nat) (role : Nat → Role) (conn : Connection)
    (announcing : role tid = .announcing index)
    (owed : index < b.pieceCount ∧ bitfieldGet b.pieces.bitfield index = true)
    (covered : Covered b role conn) :
    Covered { b with hub := b.hub.publish index } (Function.update role tid .idle)
      (conn.moveDown b.hub) := by
  have pending := pending_moveDown conn b.hub index covered.live
  constructor
  case live =>
    intro position place
    obtain ⟨before, place', rfl⟩ := Option.map_eq_some_iff.1 place
    obtain ⟨queue, found⟩ := covered.live before place'
    exact ⟨_, publish_at b.hub index before queue found⟩
  case joined =>
    intro begun
    rw [Connection.moveDown, Option.isSome_map]
    exact covered.joined begun
  case queued =>
    intro i member
    dsimp only at member
    rw [pending] at member
    split_ifs at member
    · rcases List.mem_append.1 member with old | new
      · exact covered.queued i old
      · rw [List.mem_singleton.1 new]
        exact owed
    · cases member
  case told => exact covered.told
  case taken => exact covered.taken
  case covered =>
    intro begun i below set
    unfold Reaches
    dsimp only
    rw [pending, if_pos (covered.joined begun)]
    rcases covered.covered begun i below set with snapshot | sent | waits | later
    · exact Or.inl snapshot
    · exact Or.inr (Or.inl sent)
    · exact Or.inr (Or.inr (Or.inl (List.mem_append_left _ waits)))
    · by_cases same : i = index
      · rw [same]
        exact Or.inr (Or.inr (Or.inl (List.mem_append_right _ (List.mem_singleton_self index))))
      · refine Or.inr (Or.inr (Or.inr (owed_update role tid i .idle ?_ later)))
        rw [announcing]
        intro equal
        exact absurd (Option.some.inj equal).symm same

/-- Where the connection stands after one operation: only a publish moves its receiver. -/
def Connection.after (conn : Connection) (hub : HaveHub) : Role → Connection
  | .announcing _ => conn.moveDown hub
  | _ => conn

theorem covered_effect (b b' : Books) (writer writer' : Option Nat) (tid : Nat) (role : Nat → Role)
    (next : Role) (conn : Connection) (effect : Effect b writer tid (role tid) b' writer' next)
    (kept : Kept b writer role) (covered : Covered b role conn) :
    Covered b' (Function.update role tid next) (conn.after b.hub (role tid)) := by
  have lag := kept.count_le
  have most := kept.haveCount_le
  generalize was : role tid = old at effect
  have keeps : old.owes = next.owes ∨ old = .idle → ∀ i, (∃ k, (role k).owes = some i) →
      ∃ k, (Function.update role tid next k).owes = some i := by
    intro same i
    apply owed_update
    rw [was]
    intro owes
    rcases same with equal | idle
    · rw [← equal, owes]
    · rw [idle] at owes
      cases owes
  have owing : ∀ i, next.owes = some i → ∃ k, (Function.update role tid next k).owes = some i := by
    intro i owes
    exact ⟨tid, by rw [Function.update_self, owes]⟩
  cases effect with
  | quiet _ silent =>
    rw [← was, Function.update_eq_self, was]
    cases next with
    | announcing index => exact absurd rfl (silent index)
    | idle | counting index | holding index | settling index => exact covered
  | record index below free unfinished fresh =>
    have inside : index / 8 < b.pieces.bitfield.length := by
      rw [kept.sized]
      exact index_div_lt_size index _ below
    refine covered_grow b _ role _ conn covered rfl rfl le_rfl ?_ ?_ (keeps (Or.inr rfl))
    · intro i _ set
      by_cases same : i = index
      · rw [same]
        exact bitfieldGet_bitfieldSet_self _ index inside
      · exact (bitfieldGet_bitfieldSet_other _ index i same).trans set
    · intro i _ set
      by_cases same : i = index
      · rw [same]
        exact Or.inr (owing index rfl)
      · exact Or.inl ((bitfieldGet_bitfieldSet_other _ index i same).symm.trans set)
  | count index =>
    exact covered_grow b _ role _ conn covered rfl rfl lag (fun _ _ set => set)
      (fun _ _ set => Or.inl set) (keeps (Or.inl rfl))
  | settle index fully =>
    refine covered_grow b _ role _ conn covered rfl rfl le_rfl ?_ ?_ (keeps (Or.inl rfl))
    · intro i below _
      exact bitfieldGet_allSetBitfield _ i below
    · intro i below _
      exact Or.inl (kept.bits_of_count fully i below)
  | countAll index =>
    exact covered_grow b _ role _ conn covered rfl rfl (lag.trans most) (fun _ _ set => set)
      (fun _ _ set => Or.inl set) (keeps (Or.inl rfl))
  | unlock index =>
    exact covered_grow b b role _ conn covered rfl rfl le_rfl (fun _ _ set => set)
      (fun _ _ set => Or.inl set) (keeps (Or.inl rfl))
  | publish index =>
    have owed := kept.owed tid index (congrArg Role.owes was)
    exact covered_publish b tid index role conn was owed covered

/-! ### The session -/

theorem covered_rehub (b : Books) (hub : HaveHub) (role : Nat → Role) (conn : Connection)
    (own : ∀ position, conn.position = some position → hub[position]? = b.hub[position]?)
    (covered : Covered b role conn) : Covered { b with hub := hub } role conn := by
  have pending : conn.pending hub = conn.pending b.hub := by
    unfold Connection.pending
    cases place : conn.position with
    | none => rfl
    | some position => simp only [own position place]
  constructor
  case live =>
    intro position place
    rw [own position place]
    exact covered.live position place
  case joined => exact covered.joined
  case queued =>
    dsimp only
    rw [pending]
    exact covered.queued
  case told => exact covered.told
  case taken => exact covered.taken
  case covered =>
    intro begun i below set
    unfold Reaches
    dsimp only
    rw [pending]
    exact covered.covered begun i below set

theorem covered_subscribe (b : Books) (role : Nat → Role) (conn : Connection)
    (outside : conn.position.isSome = false) (covered : Covered b role conn) :
    Covered { b with hub := b.hub.subscribe } role { conn with position := some b.hub.length } := by
  have fresh : b.hub.subscribe[b.hub.length]? = some ⟨true, []⟩ := by
    rw [HaveHub.subscribe, List.getElem?_append_right le_rfl, Nat.sub_self]
    rfl
  have before : ¬(conn.greeted = true ∨ conn.snapshot.isSome = true) := by
    intro begun
    rw [covered.joined begun] at outside
    cases outside
  constructor
  case live =>
    intro position place
    cases place
    exact ⟨[], fresh⟩
  case joined => exact fun _ => rfl
  case queued =>
    intro i member
    simp only [Connection.pending, fresh, Option.elim_some] at member
    cases member
  case told => exact covered.told
  case taken => exact covered.taken
  case covered => exact fun begun => absurd begun before

/-- While nobody holds the lock, the snapshot is what is had and the mirrored count is exact. -/
theorem covered_snapshot (t : HotTorrent) (role : Nat → Role) (conn : Connection)
    (kept : Kept (books t) none role) (place : conn.position.isSome = true)
    (covered : Covered (books t) role conn) :
    Covered (books t) role { conn with snapshot := some (bitfieldSnapshot t) } := by
  have same : ∀ i, i < t.pieceCount →
      bitfieldGet (bitfieldSnapshot t) i = bitfieldGet t.pieces.bitfield i := by
    intro i below
    unfold bitfieldSnapshot
    split_ifs with complete
    · rw [bitfieldGet_allSetBitfield _ i below]
      exact (kept.full complete i below).symm
    · rfl
  have mirrored : t.haveCountAtomic = t.pieces.haveCount := by
    apply kept.mirrored
    intro k index counting
    have held := kept.holder k (by rw [counting]; rfl)
    cases held
  constructor
  case live => exact covered.live
  case joined => exact fun _ => place
  case queued => exact covered.queued
  case told => exact covered.told
  case taken =>
    intro bf taken
    cases taken
    refine ⟨fun i below set => (same i below).symm.trans set, ?_⟩
    calc countHaveBits (bitfieldSnapshot t) t.pieceCount
        = countHaveBits t.pieces.bitfield t.pieceCount := tally_congr _ _ _ same
      _ = t.pieces.haveCount := kept.counted.symm
      _ ≤ t.haveCountAtomic := mirrored.ge
  case covered =>
    intro _ i below set
    by_cases greeted : conn.greeted = true
    · rcases covered.covered (Or.inl greeted) i below set with ⟨early, _⟩ | later
      · rw [greeted] at early
        cases early
      · exact Or.inr later
    · have first := Bool.eq_false_of_not_eq_true greeted
      exact Or.inl ⟨first, _, rfl, (same i below).trans set⟩

/-- What the possession message says was had when the snapshot was taken, or is had now. -/
theorem possession_sound (t : HotTorrent) (writer : Option Nat) (role : Nat → Role)
    (conn : Connection) (bf : Bits) (kept : Kept (books t) writer role)
    (inside : ∀ i, i < t.pieceCount → bitfieldGet bf i = true →
      bitfieldGet t.pieces.bitfield i = true) (i : Nat) (below : i < t.pieceCount)
    (said : announces t.pieceCount i (conn.possession t bf) = true) :
    bitfieldGet t.pieces.bitfield i = true := by
  unfold Connection.possession encodePossessionFast at said
  split_ifs at said with fast full none
  · exact kept.bits_of_count (full.2.trans kept.count_le) i below
  · cases said
  · exact inside i below said
  · exact inside i below said

/-- The possession message says all of the snapshot, since the count has not dropped since. -/
theorem possession_complete (t : HotTorrent) (conn : Connection) (bf : Bits)
    (counted : countHaveBits bf t.pieceCount ≤ t.haveCountAtomic) (i : Nat) (below : i < t.pieceCount)
    (set : bitfieldGet bf i = true) : announces t.pieceCount i (conn.possession t bf) = true := by
  unfold Connection.possession encodePossessionFast
  split_ifs with fast full none
  · exact decide_eq_true below
  · have empty : tally (bitfieldGet bf) t.pieceCount = 0 := Nat.le_zero.1 (none ▸ counted)
    rw [(tally_eq_zero_iff _ _).1 empty i below] at set
    cases set
  · exact set
  · exact set

theorem announced_append (wire : List Message) (message : Message) (conn : Connection)
    (sent : conn.wire = wire ++ [message]) (pieceCount i : Nat) :
    conn.announced pieceCount i = (wire.any (announces pieceCount i) || announces pieceCount i message) := by
  rw [Connection.announced, sent, List.any_append, List.any_cons, List.any_nil, Bool.or_false]

theorem covered_announce (t : HotTorrent) (writer : Option Nat) (role : Nat → Role)
    (conn : Connection) (bf : Bits) (taken : conn.snapshot = some bf)
    (kept : Kept (books t) writer role) (covered : Covered (books t) role conn) :
    Covered (books t) role { conn with
      snapshot := none, greeted := true, wire := conn.wire ++ [conn.possession t bf] } := by
  have said := announced_append conn.wire (conn.possession t bf)
    { conn with snapshot := none, greeted := true, wire := conn.wire ++ [conn.possession t bf] } rfl
  have begun : conn.snapshot.isSome = true := by rw [taken]; rfl
  have inside := covered.taken bf taken
  constructor
  case live => exact covered.live
  case joined => exact fun _ => covered.joined (Or.inr begun)
  case queued => exact covered.queued
  case told =>
    intro i below told
    rw [said] at told
    rcases Bool.or_eq_true_iff.1 told with old | new
    · exact covered.told i below old
    · exact possession_sound t writer role conn bf kept inside.1 i below new
  case taken => nofun
  case covered =>
    intro _ i below set
    unfold Reaches
    rw [said]
    rcases covered.covered (Or.inr begun) i below set with ⟨_, bf', same, bit⟩ | sent | later
    · rw [taken] at same
      cases same
      have complete := possession_complete t conn bf inside.2 i below bit
      exact Or.inr (Or.inl (Bool.or_eq_true_iff.2 (Or.inr complete)))
    · exact Or.inr (Or.inl (Bool.or_eq_true_iff.2 (Or.inl sent)))
    · exact Or.inr (Or.inr later)

theorem covered_forward (b : Books) (role : Nat → Role) (conn : Connection) (position index : Nat)
    (alive : Bool) (rest : List Nat) (place : conn.position = some position)
    (found : b.hub[position]? = some ⟨alive, index :: rest⟩)
    (covered : Covered b role conn) :
    Covered
      { b with hub := b.hub.modify position (fun sub => { sub with queue := sub.queue.tail }) } role
      { conn with wire := conn.wire ++ [.have_ index] } := by
  have said := announced_append conn.wire (.have_ index)
    { conn with wire := conn.wire ++ [.have_ index] } rfl
  have before : conn.pending b.hub = index :: rest := by
    simp only [Connection.pending, place, found, Option.elim_some]
  have after : ({ conn with wire := conn.wire ++ [.have_ index] } : Connection).pending
      (b.hub.modify position (fun sub => { sub with queue := sub.queue.tail })) = rest := by
    simp only [Connection.pending, place, List.getElem?_modify_eq, found,
      Option.map_eq_map, Option.map_some, Option.elim_some, List.tail_cons]
  have head := covered.queued index (by rw [before]; exact List.mem_cons_self)
  constructor
  case live =>
    intro other place'
    cases place.symm.trans place'
    obtain ⟨queue, live⟩ := covered.live position place
    exact ⟨queue.tail, by simp only [List.getElem?_modify_eq, live, Option.map_eq_map, Option.map_some]⟩
  case joined => exact covered.joined
  case queued =>
    dsimp only
    rw [after]
    intro i member
    exact covered.queued i (by rw [before]; exact List.mem_cons_of_mem _ member)
  case told =>
    intro i below told
    rw [said] at told
    rcases Bool.or_eq_true_iff.1 told with old | new
    · exact covered.told i below old
    · rw [← beq_iff_eq.1 new]
      exact head.2
  case taken => exact covered.taken
  case covered =>
    intro begun i below set
    unfold Reaches
    rw [said, after]
    rcases covered.covered begun i below set with early | sent | waits | owed
    · exact Or.inl early
    · exact Or.inr (Or.inl (Bool.or_eq_true_iff.2 (Or.inl sent)))
    · rw [before] at waits
      rcases List.mem_cons.1 waits with same | behind
      · exact Or.inr (Or.inl (Bool.or_eq_true_iff.2 (Or.inr (beq_iff_eq.2 same.symm))))
      · exact Or.inr (Or.inr (Or.inl behind))
    · exact Or.inr (Or.inr (Or.inr owed))

structure Joined (s : State) : Prop where
  kept : Kept (books s.hot.torrent) s.hot.writer (roles s.hot.threads)
  bounded : ∀ thread ∈ s.hot.threads, Quiescence.Bounded s.hot.torrent.pieceCount thread
  covered : Covered (books s.hot.torrent) (roles s.hot.threads) s.conn

theorem joined_start (t : HotTorrent) (valid : Balanced t) (fast : Bool) : Joined (start t fast) := by
  constructor
  case kept =>
    refine ⟨valid.sized, valid.counted, ?_, nofun, nofun, fun _ => valid.mirrored, nofun, nofun⟩
    intro complete i below
    exact (valid.settled (Nat.zero_lt_of_lt below)).1 complete i below
  case bounded => nofun
  case covered => exact ⟨nofun, by simp [start], nofun, nofun, nofun, by simp [start]⟩

theorem Joined.rehub {s : State} (joined : Joined s) (hub : HaveHub)
    (own : ∀ position, s.conn.position = some position →
      hub[position]? = s.hot.torrent.haveHub[position]?) : Joined (s.rehub hub) := by
  obtain ⟨⟨sized, counted, full, holder, settling, mirrored, behind, owed⟩, bounded, covered⟩ := joined
  exact ⟨⟨sized, counted, full, holder, settling, mirrored, behind, owed⟩, bounded,
    covered_rehub _ hub _ _ own covered⟩

theorem Joined.call {s : State} (joined : Joined s) (c : Call)
    (bounded : Quiescence.Bounded s.hot.torrent.pieceCount c.entry) :
    Joined ⟨{ s.hot with threads := s.hot.threads ++ [c.entry] }, s.conn⟩ := by
  have same : roles (s.hot.threads ++ [c.entry]) = roles s.hot.threads := by
    apply roles_append
    cases c <;> rfl
  obtain ⟨kept, before, covered⟩ := joined
  refine ⟨?_, ?_, ?_⟩
  · dsimp only
    rw [same]
    exact kept
  · intro thread member
    rcases List.mem_append.1 member with old | new
    · exact before thread old
    · rw [List.mem_singleton.1 new]
      exact bounded
  · dsimp only
    rw [same]
    exact covered

theorem follow_eq_after (conn : Connection) (s : Interleaving.State) (tid : Nat) (thread : Thread)
    (found : s.threads[tid]? = some thread) :
    conn.follow s (.advance tid) = conn.after s.torrent.haveHub (roleOf thread) := by
  simp only [Connection.follow, found]
  cases thread <;> rfl

theorem Joined.advance {s : State} (joined : Joined s) (hot : Interleaving.State) (tid : Nat)
    (thread : Thread) (found : s.hot.threads[tid]? = some thread)
    (taken : Interleaving.advance s.hot tid thread = some hot) :
    Joined ⟨hot, s.conn.follow s.hot (.advance tid)⟩ := by
  obtain ⟨kept, bounded, covered⟩ := joined
  have member := bounded thread (List.mem_of_getElem? found)
  have role : roles s.hot.threads tid = roleOf thread := by rw [roles, found]
  obtain ⟨below, _⟩ := List.getElem?_eq_some_iff.1 found
  obtain ⟨next, threads, effect⟩ := advance_effect s.hot hot tid thread member taken
  obtain ⟨other, threads', count, inside⟩ := Quiescence.advance_frame s.hot hot tid thread taken
  have now := roles_set s.hot.threads tid next below
  rw [← role] at effect
  refine ⟨?_, ?_, ?_⟩
  · dsimp only
    rw [threads, now]
    exact kept_effect _ _ _ _ tid _ _ effect kept
  · intro th at'
    dsimp only at at'
    dsimp only
    rw [count]
    rw [threads'] at at'
    rcases List.mem_or_eq_of_mem_set at' with old | new
    · exact bounded th old
    · rw [new]
      exact inside member
  · dsimp only
    rw [threads, now, follow_eq_after s.conn s.hot tid thread found, ← role]
    exact covered_effect _ _ _ _ tid _ _ s.conn effect kept covered

theorem joined_step (s : State) (event : Event) (s' : State) (joined : Joined s)
    (taken : step s event = some s') : Joined s' := by
  cases event with
  | hot event =>
    obtain ⟨hot, moved, rfl⟩ := Option.map_eq_some_iff.1 taken
    cases event with
    | call c =>
      cases c with
      | markHave index =>
        simp only [Interleaving.step] at moved
        split_ifs at moved with below
        cases moved
        exact joined.call (.markHave index) below
      | rebuildWantedAndMissing =>
        cases moved
        exact joined.call .rebuildWantedAndMissing trivial
      | setFilePriority fileIdx priority =>
        cases moved
        exact joined.call (.setFilePriority fileIdx priority) trivial
    | advance tid =>
      obtain ⟨thread, found, moved⟩ := Option.bind_eq_some_iff.1 moved
      exact joined.advance hot tid thread found moved
  | subscribe =>
    simp only [step] at taken
    split_ifs at taken with member
    cases taken
    obtain ⟨⟨sized, counted, full, holder, settling, mirrored, behind, owed⟩, bounded, covered⟩ := joined
    exact ⟨⟨sized, counted, full, holder, settling, mirrored, behind, owed⟩, bounded,
      covered_subscribe _ _ _ (Bool.eq_false_of_not_eq_true member) covered⟩
  | snapshot =>
    simp only [step] at taken
    split_ifs at taken with blocked
    cases taken
    simp only [Bool.or_eq_true, not_or, Option.isNone_iff_eq_none, Bool.not_eq_true,
      Option.isSome_eq_false_iff] at blocked
    obtain ⟨⟨place, _⟩, unlocked⟩ := blocked
    have kept := joined.kept
    rw [unlocked] at kept
    exact ⟨joined.kept, joined.bounded,
      covered_snapshot _ _ _ kept (Option.isSome_iff_ne_none.2 place) joined.covered⟩
  | announce =>
    obtain ⟨bf, snapshot, rfl⟩ := Option.map_eq_some_iff.1 taken
    exact ⟨joined.kept, joined.bounded,
      covered_announce _ _ _ _ bf snapshot joined.kept joined.covered⟩
  | deliver =>
    simp only [step] at taken
    split_ifs at taken
    obtain ⟨position, place, moved⟩ := Option.bind_eq_some_iff.1 taken
    unfold State.forward at moved
    split at moved
    · rename_i alive index rest found
      cases moved
      obtain ⟨⟨sized, counted, full, holder, settling, mirrored, behind, owed⟩, bounded, covered⟩ :=
        joined
      exact ⟨⟨sized, counted, full, holder, settling, mirrored, behind, owed⟩, bounded,
        covered_forward _ _ _ position index alive rest place found covered⟩
    · cases moved
  | otherSubscribes =>
    cases taken
    apply joined.rehub
    intro position place
    obtain ⟨queue, live⟩ := joined.covered.live position place
    obtain ⟨below, _⟩ := List.getElem?_eq_some_iff.1 live
    exact List.getElem?_append_left below
  | otherReceives position | otherLeaves position =>
    simp only [step, State.touchOther] at taken
    split_ifs at taken with own
    cases taken
    apply joined.rehub
    intro mine place
    rw [List.getElem?_modify_ne]
    intro same
    exact own (same ▸ place)

/-- In every interleaving of `mark_have` calls, of the setup and of the deliveries, what the peer
was told is had, and once every call has returned and the channel is empty it was told all of it. -/
theorem announcement_exact (t : HotTorrent) (origin : Start t) (fast : Bool) (events : List Event)
    (s : State) (ran : exec step (start t fast) events = some s) :
    (∀ i, i < s.hot.torrent.pieceCount →
      s.conn.announced s.hot.torrent.pieceCount i = true → s.hot.torrent.hasPiece i = true) ∧
    (Quiescent s.hot → s.conn.greeted = true → s.conn.pending s.hot.torrent.haveHub = [] →
      ∀ i, i < s.hot.torrent.pieceCount →
        (s.conn.announced s.hot.torrent.pieceCount i = true ↔ s.hot.torrent.hasPiece i = true)) := by
  have joined := exec_invariant_free step Joined joined_step (start t fast) s events
    (joined_start t (balanced_start t origin) fast) ran
  have bit : ∀ i, i < s.hot.torrent.pieceCount →
      (s.hot.torrent.hasPiece i = true ↔ bitfieldGet s.hot.torrent.pieces.bitfield i = true) := by
    intro i below
    rw [hasPiece, if_neg (by omega)]
    split_ifs with complete
    · exact iff_of_true rfl (joined.kept.full complete i below)
    · exact Iff.rfl
  have sound : ∀ i, i < s.hot.torrent.pieceCount →
      s.conn.announced s.hot.torrent.pieceCount i = true → s.hot.torrent.hasPiece i = true :=
    fun i below told => (bit i below).2 (joined.covered.told i below told)
  refine ⟨sound, ?_⟩
  intro quiet greeted empty i below
  refine ⟨sound i below, ?_⟩
  intro had
  rcases joined.covered.covered (Or.inl greeted) i below ((bit i below).1 had) with
    ⟨early, _⟩ | told | waits | ⟨k, owes⟩
  · rw [greeted] at early
    cases early
  · exact told
  · change i ∈ s.conn.pending s.hot.torrent.haveHub at waits
    rw [empty] at waits
    cases waits
  · unfold roles at owes
    split at owes
    · rename_i thread found
      rw [quiet thread (List.mem_of_getElem? found)] at owes
      cases owes
    · cases owes

/-- The session subscribes behind a receiver that is already gone; one mark ends between the snapshot
and the possession message, the other one completes the torrent afterwards. -/
def lateTrace : List Event :=
  [Event.otherSubscribes, Event.otherLeaves 0, Event.subscribe, Event.hot (.call (.markHave 0)),
      Event.snapshot] ++
    List.replicate 8 (Event.hot (.advance 0)) ++ [Event.announce] ++
    List.replicate 3 (Event.hot (.advance 0)) ++
    [Event.deliver, Event.hot (.call (.markHave 1))] ++
    List.replicate 15 (Event.hot (.advance 1)) ++ [Event.deliver]

theorem announcement_exact_lateTrace :
    ∃ s, exec step (start (newEmpty 1 [] twoFiles []) true) lateTrace = some s ∧
      s.conn.wire = [.bitfield [0], .have_ 0, .have_ 1] ∧
      ∀ i, i < s.hot.torrent.pieceCount →
        (s.conn.announced s.hot.torrent.pieceCount i = true ↔ s.hot.torrent.hasPiece i = true) := by
  have settled : ((exec step (start (newEmpty 1 [] twoFiles []) true) lateTrace).any
      (fun s => s.hot.threads.all (fun thread => thread == .returned) && s.conn.greeted &&
        s.conn.pending s.hot.torrent.haveHub == [] &&
        s.conn.wire == [.bitfield [0], .have_ 0, .have_ 1])) = true := by decide
  obtain ⟨s, ran, checked⟩ := (Option.any_eq_true _ _).1 settled
  simp only [Bool.and_eq_true, beq_iff_eq] at checked
  obtain ⟨⟨⟨quiet, greeted⟩, empty⟩, wire⟩ := checked
  refine ⟨s, ran, wire, ?_⟩
  apply (announcement_exact (newEmpty 1 [] twoFiles []) (.empty 1 [] twoFiles []) true lateTrace s
    ran).2 _ greeted empty
  intro thread member
  exact beq_iff_eq.1 (List.all_eq_true.1 quiet thread member)

end Seedchamp.Hot.Announcement
