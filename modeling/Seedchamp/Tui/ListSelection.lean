import Mathlib.Data.List.Basic
import Seedchamp.Foundation.TransitionSystem

/-!
The highlight of the torrent list: what the user selects, and what catalog lists, deletes and re-sorts
make of it. A command acts on the highlighted torrent.
-/

namespace Seedchamp.Tui.ListSelection
open Foundation.TransitionSystem

/-! ### Sorting -/

/-- The columns of a list row that the list is sorted by. -/
structure ListRow where
  id : Int
  name : List UInt8
  wantStart : Bool
  createdAt : Int
  deriving DecidableEq, Repr

inductive SortCriterion where
  | offFirst
  | downRateDesc
  | upRateDesc
  | addedDesc
  | nameAsc
  | idAsc
  deriving DecidableEq, Repr

/-- The rates of the snapshot; a torrent that is not hot has none. -/
structure Rates where
  down : Int → Nat
  up : Int → Nat

def toAsciiLowercase (text : List UInt8) : List UInt8 :=
  text.map (fun b => if 65 ≤ b ∧ b ≤ 90 then b + 32 else b)

def SortCriterion.compare (rates : Rates) : SortCriterion → ListRow → ListRow → Ordering
  | .offFirst => compareOn ListRow.wantStart
  | .downRateDesc => fun a b => compareOn (fun r => rates.down r.id) b a
  | .upRateDesc => fun a b => compareOn (fun r => rates.up r.id) b a
  | .addedDesc => fun a b => compareOn ListRow.createdAt b a
  | .nameAsc => compareOn (fun r => toAsciiLowercase r.name)
  | .idAsc => compareOn ListRow.id

/-- The first criterion that tells two rows apart decides. -/
def compareRows (rates : Rates) : List SortCriterion → ListRow → ListRow → Ordering
  | [] => fun _ _ => .eq
  | c :: rest => compareLex (c.compare rates) (compareRows rates rest)

/-- `sort_by`, which is stable. -/
def sortRows (rates : Rates) (order : List SortCriterion) (rows : List ListRow) : List ListRow :=
  rows.mergeSort (fun a b => (compareRows rates order a b).isLE)

theorem sortRows_perm (rates : Rates) (order : List SortCriterion) (rows : List ListRow) :
    (sortRows rates order rows).Perm rows := List.mergeSort_perm rows _

/-! ### The list -/

/-- `tableSelected` and `offset` are the table state of the view, `viewH` the rows of the last drawing. -/
structure App where
  rows : List ListRow
  selected : Option Nat
  selectedTorrentId : Option Int
  tableSelected : Option Nat
  offset : Nat
  viewH : Nat
  rates : Rates
  order : List SortCriterion

-- What `TableState::select(None)` of the widget library makes of the scroll position.
variable (onNone : Nat → Nat)

namespace App

def rowId (app : App) (i : Nat) : Option Int := app.rows[i]?.map ListRow.id

/-- What commands without an explicit id act on. -/
def selectedId (app : App) : Option Int :=
  match app.selectedTorrentId with
  | some id => some id
  | none => app.selected.bind app.rowId

def select (app : App) (i : Nat) (id : Option Int) : App :=
  { app with selected := some i, selectedTorrentId := id, tableSelected := some i }

/-- `TableState::select(None)`. -/
def tableSelectNone (app : App) : App := { app with tableSelected := none, offset := onNone app.offset }

def deselectKeepScroll (app : App) : App :=
  { app.tableSelectNone onNone with selected := none, selectedTorrentId := none }

def clearSelection (app : App) : App := { app.deselectKeepScroll onNone with offset := 0 }

/-- Pins the highlight to `selected_torrent_id` after reloads and re-sorts. -/
def restoreSelection (app : App) : App :=
  if app.rows = [] then app.clearSelection onNone
  else
    match app.selectedTorrentId with
    | some id =>
      match app.rows.findIdx? (fun r => r.id = id) with
      | some i => app.select i (some id)
      | none =>
        let i := min (app.selected.getD 0) (app.rows.length - 1)
        app.select i (app.rowId i)
    | none => { app.tableSelectNone onNone with selected := none }

def rememberSelection (app : App) : App :=
  match app.selected with
  | some i => app.select i (app.rowId i)
  | none => { app.tableSelectNone onNone with selectedTorrentId := none }

def applyListSort (app : App) : App :=
  let id := match app.selectedTorrentId with
    | some id => some id
    | none => app.selected.bind app.rowId
  { app with selectedTorrentId := id, rows := sortRows app.rates app.order app.rows }.restoreSelection onNone

/-- `rows` are those that the delete tombstones let through. -/
def applyCatalogList (app : App) (rows : List ListRow) : App :=
  ({ app with rows := rows }.applyListSort onNone).restoreSelection onNone

/-- A torrent leaves the list, as it is deleted or as its delete is confirmed. -/
def removeRow (app : App) (id : Int) : App :=
  { app with rows := app.rows.filter (fun r => r.id ≠ id) }.restoreSelection onNone

def markWantStart (app : App) (id : Int) (want : Bool) : App :=
  { app with rows := app.rows.map (fun r => if r.id = id then { r with wantStart := want } else r) }

def selectNext (app : App) : App :=
  if app.rows = [] then app
  else
    let next := match app.selected with
      | none => 0
      | some i => min (i + 1) (app.rows.length - 1)
    { app with selected := some next }.rememberSelection onNone

def selectIndex (app : App) (i : Nat) : App :=
  if app.rows.length ≤ i then app else { app with selected := some i }.rememberSelection onNone

def selectPrev (app : App) : App :=
  if app.rows = [] then app
  else
    match app.selected with
    | none => app
    | some 0 => app.clearSelection onNone
    | some (i + 1) => { app with selected := some i }.rememberSelection onNone

def selectPage (app : App) (dir : Int) : App :=
  if app.rows = [] then app
  else
    let current : Int := match app.selected with
      | some i => i
      | none => if 0 < dir then -1 else 0
    let s := max 0 (min (current + dir * 10) (app.rows.length - 1))
    { app with selected := some s.toNat }.rememberSelection onNone

def selectFirst (app : App) : App :=
  if app.rows = [] then app.clearSelection onNone else { app with selected := some 0 }.rememberSelection onNone

def selectLast (app : App) : App :=
  if app.rows = [] then app.clearSelection onNone
  else { app with selected := some (app.rows.length - 1) }.rememberSelection onNone

/-- The scroll position that `draw_list` leaves for `height` lines of the terminal. -/
def drawList (app : App) (height : Nat) : App :=
  let viewH := max (height - 3) 1
  let followed := match app.selected with
    | none => app.offset
    | some sel =>
      if sel < app.offset then sel
      else if app.offset + viewH ≤ sel then sel + 1 - viewH
      else app.offset
  let offset := if app.rows = [] then 0 else min followed (app.rows.length - viewH)
  { app with offset := offset, viewH := viewH }

/-- A click on a line below the header of the list that was drawn last. -/
def listClickSelect (app : App) (dataRow : Nat) : App :=
  if app.viewH ≤ dataRow then app
  else if app.rows.length ≤ app.offset + dataRow then app
  else app.selectIndex onNone (app.offset + dataRow)

end App

inductive Event where
  | catalogList (rows : List ListRow)
  | catalogMissing
  | removeRow (id : Int)
  | wantStart (id : Int) (want : Bool)
  | snapshot (rates : Rates)
  | sort (order : List SortCriterion)
  | resort
  | draw (height : Nat)
  | next
  | prev
  | page (dir : Int)
  | first
  | last
  | click (dataRow : Nat)
  | header
  | clear

def step (app : App) : Event → Option App
  | .catalogList rows => some (app.applyCatalogList onNone rows)
  | .catalogMissing => some { app with rows := [] }
  | .removeRow id => some (app.removeRow onNone id)
  | .wantStart id want => some (app.markWantStart id want)
  | .snapshot rates => some { app with rates := rates }
  | .sort order => some ({ app with order := order }.applyListSort onNone)
  | .resort => some ((app.applyListSort onNone).restoreSelection onNone)
  | .draw height => some (app.drawList height)
  | .next => some (app.selectNext onNone)
  | .prev => some (app.selectPrev onNone)
  | .page dir => some (app.selectPage onNone dir)
  | .first => some (app.selectFirst onNone)
  | .last => some (app.selectLast onNone)
  | .click dataRow => some (app.listClickSelect onNone dataRow)
  | .header => some (if app.selected.isSome then app.deselectKeepScroll onNone else app)
  | .clear => some (app.clearSelection onNone)

def initial (rates : Rates) (order : List SortCriterion) : App :=
  ⟨[], none, none, none, 0, 1, rates, order⟩

/-! ### The highlight -/

/-- The highlighted line is that of the torrent whose id is kept. -/
structure Pinned (app : App) : Prop where
  table : app.tableSelected = app.selected
  nothing : app.selected = none → app.selectedTorrentId = none
  line : ∀ i, app.selected = some i → ∃ r, app.rows[i]? = some r ∧ app.selectedTorrentId = some r.id

/-- While the catalog file is missing the list is empty and the highlight waits. -/
structure Inv (app : App) : Prop where
  table : app.tableSelected = app.selected
  pinned : app.rows ≠ [] → Pinned app

theorem inv_of_pinned (app : App) (pinned : Pinned app) : Inv app := ⟨pinned.table, fun _ => pinned⟩

theorem deselectKeepScroll_pinned (app : App) : Pinned (app.deselectKeepScroll onNone) :=
  ⟨rfl, fun _ => rfl, fun i clash => (by cases clash)⟩

theorem clearSelection_pinned (app : App) : Pinned (app.clearSelection onNone) :=
  ⟨rfl, fun _ => rfl, fun i clash => (by cases clash)⟩

theorem select_pinned (app : App) (i : Nat) (r : ListRow) (there : app.rows[i]? = some r) :
    Pinned (app.select i (some r.id)) := by
  refine ⟨rfl, fun clash => (by cases clash), ?_⟩
  intro j same
  cases same
  exact ⟨r, there, rfl⟩

theorem select_rowId_pinned (app : App) (i : Nat) (inside : i < app.rows.length) :
    Pinned (app.select i (app.rowId i)) := by
  have there := List.getElem?_eq_getElem inside
  rw [App.rowId, there]
  exact select_pinned app i _ there

/-- Wherever the highlight stood, it is pinned again afterwards. -/
theorem restoreSelection_pinned (app : App) : Pinned (app.restoreSelection onNone) := by
  rw [App.restoreSelection]
  split_ifs with none
  · exact clearSelection_pinned onNone app
  · have some_ : 0 < app.rows.length := List.length_pos_iff.2 none
    cases kept : app.selectedTorrentId with
    | none => exact ⟨rfl, fun _ => kept, fun i clash => (by cases clash)⟩
    | some id =>
      dsimp only
      cases found : app.rows.findIdx? (fun r => r.id = id) with
      | some i =>
        obtain ⟨inside, named, -⟩ := List.findIdx?_eq_some_iff_getElem.1 found
        have there := List.getElem?_eq_getElem inside
        have same : app.rows[i].id = id := of_decide_eq_true named
        have pinned := select_pinned app i _ there
        rw [same] at pinned
        exact pinned
      | none => exact select_rowId_pinned app _ (by omega)

theorem rememberSelection_pinned (app : App) (i : Nat) (inside : i < app.rows.length) :
    Pinned ({ app with selected := some i }.rememberSelection onNone) :=
  select_rowId_pinned { app with selected := some i } i inside

theorem applyListSort_pinned (app : App) : Pinned (app.applyListSort onNone) := restoreSelection_pinned onNone _

theorem wantStart_pinned (app : App) (id : Int) (want : Bool) (pinned : Pinned app) :
    Pinned (app.markWantStart id want) := by
  refine ⟨pinned.table, pinned.nothing, ?_⟩
  intro i here
  obtain ⟨r, there, kept⟩ := pinned.line i here
  refine ⟨if r.id = id then { r with wantStart := want } else r, ?_, ?_⟩
  · simp only [App.markWantStart, List.getElem?_map, there, Option.map_some]
  · simp only [App.markWantStart, kept]
    split_ifs <;> rfl

theorem step_inv (app : App) (event : Event) (app' : App) (inv : Inv app)
    (taken : step onNone app event = some app') : Inv app' := by
  cases event with
  | catalogList rows =>
    cases taken
    exact inv_of_pinned _ (restoreSelection_pinned onNone _)
  | catalogMissing =>
    cases taken
    exact ⟨inv.table, fun clash => absurd rfl clash⟩
  | removeRow id =>
    cases taken
    exact inv_of_pinned _ (restoreSelection_pinned onNone _)
  | wantStart id want =>
    cases taken
    refine ⟨inv.table, fun some_ => wantStart_pinned app id want (inv.pinned ?_)⟩
    exact fun none => some_ (List.map_eq_nil_iff.2 none)
  | snapshot rates =>
    cases taken
    refine ⟨inv.table, fun some_ => ?_⟩
    have pinned := inv.pinned some_
    exact ⟨pinned.table, pinned.nothing, pinned.line⟩
  | sort order =>
    cases taken
    exact inv_of_pinned _ (applyListSort_pinned onNone _)
  | resort =>
    cases taken
    exact inv_of_pinned _ (restoreSelection_pinned onNone _)
  | draw height =>
    cases taken
    refine ⟨inv.table, fun some_ => ?_⟩
    have pinned := inv.pinned some_
    exact ⟨pinned.table, pinned.nothing, pinned.line⟩
  | next =>
    cases taken
    rw [App.selectNext]
    split_ifs with none
    · exact inv
    · have some_ : 0 < app.rows.length := List.length_pos_iff.2 none
      refine inv_of_pinned _ (rememberSelection_pinned onNone app _ ?_)
      cases app.selected with
      | none => exact some_
      | some i =>
        dsimp only
        omega
  | prev =>
    cases taken
    rw [App.selectPrev]
    split_ifs with none
    · exact inv
    · have pinned := inv.pinned none
      cases here : app.selected with
      | none => exact inv
      | some i =>
        cases i with
        | zero => exact inv_of_pinned _ (clearSelection_pinned onNone app)
        | succ i =>
          obtain ⟨r, there, -⟩ := pinned.line (i + 1) here
          have inside := (List.getElem?_eq_some_iff.1 there).1
          exact inv_of_pinned _ (rememberSelection_pinned onNone app i (by omega))
  | page dir =>
    cases taken
    rw [App.selectPage]
    by_cases none : app.rows = []
    · rw [if_pos none]
      exact inv
    · rw [if_neg none]
      have some_ : 0 < app.rows.length := List.length_pos_iff.2 none
      exact inv_of_pinned _ (rememberSelection_pinned onNone app _ (by omega))
  | first =>
    cases taken
    rw [App.selectFirst]
    split_ifs with none
    · exact inv_of_pinned _ (clearSelection_pinned onNone app)
    · exact inv_of_pinned _ (rememberSelection_pinned onNone app 0 (List.length_pos_iff.2 none))
  | last =>
    cases taken
    rw [App.selectLast]
    split_ifs with none
    · exact inv_of_pinned _ (clearSelection_pinned onNone app)
    · have some_ : 0 < app.rows.length := List.length_pos_iff.2 none
      exact inv_of_pinned _ (rememberSelection_pinned onNone app _ (by omega))
  | click dataRow =>
    cases taken
    rw [App.listClickSelect]
    split_ifs with below past
    · exact inv
    · exact inv
    · rw [App.selectIndex, if_neg past]
      exact inv_of_pinned _ (rememberSelection_pinned onNone app _ (Nat.lt_of_not_le past))
  | header =>
    cases taken
    split_ifs
    · exact inv_of_pinned _ (deselectKeepScroll_pinned onNone app)
    · exact inv
  | clear =>
    cases taken
    exact inv_of_pinned _ (clearSelection_pinned onNone app)

theorem selectedId_pinned (app : App) (pinned : Pinned app) :
    app.selectedId = app.selected.bind app.rowId := by
  rw [App.selectedId]
  cases here : app.selected with
  | none => rw [pinned.nothing here]
  | some i =>
    obtain ⟨r, there, kept⟩ := pinned.line i here
    simp [kept, App.rowId, there]

/-! ### On the screen -/

/-- The highlighted line is drawn. -/
theorem drawList_shows (app : App) (height i : Nat) (here : app.selected = some i)
    (inside : i < app.rows.length) :
    (app.drawList height).offset ≤ i ∧ i < (app.drawList height).offset + (app.drawList height).viewH := by
  have some_ : app.rows ≠ [] := fun none => by
    rw [none] at inside
    cases inside
  have lines : 0 < max (height - 3) 1 := by omega
  simp only [App.drawList, here, if_neg some_]
  split_ifs with above below
  · omega
  · omega
  · omega

/-- A click on a drawn line highlights the torrent of that line. -/
theorem listClickSelect_line (app : App) (line : Nat) (drawn : line < app.viewH)
    (inside : app.offset + line < app.rows.length) :
    (app.listClickSelect onNone line).selected = some (app.offset + line) ∧
      (app.listClickSelect onNone line).selectedId = app.rowId (app.offset + line) := by
  have picked : app.listClickSelect onNone line =
      { app with selected := some (app.offset + line) }.rememberSelection onNone := by
    rw [App.listClickSelect, if_neg (Nat.not_le.2 drawn), if_neg (Nat.not_le.2 inside), App.selectIndex,
      if_neg (Nat.not_le.2 inside)]
  have pinned := rememberSelection_pinned onNone app (app.offset + line) inside
  rw [picked]
  refine ⟨rfl, ?_⟩
  rw [selectedId_pinned _ pinned]
  rfl

/-- In every run a command acts on the highlighted torrent, the highlight is drawn, and a click on any
drawn line highlights the torrent of that line. -/
theorem highlight_pinned (rates : Rates) (order : List SortCriterion) (events : List Event) (app : App)
    (ran : exec (step onNone) (initial rates order) events = some app) (some_ : app.rows ≠ []) (height : Nat) :
    app.selectedId = app.selected.bind app.rowId ∧
    (∀ i, app.selected = some i → i < app.rows.length ∧ (app.drawList height).offset ≤ i ∧
      i < (app.drawList height).offset + (app.drawList height).viewH) ∧
    (∀ line, line < (app.drawList height).viewH →
      (app.drawList height).offset + line < app.rows.length →
      ((app.drawList height).listClickSelect onNone line).selectedId =
        app.rowId ((app.drawList height).offset + line)) := by
  have start : Inv (initial rates order) := ⟨rfl, fun clash => absurd rfl clash⟩
  have inv := exec_invariant_free (step onNone) Inv (step_inv onNone) (initial rates order) app events start ran
  have pinned := inv.pinned some_
  refine ⟨selectedId_pinned app pinned, ?_, ?_⟩
  · intro i here
    obtain ⟨r, there, -⟩ := pinned.line i here
    have inside := (List.getElem?_eq_some_iff.1 there).1
    exact ⟨inside, drawList_shows app height i here inside⟩
  · intro line drawn inside
    exact (listClickSelect_line onNone (app.drawList height) line drawn inside).2

def noRates : Rates := ⟨fun _ => 0, fun _ => 0⟩

def ubuntu : ListRow := ⟨7, [117, 98], true, 3⟩

def debian : ListRow := ⟨9, [100, 101], false, 5⟩

/-- The first of two lines is highlighted. -/
def twoListed : App := ⟨[debian, ubuntu], some 0, some 9, some 0, 0, 1, noRates, [.nameAsc]⟩

theorem sortRows_listed : sortRows noRates [.nameAsc] [debian, ubuntu] = [debian, ubuntu] := by
  apply List.mergeSort_of_pairwise
  simp only [List.pairwise_cons]
  decide

theorem ubuntu_pinned :
    exec (step (fun _ => 0)) (initial noRates [.nameAsc]) [.catalogList [debian, ubuntu], .next] =
      some twoListed ∧
    twoListed.selectedId = twoListed.selected.bind twoListed.rowId ∧
    ((twoListed.drawList 24).listClickSelect (fun _ => 0) 1).selectedId = some 7 := by
  have listed : (initial noRates [.nameAsc]).applyCatalogList (fun _ => 0) [debian, ubuntu] =
      { initial noRates [.nameAsc] with rows := [debian, ubuntu] } := by
    simp [App.applyCatalogList, App.applyListSort, App.restoreSelection, sortRows_listed, initial,
      App.tableSelectNone]
  have ran : exec (step (fun _ => 0)) (initial noRates [.nameAsc]) [.catalogList [debian, ubuntu], .next] =
      some twoListed := by
    calc exec (step (fun _ => 0)) (initial noRates [.nameAsc]) [.catalogList [debian, ubuntu], .next]
      _ = some ({ initial noRates [.nameAsc] with rows := [debian, ubuntu] }.selectNext (fun _ => 0)) := by
        rw [← listed]
        rfl
      _ = some twoListed := rfl
  have pinned := highlight_pinned (fun _ => 0) noRates [.nameAsc] _ _ ran
    (List.cons_ne_nil debian [ubuntu]) 24
  exact ⟨ran, pinned.1, pinned.2.2 1 (by decide) (by decide)⟩

/-! ### What does not move the highlight -/

/-- The torrent is highlighted, on whichever line. -/
def Highlights (app : App) (id : Int) : Prop :=
  app.selectedTorrentId = some id ∧ ∃ i r, app.selected = some i ∧ app.rows[i]? = some r ∧ r.id = id

theorem restoreSelection_highlights (app : App) (id : Int) (kept : app.selectedTorrentId = some id)
    (listed : id ∈ app.rows.map ListRow.id) : Highlights (app.restoreSelection onNone) id := by
  obtain ⟨r, member, named⟩ := List.mem_map.1 listed
  have some_ : app.rows ≠ [] := List.ne_nil_of_mem member
  rw [App.restoreSelection, if_neg some_, kept]
  dsimp only
  cases found : app.rows.findIdx? (fun r => r.id = id) with
  | none =>
    have clash := List.findIdx?_eq_none_iff.1 found r member
    rw [named] at clash
    simp at clash
  | some i =>
    obtain ⟨inside, same, -⟩ := List.findIdx?_eq_some_iff_getElem.1 found
    exact ⟨rfl, i, app.rows[i], rfl, List.getElem?_eq_getElem inside, of_decide_eq_true same⟩

theorem listed_of_highlights (app : App) (id : Int) (highlights : Highlights app id) :
    id ∈ app.rows.map ListRow.id := by
  obtain ⟨-, i, r, -, there, rfl⟩ := highlights
  exact List.mem_map_of_mem (List.mem_of_getElem? there)

theorem applyListSort_highlights (app : App) (id : Int) (kept : app.selectedTorrentId = some id)
    (listed : id ∈ app.rows.map ListRow.id) : Highlights (app.applyListSort onNone) id := by
  rw [App.applyListSort, kept]
  apply restoreSelection_highlights onNone _ id rfl
  exact ((sortRows_perm app.rates app.order app.rows).map ListRow.id).mem_iff.2 listed

/-- What happens without the user: lists, deletes, state changes, snapshots, sorts and drawing. A list
has the torrent, and it is not the one deleted. -/
def Spares (id : Int) : Event → Prop
  | .catalogList rows => id ∈ rows.map ListRow.id
  | .removeRow other => other ≠ id
  | .wantStart _ _ => True
  | .snapshot _ => True
  | .sort _ => True
  | .resort => True
  | .draw _ => True
  | _ => False

theorem step_highlights (app app' : App) (event : Event) (id : Int) (highlights : Highlights app id)
    (spares : Spares id event) (taken : step onNone app event = some app') : Highlights app' id := by
  have listed := listed_of_highlights app id highlights
  cases event with
  | catalogList rows =>
    cases taken
    have sorted := applyListSort_highlights onNone { app with rows := rows } id highlights.1 spares
    exact restoreSelection_highlights onNone _ id sorted.1 (listed_of_highlights _ id sorted)
  | removeRow other =>
    cases taken
    let others := app.rows.filter (fun r => r.id ≠ other)
    refine restoreSelection_highlights onNone { app with rows := others } id highlights.1 ?_
    obtain ⟨r, member, named⟩ := List.mem_map.1 listed
    refine List.mem_map.2 ⟨r, List.mem_filter.2 ⟨member, ?_⟩, named⟩
    rw [named]
    exact decide_eq_true (Ne.symm spares)
  | wantStart other want =>
    cases taken
    obtain ⟨kept, i, r, here, there, named⟩ := highlights
    refine ⟨kept, i, if r.id = other then { r with wantStart := want } else r, here, ?_, ?_⟩
    · simp only [App.markWantStart, List.getElem?_map, there, Option.map_some]
    · split_ifs
      · exact named
      · exact named
  | snapshot rates =>
    cases taken
    exact highlights
  | sort order =>
    cases taken
    exact applyListSort_highlights onNone { app with order := order } id highlights.1 listed
  | resort =>
    cases taken
    have sorted := applyListSort_highlights onNone app id highlights.1 listed
    exact restoreSelection_highlights onNone _ id sorted.1 (listed_of_highlights _ id sorted)
  | draw height =>
    cases taken
    exact highlights
  | _ => exact spares.elim

/-- The highlight stays on its torrent through whatever happens without the user, while the torrent is
listed; when it leaves the list the highlight stays on its line, or on the last one. -/
theorem highlight_sticks (app app' : App) (id : Int) (events : List Event) (highlights : Highlights app id)
    (spared : ∀ event ∈ events, Spares id event) (ran : exec (step onNone) app events = some app') :
    Highlights app' id ∧ app'.selectedId = some id ∧
    ∀ i, app'.selected = some i → (app'.removeRow onNone id).rows ≠ [] →
      (app'.removeRow onNone id).selected = some (min i ((app'.removeRow onNone id).rows.length - 1)) := by
  have final : Highlights app' id := by
    induction events generalizing app with
    | nil =>
      cases ran
      exact highlights
    | cons event rest ih =>
      obtain ⟨next, taken, later⟩ := (exec_cons (step onNone) app app' event rest).1 ran
      apply ih next (step_highlights onNone app next event id highlights (spared event List.mem_cons_self) taken)
      · exact fun other member => spared other (List.mem_cons_of_mem _ member)
      · exact later
  refine ⟨final, by rw [App.selectedId, final.1], ?_⟩
  intro i here some_
  have rows : (app'.removeRow onNone id).rows = app'.rows.filter (fun r => r.id ≠ id) := by
    rw [App.removeRow, App.restoreSelection]
    split_ifs
    · rfl
    · dsimp only
      rw [final.1]
      dsimp only
      cases (app'.rows.filter (fun r => r.id ≠ id)).findIdx? (fun r => r.id = id) with
      | _ => rfl
  rw [rows] at some_ ⊢
  have gone : (app'.rows.filter (fun r => r.id ≠ id)).findIdx? (fun r => r.id = id) = none := by
    apply List.findIdx?_eq_none_iff.2
    intro r member
    have other := of_decide_eq_true (List.mem_filter.1 member).2
    simpa using other
  rw [App.removeRow, App.restoreSelection]
  rw [if_neg some_, final.1]
  dsimp only
  rw [gone, here]
  rfl

/-- The second line is highlighted. -/
def twoLines : App := ⟨[debian, ubuntu], some 1, some 7, some 1, 0, 10, noRates, [.idAsc]⟩

theorem twoLines_sticks : ∃ app,
    exec (step (fun _ => 0)) twoLines [.removeRow 9, .wantStart 7 false, .draw 24] = some app ∧
    app.selected = some 0 ∧ app.selectedId = some 7 := by
  refine ⟨_, rfl, rfl, ?_⟩
  apply (highlight_sticks (fun _ => 0) twoLines _ 7 [.removeRow 9, .wantStart 7 false, .draw 24] _ _ rfl).2.1
  · exact ⟨rfl, 1, ubuntu, rfl, rfl, rfl⟩
  · simp [Spares]

end Seedchamp.Tui.ListSelection
