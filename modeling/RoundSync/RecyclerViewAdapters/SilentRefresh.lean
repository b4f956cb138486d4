import RoundSync.Data.KeyedLists
import RoundSync.Rclone.RemoteItems
import RoundSync.Transition.Core

/-!
# The silent refresh of a directory

`FileExplorerRecyclerViewAdapter` replaces its list at once in the grid view, and in the
list view edits it step by step, so that the rows can move.  Entries are equal if they
have the same remote, path and name; what else they hold may be older than the listing.
-/

namespace RoundSync.RecyclerViewAdapters

open RoundSync.Data
open RoundSync.Text
open RoundSync.Transition

structure FileItem where
  remote : Rclone.Listing.RemoteItem
  path : JavaString
  name : JavaString
  mimeType : JavaString
  size : Int64
  modTime : Int64
  isDir : Bool
  startAtRoot : Bool
  deriving DecidableEq

namespace FileItem

def getPath (item : FileItem) : JavaString :=
  if item.startAtRoot ∧ item.path.head? ≠ some '/' then '/' :: item.path else item.path

/-- What `equals` compares; two remotes are equal if they have the same name and type. -/
def identity (item : FileItem) : (JavaString × Int) × JavaString × JavaString :=
  ((item.remote.name, item.remote.type), item.getPath, item.name)

end FileItem

inductive ViewMode where
  | list
  | grid
  deriving DecidableEq

/-- The fields of the adapter that `updateData` and the selection use. -/
@[ext]
structure Explorer where
  viewMode : ViewMode
  files : List FileItem
  selectedItems : List FileItem
  isInSelectMode : Bool

/-- A click on an entry in select mode or a long click, and the two menu entries. -/
inductive Click where
  | longClick (position : Nat)
  | toggleSelectAll
  | cancelSelection

namespace Explorer

open KeyedLists

/-! ## The selection -/

/-- A list as `newData` shows it. -/
def display (viewMode : ViewMode) (files : List FileItem) : Explorer where
  viewMode := viewMode
  files := files
  selectedItems := []
  isInSelectMode := false

def onLongClickAction (explorer : Explorer) (item : FileItem) : Explorer :=
  if Contains FileItem.identity explorer.selectedItems item then
    let selectedItems := remove FileItem.identity explorer.selectedItems item
    { explorer with
      selectedItems
      isInSelectMode := if selectedItems.isEmpty then false else explorer.isInSelectMode }
  else
    { explorer with
      selectedItems := explorer.selectedItems ++ [item]
      isInSelectMode := true }

def toggleSelectAll (explorer : Explorer) : Explorer :=
  if explorer.selectedItems.length = explorer.files.length then
    { explorer with
      isInSelectMode := false
      selectedItems := [] }
  else
    { explorer with
      isInSelectMode := true
      selectedItems := explorer.files }

def cancelSelection (explorer : Explorer) : Explorer :=
  { explorer with
    isInSelectMode := false
    selectedItems := [] }

def click (explorer : Explorer) : Click → Explorer
  | .longClick position =>
      match explorer.files[position]? with
      | none => explorer
      | some item => explorer.onLongClickAction item
  | .toggleSelectAll => explorer.toggleSelectAll
  | .cancelSelection => explorer.cancelSelection

/-! ## The refresh -/

/-- The first loop of the list view, on an entry that the new listing lacks. -/
def removeItem (explorer : Explorer) (fileItem : FileItem) : Option Explorer :=
  match indexOf FileItem.identity explorer.files fileItem with
  | none => none
  | some index =>
      let explorer := { explorer with files := explorer.files.eraseIdx index }
      if Contains FileItem.identity explorer.selectedItems fileItem then
        let selectedItems := remove FileItem.identity explorer.selectedItems fileItem
        some { explorer with
          selectedItems
          isInSelectMode := !selectedItems.isEmpty }
      else some explorer

/-- Nothing where the code throws. -/
def updateData (explorer : Explorer) (newData : List FileItem) : Option Explorer :=
  match explorer.viewMode with
  | .grid =>
      let selectedItems := retainAll FileItem.identity explorer.selectedItems newData
      some { explorer with
        selectedItems
        isInSelectMode := !selectedItems.isEmpty
        files := newData }
  | .list =>
      if newData.isEmpty then some { explorer with files := [] }
      else do
        let explorer ←
          (removeAll FileItem.identity explorer.files newData).foldlM removeItem explorer
        let files ← insertAll FileItem.identity newData explorer.files
          (removeAll FileItem.identity newData explorer.files)
        some { explorer with files := files.map (refreshed FileItem.identity newData) }

/-- The new listing is shown, with what of the selection is still in it. -/
structure Shows (explorer : Explorer) (newData : List FileItem) (next : Explorer) : Prop where
  files : next.files = newData
  selectedItems : next.selectedItems =
    explorer.selectedItems.filter fun item => Contains FileItem.identity newData item
  isInSelectMode : next.isInSelectMode = true ↔ next.selectedItems ≠ []
  viewMode : next.viewMode = explorer.viewMode

/-- The entries that both lists have stand in both in the same order. -/
def SameOrder (files newData : List FileItem) : Prop :=
  (retainAll FileItem.identity files newData).map FileItem.identity =
    (retainAll FileItem.identity newData files).map FileItem.identity

instance (files newData : List FileItem) : Decidable (SameOrder files newData) :=
  inferInstanceAs (Decidable (_ = _))

/-- A selection that is made with clicks: each selected entry is a displayed one, and the
mode says whether there are any. -/
structure Selected (explorer : Explorer) : Prop where
  displayed : (explorer.selectedItems.map FileItem.identity).Subperm
    (explorer.files.map FileItem.identity)
  mode : explorer.isInSelectMode = !explorer.selectedItems.isEmpty

theorem selected_display (viewMode : ViewMode) (files : List FileItem) :
    (display viewMode files).Selected where
  displayed := List.nil_subperm
  mode := rfl

variable {explorer next : Explorer} {newData : List FileItem}

theorem Selected.onLongClickAction {item : FileItem} (selected : explorer.Selected)
    (member : item ∈ explorer.files) : (explorer.onLongClickAction item).Selected := by
  rw [Explorer.onLongClickAction]
  split_ifs with contained
  · constructor
    · exact ((remove_sublist _ _).map _).subperm.trans selected.displayed
    · have nonempty : explorer.isInSelectMode = true := by
        rw [selected.mode]
        cases empty : explorer.selectedItems with
        | nil => simp [Contains, empty] at contained
        | cons head tail => rfl
      cases empty : (remove FileItem.identity explorer.selectedItems item).isEmpty with
      | true => simp [empty]
      | false => simp [empty, nonempty]
  · constructor
    · rw [List.map_append, List.map_singleton]
      exact (List.perm_append_singleton _ _).subperm.trans
        (List.cons_subperm_of_not_mem_of_mem contained (List.mem_map_of_mem member)
          selected.displayed)
    · simp

theorem Selected.toggleSelectAll (selected : explorer.Selected) :
    explorer.toggleSelectAll.Selected := by
  rw [Explorer.toggleSelectAll]
  split_ifs with whole
  · exact ⟨List.nil_subperm, rfl⟩
  · refine ⟨List.Subperm.refl _, ?_⟩
    have shorter := selected.displayed.length_le
    cases empty : explorer.files with
    | nil => simp [empty] at whole shorter; exact absurd shorter whole
    | cons head tail => rfl

theorem Selected.click (selected : explorer.Selected) (click : Click) :
    (explorer.click click).Selected := by
  cases click with
  | longClick position =>
      rw [Explorer.click]
      split
      next => exact selected
      next item found => exact selected.onLongClickAction (List.mem_of_getElem? found)
  | toggleSelectAll => exact selected.toggleSelectAll
  | cancelSelection => exact ⟨List.nil_subperm, rfl⟩

theorem selected_run (viewMode : ViewMode) (files : List FileItem) (clicks : List Click) :
    (run click (display viewMode files) clicks).Selected :=
  (Always.of_preserved (fun _ click selected => selected.click click) clicks
    (selected_display viewMode files)).last

/-! ## The grid view -/

/-- The state that shows a listing. -/
def shown (explorer : Explorer) (newData : List FileItem) : Explorer :=
  let selectedItems := retainAll FileItem.identity explorer.selectedItems newData
  { explorer with
    selectedItems
    isInSelectMode := !selectedItems.isEmpty
    files := newData }

theorem updateData_grid (grid : explorer.viewMode = .grid) :
    explorer.updateData newData = some (explorer.shown newData) := by
  obtain ⟨viewMode, files, selectedItems, isInSelectMode⟩ := explorer
  cases grid
  rfl

theorem shows_shown : explorer.Shows newData (explorer.shown newData) where
  files := rfl
  selectedItems := rfl
  isInSelectMode := by simp [shown]
  viewMode := rfl

/-- There is one such state, and the grid view ends in it. -/
theorem shows_iff : explorer.Shows newData next ↔ next = explorer.shown newData := by
  constructor
  · intro shows
    apply Explorer.ext
    · exact shows.viewMode
    · exact shows.files
    · exact shows.selectedItems
    · apply Bool.eq_iff_iff.mpr
      rw [shows.isInSelectMode, shows.selectedItems, shows_shown.isInSelectMode]
      rfl
  · rintro rfl
    exact shows_shown

/-- Both views end in the same state exactly if the list view shows the listing. -/
theorem updateData_eq_shown_iff :
    explorer.updateData newData = some (explorer.shown newData) ↔
      ∃ next, explorer.updateData newData = some next ∧ explorer.Shows newData next := by
  constructor
  · intro result
    exact ⟨_, result, shows_shown⟩
  · rintro ⟨next, result, shows⟩
    rwa [← shows_iff.mp shows]

/-! ## The list view -/

/-- An entry that is displayed is removed from the list and the selection. -/
theorem removeItem_eq {fileItem : FileItem} (selected : explorer.Selected)
    (member : fileItem ∈ explorer.files) :
    explorer.removeItem fileItem =
      some { explorer with
        files := remove FileItem.identity explorer.files fileItem
        selectedItems := remove FileItem.identity explorer.selectedItems fileItem
        isInSelectMode := !(remove FileItem.identity explorer.selectedItems fileItem).isEmpty } := by
  have displayed : Contains FileItem.identity explorer.files fileItem := contains_of_mem member
  obtain ⟨index, found⟩ := exists_indexOf displayed
  rw [removeItem, found]
  simp only [eraseIdx_indexOf found]
  split_ifs with contained
  · rfl
  · rw [remove_of_not_contains contained, ← selected.mode]

/-- What the first loop keeps: the entries that are left to remove are those of the list
that the listing lacks; what the listing has is not touched. -/
structure Removing (before : Explorer) (newData missing : List FileItem) (explorer : Explorer) :
    Prop where
  missing : removeAll FileItem.identity explorer.files newData = missing
  selected : explorer.Selected
  viewMode : explorer.viewMode = before.viewMode
  files : retainAll FileItem.identity explorer.files newData =
    retainAll FileItem.identity before.files newData
  selectedItems : retainAll FileItem.identity explorer.selectedItems newData =
    retainAll FileItem.identity before.selectedItems newData

theorem removing_self (selected : explorer.Selected) (newData : List FileItem) :
    Removing explorer newData (removeAll FileItem.identity explorer.files newData) explorer :=
  ⟨rfl, selected, rfl, rfl, rfl⟩

theorem Removing.removeItem {before : Explorer} {fileItem : FileItem} {missing : List FileItem}
    (removing : Removing before newData (fileItem :: missing) explorer) :
    ∃ next, explorer.removeItem fileItem = some next ∧ Removing before newData missing next := by
  have first : fileItem ∈ removeAll FileItem.identity explorer.files newData := by
    rw [removing.missing]
    exact List.mem_cons_self
  obtain ⟨member, lacked⟩ := List.mem_filter.mp first
  have lacked : ¬Contains FileItem.identity newData fileItem := of_decide_eq_true lacked
  refine ⟨_, removeItem_eq removing.selected member, ?_⟩
  constructor
  · exact removeAll_remove_head removing.missing
  · exact ⟨subperm_remove fileItem removing.selected.displayed, rfl⟩
  · exact removing.viewMode
  · exact (retainAll_remove lacked).trans removing.files
  · exact (retainAll_remove lacked).trans removing.selectedItems

/-- The first loop leaves the entries that the listing has, and throws nothing. -/
theorem Removing.foldlM {before : Explorer} {missing : List FileItem}
    (removing : Removing before newData missing explorer) :
    ∃ next, missing.foldlM Explorer.removeItem explorer = some next ∧
      Removing before newData [] next := by
  induction missing generalizing explorer with
  | nil => exact ⟨explorer, rfl, removing⟩
  | cons fileItem missing ih =>
      obtain ⟨middle, step, left⟩ := removing.removeItem
      obtain ⟨next, rest, done⟩ := ih left
      refine ⟨next, ?_, done⟩
      rw [List.foldlM_cons, step]
      exact rest

/-- What is left after the first loop. -/
theorem Removing.done {before : Explorer} (removing : Removing before newData [] explorer) :
    explorer = { before.shown newData with
      files := retainAll FileItem.identity before.files newData } := by
  have files := (retainAll_of_removeAll_eq_nil removing.missing).symm.trans removing.files
  have within : ∀ item ∈ explorer.selectedItems, Contains FileItem.identity newData item := by
    intro item member
    have displayed := removing.selected.displayed.subset (List.mem_map_of_mem member)
    obtain ⟨other, otherMember, same⟩ := List.mem_map.mp displayed
    rw [files] at otherMember
    exact (contains_congr newData same).mp (of_decide_eq_true (List.mem_filter.mp otherMember).2)
  have selectedItems : explorer.selectedItems =
      retainAll FileItem.identity before.selectedItems newData :=
    (retainAll_eq_self within).symm.trans removing.selectedItems
  apply Explorer.ext
  · exact removing.viewMode
  · exact files
  · exact selectedItems
  · rw [removing.selected.mode, selectedItems]
    rfl

/-- The first loop leaves the entries that the listing has, whatever is selected. -/
theorem foldlM_removeItem_files {missing : List FileItem}
    (missingEq : removeAll FileItem.identity explorer.files newData = missing) :
    ∃ next, missing.foldlM Explorer.removeItem explorer = some next ∧
      next.files = retainAll FileItem.identity explorer.files newData := by
  induction missing generalizing explorer with
  | nil => exact ⟨explorer, rfl, (retainAll_of_removeAll_eq_nil missingEq).symm⟩
  | cons fileItem missing ih =>
      have first : fileItem ∈ removeAll FileItem.identity explorer.files newData := by
        rw [missingEq]
        exact List.mem_cons_self
      obtain ⟨member, lacked⟩ := List.mem_filter.mp first
      have lacked : ¬Contains FileItem.identity newData fileItem := of_decide_eq_true lacked
      obtain ⟨index, found⟩ := exists_indexOf
        (contains_of_mem member : Contains FileItem.identity explorer.files fileItem)
      have removed : ∃ middle, explorer.removeItem fileItem = some middle ∧
          middle.files = remove FileItem.identity explorer.files fileItem := by
        rw [removeItem, found]
        simp only [eraseIdx_indexOf found]
        split_ifs
        · exact ⟨_, rfl, rfl⟩
        · exact ⟨_, rfl, rfl⟩
      obtain ⟨middle, step, middleFiles⟩ := removed
      have rest := @ih middle
        (by rw [middleFiles]; exact removeAll_remove_head missingEq)
      rw [middleFiles, retainAll_remove lacked] at rest
      obtain ⟨next, looped, files⟩ := rest
      refine ⟨next, ?_, files⟩
      rw [List.foldlM_cons, step]
      exact looped

/-- The list view on a listing that is not empty: the removals always end as in the grid
view, and only the insertions can go wrong. -/
theorem updateData_list (list : explorer.viewMode = .list) (selected : explorer.Selected)
    (nonempty : newData ≠ []) :
    explorer.updateData newData =
      (insertAll FileItem.identity newData (retainAll FileItem.identity explorer.files newData)
        (removeAll FileItem.identity newData
          (retainAll FileItem.identity explorer.files newData))).map fun files =>
            { explorer.shown newData with
              files := files.map (refreshed FileItem.identity newData) } := by
  obtain ⟨next, looped, removing⟩ := (removing_self selected newData).foldlM
  have done := removing.done
  subst done
  have notEmpty : newData.isEmpty = false := by simpa using nonempty
  obtain ⟨viewMode, files, selectedItems, isInSelectMode⟩ := explorer
  cases list
  simp only [updateData, notEmpty, Bool.false_eq_true, if_false, looped]
  rw [Option.map_eq_bind]
  rfl

/-- What a list view ends in on a listing that is not empty. -/
theorem shows_list_iff (list : explorer.viewMode = .list) (selected : explorer.Selected)
    (nonempty : newData ≠ []) (distinct : (newData.map FileItem.identity).Nodup) :
    (∃ next, explorer.updateData newData = some next ∧ explorer.Shows newData next) ↔
      SameOrder explorer.files newData := by
  have inserted := @insertAll_missing_iff _ _ _ FileItem.identity newData
    (retainAll FileItem.identity explorer.files newData) distinct
  rw [retainAll_retainAll] at inserted
  rw [updateData_list list selected nonempty, SameOrder, ← inserted]
  constructor
  · rintro ⟨next, result, shows⟩
    obtain ⟨files, filesEq, rfl⟩ := Option.map_eq_some_iff.mp result
    exact ⟨files, filesEq, (map_refreshed_eq_iff distinct).mp shows.files⟩
  · rintro ⟨files, filesEq, keysEq⟩
    rw [filesEq]
    refine ⟨_, rfl, ?_⟩
    exact ⟨(map_refreshed_eq_iff distinct).mpr keysEq, rfl, shows_shown.isInSelectMode, rfl⟩

/-- An empty listing in the list view leaves the selection as it is. -/
theorem shows_list_nil_iff (list : explorer.viewMode = .list) (selected : explorer.Selected) :
    (∃ next, explorer.updateData [] = some next ∧ explorer.Shows [] next) ↔
      explorer.selectedItems = [] := by
  have result : explorer.updateData [] = some { explorer with files := [] } := by
    obtain ⟨viewMode, files, selectedItems, isInSelectMode⟩ := explorer
    cases list
    rfl
  rw [result]
  constructor
  · rintro ⟨next, same, shows⟩
    cases same
    exact shows.selectedItems.trans (List.filter_eq_nil_iff.mpr (by simp [Contains]))
  · intro none
    refine ⟨_, rfl, rfl, ?_, ?_, rfl⟩
    · rw [none]
      rfl
    · simp [selected.mode]

/-! ## All displayed lists and selections -/

theorem click_keeps (explorer : Explorer) (click : Click) :
    (explorer.click click).viewMode = explorer.viewMode ∧
      (explorer.click click).files = explorer.files := by
  cases click with
  | longClick position =>
      rw [Explorer.click]
      split
      next => exact ⟨rfl, rfl⟩
      next item _ =>
          rw [Explorer.onLongClickAction]
          split_ifs
          · exact ⟨rfl, rfl⟩
          · exact ⟨rfl, rfl⟩
  | toggleSelectAll =>
      rw [Explorer.click, Explorer.toggleSelectAll]
      split_ifs
      · exact ⟨rfl, rfl⟩
      · exact ⟨rfl, rfl⟩
  | cancelSelection => exact ⟨rfl, rfl⟩

theorem clicks_keep (explorer : Explorer) (clicks : List Click) :
    (run click explorer clicks).viewMode = explorer.viewMode ∧
      (run click explorer clicks).files = explorer.files := by
  induction clicks generalizing explorer with
  | nil => exact ⟨rfl, rfl⟩
  | cons click clicks ih =>
      obtain ⟨viewMode, files⟩ := click_keeps explorer click
      rw [run_cons]
      exact ⟨(ih _).1.trans viewMode, (ih _).2.trans files⟩

/-- When a refresh shows the new listing, for every displayed list and every selection:
always in the grid view, and in the list view if the entries that are in both lists have
kept their order and, for an empty listing, nothing is selected. -/
theorem refresh_shows_iff (viewMode : ViewMode) (files : List FileItem) (clicks : List Click)
    (newData : List FileItem) (distinct : (newData.map FileItem.identity).Nodup) :
    (∃ next, (run click (display viewMode files) clicks).updateData newData = some next ∧
        (run click (display viewMode files) clicks).Shows newData next) ↔
      viewMode = .grid ∨ SameOrder files newData ∧
        (newData = [] → (run click (display viewMode files) clicks).selectedItems = []) := by
  have selected := selected_run viewMode files clicks
  obtain ⟨viewModeEq, filesEq⟩ := clicks_keep (display viewMode files) clicks
  generalize run click (display viewMode files) clicks = explorer at selected viewModeEq filesEq ⊢
  change explorer.viewMode = viewMode at viewModeEq
  change explorer.files = files at filesEq
  cases viewMode with
  | grid =>
      refine iff_of_true ?_ (Or.inl rfl)
      exact ⟨_, updateData_grid viewModeEq, shows_shown⟩
  | list =>
      rw [← filesEq, or_iff_right (by simp)]
      cases newData with
      | nil =>
          rw [shows_list_nil_iff viewModeEq selected]
          have sameOrder : SameOrder explorer.files [] := by
            simp [SameOrder, retainAll, Contains]
          simp [sameOrder]
      | cons head tail =>
          rw [shows_list_iff viewModeEq selected (List.cons_ne_nil head tail) distinct]
          simp

/-- A photo of the local storage. -/
def photo (name : String) (size : Int64) : FileItem where
  remote := ⟨"sdcard".toList, 18, "local".toList, false, false, false, false⟩
  path := name.toList
  name := name.toList
  mimeType := "image/jpeg".toList
  size := size
  modTime := 0
  isDir := false
  startAtRoot := false

/-- A listing with a new entry in front of a grown one. -/
theorem grownPhoto_shown :
    ∃ next, (run click (display .list [photo "b.jpg" 1]) [.longClick 0]).updateData
        [photo "a.jpg" 5, photo "b.jpg" 2] = some next ∧
      (run click (display .list [photo "b.jpg" 1]) [.longClick 0]).Shows
        [photo "a.jpg" 5, photo "b.jpg" 2] next := by
  apply (refresh_shows_iff .list [photo "b.jpg" 1] [.longClick 0]
    [photo "a.jpg" 5, photo "b.jpg" 2] (by decide)).mpr
  exact Or.inr ⟨by decide, by simp⟩

/-- After the last file of a directory is gone it stays selected. -/
theorem vanishedPhoto_not_shown :
    ¬∀ (viewMode : ViewMode) (files : List FileItem) (clicks : List Click)
        (newData : List FileItem), (newData.map FileItem.identity).Nodup →
      ∃ next, (run click (display viewMode files) clicks).updateData newData = some next ∧
        (run click (display viewMode files) clicks).Shows newData next := by
  intro always
  obtain ⟨next, result, shows⟩ := always .list [photo "b.jpg" 1] [.longClick 0] [] List.nodup_nil
  cases result
  exact absurd shows.selectedItems (by decide)

end Explorer

end RoundSync.RecyclerViewAdapters
