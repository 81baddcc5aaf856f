/-
The settings panel and the threads that it starts (`globalPlugins/samsungTVVoices.py`,
`SamsungTVVoicesPanel`, `_startFirmwareDownload`, `_downloadState`).

The main thread runs one handler after the other.  A handler that shows a message box ends its
step there: while the box is open the timer and the callbacks that other threads have posted go on,
and the panel takes no other input.  `onRemove` looks at the packs twice before it asks, and other
threads may run in between.  A step of another thread is the call of a store function, its return,
or what it does to the packs in between.  What is only displayed is left out.
-/
import SamsungTVVoices.Store.Packs
import SamsungTVVoices.Lib.StepSystem

open SamsungTVVoices.Store

namespace SamsungTVVoices.Panel

/-! ### The state -/

/-- What the handlers use of `_downloadState`. -/
structure DownloadState where
  busy : Bool
  selected : List PackId
  completedSerial : ℕ
deriving DecidableEq, Repr

/-- Where the installation thread is, if there is one. -/
inductive DownloadPc where
  | idle
  /-- At the head of its loop. -/
  | next (packIds : List PackId)
  /-- In `firmwareStore.installPack`. -/
  | installing (packId : PackId) (rest : List PackId)
deriving DecidableEq, Repr

/-- Where a removal thread is. -/
inductive RemovalPc where
  | starting
  /-- In `firmwareStore.removePacks`, with these folders still to be deleted. -/
  | removing (rest : List PackId)
  | returned
deriving DecidableEq, Repr

structure Removal where
  packIds : List PackId
  pc : RemovalPc
deriving DecidableEq, Repr

/-- Where the main thread is in a handler. -/
inductive HandlerPc where
  /-- `onRemove` has collected the selected packs that are installed. -/
  | guardRemoval (packIds : List PackId)
  /-- The message box of `onDownload` is open. -/
  | askDownload (packIds : List PackId)
  /-- The message box of `onRemove` is open. -/
  | askRemoval (packIds : List PackId)
deriving DecidableEq, Repr

structure PanelState where
  /-- `_busy` -/
  busy : Bool
  downloadEnabled : Bool
  removeEnabled : Bool
  selected : List PackId
  handler : Option HandlerPc
  seenCompletedSerial : ℕ
  downloadState : DownloadState
  downloader : DownloadPc
  removals : List Removal
  /-- The calls of `_removeFinished` that have been posted. -/
  posted : List (List PackId)
  /-- The packs for which `isPackInstalled` holds. -/
  installed : List PackId
deriving DecidableEq, Repr

/-! ### The handlers -/

def updateButtons (s : PanelState) : PanelState :=
  { s with
    downloadEnabled := !s.busy && !s.selected.isEmpty
    removeEnabled := !s.busy && s.selected.any (· ∈ s.installed) }

/-- `_refresh`: the rows are selected again, or the first one. -/
def refresh (s : PanelState) (selected : List PackId) : PanelState :=
  updateButtons { s with
    selected := if selected.isEmpty then PACKS.take 1 else PACKS.filter (· ∈ selected) }

/-- `_syncDownloadState` -/
def syncDownloadState (s : PanelState) : PanelState :=
  let s := { s with busy := s.downloadState.busy }
  if s.downloadState.completedSerial ≠ s.seenCompletedSerial then
    refresh { s with seenCompletedSerial := s.downloadState.completedSerial }
      s.downloadState.selected
  else updateButtons s

/-- `_startFirmwareDownload`, and `_syncDownloadState` if it has started one. -/
def startDownload (s : PanelState) (packIds : List PackId) : PanelState :=
  -- `_startFirmwareDownload` returns `False`
  if s.downloadState.busy then s
  else syncDownloadState { s with
    downloadState := { s.downloadState with busy := true, selected := packIds }
    downloader := .next packIds }

/-- `onDownload`, up to the message box. -/
def onDownload (s : PanelState) : PanelState :=
  if s.busy ∨ s.selected = [] then s
  else if s.installed = [] then { s with handler := some (.askDownload s.selected) }
  else startDownload s s.selected

/-- `onRemove`, up to the first look at the packs. -/
def onRemove (s : PanelState) : PanelState :=
  let packIds := s.selected.filter (· ∈ s.installed)
  if packIds = [] then s else { s with handler := some (.guardRemoval packIds) }

/-- The packs that would be left. -/
def remaining (s : PanelState) (packIds : List PackId) : List PackId :=
  s.installed.filter (· ∉ packIds)

/-- `onRemove` goes on up to the message box; whether Samsung TV Voices is the active
synthesizer. -/
def guardRemoval (active : Bool) (s : PanelState) (packIds : List PackId) : PanelState :=
  -- the last pack of the active synthesizer is not removed
  if active ∧ remaining s packIds = [] then { s with handler := none }
  else { s with handler := some (.askRemoval packIds) }

/-- What follows the message box. -/
def answer (s : PanelState) (yes : Bool) : HandlerPc → Option PanelState
  | .guardRemoval _ => none
  | .askDownload packIds =>
      let s := { s with handler := none }
      some (if yes then startDownload s packIds else s)
  | .askRemoval packIds =>
      let s := { s with handler := none }
      some (if yes then
        { updateButtons { s with busy := true } with
          removals := s.removals ++ [⟨packIds, .starting⟩] }
      else s)

/-- `_removeFinished` -/
def removeFinished (s : PanelState) (packIds : List PackId) : PanelState :=
  refresh { s with busy := false } packIds

/-! ### The threads -/

/-- A step of the installation thread. -/
def downloaderStep (s : PanelState) : Option PanelState :=
  match s.downloader with
  | .idle => none
  | .next [] => some { s with
      downloadState := { s.downloadState with
        busy := false
        completedSerial := s.downloadState.completedSerial + 1 }
      downloader := .idle }
  | .next (packId :: rest) => some { s with downloader := .installing packId rest }
  | .installing _ rest => some { s with downloader := .next rest }

/-- `installPack` makes its pack appear or disappear. -/
def swapStep (s : PanelState) (appears : Bool) : Option PanelState :=
  match s.downloader with
  | .installing packId _ =>
      -- the pack is moved aside and back, so it may be seen or not
      let others := s.installed.filter (· ≠ packId)
      some { s with installed := if appears then packId :: others else others }
  | _ => none

/-- A step of a removal thread; whether the pack that it deletes is gone, when it deletes one. -/
def removalStep (s : PanelState) (i : ℕ) (gone : Bool) : Option PanelState :=
  s.removals[i]?.map fun r =>
    match r.pc with
    | .starting => { s with removals := s.removals.set i { r with pc := .removing r.packIds } }
    | .removing (packId :: rest) => { s with
        removals := s.removals.set i { r with pc := .removing rest }
        installed := if gone then s.installed.filter (· ≠ packId) else s.installed }
    | .removing [] => { s with removals := s.removals.set i { r with pc := .returned } }
    -- `wx.CallAfter(self._removeFinished, packIds)`
    | .returned => { s with removals := s.removals.eraseIdx i, posted := s.posted ++ [r.packIds] }

/-! ### The steps -/

inductive PanelAction where
  /-- The selection changes. -/
  | select (packIds : List PackId)
  | pressDownload
  | pressRemove
  /-- `onRemove` goes on. -/
  | guard
  | answer (yes : Bool)
  /-- The timer fires. -/
  | tick
  /-- The main thread runs a call that was posted. -/
  | removeFinished
  | downloader
  | swap (appears : Bool)
  | removal (i : ℕ) (gone : Bool)
deriving DecidableEq, Repr

/-- The main thread waits for events, perhaps in a message box. -/
def PanelState.Waits (s : PanelState) : Prop := ∀ packIds, s.handler ≠ some (.guardRemoval packIds)

instance (s : PanelState) : Decidable s.Waits :=
  match h : s.handler with
  | some (.guardRemoval packIds) => .isFalse fun hwaits => hwaits packIds h
  | none | some (.askDownload _) | some (.askRemoval _) =>
      .isTrue fun packIds heq => by rw [h] at heq; cases heq

/-- One step; whether Samsung TV Voices is the active synthesizer. -/
def panelStep (active : Bool) (s : PanelState) : PanelAction → Option PanelState
  | .select packIds =>
      if s.handler = none then
        some (updateButtons { s with selected := PACKS.filter (· ∈ packIds) })
      else none
  | .pressDownload => if s.handler = none ∧ s.downloadEnabled then some (onDownload s) else none
  | .pressRemove => if s.handler = none ∧ s.removeEnabled then some (onRemove s) else none
  | .guard =>
      match s.handler with
      | some (.guardRemoval packIds) => some (guardRemoval active s packIds)
      | _ => none
  | .answer yes => s.handler.bind (answer s yes)
  | .tick => if s.Waits then some (syncDownloadState s) else none
  | .removeFinished =>
      match s.posted with
      | [] => none
      | packIds :: posted =>
          if s.Waits then some (removeFinished { s with posted := posted } packIds) else none
  | .downloader => downloaderStep s
  | .swap appears => swapStep s appears
  | .removal i gone => removalStep s i gone

/-- The panel is opened, and no other thread of it runs. -/
def initialState (installed : List PackId) : PanelState :=
  refresh
    { busy := false
      downloadEnabled := false
      removeEnabled := false
      selected := []
      handler := none
      seenCompletedSerial := 0
      downloadState := ⟨false, [], 0⟩
      downloader := .idle
      removals := []
      posted := []
      installed := installed } []

end SamsungTVVoices.Panel
