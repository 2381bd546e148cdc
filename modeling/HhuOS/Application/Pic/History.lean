import Mathlib.Data.List.Basic
import Mathlib.Algebra.Group.Nat.Basic

/-!
# The undo history of the paint tool

`History` keeps the commands of the user's operations in `commands`, the number `currentCommand`
of them that are done, a buffer `lines` with the segments of the stroke being drawn, and a copy
of the canvas after every `SNAPSHOT_INTERVAL`-th command in `snapshots`.

`History::addCommand` first drops the redo part: the commands from index `currentCommand` on and
the snapshots past them. It then appends the command and moves `currentCommand` to the end (a
stroke's segments wait in `lines` until `prepareNextDrawing` joins them into one `line` command),
and it takes a snapshot when the new `currentCommand` is a multiple of the interval.
`History::undo` rebuilds the canvas for `currentCommand - 1` from the latest snapshot at or below
it (or from the empty canvas) by replaying the commands after it. `History::redo` replays the
next command.

`Layers`, `Layer` and the grammar of the command strings are not in the source tree. The canvas
is what `History` reads and writes of `Layers` (`Canvas`: the array of layers, `layerCount`,
`currentLayer`), the operations of `Layers` are parameters (`Layers`), and a command is recorded
as the operation its string decodes back to. `SNAPSHOT_INTERVAL` is a parameter.

A snapshot is History's own copy (`snapshotOf`, `restoreSnapshot`): each of the first
`layerCount` layers is rebuilt as `new Layer(width, height, posX, posY, 1, pixels)`, so it keeps
the size, the position and the pixels of a layer (`Canvas.view`), but not the rest of it, which
the constant `1` stands for (`restoreSnapshot_layers_rest`), nor `currentLayer`. A snapshot
copied back looks like the canvas it was taken of (`view_restoreSnapshot_snapshotOf`), and no
more: after an undo from a snapshot, a layer that held something else than what the constant `1`
gives it differs from the replay (`undo_from_snapshot_resets_layers`).

The test at the top of `addCommand`, `commands->size() > currentCommand - 1`, is computed in
32-bit unsigned arithmetic (`predUInt32`): at `currentCommand = 0` its right side is `2^32 - 1`
and the redo part stays. `Consistent` is the history invariant: the canvas looks like the replay
of the done commands, and snapshot `j` copied back looks like the replay of the first
`(j + 1) * SNAPSHOT_INTERVAL`. `consistent_of_reachable` proves it, and what it says of `undo`
and `redo`, over every run that records no operation in that state, for operations of `Layers`
that act on what a snapshot keeps alone (`ViewDetermined`); `undo_to_start_keeps_redo` is a run
that records one.
-/

namespace HhuOS

namespace History

/-- What `History` reads of a `Layer`: the public fields `width`, `height`, `posX` and `posY`,
the pixels that `getPixelData()` returns, and the rest of the layer (`ρ`). -/
structure Layer (ρ : Type) where
  width : Int
  height : Int
  posX : Int
  posY : Int
  pixelData : Nat → UInt32
  rest : ρ

/-- What `History` reads and writes of `Layers`: the array `layers`, `layerCount` and
`currentLayer`, and the rest of the object (`τ`). -/
structure Canvas (ρ τ : Type) where
  layers : Nat → Layer ρ
  layerCount : Int
  currentLayer : Int
  rest : τ

/-- A stored snapshot, `Util::Pair<Layer **, int>`: copies of the first `layerCount` layers. -/
structure Snapshot (ρ : Type) where
  layers : List (Layer ρ)
  layerCount : Int
  length_layers : layers.length = layerCount.toNat

/-- The calls of `Layers` that the history makes, over layers with rest `ρ`, canvases with rest
`τ`, operations `ο` and stroke segments `σ`. -/
structure Layers (ρ τ ο σ : Type) where
  /-- `Layers::reset`: the empty canvas, which is also the canvas the tool starts with. -/
  reset : Canvas ρ τ
  /-- The operation that a command other than `line` names, as `execCommandOn` calls it. -/
  perform : ο → Canvas ρ τ → Canvas ρ τ
  /-- `Layers::drawLine` on one segment. -/
  drawLine : σ → Canvas ρ τ → Canvas ρ τ
  /-- What `new Layer(width, height, posX, posY, v, pixelData)` holds besides its size, its
  position and its pixels, from its fifth argument `v`. -/
  layerRest : Int → ρ

/-- A stored command: a stroke's `line` command with all its segments, or another command. -/
inductive Command (ο σ : Type) where
  | line (segments : List σ)
  | other (op : ο)
  deriving DecidableEq, Repr

/-- What `Layers` passes to `addCommand`: one segment of a stroke, the end of a stroke, or
another command. -/
inductive Entry (ο σ : Type) where
  | line (segment : σ)
  | prepareNextDrawing
  | other (op : ο)
  deriving DecidableEq, Repr

/-- The canvas and the fields of `History`. -/
structure State (ρ τ ο σ : Type) where
  canvas : Canvas ρ τ
  commands : List (Command ο σ)
  currentCommand : Nat
  lines : List σ
  snapshots : List (Snapshot ρ)

/-- A user action: an operation or a stroke through `Layers` with `writeHistory = true`, or an
undo or a redo. -/
inductive Action (ο σ : Type) where
  | perform (op : ο)
  | stroke (segments : List σ)
  | undo
  | redo
  deriving DecidableEq, Repr

variable {ρ τ ο σ : Type} (L : Layers ρ τ ο σ) (snapshotInterval : Nat)

/-! ## The copies of `addCommand` and `undo` -/

/-- The loop `newPixelData[j] = pixelData[j]` for `j < width * height`. The new array has no
other entries; the model reads them as 0. -/
def copyPixels (width height : Int) (pixelData : Nat → UInt32) (j : Nat) : UInt32 :=
  if (j : Int) < width * height then pixelData j else 0

/-- `new Layer(l->width, l->height, l->posX, l->posY, 1, newPixelData)` over a copy of the pixels
of `l`: each layer of a snapshot, when `addCommand` takes it and again when `undo` copies it
back. -/
def copyLayer (l : Layer ρ) : Layer ρ :=
  ⟨l.width, l.height, l.posX, l.posY, copyPixels l.width l.height l.pixelData, L.layerRest 1⟩

/-- The snapshot that `addCommand` takes: a copy of each of the first `layerCount` layers. -/
def snapshotOf (k : Canvas ρ τ) : Snapshot ρ :=
  ⟨(List.range k.layerCount.toNat).map fun i => copyLayer L (k.layers i), k.layerCount, by simp⟩

/-- The start of `undo` from a snapshot: a copy of each of its layers over the layer at the same
index, `layerCount` from the snapshot, and `currentLayer` moved below it. -/
def restoreSnapshot (snapshot : Snapshot ρ) (k : Canvas ρ τ) : Canvas ρ τ :=
  { k with
    layers := fun i =>
      if h : i < snapshot.layers.length then copyLayer L snapshot.layers[i] else k.layers i
    layerCount := snapshot.layerCount
    currentLayer :=
      if k.currentLayer ≥ snapshot.layerCount then snapshot.layerCount - 1 else k.currentLayer }

/-- What a copy keeps of a layer: its size, its position and its first `width * height`
pixels. -/
def Layer.view (l : Layer ρ) : Int × Int × Int × Int × (Nat → UInt32) :=
  (l.width, l.height, l.posX, l.posY, copyPixels l.width l.height l.pixelData)

/-- What a snapshot keeps of a canvas: `layerCount`, and the view of each of the first
`layerCount` layers. -/
def Canvas.view (k : Canvas ρ τ) :
    Int × (Nat → Option (Int × Int × Int × Int × (Nat → UInt32))) :=
  (k.layerCount, fun i => if (i : Int) < k.layerCount then some (k.layers i).view else none)

/-- Copying pixels twice copies them once. -/
@[simp] lemma copyPixels_copyPixels (width height : Int) (pixelData : Nat → UInt32) :
    copyPixels width height (copyPixels width height pixelData) =
      copyPixels width height pixelData := by
  funext j
  unfold copyPixels
  split_ifs <;> rfl

/-- A copy of a layer looks like the layer. -/
@[simp] lemma view_copyLayer (l : Layer ρ) : (copyLayer L l).view = l.view := by
  simp [Layer.view, copyLayer]

/-- Two canvases look alike when they have the same layer count and their first `layerCount`
layers look alike. -/
lemma Canvas.view_eq_view {k k' : Canvas ρ τ} :
    k.view = k'.view ↔ k.layerCount = k'.layerCount ∧
      ∀ i : Nat, (i : Int) < k.layerCount → (k.layers i).view = (k'.layers i).view := by
  constructor
  · intro h
    have hc : k.layerCount = k'.layerCount := congrArg Prod.fst h
    refine ⟨hc, fun i hi => ?_⟩
    have hi' := congrFun (congrArg Prod.snd h) i
    simpa only [Canvas.view, ← hc, hi, if_true, Option.some.injEq] using hi'
  · rintro ⟨hc, hl⟩
    refine Prod.ext hc (funext fun i => ?_)
    simp only [Canvas.view, ← hc]
    split_ifs with hi
    · rw [hl i hi]
    · rfl

/-- Restoring a snapshot of `k` over any canvas gives a canvas that looks like `k`. -/
@[simp] lemma view_restoreSnapshot_snapshotOf (k c : Canvas ρ τ) :
    (restoreSnapshot L (snapshotOf L k) c).view = k.view := by
  refine Canvas.view_eq_view.2 ⟨rfl, fun i hi => ?_⟩
  change (i : Int) < k.layerCount at hi
  have hlt : i < k.layerCount.toNat := by omega
  simp only [restoreSnapshot, snapshotOf, List.length_map, List.length_range, dif_pos hlt,
    List.getElem_map, List.getElem_range, view_copyLayer]

/-- What a restore does not bring back: each restored layer holds what
`new Layer(..., 1, ...)` gives it, whatever the layer held when the snapshot was taken. -/
lemma restoreSnapshot_layers_rest (snapshot : Snapshot ρ) (k : Canvas ρ τ) {i : Nat}
    (hi : i < snapshot.layers.length) :
    ((restoreSnapshot L snapshot k).layers i).rest = L.layerRest 1 := by
  simp [restoreSnapshot, hi, copyLayer]

/-- A change of the canvas whose effect on what a snapshot keeps depends only on what a snapshot
keeps. -/
def ViewPreserving (f : Canvas ρ τ → Canvas ρ τ) : Prop :=
  ∀ k k' : Canvas ρ τ, k.view = k'.view → (f k).view = (f k').view

/-- The operations of `Layers` act on what a snapshot keeps alone: the layer count and the size,
position and pixels of the first `layerCount` layers. -/
structure ViewDetermined : Prop where
  perform : ∀ op, ViewPreserving (L.perform op)
  drawLine : ∀ segment, ViewPreserving (L.drawLine segment)

/-! ## Replaying commands -/

/-- Draws a stroke's segments in order. -/
def drawLines (segments : List σ) (k : Canvas ρ τ) : Canvas ρ τ :=
  segments.foldl (fun k s => L.drawLine s k) k

/-- `History::execCommandOn` on the canvas: a `line` command draws each of its segments. -/
def execCommand : Command ο σ → Canvas ρ τ → Canvas ρ τ
  | .line segments => drawLines L segments
  | .other op => L.perform op

/-- Replays commands on the canvas `k`. -/
def replayFrom (k : Canvas ρ τ) (commands : List (Command ο σ)) : Canvas ρ τ :=
  commands.foldl (fun k c => execCommand L c k) k

/-- Replays commands on the empty canvas. -/
def replay (commands : List (Command ο σ)) : Canvas ρ τ := replayFrom L L.reset commands

/-- Replaying nothing leaves the canvas. -/
@[simp] lemma replayFrom_nil (k : Canvas ρ τ) : replayFrom L k [] = k := rfl

/-- Replaying a command and then the rest. -/
@[simp] lemma replayFrom_cons (k : Canvas ρ τ) (c : Command ο σ) (cs : List (Command ο σ)) :
    replayFrom L k (c :: cs) = replayFrom L (execCommand L c k) cs := rfl

/-- Replaying two lists of commands one after the other. -/
@[simp] lemma replayFrom_append (k : Canvas ρ τ) (p q : List (Command ο σ)) :
    replayFrom L k (p ++ q) = replayFrom L (replayFrom L k p) q := by
  simp [replayFrom]

/-- The replay of commands and one more is that command on the replay. -/
lemma replay_append_singleton (commands : List (Command ο σ)) (c : Command ο σ) :
    replay L (commands ++ [c]) = execCommand L c (replay L commands) := by
  simp [replay]

/-- The replay of the first `n + 1` commands is command `n` on the replay of the first `n`. -/
lemma replay_take_succ {commands : List (Command ο σ)} {n : Nat} (h : n < commands.length) :
    replay L (commands.take (n + 1)) = execCommand L commands[n] (replay L (commands.take n)) := by
  rw [← List.take_concat_get' _ _ h, replay_append_singleton]

/-- Replaying the `count` commands from index `first` on the replay of the first `first` gives
the replay of the first `first + count`. -/
lemma replayFrom_replay_take (commands : List (Command ο σ)) (first count : Nat) :
    replayFrom L (replay L (commands.take first)) ((commands.drop first).take count) =
      replay L (commands.take (first + count)) := by
  rw [List.take_add, replay, replay, replayFrom_append]

section View

variable {L}

/-- A stroke acts on what a snapshot keeps alone when every segment does. -/
lemma ViewDetermined.drawLines (hview : ViewDetermined L) (segments : List σ) :
    ViewPreserving (drawLines L segments) := by
  induction segments with
  | nil => exact fun _ _ h => h
  | cons segment segments ih => exact fun k k' h => ih _ _ (hview.drawLine segment k k' h)

/-- Every command acts on what a snapshot keeps alone. -/
lemma ViewDetermined.execCommand (hview : ViewDetermined L) (c : Command ο σ) :
    ViewPreserving (execCommand L c) := by
  cases c with
  | line segments => exact hview.drawLines segments
  | other op => exact hview.perform op

/-- Replaying commands on canvases that look alike gives canvases that look alike. -/
lemma ViewDetermined.replayFrom (hview : ViewDetermined L) (cs : List (Command ο σ)) :
    ViewPreserving (replayFrom L · cs) := by
  induction cs with
  | nil => exact fun _ _ h => h
  | cons c cs ih => exact fun k k' h => ih _ _ (hview.execCommand c k k' h)

end View

/-! ## `addCommand` -/

/-- `currentCommand - 1` in `uint32_t`. -/
def predUInt32 (n : Nat) : Nat := (n + (2 ^ 32 - 1)) % 2 ^ 32

/-- At `currentCommand = 0` the test of `addCommand` compares with `2^32 - 1`. -/
lemma predUInt32_zero : predUInt32 0 = 2 ^ 32 - 1 := by decide

/-- At `currentCommand = 1` the test of `addCommand` compares with 0. -/
lemma predUInt32_one : predUInt32 1 = 0 := by decide

/-- The top of `addCommand`: when `commands->size() > currentCommand - 1`, drop the commands from
index `currentCommand - 1 + 1` on and the snapshots from index
`currentCommand / SNAPSHOT_INTERVAL` on. -/
def dropRedo (s : State ρ τ ο σ) : State ρ τ ο σ :=
  if predUInt32 s.currentCommand < s.commands.length then
    { s with commands := s.commands.take (predUInt32 s.currentCommand + 1),
             snapshots := s.snapshots.take (s.currentCommand / snapshotInterval) }
  else s

/-- `commands->add(command); currentCommand = commands->size();` -/
def pushCommand (s : State ρ τ ο σ) (c : Command ο σ) : State ρ τ ο σ :=
  { s with commands := s.commands ++ [c], currentCommand := s.commands.length + 1 }

/-- The end of `addCommand` after an added command: a snapshot of the canvas when
`currentCommand` is a multiple of `SNAPSHOT_INTERVAL`. -/
def takeSnapshot (s : State ρ τ ο σ) : State ρ τ ο σ :=
  if s.currentCommand % snapshotInterval = 0 then
    { s with snapshots := s.snapshots ++ [snapshotOf L s.canvas] }
  else s

/-- `History::addCommand`. -/
def addCommand (s : State ρ τ ο σ) (entry : Entry ο σ) : State ρ τ ο σ :=
  let s := dropRedo snapshotInterval s
  match entry with
  | .line segment => { s with lines := s.lines ++ [segment] }
  | .prepareNextDrawing =>
    if 0 < s.lines.length then
      takeSnapshot L snapshotInterval { pushCommand s (.line s.lines) with lines := [] }
    else s
  | .other op => takeSnapshot L snapshotInterval (pushCommand s (.other op))

/-- An operation of `Layers` with `writeHistory = true`: apply it, then record it. -/
def perform (s : State ρ τ ο σ) (op : ο) : State ρ τ ο σ :=
  addCommand L snapshotInterval { s with canvas := L.perform op s.canvas } (.other op)

/-- `Layers::drawLine` with `writeHistory = true`: draw one segment, then record it. -/
def drawSegment (s : State ρ τ ο σ) (segment : σ) : State ρ τ ο σ :=
  addCommand L snapshotInterval { s with canvas := L.drawLine segment s.canvas } (.line segment)

/-- A stroke: its segments, then `prepareNextDrawing`. -/
def stroke (s : State ρ τ ο σ) (segments : List σ) : State ρ τ ο σ :=
  addCommand L snapshotInterval (segments.foldl (drawSegment L snapshotInterval) s)
    .prepareNextDrawing

/-! ## `undo` and `redo` -/

/-- `History::execCommandOn(layers, command, false)`: count the command as done and run it. -/
def execCommandOn (s : State ρ τ ο σ) (c : Command ο σ) : State ρ τ ο σ :=
  { s with canvas := execCommand L c s.canvas, currentCommand := s.currentCommand + 1 }

/-- The loop `for (i = first; i < first + count; i++) execCommandOn(layers, commands->get(i),
false)`; `none` when it reads past the end of `commands`. -/
def replayCommands : State ρ τ ο σ → Nat → Nat → Option (State ρ τ ο σ)
  | s, _, 0 => some s
  | s, first, count + 1 =>
    s.commands[first]?.bind fun c => replayCommands (execCommandOn L s c) (first + 1) count

/-- `History::undo`; `none` when it reads a snapshot or a command that is not there. -/
def undo (s : State ρ τ ο σ) : Option (State ρ τ ο σ) :=
  if s.currentCommand = 0 then some s
  else
    let current := s.currentCommand - 1
    if current < snapshotInterval then
      replayCommands L { s with canvas := L.reset, currentCommand := 0 } 0 current
    else
      s.snapshots[current / snapshotInterval - 1]?.bind fun snapshot =>
        let executeCounter := current % snapshotInterval
        replayCommands L
          { s with canvas := restoreSnapshot L snapshot s.canvas,
                   currentCommand := current - executeCounter }
          (current - executeCounter) executeCounter

/-- `History::redo`. -/
def redo (s : State ρ τ ο σ) : State ρ τ ο σ :=
  if h : s.currentCommand < s.commands.length then execCommandOn L s s.commands[s.currentCommand]
  else s

/-! ## Runs -/

/-- The empty canvas and `History::History`. -/
def init : State ρ τ ο σ := ⟨L.reset, [], 0, [], []⟩

/-- One user action. -/
def step (s : State ρ τ ο σ) : Action ο σ → Option (State ρ τ ο σ)
  | .perform op => some (perform L snapshotInterval s op)
  | .stroke segments => some (stroke L snapshotInterval s segments)
  | .undo => undo L snapshotInterval s
  | .redo => some (redo L s)

/-- A sequence of user actions. -/
def run (s : State ρ τ ο σ) (actions : List (Action ο σ)) : Option (State ρ τ ο σ) :=
  actions.foldlM (step L snapshotInterval) s

/-- A run is its first step, then the rest from where that step leads. -/
lemma run_cons (s : State ρ τ ο σ) (a : Action ο σ) (actions : List (Action ο σ)) :
    run L snapshotInterval s (a :: actions) =
      (step L snapshotInterval s a).bind fun s' => run L snapshotInterval s' actions := rfl

/-- The states that actions reach from `init`, each action taken where `allowed` holds. -/
inductive Reachable (allowed : State ρ τ ο σ → Action ο σ → Prop) : State ρ τ ο σ → Prop
  | init : Reachable allowed (init L)
  | step {s s' : State ρ τ ο σ} {a : Action ο σ} :
    Reachable allowed s → allowed s a → step L snapshotInterval s a = some s' → Reachable allowed s'

/-- An action that records a command is taken where `currentCommand - 1` does not wrap, or where
there is nothing to drop, and the history holds fewer than `2^32` commands. -/
def Recordable (s : State ρ τ ο σ) : Action ο σ → Prop
  | .undo | .redo => True
  | _ => (s.currentCommand = 0 → s.commands = []) ∧ s.commands.length < 2 ^ 32

/-! ## The invariant -/

/-- Snapshot `j`, copied back over any canvas, looks like the replay of the first
`(j + 1) * SNAPSHOT_INTERVAL` commands. -/
def SnapshotsReplay (s : State ρ τ ο σ) : Prop :=
  ∀ j (hj : j < s.snapshots.length) (c : Canvas ρ τ),
    (restoreSnapshot L s.snapshots[j] c).view =
      (replay L (s.commands.take ((j + 1) * snapshotInterval))).view

/-- The history invariant between user actions. -/
structure Consistent (s : State ρ τ ο σ) : Prop where
  current_le : s.currentCommand ≤ s.commands.length
  lines_nil : s.lines = []
  snapshots_length : s.snapshots.length = s.commands.length / snapshotInterval
  view_canvas : s.canvas.view = (replay L (s.commands.take s.currentCommand)).view
  snapshots_replay : SnapshotsReplay L snapshotInterval s

/-- The state after `dropRedo` on a consistent state: nothing to redo. -/
structure Truncated (s : State ρ τ ο σ) : Prop where
  current_eq : s.currentCommand = s.commands.length
  lines_nil : s.lines = []
  snapshots_length : s.snapshots.length = s.commands.length / snapshotInterval
  view_canvas : s.canvas.view = (replay L s.commands).view
  snapshots_replay : SnapshotsReplay L snapshotInterval s

/-- The history the tool starts with is consistent. -/
lemma consistent_init : Consistent L snapshotInterval (init L) :=
  ⟨le_refl 0, rfl, by simp [init], rfl, fun j hj => absurd hj (Nat.not_lt_zero j)⟩

section Fields

variable {L snapshotInterval}

/-- `dropRedo` keeps the canvas. -/
@[simp] lemma dropRedo_canvas (s : State ρ τ ο σ) : (dropRedo snapshotInterval s).canvas = s.canvas := by
  unfold dropRedo; split <;> rfl

/-- `dropRedo` keeps the line buffer. -/
@[simp] lemma dropRedo_lines (s : State ρ τ ο σ) : (dropRedo snapshotInterval s).lines = s.lines := by
  unfold dropRedo; split <;> rfl

/-- `dropRedo` keeps `currentCommand`. -/
@[simp] lemma dropRedo_currentCommand (s : State ρ τ ο σ) :
    (dropRedo snapshotInterval s).currentCommand = s.currentCommand := by
  unfold dropRedo; split <;> rfl

/-- `dropRedo` reads neither the canvas nor the line buffer. -/
lemma dropRedo_update (s : State ρ τ ο σ) (k : Canvas ρ τ) (l : List σ) :
    dropRedo snapshotInterval { s with canvas := k, lines := l } =
      { dropRedo snapshotInterval s with canvas := k, lines := l } := by
  unfold dropRedo; split <;> rfl

/-- A second `dropRedo` finds nothing more to drop. -/
lemma dropRedo_dropRedo (s : State ρ τ ο σ) :
    dropRedo snapshotInterval (dropRedo snapshotInterval s) = dropRedo snapshotInterval s := by
  unfold dropRedo
  split
  · simp only [List.length_take, List.take_take, min_self]
    rw [if_pos (by omega)]
  · rfl

/-- A snapshot leaves the canvas. -/
@[simp] lemma takeSnapshot_canvas (s : State ρ τ ο σ) :
    (takeSnapshot L snapshotInterval s).canvas = s.canvas := by
  unfold takeSnapshot; split <;> rfl

/-- A snapshot leaves the commands. -/
@[simp] lemma takeSnapshot_commands (s : State ρ τ ο σ) :
    (takeSnapshot L snapshotInterval s).commands = s.commands := by
  unfold takeSnapshot; split <;> rfl

/-- A snapshot leaves `currentCommand`. -/
@[simp] lemma takeSnapshot_currentCommand (s : State ρ τ ο σ) :
    (takeSnapshot L snapshotInterval s).currentCommand = s.currentCommand := by
  unfold takeSnapshot; split <;> rfl

/-- A snapshot leaves the line buffer. -/
@[simp] lemma takeSnapshot_lines (s : State ρ τ ο σ) :
    (takeSnapshot L snapshotInterval s).lines = s.lines := by
  unfold takeSnapshot; split <;> rfl

end Fields

/-- The segments of a stroke leave the history as one `dropRedo` does, and wait in `lines`. -/
lemma dropRedo_foldl_drawSegment (s : State ρ τ ο σ) (segments : List σ) :
    dropRedo snapshotInterval (segments.foldl (drawSegment L snapshotInterval) s) =
      { dropRedo snapshotInterval s with
        canvas := drawLines L segments s.canvas, lines := s.lines ++ segments } := by
  induction segments generalizing s with
  | nil =>
    rw [List.foldl_nil, List.append_nil]
    exact dropRedo_update s s.canvas s.lines
  | cons segment segments ih =>
    have hstep : drawSegment L snapshotInterval s segment =
        { dropRedo snapshotInterval s with
          canvas := L.drawLine segment s.canvas, lines := s.lines ++ [segment] } := by
      simp only [drawSegment, addCommand]
      rw [dropRedo_update s (L.drawLine segment s.canvas) s.lines]
    rw [List.foldl_cons, ih, hstep, dropRedo_update, dropRedo_dropRedo]
    simp [drawLines]

/-! ## Recording keeps the invariant -/

section Recording

variable {L snapshotInterval}

/-- On a consistent state where it is allowed to record, `dropRedo` cuts the history at
`currentCommand`. -/
lemma Consistent.dropRedo_eq {s : State ρ τ ο σ} (h : Consistent L snapshotInterval s)
    (h0 : s.currentCommand = 0 → s.commands = []) (hlt : s.commands.length < 2 ^ 32) :
    dropRedo snapshotInterval s =
      { s with commands := s.commands.take s.currentCommand,
               snapshots := s.snapshots.take (s.currentCommand / snapshotInterval) } := by
  have hle := h.current_le
  by_cases hc : s.currentCommand = 0
  · have hnil := h0 hc
    have hsnap : s.snapshots = [] := by
      simpa [hnil] using h.snapshots_length
    cases s
    simp_all [dropRedo, predUInt32]
  · have hpred : predUInt32 s.currentCommand = s.currentCommand - 1 := by
      unfold predUInt32; omega
    simp only [dropRedo, hpred, if_pos (show s.currentCommand - 1 < s.commands.length by omega),
      Nat.sub_add_cancel (Nat.pos_of_ne_zero hc)]

/-- `dropRedo` on a consistent state where it is allowed to record leaves nothing to redo. -/
lemma Consistent.truncated {s : State ρ τ ο σ} (h : Consistent L snapshotInterval s)
    (h0 : s.currentCommand = 0 → s.commands = []) (hlt : s.commands.length < 2 ^ 32) :
    Truncated L snapshotInterval (dropRedo snapshotInterval s) := by
  have hle := h.current_le
  have hdiv : s.currentCommand / snapshotInterval ≤ s.commands.length / snapshotInterval :=
    Nat.div_le_div_right hle
  rw [h.dropRedo_eq h0 hlt]
  refine ⟨by simp [hle], h.lines_nil, by simp [h.snapshots_length, hle, hdiv], h.view_canvas, ?_⟩
  intro j hj c
  simp only [List.length_take, Nat.lt_min] at hj
  have hjc : (j + 1) * snapshotInterval ≤ s.currentCommand := by
    rcases Nat.eq_zero_or_pos snapshotInterval with h0 | hpos
    · simp [h0]
    · exact (Nat.le_div_iff_mul_le hpos).1 hj.1
  simp only [List.getElem_take, h.snapshots_replay j hj.2 c, List.take_take, min_eq_left hjc]

/-- Appending a command `c` to a truncated history whose canvas then looks like the replay:
consistent again, with or without a new snapshot. -/
lemma Truncated.takeSnapshot_consistent (hsi : 0 < snapshotInterval) {t u : State ρ τ ο σ}
    (ht : Truncated L snapshotInterval t) (c : Command ο σ)
    (hcommands : u.commands = t.commands ++ [c])
    (hcurrent : u.currentCommand = t.commands.length + 1) (hlines : u.lines = [])
    (hsnapshots : u.snapshots = t.snapshots)
    (hcanvas : u.canvas.view = (replay L (t.commands ++ [c])).view) :
    Consistent L snapshotInterval (takeSnapshot L snapshotInterval u) := by
  have hlen : u.commands.length = t.commands.length + 1 := by simp [hcommands]
  have hcanvas' : u.canvas.view = (replay L (u.commands.take u.currentCommand)).view := by
    rw [hcurrent, ← hlen, List.take_length, hcanvas, hcommands]
  have hold : ∀ j (hj : j < t.snapshots.length) (x : Canvas ρ τ),
      (restoreSnapshot L t.snapshots[j] x).view =
        (replay L (u.commands.take ((j + 1) * snapshotInterval))).view := by
    intro j hj x
    have hjc : (j + 1) * snapshotInterval ≤ t.commands.length :=
      (Nat.le_div_iff_mul_le hsi).1 (ht.snapshots_length ▸ hj)
    rw [ht.snapshots_replay j hj x, hcommands, List.take_append_of_le_length hjc]
  have hcount : u.commands.length / snapshotInterval =
      u.snapshots.length + if u.currentCommand % snapshotInterval = 0 then 1 else 0 := by
    rw [hlen, Nat.succ_div, hsnapshots, ht.snapshots_length, hcurrent]
    simp only [Nat.dvd_iff_mod_eq_zero]
  unfold takeSnapshot
  split_ifs at hcount ⊢ with hmod <;>
    refine ⟨by simp [hcurrent, hlen], hlines, by simp [hcount], hcanvas', fun j hj x => ?_⟩
  · simp only [List.length_append, List.length_singleton, hsnapshots] at hj ⊢
    rcases Nat.lt_succ_iff_lt_or_eq.1 hj with hj | rfl
    · rw [List.getElem_append_left hj, hold j hj x]
    · have hn : (t.snapshots.length + 1) * snapshotInterval = u.currentCommand := by
        rw [← hsnapshots, ← hcount, hlen, ← hcurrent,
          Nat.div_mul_cancel (Nat.dvd_of_mod_eq_zero hmod)]
      simp [hn, hcanvas']
  · simp only [hsnapshots] at hj ⊢
    exact hold j hj x

end Recording

/-! ## `undo` and `redo` keep the invariant -/

/-- Replaying `count` commands from index `first` runs them on the canvas, and counts them as
done. -/
lemma replayCommands_eq (s : State ρ τ ο σ) (first count : Nat)
    (hle : first + count ≤ s.commands.length) :
    replayCommands L s first count =
      some { s with canvas := replayFrom L s.canvas ((s.commands.drop first).take count),
                    currentCommand := s.currentCommand + count } := by
  induction count generalizing s first with
  | zero => rfl
  | succ count ih =>
    have hlt : first < s.commands.length := by omega
    rw [replayCommands, List.getElem?_eq_getElem hlt, Option.some_bind,
      ih _ (first + 1) (by simp [execCommandOn]; omega), List.drop_eq_getElem_cons hlt,
      List.take_succ_cons, replayFrom_cons]
    simp only [execCommandOn, Nat.add_right_comm _ 1 count, Nat.add_assoc]

/-- `replayCommands` keeps the commands. -/
lemma replayCommands_commands {s s' : State ρ τ ο σ} {first count : Nat}
    (h : replayCommands L s first count = some s') : s'.commands = s.commands := by
  induction count generalizing s first with
  | zero => obtain rfl := Option.some.inj h; rfl
  | succ count ih =>
    obtain ⟨c, -, hc⟩ := Option.bind_eq_some.1 h
    rw [ih hc]
    rfl

/-- `undo` keeps the commands. -/
lemma undo_commands {s s' : State ρ τ ο σ} (h : undo L snapshotInterval s = some s') :
    s'.commands = s.commands := by
  unfold undo at h
  split at h
  · obtain rfl := Option.some.inj h; rfl
  · dsimp only at h
    split at h
    · rw [replayCommands_commands L h]
    · obtain ⟨snapshot, -, h⟩ := Option.bind_eq_some.1 h
      rw [replayCommands_commands L h]

section Moves

variable {L snapshotInterval}

/-- Moving `currentCommand` anywhere in the history, with a canvas that looks like its replay,
keeps the invariant. -/
lemma Consistent.moveTo {s : State ρ τ ο σ} (h : Consistent L snapshotInterval s) {m : Nat}
    (hm : m ≤ s.commands.length) {canvas : Canvas ρ τ}
    (hcanvas : canvas.view = (replay L (s.commands.take m)).view) :
    Consistent L snapshotInterval { s with canvas := canvas, currentCommand := m } :=
  ⟨hm, h.lines_nil, h.snapshots_length, hcanvas, h.snapshots_replay⟩

/-- A truncated history is consistent. -/
lemma Truncated.consistent {t : State ρ τ ο σ} (ht : Truncated L snapshotInterval t) :
    Consistent L snapshotInterval t :=
  ⟨ht.current_eq.le, ht.lines_nil, ht.snapshots_length,
    by rw [ht.current_eq, List.take_length]; exact ht.view_canvas, ht.snapshots_replay⟩

/-- On a consistent state, `undo` gives a canvas that looks like the replay of all done commands
but the last: from the empty canvas below the first snapshot, and from the latest snapshot at or
below `currentCommand - 1` otherwise. -/
lemma Consistent.undo_eq (hsi : 0 < snapshotInterval) (hview : ViewDetermined L)
    {s : State ρ τ ο σ} (h : Consistent L snapshotInterval s) (hpos : 0 < s.currentCommand) :
    ∃ canvas, undo L snapshotInterval s =
        some { s with canvas := canvas, currentCommand := s.currentCommand - 1 } ∧
      canvas.view = (replay L (s.commands.take (s.currentCommand - 1))).view := by
  have hle := h.current_le
  rw [undo, if_neg (by omega)]
  dsimp only
  split
  · rw [replayCommands_eq L _ 0 _ (by dsimp only; omega)]
    exact ⟨_, by rw [Nat.zero_add], by rw [List.drop_zero]; rfl⟩
  · next hge =>
    set n := s.currentCommand - 1
    have h1 : 1 ≤ n / snapshotInterval := (Nat.le_div_iff_mul_le hsi).2 (by omega)
    have hj : n / snapshotInterval - 1 < s.snapshots.length := by
      rw [h.snapshots_length]
      have : n / snapshotInterval ≤ s.commands.length / snapshotInterval :=
        Nat.div_le_div_right (by omega)
      omega
    have hfirst : (n / snapshotInterval - 1 + 1) * snapshotInterval = n - n % snapshotInterval := by
      have := Nat.mod_add_div' n snapshotInterval
      rw [Nat.sub_add_cancel h1]
      omega
    have hsplit : n - n % snapshotInterval + n % snapshotInterval = n :=
      Nat.sub_add_cancel (Nat.mod_le n snapshotInterval)
    rw [List.getElem?_eq_getElem hj, Option.some_bind, replayCommands_eq L _ _ _ (by simp; omega)]
    refine ⟨_, by rw [hsplit], ?_⟩
    calc _ = (replayFrom L (replay L (s.commands.take (n - n % snapshotInterval)))
            ((s.commands.drop (n - n % snapshotInterval)).take (n % snapshotInterval))).view :=
          hview.replayFrom _ _ _ (by rw [← hfirst]; exact h.snapshots_replay _ hj s.canvas)
      _ = (replay L (s.commands.take n)).view := by rw [replayFrom_replay_take, hsplit]

/-- On a consistent state with a command to redo, `redo` gives a canvas that looks like the
replay of one more command. -/
lemma Consistent.redo_eq (hview : ViewDetermined L) {s : State ρ τ ο σ}
    (h : Consistent L snapshotInterval s) (hlt : s.currentCommand < s.commands.length) :
    ∃ canvas, redo L s = { s with canvas := canvas, currentCommand := s.currentCommand + 1 } ∧
      canvas.view = (replay L (s.commands.take (s.currentCommand + 1))).view :=
  ⟨_, by rw [redo, dif_pos hlt]; rfl, by
    rw [replay_take_succ L hlt]; exact hview.execCommand _ _ _ h.view_canvas⟩

end Moves

/-! ## Every run -/

section Runs

variable {L snapshotInterval}

/-- The step lemma: an action allowed by `Recordable` keeps the invariant. -/
lemma Consistent.step (hsi : 0 < snapshotInterval) (hview : ViewDetermined L)
    {s s' : State ρ τ ο σ} {a : Action ο σ} (h : Consistent L snapshotInterval s)
    (ha : Recordable s a) (hstep : step L snapshotInterval s a = some s') :
    Consistent L snapshotInterval s' := by
  cases a with
  | perform op =>
    obtain ⟨h0, hlt⟩ := ha
    obtain rfl : perform L snapshotInterval s op = s' := Option.some.inj hstep
    have ht := h.truncated h0 hlt
    have hd : dropRedo snapshotInterval { s with canvas := L.perform op s.canvas } =
        { dropRedo snapshotInterval s with canvas := L.perform op s.canvas, lines := s.lines } :=
      dropRedo_update s _ s.lines
    show Consistent L snapshotInterval (takeSnapshot L snapshotInterval
      (pushCommand (dropRedo snapshotInterval { s with canvas := L.perform op s.canvas }) (.other op)))
    rw [hd]
    refine ht.takeSnapshot_consistent hsi (.other op) rfl rfl h.lines_nil rfl ?_
    rw [replay_append_singleton]
    exact hview.perform op _ _ (dropRedo_canvas s ▸ ht.view_canvas)
  | stroke segments =>
    obtain ⟨h0, hlt⟩ := ha
    obtain rfl : stroke L snapshotInterval s segments = s' := Option.some.inj hstep
    have ht := h.truncated h0 hlt
    simp only [stroke, addCommand, dropRedo_foldl_drawSegment, h.lines_nil, List.nil_append]
    split
    · refine ht.takeSnapshot_consistent hsi (.line segments) rfl rfl rfl rfl ?_
      rw [replay_append_singleton]
      exact hview.drawLines segments _ _ (dropRedo_canvas s ▸ ht.view_canvas)
    · next hnil =>
      obtain rfl : segments = [] := List.eq_nil_of_length_eq_zero (by simpa using hnil)
      have heq : { dropRedo snapshotInterval s with
          canvas := drawLines L [] s.canvas, lines := [] } = dropRedo snapshotInterval s := by
        have h1 : (dropRedo snapshotInterval s).lines = [] := by rw [dropRedo_lines, h.lines_nil]
        have h2 : (dropRedo snapshotInterval s).canvas = drawLines L [] s.canvas := dropRedo_canvas s
        rw [← h2, ← h1]
      rw [heq]
      exact ht.consistent
  | undo =>
    by_cases hc : s.currentCommand = 0
    · rw [History.step, undo, if_pos hc] at hstep
      obtain rfl := Option.some.inj hstep
      exact h
    · obtain ⟨canvas, hundo, hcanvas⟩ := h.undo_eq hsi hview (Nat.pos_of_ne_zero hc)
      rw [History.step, hundo] at hstep
      obtain rfl := Option.some.inj hstep
      exact h.moveTo (by have := h.current_le; omega) hcanvas
  | redo =>
    obtain rfl := Option.some.inj hstep
    by_cases hlt : s.currentCommand < s.commands.length
    · obtain ⟨canvas, hredo, hcanvas⟩ := h.redo_eq hview hlt
      rw [hredo]
      exact h.moveTo hlt hcanvas
    · rw [redo, dif_neg hlt]
      exact h

/-- Over every run that records no operation where `addCommand`'s `currentCommand - 1` wraps, and
with operations of `Layers` that act on what a snapshot keeps alone: the history invariant holds,
`undo` gives a canvas that looks like the replay of the done commands but the last, and `redo` one
that looks like the replay of one more. -/
theorem consistent_of_reachable (hsi : 0 < snapshotInterval) (hview : ViewDetermined L)
    {s : State ρ τ ο σ} (h : Reachable L snapshotInterval Recordable s) :
    Consistent L snapshotInterval s ∧
      (0 < s.currentCommand → ∃ canvas, undo L snapshotInterval s =
          some { s with canvas := canvas, currentCommand := s.currentCommand - 1 } ∧
        canvas.view = (replay L (s.commands.take (s.currentCommand - 1))).view) ∧
      (s.currentCommand < s.commands.length → ∃ canvas,
        redo L s = { s with canvas := canvas, currentCommand := s.currentCommand + 1 } ∧
        canvas.view = (replay L (s.commands.take (s.currentCommand + 1))).view) := by
  have hc : Consistent L snapshotInterval s := by
    induction h with
    | init => exact consistent_init L snapshotInterval
    | step _ ha hstep ih => exact ih.step hsi hview ha hstep
  exact ⟨hc, hc.undo_eq hsi hview, hc.redo_eq hview⟩

end Runs

/-! ## A stack of plain layers -/

/-- A new layer `l` on top of the canvas, as `Layers::addEmpty` adds one. -/
def pushLayer (l : Layer ρ) (k : Canvas ρ τ) : Canvas ρ τ :=
  { k with layers := Function.update k.layers k.layerCount.toNat l, layerCount := k.layerCount + 1 }

/-- Adding a layer acts on what a snapshot keeps alone. -/
lemma viewPreserving_pushLayer (l : Layer ρ) : ViewPreserving (τ := τ) (pushLayer l) := by
  intro k k' h
  obtain ⟨hc, hl⟩ := Canvas.view_eq_view.1 h
  refine Canvas.view_eq_view.2 ⟨by simp [pushLayer, hc], fun i hi => ?_⟩
  simp only [pushLayer, ← hc] at hi ⊢
  by_cases hi' : i = k.layerCount.toNat
  · rw [hi', Function.update_same, Function.update_same]
  · rw [Function.update_noteq hi', Function.update_noteq hi']
    exact hl i (by omega)

/-- A canvas with no layers. -/
def emptyCanvas : Canvas Unit Unit := ⟨fun _ => ⟨0, 0, 0, 0, fun _ => 0, ()⟩, 0, 0, ()⟩

/-- A canvas of plain layers: the operation `o` adds a layer `o` pixels wide and one high, and a
segment draws nothing. -/
def layerStack : Layers Unit Unit Nat Unit :=
  ⟨emptyCanvas, fun o => pushLayer ⟨o, 1, 0, 0, fun _ => 0, ()⟩, fun _ k => k, fun _ => ()⟩

/-- The operations of the layer stack act on what a snapshot keeps alone. -/
lemma viewDetermined_layerStack : ViewDetermined layerStack :=
  ⟨fun _ => viewPreserving_pushLayer _, fun _ _ _ h => h⟩

/-- An operation adds one layer to the layer stack. -/
@[simp] lemma layerStack_perform_layerCount (o : Nat) (k : Canvas Unit Unit) :
    (layerStack.perform o k).layerCount = k.layerCount + 1 := rfl

/-- With the layer stack and a snapshot after every command: two operations and an undo, which
copies back the snapshot taken after the first. -/
theorem consistent_of_reachable_undoSnapshot :
    ∃ s, run layerStack 1 (init layerStack) [.perform 1, .perform 2, .undo] = some s ∧
      0 < 1 ∧ ViewDetermined layerStack ∧ Reachable layerStack 1 Recordable s ∧
      (Consistent layerStack 1 s ∧
        (0 < s.currentCommand → ∃ canvas, undo layerStack 1 s =
            some { s with canvas := canvas, currentCommand := s.currentCommand - 1 } ∧
          canvas.view = (replay layerStack (s.commands.take (s.currentCommand - 1))).view) ∧
        (s.currentCommand < s.commands.length → ∃ canvas,
          redo layerStack s = { s with canvas := canvas, currentCommand := s.currentCommand + 1 } ∧
          canvas.view = (replay layerStack (s.commands.take (s.currentCommand + 1))).view)) :=
  have hrun : Reachable layerStack 1 Recordable _ :=
    .step (a := .undo) (.step (a := .perform 2) (.step (a := .perform 1) .init
      ⟨fun _ => rfl, by decide⟩ rfl) ⟨by decide, by decide⟩ rfl) trivial rfl
  ⟨_, rfl, by decide, viewDetermined_layerStack, hrun,
    consistent_of_reachable (by decide) viewDetermined_layerStack hrun⟩

/-! ## What a snapshot does not bring back -/

/-- Layers that carry a flag, as `new Layer(..., v, ...)` stores its fifth argument: the
operation `v` adds a layer with flag `v`. -/
def flagStack : Layers Int Unit Int Unit :=
  ⟨⟨fun _ => ⟨0, 0, 0, 0, fun _ => 0, 1⟩, 0, 0, ()⟩,
    fun v => pushLayer ⟨1, 1, 0, 0, fun _ => 0, v⟩, fun _ k => k, id⟩

/-- Record an operation, undo it, record a second one: `addCommand` finds `currentCommand = 0`,
its `currentCommand - 1` wraps to `2^32 - 1`, and the undone command stays in the history before
the new one. The canvas holds the second operation alone, but the done commands replay both. -/
theorem undo_to_start_keeps_redo (hsi : 0 < snapshotInterval) (o₁ o₂ : ο)
    (hdiff : L.perform o₂ L.reset ≠ L.perform o₂ (L.perform o₁ L.reset)) :
    ∃ s, run L snapshotInterval (init L) [.perform o₁, .undo, .perform o₂] = some s ∧
      s.lines = [] ∧ s.commands = [.other o₁, .other o₂] ∧ s.currentCommand = 2 ∧
      s.canvas = L.perform o₂ L.reset ∧
      s.canvas ≠ replay L (s.commands.take s.currentCommand) := by
  have hundo : undo L snapshotInterval (perform L snapshotInterval (init L) o₁) =
      some { perform L snapshotInterval (init L) o₁ with canvas := L.reset, currentCommand := 0 } := by
    simp [undo, perform, addCommand, init, dropRedo, predUInt32, pushCommand, hsi, replayCommands]
  refine ⟨perform L snapshotInterval
    { perform L snapshotInterval (init L) o₁ with canvas := L.reset, currentCommand := 0 } o₂,
    by simp [run, step, hundo], ?_⟩
  simp [perform, addCommand, init, dropRedo, predUInt32, pushCommand, replay, execCommand]
  exact hdiff

/-- With the layer stack: the canvas has one layer, the replay two. -/
theorem undo_to_start_keeps_redo_layerStack :
    0 < 10 ∧ layerStack.perform 2 layerStack.reset ≠
        layerStack.perform 2 (layerStack.perform 1 layerStack.reset) ∧
      ∃ s, run layerStack 10 (init layerStack) [.perform 1, .undo, .perform 2] = some s ∧
        s.lines = [] ∧ s.commands = [.other 1, .other 2] ∧ s.currentCommand = 2 ∧
        s.canvas = layerStack.perform 2 layerStack.reset ∧
        s.canvas ≠ replay layerStack (s.commands.take s.currentCommand) :=
  have hdiff : layerStack.perform 2 layerStack.reset ≠
      layerStack.perform 2 (layerStack.perform 1 layerStack.reset) := fun h => by
    have hcount := congrArg Canvas.layerCount h
    simp only [layerStack_perform_layerCount] at hcount
    omega
  ⟨by decide, hdiff, undo_to_start_keeps_redo layerStack 10 (by decide) 1 2 hdiff⟩

end History

end HhuOS
