import HhuOS.Application.Pic.History

/-!
# Saving and loading the paint history

`History::saveToFile` writes every command of `commands`, one per line, and
`History::loadFromFileInto` resets the canvas (`layers->reset()`) and the history
(`History::reset`, which clears `commands` and `currentCommand` but keeps `lines` and the
snapshots) and then runs each non-empty line through `execCommandOn(layers, line, true)`: the
command goes through `Layers`, which records it with `addCommand`, and a `line` command is
closed by `addCommand("prepareNextDrawing")`, which joins its segments into one command again.

A line of the file is the command it spells; `saveToFile` writes no empty line. The messages are
those the two functions add to the message handler before they return.

`loadFromFileInto_saveToFile` follows a load line by line (`Loaded`): every saved command is
recorded and done, so the loaded history is the whole saved one, the redo part included. A load
takes snapshots but never copies one back, so its canvas is the replay itself, not only a canvas
that looks like it.
`save_load_redoes_undone` is a run that saves after an undo.
-/

namespace HhuOS

namespace History

variable {ρ τ ο σ : Type} (L : Layers ρ τ ο σ) (snapshotInterval : Nat)

/-- `History::saveToFile`: the lines written, one per command, or the message added when the
path is empty or the file could not be opened. -/
def saveToFile (s : State ρ τ ο σ) (path : String) (opened : Bool) :
    Except String (List (Command ο σ)) :=
  if path.length = 0 then .error "Error: No path given"
  else if opened then .ok s.commands
  else .error ("Error: Could not open file: " ++ path)

/-- What `loadFromFileInto` finds at the path. -/
inductive SavedFile (ο σ : Type) where
  | notFound
  | directory
  | regular (lines : List (Command ο σ))

/-- `layers->reset(); this->reset();` -/
def resetForLoad (s : State ρ τ ο σ) : State ρ τ ο σ :=
  { s with canvas := L.reset, commands := [], currentCommand := 0 }

/-- One line of the file: `execCommandOn(layers, line, true)`, and `addCommand("prepareNextDrawing")`
after a `line` command. -/
def loadCommand (s : State ρ τ ο σ) : Command ο σ → State ρ τ ο σ
  | .line segments => stroke L snapshotInterval s segments
  | .other op => perform L snapshotInterval s op

/-- `History::loadFromFileInto`, or the message it adds. -/
def loadFromFileInto (s : State ρ τ ο σ) (path : String) (file : SavedFile ο σ) :
    Except String (State ρ τ ο σ) :=
  if path.length = 0 then .error "Error: No path given"
  else
    match file with
    | .notFound => .error ("Error: File not found: " ++ path)
    | .directory => .error ("Error: File is a directory: " ++ path)
    | .regular lines => .ok (lines.foldl (loadCommand L snapshotInterval) (resetForLoad L s))

/-! ## A load, line by line -/

/-- `t` is what loading the commands `pre` leaves: exactly these commands, all of them done,
their replay on the canvas, and no pending segments. -/
structure Loaded (t : State ρ τ ο σ) (pre : List (Command ο σ)) : Prop where
  commands_eq : t.commands = pre
  current_eq : t.currentCommand = pre.length
  canvas_eq : t.canvas = replay L pre
  lines_nil : t.lines = []

section Load

variable {L snapshotInterval}

/-- With every command done, `dropRedo` keeps the commands: `currentCommand - 1` wraps only at
`currentCommand = 0`, where there are none. -/
lemma dropRedo_commands_of_current_eq {s : State ρ τ ο σ}
    (h : s.currentCommand = s.commands.length) (hlen : s.commands.length ≤ 2 ^ 32) :
    (dropRedo snapshotInterval s).commands = s.commands := by
  unfold dropRedo
  split_ifs with hlt
  · exact List.take_of_length_le (by unfold predUInt32 at hlt ⊢; omega)
  · rfl

/-- The step lemma: loading one more command, a `line` command with segments or another one,
extends what was loaded by it. -/
lemma Loaded.loadCommand {t : State ρ τ ο σ} {pre : List (Command ο σ)} (h : Loaded L t pre)
    (c : Command ο σ) (hc : ∀ segments, c = .line segments → segments ≠ [])
    (hlen : pre.length < 2 ^ 32) :
    Loaded L (loadCommand L snapshotInterval t c) (pre ++ [c]) := by
  have hdrop : ∀ u : State ρ τ ο σ, u.commands = t.commands → u.currentCommand = t.currentCommand →
      (dropRedo snapshotInterval u).commands = pre := fun u hc hcur =>
    (dropRedo_commands_of_current_eq (by rw [hc, hcur, h.current_eq, h.commands_eq])
      (by rw [hc, h.commands_eq]; omega)).trans (hc.trans h.commands_eq)
  cases c with
  | other op =>
    refine ⟨?_, ?_, ?_, ?_⟩ <;>
      simp [History.loadCommand, perform, addCommand, pushCommand, hdrop, replay_append_singleton,
        execCommand, h.canvas_eq, h.lines_nil]
  | line segments =>
    have hu := hdrop t rfl rfl
    have hv : dropRedo snapshotInterval (segments.foldl (drawSegment L snapshotInterval) t) =
        { dropRedo snapshotInterval t with canvas := drawLines L segments t.canvas, lines := segments } := by
      rw [dropRedo_foldl_drawSegment, h.lines_nil, List.nil_append]
    show Loaded L (addCommand L snapshotInterval (segments.foldl (drawSegment L snapshotInterval) t)
      .prepareNextDrawing) _
    simp only [addCommand, hv, List.length_pos.2 (hc segments rfl), if_true]
    refine ⟨?_, ?_, ?_, ?_⟩ <;>
      simp [pushCommand, hu, replay_append_singleton, execCommand, h.canvas_eq]

/-- The run lemma: loading a list of commands, each `line` command with segments, extends what
was loaded by the list. -/
lemma Loaded.foldl_loadCommand {t : State ρ τ ο σ} {pre : List (Command ο σ)} (h : Loaded L t pre)
    (cs : List (Command ο σ)) (hcs : ∀ segments, .line segments ∈ cs → segments ≠ [])
    (hlen : (pre ++ cs).length ≤ 2 ^ 32) :
    Loaded L (cs.foldl (History.loadCommand L snapshotInterval) t) (pre ++ cs) := by
  induction cs generalizing t pre with
  | nil => simpa using h
  | cons c cs ih =>
    have hc : ∀ segments, c = .line segments → segments ≠ [] := fun segments hc =>
      hcs segments (hc ▸ List.mem_cons_self _ _)
    rw [List.foldl_cons, ← List.singleton_append, ← List.append_assoc]
    exact ih (h.loadCommand c hc (by simp at hlen; omega))
      (fun segments hs => hcs segments (List.mem_cons_of_mem _ hs)) (by simpa using hlen)

/-- The reset at the start of a load leaves nothing loaded, as long as no segments are pending. -/
lemma loaded_resetForLoad {s : State ρ τ ο σ} (hlines : s.lines = []) :
    Loaded L (resetForLoad L s) [] :=
  ⟨rfl, rfl, rfl, hlines⟩

end Load

/-! ## What a saved file loads to -/

/-- Saving a history and loading the file back: for every state with no pending segments, whose
`line` commands have segments and which holds at most `2^32` commands, `loadFromFileInto` on
what `saveToFile` wrote gives back all the saved commands, the redo part included, all of them
done, with their replay on the canvas. -/
theorem loadFromFileInto_saveToFile (path : String) (hpath : path.length ≠ 0)
    {s : State ρ τ ο σ} (hlines : s.lines = [])
    (hsegments : ∀ segments, .line segments ∈ s.commands → segments ≠ [])
    (hlen : s.commands.length ≤ 2 ^ 32) :
    ∃ saved t, saveToFile s path true = .ok saved ∧
      loadFromFileInto L snapshotInterval s path (.regular saved) = .ok t ∧
      t.commands = s.commands ∧ t.currentCommand = s.commands.length ∧
      t.canvas = replay L s.commands ∧ t.lines = [] := by
  have h : Loaded L (s.commands.foldl (loadCommand L snapshotInterval) (resetForLoad L s))
      ([] ++ s.commands) :=
    (loaded_resetForLoad hlines).foldl_loadCommand s.commands hsegments hlen
  rw [List.nil_append] at h
  exact ⟨s.commands, _, if_neg hpath, if_neg hpath, h.commands_eq, h.current_eq, h.canvas_eq,
    h.lines_nil⟩

/-- The history after recording layer 1 of the layer stack and undoing it. -/
def undoneOnce : State Unit Unit Nat Unit := ⟨emptyCanvas, [.other 1], 0, [], []⟩

/-- The history with layer 1 undone saves one command, and loads back with it done. -/
theorem loadFromFileInto_saveToFile_undoneOnce :
    "history.txt".length ≠ 0 ∧ undoneOnce.lines = [] ∧
      (∀ segments, .line segments ∈ undoneOnce.commands → segments ≠ []) ∧
      undoneOnce.commands.length ≤ 2 ^ 32 ∧
      ∃ saved t, saveToFile undoneOnce "history.txt" true = .ok saved ∧
        loadFromFileInto layerStack 10 undoneOnce "history.txt" (.regular saved) = .ok t ∧
        t.commands = undoneOnce.commands ∧ t.currentCommand = undoneOnce.commands.length ∧
        t.canvas = replay layerStack undoneOnce.commands ∧ t.lines = [] :=
  ⟨by decide, rfl, by simp [undoneOnce], by decide,
    loadFromFileInto_saveToFile layerStack 10 "history.txt" (by decide) rfl (by simp [undoneOnce])
      (by decide)⟩

/-! ## Saving after an undo -/

/-- Record an operation, undo it, save, and load the file: the file holds the undone command, the
load records and runs it, and the canvas shows the operation that had been undone on the screen
when the file was saved. -/
theorem save_load_redoes_undone (hsi : 0 < snapshotInterval) (o₁ : ο)
    (hne : L.perform o₁ L.reset ≠ L.reset) :
    ∃ s saved t, run L snapshotInterval (init L) [.perform o₁, .undo] = some s ∧
      s.lines = [] ∧ s.currentCommand = 0 ∧ s.canvas = L.reset ∧
      saveToFile s "history.txt" true = .ok saved ∧
      loadFromFileInto L snapshotInterval s "history.txt" (.regular saved) = .ok t ∧
      t.commands = [.other o₁] ∧ t.currentCommand = 1 ∧ t.canvas = L.perform o₁ L.reset ∧
      t.canvas ≠ replay L (s.commands.take s.currentCommand) := by
  have hundo : undo L snapshotInterval (perform L snapshotInterval (init L) o₁) =
      some { perform L snapshotInterval (init L) o₁ with canvas := L.reset, currentCommand := 0 } := by
    simp [undo, perform, addCommand, init, dropRedo, predUInt32, pushCommand, hsi, replayCommands]
  set s := { perform L snapshotInterval (init L) o₁ with canvas := L.reset, currentCommand := 0 }
  have hcommands : s.commands = [.other o₁] := by
    simp [s, perform, addCommand, init, dropRedo, predUInt32, pushCommand]
  have hlines : s.lines = [] := by
    simp [s, perform, addCommand, init, dropRedo, pushCommand]
  have h : Loaded L (s.commands.foldl (loadCommand L snapshotInterval) (resetForLoad L s))
      ([] ++ s.commands) :=
    (loaded_resetForLoad hlines).foldl_loadCommand s.commands (by rw [hcommands]; simp)
      (by rw [hcommands]; simp)
  rw [List.nil_append] at h
  refine ⟨s, _, _, by simp [run, step, hundo], hlines, rfl, rfl, if_neg (by decide),
    if_neg (by decide), h.commands_eq.trans hcommands, h.current_eq.trans (by rw [hcommands]; rfl),
    ?_, ?_⟩
  · rw [h.canvas_eq, hcommands]
    rfl
  · rw [h.canvas_eq, hcommands]
    exact hne

/-- With the layer stack: layer 1 is undone when the file is saved, and back after the load. -/
theorem save_load_redoes_undone_layerStack :
    0 < 10 ∧ layerStack.perform 1 layerStack.reset ≠ layerStack.reset ∧
      ∃ s saved t, run layerStack 10 (init layerStack) [.perform 1, .undo] = some s ∧
        s.lines = [] ∧ s.currentCommand = 0 ∧ s.canvas = layerStack.reset ∧
        saveToFile s "history.txt" true = .ok saved ∧
        loadFromFileInto layerStack 10 s "history.txt" (.regular saved) = .ok t ∧
        t.commands = [.other 1] ∧ t.currentCommand = 1 ∧
        t.canvas = layerStack.perform 1 layerStack.reset ∧
        t.canvas ≠ replay layerStack (s.commands.take s.currentCommand) :=
  have hne : layerStack.perform 1 layerStack.reset ≠ layerStack.reset := fun h => by
    have hcount := congrArg Canvas.layerCount h
    simp only [layerStack_perform_layerCount] at hcount
    omega
  ⟨by decide, hne, save_load_redoes_undone layerStack 10 (by decide) 1 hne⟩

end History

end HhuOS
