import HhuOS.Application.Pic.History
import HhuOS.Util.String

/-!
# The command strings of the paint history

`History` models a stored command as the operation its string decodes to. This file adds the
layer below: the strings themselves. `Layers` passes every operation to `History::addCommand` as
a string; the string of one stroke segment is `line ` followed by the segment's seven numbers, and
`prepareNextDrawing` joins the waiting segments into one string, `line` followed by each segment
behind a space (`commandText`). `History::execCommandOn` runs a string by splitting it at spaces
and calling the `Layers` method its first token names, after checking the token count; a `line`
string draws one line per seven tokens.

The history over strings is the history of `History` with operations and segments taken as
strings and `Layers` given by `execCommandOn` (`stringLayers`). The first token of a joined stroke
is `line`, followed by the tokens of each segment in order (`split_commandText_line`), so when
every segment has seven tokens, `execCommandOn` draws exactly the stroke's segments
(`execCommandOn_commandText`). `canvas_eq_replay_commandText` lifts this to every run, snapshots
and undos included: when the methods of `Layers` act on what a snapshot keeps alone
(`Calls.ViewDetermined`), the strings `commands` holds, run again through `execCommandOn`, give
a canvas that looks like the one on the screen.
-/

namespace HhuOS

namespace History

namespace Text

variable {κ ρ τ : Type}

/-- The calls `execCommandOn` makes on a canvas `κ`: the method of `Layers` that a command's first
token names, with the remaining tokens (`Layers` parses them), `Layers::drawLine` with the seven
tokens of one segment, and `MessageHandler::addMessage`. -/
structure Calls (κ : Type) where
  call : List Char → List (List Char) → κ → κ
  drawLine : List (List Char) → κ → κ
  addMessage : List Char → κ → κ

/-- The commands of `execCommandOn` other than `line`, each with the number of tokens it needs,
its name included. -/
def arities : List (List Char × Nat) :=
  [("addEmpty".toList, 5), ("addPicture".toList, 4), ("delete".toList, 2), ("swap".toList, 3),
    ("visible".toList, 2), ("combine".toList, 3), ("duplicate".toList, 2), ("move".toList, 4),
    ("scale".toList, 4), ("crop".toList, 6), ("autoCrop".toList, 2), ("rotate".toList, 3),
    ("shape".toList, 8), ("replaceColor".toList, 6), ("filterBlackWhite".toList, 2),
    ("filterInvert".toList, 2), ("filterSepia".toList, 2), ("filterKernel".toList, 13)]

/-- The loop of the `line` branch: `drawLine` on each seven consecutive tokens. -/
def drawLineGroups (C : Calls κ) : List (List Char) → κ → κ
  | a :: b :: c :: d :: e :: f :: g :: rest, k => drawLineGroups C rest (C.drawLine [a, b, c, d, e, f, g] k)
  | _, k => k

/-- `History::execCommandOn` on the canvas. With `writeHistory = false` it also counts the command
as done, which `History.execCommandOn` does. -/
def execCommandOn (C : Calls κ) (command : List Char) (k : κ) : κ :=
  match Util.split command ' ' with
  | [] => k
  | name :: args =>
    if name = "line".toList then
      if args.length % 7 ≠ 0 then C.addMessage ("Invalid command: ".toList ++ command) k
      else drawLineGroups C args k
    else
      match arities.lookup name with
      | some arity =>
        if args.length + 1 ≠ arity then C.addMessage ("Invalid command: ".toList ++ command) k
        else C.call name args k
      | none => C.addMessage ("Unknown command: ".toList ++ command) k

/-- The branch of `History::addCommand` that a string takes: a segment, with the `line ` in front
cut off, the end of a stroke, or another command. -/
def entry (command : List Char) : Entry (List Char) (List Char) :=
  if Util.beginsWith command "line".toList then .line (Util.substring command 5 command.length)
  else if Util.beginsWith command "prepareNextDrawing".toList then .prepareNextDrawing
  else .other command

/-- The string `commands` holds for a command: a stroke is `line` followed by each segment behind a
space, as `addCommand` joins them at `prepareNextDrawing`. -/
def commandText : Command (List Char) (List Char) → List Char
  | .line segments => "line".toList ++ (segments.map (' ' :: ·)).flatten
  | .other command => command

/-- The history over strings: an operation is its string, run by `execCommandOn`, and a segment
is the text after `line `, drawn with its tokens. -/
def stringLayers (C : Calls (Canvas ρ τ)) (reset : Canvas ρ τ) (layerRest : Int → ρ) :
    Layers ρ τ (List Char) (List Char) :=
  ⟨reset, execCommandOn C, fun segment => C.drawLine (Util.split segment ' '), layerRest⟩

/-! ## The branches of `addCommand` -/

/-- `Layers` hands a segment to `addCommand` as `line ` and its text: the `line` branch keeps the
text. -/
@[simp] lemma entry_line (segment : List Char) : entry ("line ".toList ++ segment) = .line segment := by
  simp [entry, Util.beginsWith, Util.substring]

/-- The end of a stroke takes the `prepareNextDrawing` branch. -/
@[simp] lemma entry_prepareNextDrawing : entry "prepareNextDrawing".toList = .prepareNextDrawing := by
  decide

/-! ## A joined stroke runs as its segments -/

/-- A segment that `execCommandOn` draws as one line: seven tokens. -/
def IsSegment (segment : List Char) : Prop := (Util.split segment ' ').length = 7

instance (segment : List Char) : Decidable (IsSegment segment) :=
  inferInstanceAs (Decidable (_ = 7))

/-- The tokens of a joined stroke: `line`, then each segment's tokens in order. -/
lemma split_commandText_line (segments : List (List Char)) :
    Util.split (commandText (.line segments)) ' ' =
      "line".toList :: (segments.map (Util.split · ' ')).flatten := by
  rw [commandText, Util.split_flatten_map_cons, Util.split_of_not_mem (by decide) (by decide)]
  rfl

/-- The loop of the `line` branch over groups of seven tokens draws each group. -/
lemma drawLineGroups_flatten (C : Calls κ) {groups : List (List (List Char))}
    (hgroups : ∀ g ∈ groups, g.length = 7) (k : κ) :
    drawLineGroups C groups.flatten k = groups.foldl (fun k g => C.drawLine g k) k := by
  induction groups generalizing k with
  | nil => rfl
  | cons g groups ih =>
    have hg := hgroups g (List.mem_cons_self g groups)
    match g, hg with
    | [a, b, c, d, e, f, g], _ =>
      rw [List.flatten_cons, List.foldl_cons, ← ih (fun g h => hgroups g (List.mem_cons_of_mem _ h))]
      rfl

/-- Segments of seven tokens each give seven tokens per segment. -/
lemma length_flatten_of_isSegment {segments : List (List Char)} (h : ∀ s ∈ segments, IsSegment s) :
    ((segments.map (Util.split · ' ')).flatten).length = 7 * segments.length := by
  induction segments with
  | nil => rfl
  | cons s segments ih =>
    have hs : (Util.split s ' ').length = 7 := h s (List.mem_cons_self s segments)
    simp only [List.map_cons, List.flatten_cons, List.length_append, List.length_cons, hs,
      ih fun s hs => h s (List.mem_cons_of_mem _ hs)]
    omega

/-- A joined stroke whose segments have seven tokens each: `execCommandOn` draws its segments, in
order, and adds no message. -/
lemma execCommandOn_commandText_line (C : Calls (Canvas ρ τ)) (reset : Canvas ρ τ)
    (layerRest : Int → ρ) {segments : List (List Char)} (h : ∀ s ∈ segments, IsSegment s)
    (k : Canvas ρ τ) :
    execCommandOn C (commandText (.line segments)) k =
      drawLines (stringLayers C reset layerRest) segments k := by
  have hgroups : ∀ g ∈ segments.map (Util.split · ' '), g.length = 7 := by
    simpa only [List.mem_map, forall_exists_index, and_imp, forall_apply_eq_imp_iff₂] using h
  rw [execCommandOn, split_commandText_line]
  simp only [if_true, length_flatten_of_isSegment h, Nat.mul_mod_right, ne_eq, not_true_eq_false,
    if_false, drawLineGroups_flatten C hgroups, List.foldl_map]
  rfl

/-- A command whose string `execCommandOn` runs as the command: every segment of a stroke has
seven tokens. -/
def Drawable : Command (List Char) (List Char) → Prop
  | .line segments => ∀ s ∈ segments, IsSegment s
  | .other _ => True

instance : DecidablePred Drawable
  | .line segments => inferInstanceAs (Decidable (∀ s ∈ segments, IsSegment s))
  | .other _ => inferInstanceAs (Decidable True)

/-- The string of a drawable command runs as the command. -/
lemma execCommandOn_commandText (C : Calls (Canvas ρ τ)) (reset : Canvas ρ τ) (layerRest : Int → ρ)
    {c : Command (List Char) (List Char)} (hc : Drawable c) (k : Canvas ρ τ) :
    execCommandOn C (commandText c) k = execCommand (stringLayers C reset layerRest) c k := by
  cases c with
  | line segments => exact execCommandOn_commandText_line C reset layerRest hc k
  | other command => rfl

/-- Drawable commands replay as their strings. -/
lemma replayFrom_eq_foldl_commandText (C : Calls (Canvas ρ τ)) (reset : Canvas ρ τ)
    (layerRest : Int → ρ) {cs : List (Command (List Char) (List Char))} (hcs : ∀ c ∈ cs, Drawable c)
    (k : Canvas ρ τ) :
    replayFrom (stringLayers C reset layerRest) k cs =
      (cs.map commandText).foldl (fun k command => execCommandOn C command k) k := by
  induction cs generalizing k with
  | nil => rfl
  | cons c cs ih =>
    rw [replayFrom_cons,
      ← execCommandOn_commandText C reset layerRest (hcs c (List.mem_cons_self c cs)),
      ih fun c h => hcs c (List.mem_cons_of_mem _ h)]
    rfl

/-! ## Every run -/

/-- A stroke of segments with seven tokens each, or another action. -/
def StrokeDrawable : Action (List Char) (List Char) → Prop
  | .stroke segments => Drawable (.line segments)
  | _ => True

instance : DecidablePred StrokeDrawable
  | .stroke segments => inferInstanceAs (Decidable (Drawable (.line segments)))
  | .perform _ | .undo | .redo => inferInstanceAs (Decidable True)

/-- The runs whose strings replay: recording where `Recordable` allows it, and strokes of
segments with seven tokens each. -/
def Replayable (s : State ρ τ (List Char) (List Char)) (a : Action (List Char) (List Char)) :
    Prop :=
  Recordable s a ∧ StrokeDrawable a

section Runs

variable {L : Layers ρ τ (List Char) (List Char)} {snapshotInterval : Nat}

/-- `dropRedo` keeps only commands that were there. -/
lemma dropRedo_commands_subset (s : State ρ τ (List Char) (List Char)) :
    (dropRedo snapshotInterval s).commands ⊆ s.commands := by
  unfold dropRedo
  split
  · exact (List.take_sublist _ _).subset
  · exact List.Subset.refl _

/-- What `addCommand` stores: what `dropRedo` keeps, and the other command it is given or a stroke
of the waiting segments. -/
lemma mem_addCommand_commands {s : State ρ τ (List Char) (List Char)}
    {e : Entry (List Char) (List Char)} {c : Command (List Char) (List Char)}
    (h : c ∈ (addCommand L snapshotInterval s e).commands) :
    c ∈ (dropRedo snapshotInterval s).commands ∨ (∃ op, e = .other op ∧ c = .other op) ∨
      (e = .prepareNextDrawing ∧ c = .line s.lines) := by
  cases e with
  | line segment => exact .inl h
  | prepareNextDrawing =>
    simp only [addCommand, dropRedo_lines] at h
    split at h
    · simp only [takeSnapshot_commands, pushCommand, List.mem_append, List.mem_singleton] at h
      exact h.imp_right fun h => .inr ⟨rfl, h⟩
    · exact .inl h
  | other op =>
    simp only [addCommand, takeSnapshot_commands, pushCommand, List.mem_append,
      List.mem_singleton] at h
    exact h.imp_right fun h => .inl ⟨op, rfl, h⟩

/-- The step lemma: an allowed action stores only drawable commands. -/
lemma drawable_step {s s' : State ρ τ (List Char) (List Char)}
    {a : Action (List Char) (List Char)} (hc : Consistent L snapshotInterval s)
    (hd : ∀ c ∈ s.commands, Drawable c) (ha : StrokeDrawable a)
    (hstep : step L snapshotInterval s a = some s') : ∀ c ∈ s'.commands, Drawable c := by
  cases a with
  | perform op =>
    obtain rfl := Option.some.inj hstep
    intro c h
    rcases mem_addCommand_commands h with h | ⟨op, -, rfl⟩ | ⟨h, -⟩
    · exact hd c (dropRedo_commands_subset { s with canvas := L.perform op s.canvas } h)
    · trivial
    · cases h
  | stroke segments =>
    obtain rfl := Option.some.inj hstep
    intro c h
    have hfold := dropRedo_foldl_drawSegment L snapshotInterval s segments
    rcases mem_addCommand_commands h with h | ⟨_, h, -⟩ | ⟨-, rfl⟩
    · rw [hfold] at h
      exact hd c (dropRedo_commands_subset s h)
    · cases h
    · have hlines := congrArg State.lines hfold
      rw [dropRedo_lines, hc.lines_nil, List.nil_append] at hlines
      rwa [hlines]
  | undo =>
    rw [undo_commands L snapshotInterval hstep]
    exact hd
  | redo =>
    obtain rfl := Option.some.inj hstep
    unfold redo
    split <;> exact hd

end Runs

/-! ## Every run, snapshots included -/

/-- The methods of `Layers` that `execCommandOn` calls act on what a snapshot keeps alone. -/
structure Calls.ViewDetermined (C : Calls (Canvas ρ τ)) : Prop where
  call : ∀ name args, ViewPreserving (C.call name args)
  drawLine : ∀ tokens, ViewPreserving (C.drawLine tokens)
  addMessage : ∀ message, ViewPreserving (C.addMessage message)

section View

variable {C : Calls (Canvas ρ τ)}

/-- The loop of the `line` branch acts on what a snapshot keeps alone. -/
lemma Calls.ViewDetermined.drawLineGroups (hC : C.ViewDetermined) (tokens : List (List Char)) :
    ViewPreserving (drawLineGroups C tokens) := by
  intro k k' h
  induction tokens, k using drawLineGroups.induct C generalizing k' with
  | case1 a b c d e f g rest k ih => exact ih _ (hC.drawLine _ k k' h)
  | case2 tokens k hne =>
    rw [drawLineGroups.eq_2 C tokens k hne, drawLineGroups.eq_2 C tokens k' hne]
    exact h

/-- `execCommandOn` acts on what a snapshot keeps alone: which method it calls depends on the
string alone. -/
lemma Calls.ViewDetermined.execCommandOn (hC : C.ViewDetermined) (command : List Char) :
    ViewPreserving (execCommandOn C command) := by
  intro k k' h
  unfold Text.execCommandOn
  split
  · exact h
  · split_ifs
    · exact hC.addMessage _ k k' h
    · exact hC.drawLineGroups _ k k' h
    · split
      · split_ifs
        · exact hC.addMessage _ k k' h
        · exact hC.call _ _ k k' h
      · exact hC.addMessage _ k k' h

/-- The history over strings acts on what a snapshot keeps alone when the methods of `Layers`
do. -/
lemma Calls.ViewDetermined.stringLayers (hC : C.ViewDetermined) (reset : Canvas ρ τ)
    (layerRest : Int → ρ) : History.ViewDetermined (stringLayers C reset layerRest) :=
  ⟨hC.execCommandOn, fun segment => hC.drawLine (Util.split segment ' ')⟩

end View

/-- The history over command strings: over every run from the empty history that records only
where `currentCommand - 1` does not wrap and draws strokes of segments with seven tokens each, and
with methods of `Layers` that act on what a snapshot keeps alone, the strings `commands` holds up
to `currentCommand`, run again through `execCommandOn` from the empty canvas, give a canvas that
looks like the one on the screen. -/
theorem canvas_eq_replay_commandText (C : Calls (Canvas ρ τ)) (reset : Canvas ρ τ)
    (layerRest : Int → ρ) {snapshotInterval : Nat} (hsi : 0 < snapshotInterval)
    (hC : C.ViewDetermined) {s : State ρ τ (List Char) (List Char)}
    (h : Reachable (stringLayers C reset layerRest) snapshotInterval Replayable s) :
    s.canvas.view = (((s.commands.take s.currentCommand).map commandText).foldl
      (fun k command => execCommandOn C command k) reset).view := by
  have hinv : Consistent (stringLayers C reset layerRest) snapshotInterval s ∧
      ∀ c ∈ s.commands, Drawable c := by
    induction h with
    | init => exact ⟨consistent_init _ _, nofun⟩
    | step _ ha hstep ih =>
      exact ⟨ih.1.step hsi (hC.stringLayers reset layerRest) ha.1 hstep,
        drawable_step ih.1 ih.2 ha.2 hstep⟩
  rw [hinv.1.view_canvas, replay, ← replayFrom_eq_foldl_commandText C reset layerRest
    fun c hc => hinv.2 c (List.mem_of_mem_take hc)]
  rfl

/-- A canvas on which every call of `execCommandOn` to `Layers` adds a layer, as wide as the
method's name is long and as high as the call has arguments; a message adds none. -/
def callStack : Calls (Canvas Unit Unit) :=
  ⟨fun name args => pushLayer ⟨name.length, args.length, 0, 0, fun _ => 0, ()⟩,
    fun tokens => pushLayer ⟨7, tokens.length, 0, 0, fun _ => 0, ()⟩, fun _ k => k⟩

/-- The calls of `callStack` act on what a snapshot keeps alone. -/
lemma viewDetermined_callStack : callStack.ViewDetermined :=
  ⟨fun _ _ => viewPreserving_pushLayer _, fun _ => viewPreserving_pushLayer _, fun _ _ _ h => h⟩

/-- With `callStack` and a snapshot after every command: a stroke, an `addEmpty` and an undo,
which copies back the snapshot taken after the stroke. -/
theorem canvas_eq_replay_commandText_undoSnapshot :
    ∃ s, run (stringLayers callStack emptyCanvas fun _ => ()) 1
        (init (stringLayers callStack emptyCanvas fun _ => ()))
        [.stroke ["1 2 3 4 5 6 7".toList], .perform "addEmpty 0 0 4 4".toList, .undo] = some s ∧
      0 < 1 ∧ callStack.ViewDetermined ∧
      Reachable (stringLayers callStack emptyCanvas fun _ => ()) 1 Replayable s ∧
      s.canvas.view = (((s.commands.take s.currentCommand).map commandText).foldl
        (fun k command => execCommandOn callStack command k) emptyCanvas).view :=
  have hrun : Reachable (stringLayers callStack emptyCanvas fun _ => ()) 1 Replayable _ :=
    .step (a := .undo) (.step (a := .perform "addEmpty 0 0 4 4".toList)
      (.step (a := .stroke ["1 2 3 4 5 6 7".toList]) .init ⟨⟨fun _ => rfl, by decide⟩, by decide⟩
        rfl) ⟨⟨by decide, by decide⟩, trivial⟩ rfl) ⟨trivial, trivial⟩ rfl
  ⟨_, rfl, by decide, viewDetermined_callStack, hrun,
    canvas_eq_replay_commandText callStack emptyCanvas (fun _ => ()) (by decide)
      viewDetermined_callStack hrun⟩

end Text

end History

end HhuOS
