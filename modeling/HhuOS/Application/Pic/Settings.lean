import HhuOS.Util.String
import Mathlib.Logic.Function.Basic

/-!
# The settings of the paint tool

`Settings` holds nine flags of the paint tool. `Settings::saveToFile` writes one line per flag,
its name, a space and `true` or `false`, in a fixed order; `Settings::loadFromFile` reads the
file line by line, splits each nonempty line at spaces, and sets the flag that the first part
names to whether the second part is `true`, or reports the name as unknown. The constructor
resets the flags to their defaults, loads `/pic/settings` and saves it again.

The file system, `readLine` and the message handler are outside the source tree: a file is the
list of lines `readLine` returns, what `saveToFile` learns from the file system is an input
(`SaveAnswers`), and every function returns the messages it adds. The loop reads `parts[0]` and,
for a known name, `parts[1]`; on a line with no such part (only spaces, or a known name alone)
the model returns `none`.

`loadLines_eq` is the reader for every file: each flag ends with the value of the last line that
names it, or keeps its old value, and the unknown names are reported in file order.
`loadFromFile_regular` adds the messages of `loadFromFile` around it.
-/

namespace HhuOS

namespace Settings

/-- The flags of `Settings`, in the order `saveToFile` writes them. -/
inductive Setting where
  | checkeredBackground
  | optimizeRendering
  | currentLayerOverlay
  | activateHotkeys
  | showFPS
  | textCaptureAfterUse
  | resetValuesAfterConfirm
  | useBufferedBuffer
  | showMouseHelper
  deriving DecidableEq, Repr

namespace Setting

/-- The name of a flag in the settings file. -/
def name : Setting → List Char
  | checkeredBackground => "checkeredBackground".toList
  | optimizeRendering => "optimizeRendering".toList
  | currentLayerOverlay => "currentLayerOverlay".toList
  | activateHotkeys => "activateHotkeys".toList
  | showFPS => "showFPS".toList
  | textCaptureAfterUse => "textCaptureAfterUse".toList
  | resetValuesAfterConfirm => "resetValuesAfterConfirm".toList
  | useBufferedBuffer => "useBufferedBuffer".toList
  | showMouseHelper => "showMouseHelper".toList

/-- The flags in the order of the tests of `loadFromFile` and of the lines of `saveToFile`. -/
def all : List Setting :=
  [checkeredBackground, optimizeRendering, currentLayerOverlay, activateHotkeys, showFPS,
    textCaptureAfterUse, resetValuesAfterConfirm, useBufferedBuffer, showMouseHelper]

/-- The chain of tests `parts[0] == "checkeredBackground"`, … in `loadFromFile`. -/
def ofName (name : List Char) : Option Setting := all.find? (·.name = name)

/-- A flag's name names the flag. -/
lemma ofName_name (setting : Setting) : ofName setting.name = some setting := by
  cases setting <;> rfl

/-- A name that names a flag is the flag's name. -/
lemma name_of_ofName {name : List Char} {setting : Setting} (h : ofName name = some setting) :
    setting.name = name := by
  simpa using List.find?_some h

/-- Different flags have different names. -/
lemma name_inj {a b : Setting} : a.name = b.name ↔ a = b :=
  ⟨fun h => Option.some.inj ((ofName_name a).symm.trans (h ▸ ofName_name b)), congrArg name⟩

end Setting

/-! ## The three functions -/

/-- The default of each flag, as `resetToDefault` sets it. -/
def defaultValue : Setting → Bool
  | .checkeredBackground => true
  | .optimizeRendering => true
  | .currentLayerOverlay => true
  | .activateHotkeys => true
  | .showFPS => false
  | .textCaptureAfterUse => false
  | .resetValuesAfterConfirm => false
  | .useBufferedBuffer => false
  | .showMouseHelper => true

/-- `Settings::resetToDefault`: the flags and the message. -/
def resetToDefault : (Setting → Bool) × List (List Char) :=
  (defaultValue, ["Settings restored to default values".toList])

/-- One nonempty line of the loop of `loadFromFile`: the flags and the messages it adds, or `none`
when it reads a part of `line.split(" ")` that is not there. -/
def loadLine (values : Setting → Bool) (line : List Char) :
    Option ((Setting → Bool) × List (List Char)) :=
  if line.length > 0 then
    match Util.split line ' ' with
    | [] => none
    | name :: rest =>
      match Setting.ofName name with
      | some setting => rest.head?.map fun value =>
        (Function.update values setting (decide (value = "true".toList)), [])
      | none => some (values, ["Settings Error: Unknown setting: ".toList ++ name])
  else some (values, [])

/-- The loop of `loadFromFile` over the lines of the file. -/
def loadLines (values : Setting → Bool) : List (List Char) →
    Option ((Setting → Bool) × List (List Char))
  | [] => some (values, [])
  | line :: lines => (loadLine values line).bind fun (values, messages) =>
    (loadLines values lines).map fun (values, rest) => (values, messages ++ rest)

/-- What `loadFromFile` finds at its path. -/
inductive SettingsFile where
  | notFound
  | directory
  | regular (lines : List (List Char))

/-- `Settings::loadFromFile`: the flags and the messages it adds, or `none` as `loadLine`. -/
def loadFromFile (values : Setting → Bool) (path : List Char) (file : SettingsFile) :
    Option ((Setting → Bool) × List (List Char)) :=
  if path.length = 0 then some (values, ["Settings::loadFromFile Error: No path given".toList])
  else
    match file with
    | .notFound => some (values, ["Settings::loadFromFile Error: File not found: ".toList ++ path])
    | .directory =>
      some (values, ["Settings::loadFromFile Error: File is a directory: ".toList ++ path])
    | .regular lines => (loadLines values lines).map fun (values, messages) =>
      (values, messages ++ ["Settings loaded from: ".toList ++ path])

/-- What `saveToFile` learns from the file system: whether the folder `pic` exists, whether
creating it succeeds, and whether `fopen` opens the file. -/
structure SaveAnswers where
  picFolderExists : Bool
  createSucceeds : Bool
  opened : Bool

/-- The line `saveToFile` writes for a flag. -/
def settingLine (values : Setting → Bool) (setting : Setting) : List Char :=
  setting.name ++ ' ' :: (if values setting then "true" else "false").toList

/-- `Settings::saveToFile`: the lines written, if the file is written, and the messages it adds. -/
def saveToFile (values : Setting → Bool) (path : List Char) (answers : SaveAnswers) :
    Option (List (List Char)) × List (List Char) :=
  if path.length = 0 then (none, ["Settings::saveToFile Error: No path given".toList])
  else
    let creating := if answers.picFolderExists then []
      else ["Settings::saveToFile: Creating directory: pic".toList]
    if !answers.picFolderExists && !answers.createSucceeds then
      (none, creating ++ ["Settings::saveToFile Error: Could not create directory: pic".toList])
    else if !answers.opened then
      (none, creating ++ ["Settings::saveToFile Error: Could not open file: ".toList ++ path])
    else (some (Setting.all.map (settingLine values)), creating ++ ["Settings saved to: ".toList ++ path])

/-- The settings file of the paint tool. -/
def path : List Char := "/pic/settings".toList

/-- `Settings::Settings`: `resetToDefault`, `loadFromFile` and `saveToFile` on `/pic/settings`;
the flags, the lines written and all messages, or `none` as `loadLine`. -/
def create (file : SettingsFile) (answers : SaveAnswers) :
    Option ((Setting → Bool) × Option (List (List Char)) × List (List Char)) :=
  (loadFromFile resetToDefault.1 path file).map fun (values, loaded) =>
    (values, (saveToFile values path answers).1,
      resetToDefault.2 ++ loaded ++ (saveToFile values path answers).2)

/-! ## What a file means -/

/-- The value a line gives a flag: whether its second part is `true`, when its first part is the
flag's name. -/
def lineValue (setting : Setting) (line : List Char) : Option Bool :=
  match Util.split line ' ' with
  | name :: value :: _ => if name = setting.name then some (decide (value = "true".toList)) else none
  | _ => none

/-- The first part of a line, when it names no flag. -/
def unknownName (line : List Char) : Option (List Char) :=
  match Util.split line ' ' with
  | name :: _ => if (Setting.ofName name).isSome then none else some name
  | [] => none

/-- A line the loop reads without indexing past the parts it has: empty, or with a first part,
and with a second one when the first names a flag. -/
def readable (line : List Char) : Bool :=
  line.isEmpty ||
    match Util.split line ' ' with
    | [] => false
    | name :: rest => !(Setting.ofName name).isSome || !rest.isEmpty

/-- One line, as the meaning of its parts. -/
lemma loadLine_eq (values : Setting → Bool) (line : List Char) :
    loadLine values line =
      if readable line then
        some (fun setting => (lineValue setting line).getD (values setting),
          (unknownName line).toList.map ("Settings Error: Unknown setting: ".toList ++ ·))
      else none := by
  by_cases hne : line = []
  · subst hne; rfl
  have hpos : line.length > 0 := List.length_pos.2 hne
  have hempty : line.isEmpty = false := List.isEmpty_eq_false.2 hne
  simp only [loadLine, readable, lineValue, unknownName, hpos, if_true, hempty, Bool.false_or]
  generalize Util.split line ' ' = parts
  rcases parts with _ | ⟨name, rest⟩
  · rfl
  · rcases hname : Setting.ofName name with _ | setting
    · have hne : ∀ s : Setting, name ≠ s.name := fun s h =>
        Option.noConfusion ((Setting.ofName_name s).symm.trans (h ▸ hname))
      cases rest <;> simp only [hname, hne, if_false, Option.getD_none, Option.isSome_none,
        Bool.not_false, Bool.true_or, Bool.false_eq_true, if_true, Option.toList_some,
        List.map_cons, List.map_nil]
    · obtain rfl := Setting.name_of_ofName hname
      cases rest with
      | nil =>
        simp only [hname, List.head?_nil, Option.map_none', Option.isSome_some, Bool.not_true,
          List.isEmpty_nil, Bool.or_false, Bool.false_eq_true, if_false]
      | cons value rest =>
        simp only [hname, List.head?_cons, Option.map_some', Option.isSome_some, Bool.not_true,
          List.isEmpty_cons, Bool.not_false, Bool.or_true, if_true, Option.toList_none,
          List.map_nil, Setting.name_inj, Option.some.injEq, Prod.mk.injEq, and_true]
        funext s
        rcases eq_or_ne s setting with rfl | h
        · rw [Function.update_same, if_pos rfl]; rfl
        · rw [Function.update_noteq h, if_neg (Ne.symm h)]; rfl

/-- The flag a list of values ends with: the last, or the start value. -/
lemma getLast?_toList_append_getD {α : Type} (o : Option α) (l : List α) (d : α) :
    (o.toList ++ l).getLast?.getD d = l.getLast?.getD (o.getD d) := by
  rw [List.getLast?_append]
  cases l.getLast? <;> cases o <;> rfl

/-- The reader for every file: when every line is readable, each flag ends with the value of the
last line naming it, or keeps its value, and each line with an unknown name adds one message,
in file order; otherwise the loop reads past the parts of a line. -/
lemma loadLines_eq (values : Setting → Bool) (lines : List (List Char)) :
    loadLines values lines =
      if lines.all readable then
        some (fun setting => ((lines.filterMap (lineValue setting)).getLast?).getD (values setting),
          (lines.filterMap unknownName).map ("Settings Error: Unknown setting: ".toList ++ ·))
      else none := by
  induction lines generalizing values with
  | nil => rfl
  | cons line lines ih =>
    rw [loadLines, loadLine_eq, List.all_cons]
    by_cases hline : readable line
    · simp only [hline, if_true, Option.some_bind, ih, Bool.true_and]
      split
      · simp only [Option.map_some', List.filterMap_cons, Option.some.injEq, Prod.mk.injEq]
        refine ⟨funext fun setting => ?_, ?_⟩
        · rw [← getLast?_toList_append_getD]
          cases lineValue setting line <;> rfl
        · cases unknownName line <;> rfl
      · rfl
    · simp [hline]

/-- For a path, every file is read as `loadLines_eq` says, followed by the message naming the
path; a line that is not readable makes the read fail. -/
theorem loadFromFile_regular (values : Setting → Bool) {path : List Char} (hpath : path ≠ [])
    (lines : List (List Char)) :
    loadFromFile values path (.regular lines) =
      if lines.all readable then
        some (fun setting => ((lines.filterMap (lineValue setting)).getLast?).getD (values setting),
          (lines.filterMap unknownName).map ("Settings Error: Unknown setting: ".toList ++ ·) ++
            ["Settings loaded from: ".toList ++ path])
      else none := by
  rw [loadFromFile, if_neg (by simpa using hpath), loadLines_eq]
  split <;> rfl

/-- A file of settings: one good line, one unknown name, and a later line for the same flag. -/
def sampleLines : List (List Char) :=
  ["showFPS true".toList, "fancy on".toList, "showFPS false".toList]

/-- The sample file reads as `loadFromFile_regular` says: `showFPS` ends `false`, and `fancy` is
reported as unknown. -/
theorem loadFromFile_regular_sample :
    path ≠ [] ∧
      loadFromFile defaultValue path (.regular sampleLines) =
        if sampleLines.all readable then
          some (fun setting =>
              ((sampleLines.filterMap (lineValue setting)).getLast?).getD (defaultValue setting),
            (sampleLines.filterMap unknownName).map ("Settings Error: Unknown setting: ".toList ++ ·) ++
              ["Settings loaded from: ".toList ++ path])
        else none :=
  ⟨by decide, loadFromFile_regular defaultValue (by decide) sampleLines⟩

end Settings

end HhuOS
