import Mathlib.Data.Nat.Defs
import Mathlib.Algebra.Order.Group.Nat

/-!
# Drawing the background of a game scene

`Graphics::saveCurrentStateAsBackground` copies the rows of the frame buffer into a background
buffer, and `Graphics::show` draws that background at the start of a frame. With the camera at
the origin it copies the background's rows in one piece. Otherwise it scrolls horizontally: the
camera's x coordinate gives a byte offset `xOffset` into each row, rounded down to a whole pixel,
and each row of the frame buffer becomes the background row from `xOffset` to its end followed
by its start, two copies per row. The camera's y coordinate is read only by the test for the
origin.

Buffers are maps from byte offsets to bytes, and the frame buffer and the background are
distinct buffers. `Address::copyRange` copies bytes; `LinearFrameBuffer::clear`, which `show`
calls when there is no background, zeroes the rows. The camera's x coordinate enters as the
`uint32_t` value of `x * pitch / 4`. `show` divides by the pitch and by the bytes per pixel; the
model returns `none` when one of them is zero. `show` starts with `lfb.flush()`, which puts the
previous frame on the screen before the background is drawn; the model leaves it out.

Over each row, `showRow_apply` reads the row back at one arithmetic form, byte
`(j + xOffset) % pitch` of the background row for byte `j`, with the case split at the wrap done
once; `showRows_apply` extends it over the row loop.
-/

namespace HhuOS

namespace Game

/-- What `show` reads of the frame buffer: the number of rows, the bytes per row, the bits per
pixel, and the bytes. -/
structure LinearFrameBuffer where
  resolutionY : Nat
  pitch : Nat
  colorDepth : Nat
  buffer : Nat → UInt8

/-- `Address::copyRange`: `length` bytes from `source` at `sourceOffset` into `target` at
`targetOffset`, for distinct buffers. -/
def copyRange (target : Nat → UInt8) (targetOffset : Nat) (source : Nat → UInt8)
    (sourceOffset : Nat) : Nat → Nat → UInt8
  | 0 => target
  | length + 1 => fun a =>
    if a = targetOffset + length then source (sourceOffset + length)
    else copyRange target targetOffset source sourceOffset length a

/-- `LinearFrameBuffer::clear`: every byte of the rows zero. -/
def clear (lfb : LinearFrameBuffer) : Nat → UInt8 :=
  fun a => if a < lfb.resolutionY * lfb.pitch then 0 else lfb.buffer a

/-- `colorDepthDivisor`: the bytes per pixel, 15-bit colors taking 16 bits. -/
def colorDepthDivisor (colorDepth : Nat) : Nat := (if colorDepth = 15 then 16 else colorDepth) / 8

/-- `xOffset`: the camera's offset into a row, rounded down to a whole pixel; `none` for a
division by zero. -/
def xOffset (pitch colorDepth scroll : Nat) : Option Nat :=
  if pitch = 0 ∨ colorDepthDivisor colorDepth = 0 then none
  else some (scroll % pitch - scroll % pitch % colorDepthDivisor colorDepth)

/-- One pass of the row loop of `show`: row `i` of the background from `xOffset` to its end, then
its first `xOffset` bytes. -/
def showRow (pitch xOffset : Nat) (background lfb : Nat → UInt8) (i : Nat) : Nat → UInt8 :=
  let yOffset := pitch * i
  copyRange (copyRange lfb yOffset background (yOffset + xOffset) (pitch - xOffset))
    (yOffset + (pitch - xOffset)) background yOffset (pitch - (pitch - xOffset))

/-- The row loop of `show` over the first `rows` rows. -/
def showRows (pitch xOffset : Nat) (background lfb : Nat → UInt8) : Nat → Nat → UInt8
  | 0 => lfb
  | rows + 1 => showRow pitch xOffset background (showRows pitch xOffset background lfb rows) rows

/-- `Graphics::show` on the frame buffer's bytes. `atOrigin` is the test of the camera position
against `(0, 0)`, and `scroll` the `uint32_t` value of `x * pitch / 4`. -/
def «show» (lfb : LinearFrameBuffer) (background : Option (Nat → UInt8)) (atOrigin : Bool)
    (scroll : Nat) : Option (Nat → UInt8) :=
  match background with
  | none => some (clear lfb)
  | some background =>
    if atOrigin then some (copyRange lfb.buffer 0 background 0 (lfb.resolutionY * lfb.pitch))
    else (xOffset lfb.pitch lfb.colorDepth scroll).map fun xOffset =>
      showRows lfb.pitch xOffset background lfb.buffer lfb.resolutionY

/-- `Graphics::saveCurrentStateAsBackground`: the background after copying the frame buffer's rows
into it. A new buffer starts with arbitrary bytes, all of which the copy overwrites. -/
def saveCurrentStateAsBackground (lfb : LinearFrameBuffer) (background : Option (Nat → UInt8)) :
    Nat → UInt8 :=
  copyRange (background.getD fun _ => 0) 0 lfb.buffer 0 (lfb.pitch * lfb.resolutionY)

/-! ## Copies -/

/-- What a copy leaves at each byte. -/
lemma copyRange_apply (target : Nat → UInt8) (targetOffset : Nat) (source : Nat → UInt8)
    (sourceOffset length a : Nat) :
    copyRange target targetOffset source sourceOffset length a =
      if targetOffset ≤ a ∧ a < targetOffset + length then source (sourceOffset + (a - targetOffset))
      else target a := by
  induction length with
  | zero => simp only [copyRange, Nat.add_zero]; rw [if_neg (by omega)]
  | succ length ih =>
    simp only [copyRange, ih]
    split_ifs <;> first | rfl | (congr 1; omega)

/-- Byte `j` of a row plus the offset, taken around the row. -/
lemma add_mod_of_lt {j x pitch : Nat} (hj : j < pitch) (hx : x < pitch) :
    (j + x) % pitch = if j + x < pitch then j + x else j + x - pitch := by
  split_ifs with h
  · exact Nat.mod_eq_of_lt h
  · rw [Nat.mod_eq_sub_mod (by omega), Nat.mod_eq_of_lt (by omega)]

/-- One row: byte `j` of row `i` is byte `(j + xOffset) % pitch` of the background's row `i`; every
other byte is left alone. -/
lemma showRow_apply {pitch x : Nat} (hx : x < pitch) (background lfb : Nat → UInt8) (i a : Nat) :
    showRow pitch x background lfb i a =
      if pitch * i ≤ a ∧ a < pitch * i + pitch then
        background (pitch * i + (a - pitch * i + x) % pitch)
      else lfb a := by
  simp only [showRow, copyRange_apply]
  split_ifs with h₁ h₂ h₃ h₃ <;> first | rfl | omega | skip
  · rw [add_mod_of_lt (by omega) hx, if_neg (by omega)]
    congr 1
    omega
  · rw [add_mod_of_lt (by omega) hx, if_pos (by omega)]
    congr 1
    omega

/-- The row loop: the first `rows` rows hold the background rotated by `xOffset`, every other byte
its old value. -/
lemma showRows_apply {pitch x : Nat} (hx : x < pitch) (background lfb : Nat → UInt8)
    (rows a : Nat) :
    showRows pitch x background lfb rows a =
      if a < pitch * rows then background (pitch * (a / pitch) + (a % pitch + x) % pitch)
      else lfb a := by
  induction rows with
  | zero => rw [showRows, if_neg (by simp)]
  | succ rows ih =>
    rw [showRows, showRow_apply hx, ih, Nat.mul_succ]
    by_cases hrow : pitch * rows ≤ a ∧ a < pitch * rows + pitch
    · have hdiv : a / pitch = rows := Nat.div_eq_of_lt_le (by rw [Nat.mul_comm]; exact hrow.1)
        (by rw [Nat.succ_mul, Nat.mul_comm]; exact hrow.2)
      have hmod : a % pitch = a - pitch * rows := by
        rw [← hdiv, Nat.mod_def]
      rw [if_pos hrow, if_pos hrow.2, hdiv, hmod]
    · rw [if_neg hrow]
      split_ifs <;> first | rfl | omega

/-! ## What `show` draws -/

/-- A pixel of at least eight bits has at least one byte. -/
lemma colorDepthDivisor_pos {colorDepth : Nat} (hdepth : 8 ≤ colorDepth) :
    0 < colorDepthDivisor colorDepth := by
  unfold colorDepthDivisor
  split_ifs <;> omega

/-- For a frame buffer with rows and at least one byte per pixel, `xOffset` is the camera's
offset into a row rounded down to a multiple of the bytes per pixel. -/
lemma xOffset_spec {pitch colorDepth : Nat} (hpitch : 0 < pitch) (hdepth : 8 ≤ colorDepth)
    (scroll : Nat) :
    ∃ x, xOffset pitch colorDepth scroll = some x ∧ x ≤ scroll % pitch ∧
      scroll % pitch < x + colorDepthDivisor colorDepth ∧ colorDepthDivisor colorDepth ∣ x := by
  have hd := colorDepthDivisor_pos hdepth
  have hlt := Nat.mod_lt (scroll % pitch) hd
  refine ⟨_, if_neg (by omega), Nat.sub_le _ _, by omega, Nat.dvd_sub_mod _⟩

/-- When the camera's offset is defined, `show` copies the rotated background row by row. -/
lemma show_of_xOffset (lfb : LinearFrameBuffer) (background : Nat → UInt8) {scroll x : Nat}
    (hx : xOffset lfb.pitch lfb.colorDepth scroll = some x) :
    «show» lfb (some background) false scroll =
      some (showRows lfb.pitch x background lfb.buffer lfb.resolutionY) := by
  simp only [«show», hx, Option.map_some', Bool.false_eq_true, if_false]

/-- Scrolling: for a frame buffer with rows and at least one byte per pixel, `show` away from the
origin makes byte `j` of every row byte `(j + xOffset) % pitch` of the background's same row, where
`xOffset` is the camera's offset into a row rounded down to a whole pixel; the bytes past the rows
keep their values. -/
theorem show_scrolled (lfb : LinearFrameBuffer) (background : Nat → UInt8) (scroll : Nat)
    (hpitch : 0 < lfb.pitch) (hdepth : 8 ≤ lfb.colorDepth) :
    ∃ x, x ≤ scroll % lfb.pitch ∧ scroll % lfb.pitch < x + colorDepthDivisor lfb.colorDepth ∧
      colorDepthDivisor lfb.colorDepth ∣ x ∧
      «show» lfb (some background) false scroll = some fun a =>
        if a < lfb.pitch * lfb.resolutionY then
          background (lfb.pitch * (a / lfb.pitch) + (a % lfb.pitch + x) % lfb.pitch)
        else lfb.buffer a := by
  obtain ⟨x, hx, hle, hgt, hdvd⟩ := xOffset_spec hpitch hdepth scroll
  refine ⟨x, hle, hgt, hdvd, ?_⟩
  rw [show_of_xOffset lfb background hx]
  exact congrArg some (funext (showRows_apply (by have := Nat.mod_lt scroll hpitch; omega) _ _ _))

/-- Two rows of eight bytes, two 32-bit pixels each. -/
def twoRows : LinearFrameBuffer := ⟨2, 8, 32, fun _ => 0⟩

/-- On a frame buffer of two rows, scrolled by five bytes: every row shows the background rotated by
a whole pixel. -/
theorem show_scrolled_twoRows :
    0 < twoRows.pitch ∧ 8 ≤ twoRows.colorDepth ∧
      ∃ x, x ≤ 5 % twoRows.pitch ∧ 5 % twoRows.pitch < x + colorDepthDivisor twoRows.colorDepth ∧
        colorDepthDivisor twoRows.colorDepth ∣ x ∧
        «show» twoRows (some Nat.toUInt8) false 5 = some fun a =>
          if a < twoRows.pitch * twoRows.resolutionY then
            Nat.toUInt8 (twoRows.pitch * (a / twoRows.pitch) + (a % twoRows.pitch + x) % twoRows.pitch)
          else twoRows.buffer a :=
  ⟨by decide, by decide, show_scrolled twoRows Nat.toUInt8 5 (by decide) (by decide)⟩

/-- The shortcut at the origin: `show` with the camera at `(0, 0)`, one copy of all rows, draws what
the row loop draws with no scrolling, as for a camera at `(0, y)`. -/
theorem show_atOrigin (lfb : LinearFrameBuffer) (background : Nat → UInt8) (scroll : Nat)
    (hpitch : 0 < lfb.pitch) (hdepth : 8 ≤ lfb.colorDepth) :
    «show» lfb (some background) true scroll = «show» lfb (some background) false 0 := by
  obtain ⟨x, hx, hle, -⟩ := xOffset_spec hpitch hdepth 0
  obtain rfl : x = 0 := by simpa using hle
  rw [show_of_xOffset lfb background hx, «show», if_pos rfl]
  refine congrArg some (funext fun a => ?_)
  rw [copyRange_apply, showRows_apply hpitch]
  simp only [Nat.zero_le, true_and, Nat.zero_add, Nat.sub_zero, Nat.add_zero, Nat.mod_mod,
    Nat.div_add_mod, Nat.mul_comm lfb.resolutionY]

/-- On a frame buffer of two rows, the camera at the origin shows the unrotated background. -/
theorem show_atOrigin_twoRows :
    0 < twoRows.pitch ∧ 8 ≤ twoRows.colorDepth ∧
      «show» twoRows (some Nat.toUInt8) true 5 = «show» twoRows (some Nat.toUInt8) false 0 :=
  ⟨by decide, by decide, show_atOrigin twoRows Nat.toUInt8 5 (by decide) (by decide)⟩

/-- Where the bytes per pixel divide the pitch, pixel `q` of a row is pixel `q'` of the background's
same row, all of its bytes in order. -/
lemma pixel_of_dvd {pitch d x q t : Nat} (hpitch : 0 < pitch) (hdx : d ∣ x) (hdvd : d ∣ pitch)
    (ht : t < d) :
    (q * d + t + x) % pitch = (q * d + x) % pitch + t ∧ (q * d + x) % pitch + d ≤ pitch := by
  obtain ⟨m, hm⟩ : ∃ m, m = (q * d + x) % pitch := ⟨_, rfl⟩
  rw [← hm]
  have hmd : d ∣ m := hm ▸ (Nat.dvd_mod_iff hdvd).2 (Nat.dvd_add (Nat.dvd_mul_left d q) hdx)
  have hmlt : m < pitch := hm ▸ Nat.mod_lt _ hpitch
  have hmle : m + d ≤ pitch := by
    obtain ⟨k, hk⟩ := hmd
    obtain ⟨l, hl⟩ := hdvd
    have : k < l := by
      by_contra h
      have : d * l ≤ d * k := Nat.mul_le_mul_left d (by omega)
      omega
    have : d * (k + 1) ≤ d * l := Nat.mul_le_mul_left d this
    rw [Nat.mul_succ] at this
    omega
  refine ⟨?_, hmle⟩
  rw [show q * d + t + x = q * d + x + t by omega, ← Nat.mod_add_mod, ← hm,
    Nat.mod_eq_of_lt (by omega)]

/-- Scrolling moves whole pixels: where the bytes per pixel divide the pitch, every pixel of every
row that `show` draws away from the origin is a whole pixel of the background's same row, its
bytes in order. -/
theorem show_moves_whole_pixels (lfb : LinearFrameBuffer) (background : Nat → UInt8) (scroll : Nat)
    (hpitch : 0 < lfb.pitch) (hdepth : 8 ≤ lfb.colorDepth)
    (hdvd : colorDepthDivisor lfb.colorDepth ∣ lfb.pitch) :
    ∃ drawn, «show» lfb (some background) false scroll = some drawn ∧
      ∀ i < lfb.resolutionY, ∀ q, (q + 1) * colorDepthDivisor lfb.colorDepth ≤ lfb.pitch →
        ∃ q', (q' + 1) * colorDepthDivisor lfb.colorDepth ≤ lfb.pitch ∧
          ∀ t < colorDepthDivisor lfb.colorDepth,
            drawn (lfb.pitch * i + q * colorDepthDivisor lfb.colorDepth + t) =
              background (lfb.pitch * i + q' * colorDepthDivisor lfb.colorDepth + t) := by
  obtain ⟨x, hx, hle, -, hdx⟩ := xOffset_spec hpitch hdepth scroll
  have hxp : x < lfb.pitch := by have := Nat.mod_lt scroll hpitch; omega
  refine ⟨_, show_of_xOffset lfb background hx, fun i hi q hq => ?_⟩
  have hd := colorDepthDivisor_pos hdepth
  generalize colorDepthDivisor lfb.colorDepth = d at hd hdx hdvd hq ⊢
  obtain ⟨-, hfit⟩ := pixel_of_dvd (q := q) (t := 0) hpitch hdx hdvd hd
  refine ⟨(q * d + x) % lfb.pitch / d, ?_, fun t ht => ?_⟩
  · rw [Nat.add_mul, Nat.one_mul, Nat.div_mul_cancel ((Nat.dvd_mod_iff hdvd).2
      (Nat.dvd_add (Nat.dvd_mul_left d q) hdx))]
    exact hfit
  · obtain ⟨hmod, -⟩ := pixel_of_dvd (q := q) hpitch hdx hdvd ht
    have hrow : q * d + t < lfb.pitch := by rw [Nat.add_mul, Nat.one_mul] at hq; omega
    have hi' : lfb.pitch * (i + 1) ≤ lfb.pitch * lfb.resolutionY := Nat.mul_le_mul_left _ hi
    have hdiv : (lfb.pitch * i + q * d + t) / lfb.pitch = i := by
      rw [Nat.add_assoc, Nat.mul_add_div hpitch, Nat.div_eq_of_lt hrow, Nat.add_zero]
    have hmod' : (lfb.pitch * i + q * d + t) % lfb.pitch = q * d + t := by
      rw [Nat.add_assoc, Nat.mul_add_mod, Nat.mod_eq_of_lt hrow]
    rw [showRows_apply hxp, if_pos (by rw [Nat.mul_succ] at hi'; omega), hdiv, hmod', hmod,
      Nat.div_mul_cancel ((Nat.dvd_mod_iff hdvd).2 (Nat.dvd_add (Nat.dvd_mul_left d q) hdx)),
      Nat.add_assoc]

/-- On a frame buffer of two rows, every pixel of the background lands on a whole pixel. -/
theorem show_moves_whole_pixels_twoRows :
    0 < twoRows.pitch ∧ 8 ≤ twoRows.colorDepth ∧ colorDepthDivisor twoRows.colorDepth ∣ twoRows.pitch ∧
      ∃ drawn, «show» twoRows (some Nat.toUInt8) false 5 = some drawn ∧
        ∀ i < twoRows.resolutionY, ∀ q, (q + 1) * colorDepthDivisor twoRows.colorDepth ≤ twoRows.pitch →
          ∃ q', (q' + 1) * colorDepthDivisor twoRows.colorDepth ≤ twoRows.pitch ∧
            ∀ t < colorDepthDivisor twoRows.colorDepth,
              drawn (twoRows.pitch * i + q * colorDepthDivisor twoRows.colorDepth + t) =
                Nat.toUInt8 (twoRows.pitch * i + q' * colorDepthDivisor twoRows.colorDepth + t) :=
  ⟨by decide, by decide, by decide,
    show_moves_whole_pixels twoRows Nat.toUInt8 5 (by decide) (by decide) (by decide)⟩

/-- Saving the screen and drawing it back: `show` at the origin after
`saveCurrentStateAsBackground` leaves every byte of the frame buffer as it was. -/
theorem show_saveCurrentStateAsBackground (lfb : LinearFrameBuffer)
    (background : Option (Nat → UInt8)) (scroll : Nat) :
    «show» lfb (some (saveCurrentStateAsBackground lfb background)) true scroll = some lfb.buffer := by
  refine congrArg some (funext fun a => ?_)
  simp only [saveCurrentStateAsBackground, copyRange_apply, Nat.zero_le, true_and, Nat.zero_add,
    Nat.sub_zero, Nat.mul_comm lfb.pitch]
  split_ifs <;> rfl

end Game

end HhuOS
