import Mathlib.Data.List.Nodup

/-!
# Drawing an image in a game scene

`Graphics::drawImage2D` draws an image with its lower left corner at a point of the scene. The
camera and the scaling turn the point into pixel offsets; the model takes these offsets as its
input. When the test at the top finds the image off the screen, the function returns at once;
otherwise it calls `pixelDrawer.drawPixel` once for each pixel of the image, row `i` of the
image on screen row `yPixelOffset - i`, pixel `j` of a row on column `xPixelOffset + j`, or on
column `xPixelOffset + (width - 1) - j` when the image is flipped. The model returns the calls of
`drawPixel` in order; `int` arithmetic is `Int`.

`drawImage2D_draws_onScreen` says the test at the top is sound: it never drops a pixel that
would land on the screen, and no two calls draw on one position. `drawImage2D_flip` says a
flipped image is drawn as the mirror image of the unflipped one about the image's middle column.
-/

namespace HhuOS

namespace Game

variable {κ : Type}

/-- What `drawImage2D` reads of a `Graphic::Image`: its size and its pixels, row by row. -/
structure Image (κ : Type) where
  width : Nat
  height : Nat
  pixelBuffer : Nat → κ

/-- A call `pixelDrawer.drawPixel(x, y, color)`. -/
structure PixelCall (κ : Type) where
  x : Int
  y : Int
  color : κ

/-- The column of pixel `j` of a row, `xPixelOffset + xFlipOffset + (flipX ? -1 : 1) * j`. -/
def column (xPixelOffset : Int) (width : Nat) (flipX : Bool) (j : Nat) : Int :=
  let xFlipOffset : Int := if flipX then width - 1 else 0
  xPixelOffset + xFlipOffset + (if flipX then -1 else 1) * j

/-- The two loops of `drawImage2D`: pixel `j` of row `i` on its column and row
`yPixelOffset - i`. -/
def imagePixels (xPixelOffset yPixelOffset : Int) (image : Image κ) (flipX : Bool) :
    List (PixelCall κ) :=
  (List.range image.height).flatMap fun i => (List.range image.width).map fun j =>
    ⟨column xPixelOffset image.width flipX j, yPixelOffset - i, image.pixelBuffer (i * image.width + j)⟩

/-- `Graphics::drawImage2D` on a frame buffer of `resolutionX` by `resolutionY` pixels: nothing
when the image is off the screen by the test at the top, the loops otherwise. -/
def drawImage2D (resolutionX resolutionY : Nat) (xPixelOffset yPixelOffset : Int) (image : Image κ)
    (flipX : Bool) : List (PixelCall κ) :=
  if xPixelOffset + image.width < 0 ∨ xPixelOffset > resolutionX ∨
      yPixelOffset - image.height > resolutionY ∨ yPixelOffset < 0 then []
  else imagePixels xPixelOffset yPixelOffset image flipX

/-- A pixel on the screen. -/
def PixelCall.OnScreen (resolutionX resolutionY : Nat) (p : PixelCall κ) : Prop :=
  0 ≤ p.x ∧ p.x < resolutionX ∧ 0 ≤ p.y ∧ p.y < resolutionY

instance (resolutionX resolutionY : Nat) (p : PixelCall κ) :
    Decidable (p.OnScreen resolutionX resolutionY) :=
  inferInstanceAs (Decidable (_ ∧ _ ∧ _ ∧ _))

/-- The column of pixel `j`: from the left edge, or from the right one when flipped. -/
lemma column_eq (xPixelOffset : Int) (width : Nat) (flipX : Bool) (j : Nat) :
    column xPixelOffset width flipX j = xPixelOffset + if flipX then (width - 1 - j : Int) else j := by
  cases flipX <;> simp only [column, if_true, if_false, Bool.false_eq_true] <;> omega

/-- The loops draw exactly pixel `j` of row `i` for each `i < height` and `j < width`. -/
lemma mem_imagePixels {xPixelOffset yPixelOffset : Int} {image : Image κ} {flipX : Bool}
    {p : PixelCall κ} :
    p ∈ imagePixels xPixelOffset yPixelOffset image flipX ↔
      ∃ i < image.height, ∃ j < image.width, p = ⟨column xPixelOffset image.width flipX j,
        yPixelOffset - i, image.pixelBuffer (i * image.width + j)⟩ := by
  simp only [imagePixels, List.mem_flatMap, List.mem_map, List.mem_range, eq_comm (b := p)]

/-- The test at the top of `drawImage2D` is sound, and the loops draw each position once: every
pixel of the image that would land on the screen is drawn, and no two calls draw on one
position. -/
theorem drawImage2D_draws_onScreen (resolutionX resolutionY : Nat) (xPixelOffset yPixelOffset : Int)
    (image : Image κ) (flipX : Bool) :
    (∀ p ∈ imagePixels xPixelOffset yPixelOffset image flipX, p.OnScreen resolutionX resolutionY →
      p ∈ drawImage2D resolutionX resolutionY xPixelOffset yPixelOffset image flipX) ∧
    ((drawImage2D resolutionX resolutionY xPixelOffset yPixelOffset image flipX).map
      fun p => (p.x, p.y)).Nodup := by
  refine ⟨fun p hp hon => ?_, ?_⟩
  · obtain ⟨i, hi, j, hj, rfl⟩ := mem_imagePixels.1 hp
    rw [drawImage2D, if_neg]
    · exact hp
    simp only [PixelCall.OnScreen, column_eq] at hon
    cases flipX <;> simp only [if_true, if_false, Bool.false_eq_true] at hon <;> omega
  · unfold drawImage2D
    split
    · exact List.nodup_nil
    simp only [imagePixels, List.map_flatMap, List.map_map]
    refine List.nodup_flatMap.2 ⟨fun i _ => List.Nodup.map (fun j j' h => ?_) (List.nodup_range _),
      (List.pairwise_lt_range _).imp fun {i i'} hlt => ?_⟩
    · simp only [Function.comp, Prod.mk.injEq, column_eq] at h
      cases flipX <;> simp only [if_true, if_false, Bool.false_eq_true] at h <;> omega
    · intro a ha hb
      simp only [List.mem_map, List.mem_range, Function.comp] at ha hb
      obtain ⟨j, -, rfl⟩ := ha
      obtain ⟨j', -, h⟩ := hb
      simp only [Prod.mk.injEq] at h
      omega

/-- The column of the mirror image of `x` about the middle column of an image of `width` pixels
at `xPixelOffset`. -/
def mirror (xPixelOffset : Int) (width : Nat) (x : Int) : Int := 2 * xPixelOffset + width - 1 - x

/-- A flipped image is drawn as the mirror image of the unflipped one: the same calls in the same
order, each on the column mirrored about the image's middle column. -/
theorem drawImage2D_flip (resolutionX resolutionY : Nat) (xPixelOffset yPixelOffset : Int)
    (image : Image κ) :
    drawImage2D resolutionX resolutionY xPixelOffset yPixelOffset image true =
      (drawImage2D resolutionX resolutionY xPixelOffset yPixelOffset image false).map
        fun p => { p with x := mirror xPixelOffset image.width p.x } := by
  unfold drawImage2D
  split
  · rfl
  simp only [imagePixels, List.map_flatMap, List.map_map]
  congr 1
  funext i
  congr 1
  funext j
  simp only [Function.comp, column_eq, mirror, if_true, if_false, Bool.false_eq_true, PixelCall.mk.injEq,
    and_true]
  omega

end Game

end HhuOS
