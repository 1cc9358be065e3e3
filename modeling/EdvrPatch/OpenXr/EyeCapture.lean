import EdvrPatch.OpenXr.FrameBoundary

/-! The eyes, and what is kept of a submitted one (`eye_capture.cpp`). Contents, bounds, views and
placements are values of any types: nothing here computes with them. -/
namespace EdvrPatch.OpenXr

inductive Eye where
  | left | right
  deriving DecidableEq, Repr

/-- The values that the host passes on without looking into them. -/
structure Media where
  Pixels : Type
  Bounds : Type
  View : Type
  Placement : Type
  fullBounds : Bounds
  noPlacement : Placement

inductive EColorSpace where
  | auto | gamma | linear
  deriving DecidableEq, Repr

structure Image (m : Media) where
  pixels : m.Pixels
  bounds : m.Bounds
  colorSpace : EColorSpace

structure Picture (m : Media) where
  texture : Option m.Pixels
  bounds : m.Bounds
  colorSpace : EColorSpace

def Image.picture {m : Media} (image : Image m) : Picture m :=
  ⟨some image.pixels, image.bounds, image.colorSpace⟩

end EdvrPatch.OpenXr
