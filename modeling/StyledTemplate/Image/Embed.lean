import StyledTemplate.Bindings.Basic
import StyledTemplate.Error
import StyledTemplate.Image.Header

/-!
# Embedding images

An image is embedded with its bytes, its size in pixels and the size it takes on the page, which
follows from the pixels unless another size is wanted.
-/

namespace StyledTemplate

/-- The length of a pixel in millimetres, at 96 pixels an inch. -/
def mmPerPixel : Float := 25.4 / 96.0

/-- The width and the height of an image on the page, in millimetres. A length that is not wanted
follows from the other one if the aspect ratio is kept, and from the pixels otherwise. -/
def ImagePlacement.displaySize (placement : ImagePlacement) (width height : UInt32) :
    Float × Float :=
  let naturalWidth := width.toFloat * mmPerPixel
  let naturalHeight := height.toFloat * mmPerPixel
  match placement.size with
  | none => (naturalWidth, naturalHeight)
  | some size =>
    let w := size.widthMm
    let h := size.heightMm
    match decide (w > 0), decide (h > 0) with
    | true, true => (w, h)
    | true, false =>
      if size.keepAspectRatio && width > 0 then (w, w * height.toFloat / width.toFloat)
      else (w, naturalHeight)
    | false, true =>
      if size.keepAspectRatio && height > 0 then (h * width.toFloat / height.toFloat, h)
      else (naturalWidth, h)
    | false, false => (naturalWidth, naturalHeight)

/-- Embeds the image with the given bytes for the placeholder `name`. -/
def ImageBinding.embed (binding : ImageBinding) (name : String) (data : List UInt8) :
    Except Error EmbeddedImage :=
  match ImageFormat.ofBytes? data with
  | none => .error (.imageLoad name "unsupported image format")
  | some format =>
    match format.size? data with
    | none => .error (.imageLoad name s!"truncated or corrupt {format.extension} header")
    | some (width, height) =>
      let pixelWidth := UInt32.ofNat width
      let pixelHeight := UInt32.ofNat height
      let size := binding.placement.displaySize pixelWidth pixelHeight
      .ok {
        name, format, data, pixelWidth, pixelHeight
        widthMm := size.1
        heightMm := size.2
        position := binding.placement.position
        wrap := binding.placement.wrap
        alignment := binding.placement.alignment
        offsetXMm := binding.placement.offsetXMm
        offsetYMm := binding.placement.offsetYMm
        altText := binding.altText
        title := binding.title }

end StyledTemplate
