import StyledTemplate.Bindings.Basic
import StyledTemplate.Document.Codec
import StyledTemplate.Json.Record

/-!
# Image placements as JSON

The wanted size and the placement of an image are written as records, every field of which may be
left out.
-/

namespace StyledTemplate

open Json (recordParts? fieldD nullable)

namespace ImageSize

/-- Writes a wanted size. -/
def toJson (s : ImageSize) : Json :=
  .object [("height_mm", .float s.heightMm), ("keep_aspect_ratio", .bool s.keepAspectRatio),
    ("width_mm", .float s.widthMm)]

/-- Reads a wanted size. -/
def ofJson? (j : Json) : Option ImageSize := do
  let fields ← recordParts? ["width_mm", "height_mm", "keep_aspect_ratio"] 0 j
  return {
    widthMm := ← fieldD fields "width_mm" Json.float? 0
    heightMm := ← fieldD fields "height_mm" Json.float? 0
    keepAspectRatio := ← fieldD fields "keep_aspect_ratio" Json.bool? false }

end ImageSize

namespace ImagePlacement

/-- Writes a placement. -/
def toJson (p : ImagePlacement) : Json :=
  .object (Fields.ofList [("size", (p.size.map ImageSize.toJson).getD .null),
    ("position", .string p.position.name), ("alignment", Alignment.toJson? p.alignment),
    ("wrap", .string p.wrap.name), ("offset_x_mm", .float p.offsetXMm),
    ("offset_y_mm", .float p.offsetYMm)])

/-- Reads a placement. -/
def ofJson? (j : Json) : Option ImagePlacement := do
  let fields ← recordParts?
    ["size", "position", "alignment", "wrap", "offset_x_mm", "offset_y_mm"] 0 j
  return {
    size := ← fieldD fields "size" (nullable ImageSize.ofJson?) none
    position := ← fieldD fields "position" ImagePosition.ofJson? .inline
    alignment := ← fieldD fields "alignment" (nullable Alignment.ofJson?) none
    wrap := ← fieldD fields "wrap" ImageWrap.ofJson? .none
    offsetXMm := ← fieldD fields "offset_x_mm" Json.float? 0
    offsetYMm := ← fieldD fields "offset_y_mm" Json.float? 0 }

end ImagePlacement

end StyledTemplate
