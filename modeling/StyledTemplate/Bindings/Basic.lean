import StyledTemplate.Document.Basic
import StyledTemplate.Files.Path
import StyledTemplate.Value.Basic

/-!
# Bindings

What the names of a template are bound to: variables, lists, conditions and images, each in a table
of their own. Writing to one table leaves the others alone.
-/

namespace StyledTemplate

/-- The size on the page that an image is wanted in, in millimetres. Zero means that nothing is
wanted. -/
structure ImageSize where
  /-- The wanted width. -/
  widthMm : Float := 0
  /-- The wanted height. -/
  heightMm : Float := 0
  /-- Does a length that is not given follow from the other? -/
  keepAspectRatio : Bool := false
  deriving BEq, Repr, Inhabited

/-- How an image is placed on the page. -/
structure ImagePlacement where
  /-- The wanted size. -/
  size : Option ImageSize := none
  /-- How the image sits among the text. -/
  position : ImagePosition := .inline
  /-- Horizontal alignment. -/
  alignment : Option Alignment := none
  /-- How text wraps around the image. -/
  wrap : ImageWrap := .none
  /-- Horizontal offset of a floating image, in millimetres. -/
  offsetXMm : Float := 0
  /-- Vertical offset of a floating image, in millimetres. -/
  offsetYMm : Float := 0
  deriving BEq, Repr, Inhabited

/-- An image in the line with a wanted width, its height following from it. -/
def ImagePlacement.ofWidth (widthMm : Float) : ImagePlacement :=
  { size := some { widthMm, keepAspectRatio := true } }

/-- Where the bytes of an image are. -/
inductive ImageSource where
  /-- In a file. -/
  | path (path : String)
  /-- Here. -/
  | bytes (data : List UInt8)
  deriving Repr

/-- Are the sources the same? Paths are compared by their components. -/
def ImageSource.same : ImageSource → ImageSource → Bool
  | .path p, .path q => components p == components q
  | .bytes p, .bytes q => p == q
  | _, _ => false

instance : BEq ImageSource := ⟨ImageSource.same⟩

/-- An image that a placeholder is bound to. -/
structure ImageBinding where
  /-- Where the image is. -/
  source : ImageSource
  /-- How the image is placed. -/
  placement : ImagePlacement := {}
  /-- A text that stands for the image. -/
  altText : Option String := none
  /-- The title of the image. -/
  title : Option String := none
  deriving BEq, Repr

/-- What the names of a template are bound to. -/
structure Bindings where
  /-- Variables, with their values. -/
  values : NameMap Value := NameMap.empty
  /-- Lists. -/
  lists : NameMap (List Value) := NameMap.empty
  /-- Conditions. -/
  conditions : NameMap Bool := NameMap.empty
  /-- Images. -/
  images : NameMap ImageBinding := NameMap.empty
  deriving Inhabited

namespace Bindings

/-- Nothing is bound. -/
def empty : Bindings := {}

/-- Binds a variable. -/
def setValue (b : Bindings) (name : String) (value : Value) : Bindings :=
  { b with values := b.values.insert name value }

/-- Binds variables one after the other. -/
def setValues (b : Bindings) (pairs : List (String × Value)) : Bindings :=
  { b with values := b.values.insertAll pairs }

/-- Binds a list. -/
def setList (b : Bindings) (name : String) (entries : List Value) : Bindings :=
  { b with lists := b.lists.insert name entries }

/-- Binds a condition. -/
def setCondition (b : Bindings) (name : String) (flag : Bool) : Bindings :=
  { b with conditions := b.conditions.insert name flag }

/-- Binds an image. -/
def setImage (b : Bindings) (name : String) (image : ImageBinding) : Bindings :=
  { b with images := b.images.insert name image }

/-- Everything that is bound in `other`, and what else is bound in `b`. -/
def merge (b other : Bindings) : Bindings where
  values := b.values.union other.values
  lists := b.lists.union other.lists
  conditions := b.conditions.union other.conditions
  images := b.images.union other.images

/-- Is nothing bound? -/
def isEmpty (b : Bindings) : Bool :=
  b.values.isEmpty && b.lists.isEmpty && b.conditions.isEmpty && b.images.isEmpty

/-- Are the same names bound to equal things? -/
def same (b other : Bindings) : Bool :=
  b.values.entries == other.values.entries && b.lists.entries == other.lists.entries &&
    b.conditions.entries == other.conditions.entries && b.images.entries == other.images.entries

instance : BEq Bindings := ⟨same⟩

end Bindings

end StyledTemplate
