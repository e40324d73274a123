import StyledTemplate.Error
import StyledTemplate.Files.Tree

/-!
# Loading images

The bytes of an image that is bound by its path come from a loader, which reads files, keeps images
in memory, or is any other function from paths.
-/

namespace StyledTemplate

/-- Where the bytes of images come from. -/
inductive ImageLoader where
  /-- From files, which are searched for in some directories. -/
  | files (tree : FileTree) (dirs : List String)
  /-- From memory, each image with the path it is stored under, the latest first. -/
  | memory (images : List (String × List UInt8))
  /-- From anywhere else. -/
  | custom (load : String → Except Error (List UInt8))
  deriving Inhabited

namespace ImageLoader

/-- A loader that reads files reads these from now on. Any other loader stays as it is. -/
def setFiles (loader : ImageLoader) (files : FileTree) : ImageLoader :=
  match loader with
  | .files _ dirs => .files files dirs
  | other => other

/-- Stores an image in memory. Any other loader stays as it is. -/
def add (loader : ImageLoader) (path : String) (data : List UInt8) : ImageLoader :=
  match loader with
  | .memory images => .memory ((path, data) :: images)
  | other => other

/-- A loader that keeps some images in memory. -/
def ofList (images : List (String × List UInt8)) : ImageLoader :=
  images.foldl (fun loader image => loader.add image.1 image.2) (.memory [])

/-- The bytes of the image at a path. If files or the memory do not have it, or the first file that is
found cannot be read, the error is named by the path. Paths in memory are compared by their
components. -/
def load (loader : ImageLoader) (path : String) : Except Error (List UInt8) :=
  match loader with
  | .files tree dirs =>
    match tree.search? dirs path with
    | some (_, .ok data) => .ok data
    | some (found, .error reason) =>
      .error (.imageLoad path s!"error reading '{found}': {reason}")
    | none => .error (.imageLoad path s!"not found in directories: {dirsText dirs}")
  | .memory images =>
    match images.find? fun image => components image.1 = components path with
    | some image => .ok image.2
    | none => .error (.imageLoad path "not found in memory loader")
  | .custom load => load path

end ImageLoader

end StyledTemplate
