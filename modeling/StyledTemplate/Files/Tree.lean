import StyledTemplate.Files.Path
import StyledTemplate.Text.Hidden

/-!
# Files

Templates, images and settings are read from the files of the world around the program. What the
program learns of a file is a function of the path it asks for, relative or from the root: that
there is no file, or what reading it comes to.

A working directory whose files are listed gives such a function. It has a name of its own in a
directory of which nothing else is known.
-/

namespace StyledTemplate

/-- The files that a program can see. -/
structure FileTree where
  /-- What reading the file at a path comes to, if there is a file: its bytes, or why it cannot be
  read. -/
  file? : String → Option (Except String (List UInt8)) := fun _ => none
  deriving Inhabited

namespace FileTree

/-- The bytes of the file at a path, if there is one that can be read. -/
def read? (tree : FileTree) (path : String) : Option (List UInt8) :=
  (tree.file? path).bind Except.toOption

/-- The paths at which a file is searched for in some directories, and at last in the working
directory. A path from the root is the only one for itself. -/
def candidates (dirs : List String) (path : String) : List String :=
  if isAbsolutePath path then [path] else dirs.map (joinPath · path) ++ [path]

/-- The first path at which there is a file, and what reading it comes to. -/
def search? (tree : FileTree) (dirs : List String) (path : String) :
    Option (String × Except String (List UInt8)) :=
  (candidates dirs path).findSome? fun found => (tree.file? found).map fun data => (found, data)

/-- What is found is the first of the candidates that is a file. -/
theorem search?_eq_some_iff {tree : FileTree} {dirs : List String} {path found : String}
    {outcome : Except String (List UInt8)} :
    tree.search? dirs path = some (found, outcome) ↔
      ∃ before after, candidates dirs path = before ++ found :: after ∧
        (∀ other ∈ before, tree.file? other = none) ∧ tree.file? found = some outcome := by
  rw [search?, List.findSome?_eq_some_iff]
  constructor
  · rintro ⟨before, candidate, after, hsplit, hfound, hbefore⟩
    obtain ⟨data, hdata, hpair⟩ := Option.map_eq_some_iff.1 hfound
    obtain ⟨rfl, rfl⟩ := Prod.mk.inj hpair
    exact ⟨before, after, hsplit, fun other h => Option.map_eq_none_iff.1 (hbefore other h), hdata⟩
  · rintro ⟨before, after, hsplit, hbefore, hfound⟩
    refine ⟨before, found, after, hsplit, ?_, fun other h => ?_⟩
    · rw [hfound]
      rfl
    · rw [hbefore other h]
      rfl

end FileTree

/-! ## Working directories -/

/-- The files in a working directory. -/
structure WorkingDir where
  /-- The name of the working directory. -/
  name : String
  /-- The files, each with its path below the working directory and its bytes. -/
  files : List (List String × List UInt8)

namespace WorkingDir

/-- The working directory with the files at the given paths. -/
def ofList (name : String) (files : List (String × List UInt8)) : WorkingDir where
  name := name
  files := files.map fun file => ((pathPieces file.1).filter isProperPiece, file.2)

/-- The bytes of the file at some place, seen from the parent of the working directory. -/
def fileAt? (dir : WorkingDir) (place : List String) : Option (List UInt8) :=
  dir.files.findSome? fun file => if dir.name :: file.1 = place then some file.2 else none

/-- Is there a directory at some place, seen from the parent of the working directory? -/
def isDirectory (dir : WorkingDir) (place : List String) : Bool :=
  place = [] || place = [dir.name] ||
    dir.files.any fun file => place.isPrefixOf (dir.name :: file.1).dropLast

/-- Follows the pieces of a path from a directory. A file must be the last piece. -/
def follow (dir : WorkingDir) (place : List String) : List String → Option (List UInt8)
  | [] => none
  | piece :: pieces =>
    if piece = "" ∨ piece = "." then follow dir place pieces
    else if piece = ".." then
      if place = [] then none else follow dir place.dropLast pieces
    else
      let next := place ++ [piece]
      if dir.isDirectory next then follow dir next pieces
      else if pieces = [] then dir.fileAt? next
      else none

/-- The bytes of the file at a path from the working directory. There are no files at paths from the
root, since it is not known where the working directory is. -/
def bytes? (dir : WorkingDir) (path : String) : Option (List UInt8) :=
  if isAbsolutePath path then none else dir.follow [dir.name] (pathPieces path)

end WorkingDir

/-- The files at the given paths below a working directory, all of which can be read. -/
def FileTree.ofList (name : String) (files : List (String × List UInt8)) : FileTree where
  file? path := ((WorkingDir.ofList name files).bytes? path).map .ok

/-- The text that some bytes are the UTF-8 form of. -/
def textOfBytes? (data : List UInt8) : Option String := String.fromUTF8? ⟨data.toArray⟩

/-! ## Lists of directories in messages -/

/-- A character of a path as it is shown between double quotes: what is hidden is written by its
code point. -/
def quotedChar (c : Char) : List Char :=
  match c with
  | '"' => ['\\', '"']
  | '\\' => ['\\', '\\']
  | '\n' => ['\\', 'n']
  | '\r' => ['\\', 'r']
  | '\t' => ['\\', 't']
  | '\x00' => ['\\', '0']
  | c =>
    if Text.isHidden c then
      ['\\', 'u', '\x7b'] ++ Nat.toDigits 16 c.toNat ++ ['\x7d']
    else [c]

/-- A path as it is shown in a list. -/
def quotedPath (path : String) : String :=
  String.ofList ('"' :: path.toList.flatMap quotedChar ++ ['"'])

/-- A list of directories as it is shown in messages. -/
def dirsText (dirs : List String) : String := "[" ++ ", ".intercalate (dirs.map quotedPath) ++ "]"

end StyledTemplate
