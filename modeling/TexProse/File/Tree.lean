import TexProse.File.Path

/-!
# Directories and files

What stands at the end of a path, seen from a working directory. The directories above it are there, and
nothing else outside it is known.
-/

namespace TexProse

/-- What a path leads to. -/
inductive Entry where
  | directory
  /-- A file with its contents, or with the reason for which they cannot be had. -/
  | file (contents : Except String ByteArray)
  | absent

/-- What every path leads to. -/
abbrev FileView := String → Entry

/-- Directories and files under a working directory, each by its parts from there. A directory that
holds something need not be listed. -/
structure FileTree where
  directories : List (List (List Char)) := []
  files : List (List (List Char) × ByteArray) := []

namespace FileTree

/-- The parts of a path that lead somewhere. -/
def parts (path : String) : List (List Char) := (Path.split path.toList).filter (!Path.isIdle ·)

/-- Directories and files by their paths. -/
def ofPaths (directories : List String) (files : List (String × ByteArray)) : FileTree where
  directories := directories.map parts
  files := files.map fun file => (parts file.1, file.2)

def file? (tree : FileTree) (place : List (List Char)) : Option ByteArray := tree.files.lookup place

/-- Whether a place is a directory, by name or for what it holds. -/
def isDirectory (tree : FileTree) (place : List (List Char)) : Bool :=
  place = [] || tree.directories.any place.isPrefixOf || tree.files.any (place.isPrefixOf ·.1.dropLast)

/-- Follows parts from a directory, none being somewhere above the tree. -/
def follow (tree : FileTree) : Option (List (List Char)) → List (List Char) → Entry
  | _, [] => .directory
  | directory, part :: rest =>
    if Path.isIdle part then follow tree directory rest
    else if part = ['.', '.'] then
      follow tree (directory.bind fun place => if place = [] then none else some place.dropLast) rest
    else
      match directory with
      | none => .absent
      | some place =>
        let place := place ++ [part]
        match tree.file? place with
        | some contents => if rest = [] then .file (.ok contents) else .absent
        | none => if tree.isDirectory place then follow tree (some place) rest else .absent

/-- What a path leads to. A path from the root leads out of the tree, and the empty path nowhere. -/
def view (tree : FileTree) : FileView := fun path =>
  match path.toList with
  | [] => .absent
  | '/' :: rest => tree.follow none (Path.split rest)
  | cs => tree.follow (some []) (Path.split cs)

end FileTree

end TexProse
