import BlockStage.Text.Quoted

/-! # Files by name

    A path is a list of names.  Repeated separators and the name of the
    folder itself say nothing and are left out.  A folder held in memory
    knows its files and its folders, and a file that is looked for is found
    by walking from name to name. -/

namespace BlockStage

/-- A file name in its shortest spelling. -/
structure FileName where
  /-- What it begins with, if it does not begin in the folder itself. -/
  root : String
  /-- The names on the way. -/
  names : List String
deriving DecidableEq

/-- Why a file cannot be read. -/
inductive FileFault where
  /-- There is nothing of that name. -/
  | notFound
  /-- A file stands where a folder should. -/
  | notAFolder
  /-- It is a folder. -/
  | isAFolder
  /-- A name, or the whole path, is too long. -/
  | nameTooLong
  /-- A name holds a character that no name can hold. -/
  | nullCharacter
  /-- The system gives another reason. -/
  | refused (code : Nat) (reason : String)
deriving DecidableEq

namespace FileName

/-- Whether a character separates names. -/
def isSeparator (c : Char) : Bool := c = '/'

/-- What a path begins with: two separators are kept, more count as
    one. -/
def rootOf (cs : List Char) : String :=
  match (cs.takeWhile isSeparator).length with
  | 0 => ""
  | 2 => "//"
  | _ => "/"

/-- A path read from its spelling. -/
def ofText (s : String) : FileName :=
  ⟨rootOf s.toList,
    ((s.toList.splitOnP isSeparator).map String.ofList).filter fun name =>
      name ≠ "" ∧ name ≠ "."⟩

/-- The spelling of a path. -/
def text (p : FileName) : String :=
  if p.root = "" ∧ p.names = [] then "."
  else p.root ++ "/".intercalate p.names

/-- Whether a name has more bytes than any name can have. -/
def isLong (name : String) : Bool := 255 < name.utf8ByteSize

/-- Whether a path has more bytes than any path can have. -/
def isTooLong (p : FileName) : Bool := 4095 < p.text.utf8ByteSize

end FileName

/-- The wording of a fault at a path. -/
def FileFault.message (p : FileName) : FileFault → String
  | .notFound => numbered 2 "No such file or directory"
  | .notAFolder => numbered 20 "Not a directory"
  | .isAFolder => numbered 21 "Is a directory"
  | .nameTooLong => numbered 36 "File name too long"
  | .nullCharacter => "embedded null byte"
  | .refused code reason => numbered code reason
where
  /-- A reason with its number and the path. -/
  numbered (code : Nat) (reason : String) : String :=
    "[Errno " ++ toString code ++ "] " ++ reason ++ ": "
      ++ Text.quoted p.text

/-- A folder held in memory. -/
structure Folder where
  /-- The files, each with its text. -/
  files : List (List String × String)
  /-- The folders, the ones that hold files left out. -/
  folders : List (List String)

namespace Folder

/-- Whether a path is that of a folder. -/
def isFolder (d : Folder) (names : List String) : Bool :=
  names = [] ∨ d.folders.any (names.isPrefixOf ·)
    ∨ d.files.any fun f => names.isPrefixOf f.1 ∧ names ≠ f.1

/-- The walk along the names from above: nothing is known there but the
    way further up, which ends at a folder that is its own parent. -/
def walkAbove : List String → FileFault
  | [] => .isAFolder
  | name :: rest =>
      if name = ".." then walkAbove rest
      else if FileName.isLong name then .nameTooLong
      else .notFound

/-- The walk along the names from a folder. -/
def walk (d : Folder) (here : List String) :
    List String → Except FileFault String
  | [] =>
      if d.isFolder here then .error .isAFolder
      else
        match d.files.lookup here with
        | some text => .ok text
        | none => .error .notFound
  | name :: rest =>
      if d.isFolder here then
        if name = ".." then
          if here = [] then .error (walkAbove rest)
          else walk d here.dropLast rest
        else if FileName.isLong name then .error .nameTooLong
        else walk d (here ++ [name]) rest
      else if (d.files.lookup here).isSome then .error .notAFolder
      else .error .notFound

/-- The text of the file at a path. -/
def read (d : Folder) (p : FileName) : Except FileFault String :=
  if p.names.any fun name => name.toList.contains (Char.ofNat 0) then
    .error .nullCharacter
  else if p.isTooLong then .error .nameTooLong
  else if p.root = "" then d.walk [] p.names
  else .error (walkAbove p.names)

end Folder

end BlockStage
