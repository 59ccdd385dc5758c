import LineClosure.Storage.FileName

/-! The files that a job reads and writes, as far as it can see them. The rules are those
that decide whether a write is refused. The root, the working folder and the folders above
it are always there. -/

namespace LineClosure

/-- A place by its path from the working folder, or from the root if it begins with `/`.
Parts `..` occur only in front and lead out of the working folder. -/
abbrev Location := List Text

structure FileTree where
  folders : List Location := []
  files : List (Location × ByteArray) := []

inductive StorageFault where
  | missing
  /-- A file is where a folder has to be. -/
  | noFolder
  | isFolder
  /-- A file is where a folder is to be made. -/
  | occupied
  | tooLong
  | embeddedNul
  | noBytes
deriving DecidableEq

structure StorageError where
  fault : StorageFault
  path : Text
deriving DecidableEq

namespace FileTree

def maxNameBytes : Nat := 255

def maxPathBytes : Nat := 4095

/-- The parts of a path as they are spelled. Empty parts and single points lead nowhere. -/
def spelledParts (path : Text) : List Text :=
  (path.split '/').filter fun part => part ≠ "" && part ≠ "."

def parts (path : Text) : List Text := (spelledParts path).map FileName.normal

def isAbsolute (path : Text) : Bool := path.startsWith "/"

def spell (absolute : Bool) (parts : List Text) : Text :=
  let spelled := Text.join "/" parts
  if absolute then "/" ++ spelled else if parts.isEmpty then "." else spelled

def pathText (path : Text) : Text := spell (isAbsolute path) (spelledParts path)

def root : Text := "/"

def upward : Text := ".."

def origin (path : Text) : Location := if isAbsolute path then [root] else []

/-- One part further. Above the root there is nothing. -/
def step (here : Location) (part : Text) : Location :=
  if part ≠ upward then here ++ [part]
  else if here = [root] then here
  else if here.all (· = upward) then here ++ [upward]
  else here.dropLast

def isFolder (tree : FileTree) (place : Location) : Bool :=
  place.all (· = upward) || place = [root] || tree.folders.contains place

def content? (tree : FileTree) (place : Location) : Option ByteArray := tree.files.lookup place

def enter (tree : FileTree) (here : Location) (part : Text) : Except StorageFault Location :=
  if tree.isFolder here then
    if FileName.byteSize part > maxNameBytes then .error .tooLong else .ok (step here part)
  else if (tree.content? here).isSome then .error .noFolder
  else .error .missing

/-- Where the parts of a path lead. All but the last have to be folders. -/
def walk (tree : FileTree) (start : Location) (parts : List Text) : Except StorageFault Location :=
  parts.foldlM tree.enter start

def checkPath (path : Text) : Except StorageFault Unit :=
  if !FileName.hasBytes path then .error .noBytes
  else if path.contains '\x00' then .error .embeddedNul
  else if FileName.byteSize (pathText path) > maxPathBytes then .error .tooLong
  else .ok ()

def locate (tree : FileTree) (path : Text) : Except StorageFault Location := do
  checkPath path
  tree.walk (origin path) (parts path)

def read (tree : FileTree) (path : Text) : Except StorageFault ByteArray := do
  let place ← tree.locate path
  match tree.content? place with
  | some content => return content
  | none => throw (if tree.isFolder place then .isFolder else .missing)

def makeLast (tree : FileTree) (start : Location) (parts : List Text) :
    Except StorageFault FileTree := do
  let place ← tree.walk start parts
  if tree.isFolder place then return tree
  else if (tree.content? place).isSome then throw .occupied
  else return { tree with folders := tree.folders ++ [place] }

/-- Makes the folders of a path that are missing. The parts are given last first, since each
folder is tried before the one around it. A fault comes with the parts up to it. -/
def makeFolders (tree : FileTree) (start : Location) :
    List Text → Except (StorageFault × List Text) FileTree
  | [] => .ok tree
  | part :: before =>
    let spelled := (part :: before).reverse
    let names := spelled.map FileName.normal
    match tree.makeLast start names with
    | .ok tree => .ok tree
    | .error .missing => do
      let tree ← makeFolders tree start before
      (tree.makeLast start names).mapError fun fault => (fault, spelled)
    | .error fault => .error (fault, spelled)

def makeFolder (tree : FileTree) (path : Text) : Except StorageError FileTree :=
  match checkPath path with
  | .error fault => .error ⟨fault, pathText path⟩
  | .ok _ =>
    (tree.makeFolders (origin path) (spelledParts path).reverse).mapError fun (fault, spelled) =>
      ⟨fault, spell (isAbsolute path) spelled⟩

def setFile (tree : FileTree) (place : Location) (content : ByteArray) : FileTree :=
  if tree.files.any (·.1 = place) then
    { tree with
      files := tree.files.map fun file => if file.1 = place then (place, content) else file }
  else { tree with files := tree.files ++ [(place, content)] }

/-- The path of a name in a folder. An absolute name leads away from the folder. -/
def join (folder name : Text) : Text :=
  if isAbsolute name then name else pathText folder ++ "/" ++ name

def locateIn (tree : FileTree) (folder name : Text) : Except StorageFault Location := do
  checkPath (join folder name)
  if isAbsolute name then tree.walk [root] (parts name)
  else tree.walk (origin folder) (parts folder ++ parts name)

/-- Writes a file of a folder. A name may lead through further folders, which have to exist. -/
def write (tree : FileTree) (folder name : Text) (content : ByteArray) :
    Except StorageError FileTree :=
  let refuse (fault : StorageFault) : Except StorageError FileTree :=
    .error ⟨fault, pathText (join folder name)⟩
  match tree.locateIn folder name with
  | .error fault => refuse fault
  | .ok place => if tree.isFolder place then refuse .isFolder else .ok (tree.setFile place content)

def below (tree : FileTree) (folder : Location) : List (Text × ByteArray) :=
  tree.files.filterMap fun (place, content) =>
    if place.take folder.length = folder ∧ folder.length < place.length then
      some (Text.join "/" (place.drop folder.length), content)
    else none

end FileTree
end LineClosure
