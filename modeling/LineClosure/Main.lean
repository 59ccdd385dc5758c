import LineClosure.CommandLine.Program

/-! The program on real files. It reads the input that the arguments name, runs on a tree
that holds it, and writes what the run added to the tree. -/

namespace LineClosure.CommandLine

/-- Halves of surrogate pairs cannot be printed, nor name a real file; a replacement character
stands for each. -/
def printable : Text → String
  | .whole s => s
  | .torn points _ =>
    String.ofList (points.map fun point => if isHalf point then '\ufffd' else Char.ofNat point)

def placePath (place : Location) : String :=
  let spelled (parts : List Text) : String := printable (Text.join "/" parts)
  if place.take 1 = [FileTree.root] then "/" ++ spelled (place.drop 1) else spelled place

def treeOf (path : Text) : IO FileTree := do
  match ← (IO.FS.readBinFile (printable path)).toBaseIO with
  | .error _ => return {}
  | .ok content =>
    let folders := (FileTree.parts path).dropLast.reverse
    match FileTree.makeFolders {} (FileTree.origin path) folders with
    | .error _ => return {}
    | .ok tree => return ((tree.locate path).map (tree.setFile · content)).toOption.getD {}

def materialise (before after : FileTree) : IO Unit := do
  for folder in after.folders do
    if !before.folders.contains folder then IO.FS.createDirAll (placePath folder)
  for (place, content) in after.files do
    if before.content? place != some content then
      IO.FS.writeBinFile (placePath place) content

end LineClosure.CommandLine

open LineClosure LineClosure.CommandLine in
def main (arguments : List String) : IO UInt32 := do
  let arguments := arguments.map Text.whole
  let before ← match (readSettings arguments).toOption.bind Settings.input with
    | some input => treeOf input
    | none => pure {}
  let exit := runProgram arguments before
  match ← (materialise before exit.files).toBaseIO with
  | .error e =>
    (← IO.getStderr).putStr ("Error: " ++ toString e ++ "\n")
    return 1
  | .ok _ =>
    (← IO.getStdout).putStr (printable exit.output)
    (← IO.getStderr).putStr (printable exit.complaint)
    return exit.code.toUInt32
