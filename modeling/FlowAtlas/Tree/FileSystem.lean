import FlowAtlas.Text.Order
import FlowAtlas.Tree.Basic

/-! A file system with symbolic links, and the tree that is seen at a path. -/

namespace FlowAtlas

inductive Entry where
  | file (name : String) (bytes : List UInt8)
  | link (name : String) (target : String)
  | directory (name : String) (entries : List Entry)

namespace Entry

def name : Entry → String
  | file name _ => name
  | link name _ => name
  | directory name _ => name

def replace (entry : Entry) (entries : List Entry) : List Entry :=
  Text.insertBy name entry (entries.filter fun other => other.name != entry.name)

def entriesOf (name : String) (entries : List Entry) : List Entry :=
  match entries.find? fun entry => entry.name == name with
  | some (directory _ inner) => inner
  | _ => []

def put (path : List String) (entry : Entry) (entries : List Entry) : List Entry :=
  match path with
  | [] => entry.replace entries
  | name :: rest => (directory name (put rest entry (entriesOf name entries))).replace entries

end Entry

/-- The entries of the root directory, and the directory that relative paths begin at. -/
structure FileSystem where
  root : List Entry
  current : String := "/"

namespace FileSystem

/-- Where a path leads: a file, a directory with its entries first, then the directories above with the names
under which they were left, or a place in a directory where nothing is. Files and such places are given with the
names that lead to them from the root. -/
inductive Place where
  | file (names : List String) (bytes : List UInt8)
  | directory (entries : List Entry) (above : List (String × List Entry))
  | vacant (names : List String)

def linkLimit : Nat := 40

def nameLimit : Nat := 255

def pathLimit : Nat := 4095

/-- Follows the parts of a path from a directory; links to be followed are counted down from `links`. A name with a
slash behind it is never that of a file to be written. -/
def follow (root entries : List Entry) (above : List (String × List Entry)) (writing : Bool) (links : Nat)
    (parts : List String) : Except PathFault Place :=
  match parts with
  | [] => .ok (.directory entries above)
  | part :: rest =>
    let names := (above.map (·.1)).reverse ++ [part]
    if part.isEmpty || part == "." then follow root entries above writing links rest
    else if part == ".." then
      match above with
      | [] => follow root entries [] writing links rest
      | (_, outer) :: above => follow root outer above writing links rest
    else if writing && !rest.isEmpty && rest.all (·.isEmpty) then .error .isDirectory
    else if nameLimit < part.utf8ByteSize then .error .tooLong
    else match entries.find? fun entry => entry.name == part with
      | none => if rest.isEmpty then .ok (.vacant names) else .error .missing
      | some (.directory _ inner) => follow root inner ((part, entries) :: above) writing links rest
      | some (.file _ bytes) => if rest.isEmpty then .ok (.file names bytes) else .error .notDirectory
      | some (.link _ target) =>
        match links with
        | 0 => .error .tooManyLinks
        | links + 1 =>
          if Path.isAbsolute target then follow root root [] writing links (Path.parts target ++ rest)
          else follow root entries above writing links (Path.parts target ++ rest)
termination_by (links, parts.length)

def place (system : FileSystem) (writing : Bool) (path : String) : Except PathFault Place :=
  if path.isEmpty then .error .missing
  else if pathLimit < path.utf8ByteSize then .error .tooLong
  else
    let path := if Path.isAbsolute path then path else Path.join system.current path
    follow system.root system.root [] writing linkLimit (Path.parts path)

def isDirectory (system : FileSystem) (path : String) : Bool :=
  match system.place false path with
  | .ok (.directory _ _) => true
  | _ => false

/-- What a link shows: a file, a directory that is not entered, or a file that cannot be read. -/
def seenThrough (name : String) : Except PathFault Place → Tree
  | .ok (.file _ bytes) => .file name (.ok bytes)
  | .ok (.directory _ _) => .linked name
  | .ok (.vacant _) => .file name (.error .missing)
  | .error fault => .file name (.error fault)

/-- What shows of an entry whose path is too long to be used. -/
def beyond : Entry → Tree
  | .file name _ | .link name _ => .file name (.error .tooLong)
  | .directory name _ => .closed name PathFault.tooLong.reason

mutual

def treeOf (root entries : List Entry) (above : List (String × List Entry)) (path : String) (entry : Entry) : Tree :=
  if pathLimit < (Path.join path entry.name).utf8ByteSize then beyond entry
  else match entry with
    | .file name bytes => .file name (.ok bytes)
    | .link name _ => seenThrough name (follow root entries above false linkLimit [name])
    | .directory name inner =>
      .directory name (treesOf root inner ((name, entries) :: above) (Path.join path name) inner)

def treesOf (root entries : List Entry) (above : List (String × List Entry)) (path : String) :
    List Entry → List Tree
  | [] => []
  | entry :: rest => treeOf root entries above path entry :: treesOf root entries above path rest

end

def read (system : FileSystem) (path : String) : Except PathFault (List UInt8) :=
  match system.place false path with
  | .ok (.file _ bytes) => .ok bytes
  | .ok (.directory _ _) => .error .isDirectory
  | .ok (.vacant _) => .error .missing
  | .error fault => .error fault

def putFile (system : FileSystem) (names : List String) (bytes : List UInt8) : FileSystem :=
  { system with root := Entry.put names.dropLast (.file (names.getLast?.getD "") bytes) system.root }

def write (system : FileSystem) (path : String) (bytes : List UInt8) : Except PathFault FileSystem :=
  match system.place true path with
  | .ok (.file names _) | .ok (.vacant names) => .ok (system.putFile names bytes)
  | .ok (.directory _ _) => .error .isDirectory
  | .error fault => .error fault

def list (system : FileSystem) (path : String) : Except PathFault (List Tree) :=
  match system.place false path with
  | .ok (.directory entries above) => .ok (treesOf system.root entries above path entries)
  | .ok (.file _ _) => .error .notDirectory
  | .ok (.vacant _) => .error .missing
  | .error fault => .error fault

end FileSystem

end FlowAtlas
