namespace FlowAtlas

inductive PathFault where
  | missing
  | notDirectory
  | isDirectory
  | tooLong
  | tooManyLinks
  deriving DecidableEq, Repr

namespace PathFault

def number : PathFault → Nat
  | missing => 2
  | notDirectory => 20
  | isDirectory => 21
  | tooLong => 36
  | tooManyLinks => 40

def reason : PathFault → String
  | missing => "No such file or directory"
  | notDirectory => "Not a directory"
  | isDirectory => "Is a directory"
  | tooLong => "File name too long"
  | tooManyLinks => "Too many levels of symbolic links"

end PathFault

namespace Path

def parts (path : String) : List String := path.splitOn "/"

def isAbsolute (path : String) : Bool := path.toList.head? == some '/'

def join (directory name : String) : String :=
  if directory.isEmpty || directory.toList.getLast? == some '/' then directory ++ name
  else directory ++ "/" ++ name

/-- The parts of an absolute path without the empty ones and the points; two points take back the part before,
if there is one. The result has the last part first. -/
def normalParts : List String → List String → List String
  | done, [] => done
  | done, part :: rest =>
    if part.isEmpty || part == "." then normalParts done rest
    else if part == ".." then normalParts (done.drop 1) rest
    else normalParts (part :: done) rest

/-- The slashes that an absolute path begins with: exactly two stay two, any other number is one. -/
def leadingSlashes (path : String) : String :=
  match path.toList with
  | '/' :: '/' :: '/' :: _ => "/"
  | '/' :: '/' :: _ => "//"
  | _ => "/"

def simplified (path : String) : String :=
  let kept := "/".intercalate ((parts path).filter fun part => !part.isEmpty && part != ".")
  let path := if isAbsolute path then leadingSlashes path ++ kept else kept
  if path.isEmpty then "." else path

def absolute (current path : String) : String :=
  let path := if isAbsolute path then path else join current path
  let path := String.ofList (path.toList.takeWhile (· != '\x00'))
  leadingSlashes path ++ "/".intercalate (normalParts [] (parts path)).reverse

end Path

end FlowAtlas
