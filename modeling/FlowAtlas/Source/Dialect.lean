import FlowAtlas.Text.Case

namespace FlowAtlas

/-- How blocks are written: in braces with function literals, by indentation, or in braces with typed
declarations. -/
inductive Dialect where
  | brace
  | indent
  | generic
  deriving DecidableEq, Repr

namespace Dialect

def all : List Dialect := [brace, indent, generic]

def label : Dialect → String
  | brace => "brace"
  | indent => "indent"
  | generic => "generic"

def extensions : List (String × Dialect) :=
  [(".js", brace), (".jsx", brace), (".mjs", brace), (".cjs", brace), (".ts", brace), (".tsx", brace),
   (".py", indent), (".java", generic), (".cs", generic), (".cpp", generic), (".cc", generic), (".c", generic),
   (".h", generic), (".hpp", generic), (".go", generic), (".rs", generic), (".kt", generic),
   (".swift", generic)]

end Dialect

/-- The part of a file name from its last point, unless only points stand before it. -/
def extension (name : List Char) : List Char :=
  let tail := (name.reverse.takeWhile (· != '.')).reverse
  let stem := name.take (name.length - tail.length - 1)
  if tail.length < name.length && stem.any (· != '.') then '.' :: tail else []

def baseName (path : List Char) : List Char := (path.reverse.takeWhile (· != '/')).reverse

def Dialect.ofFileName? (path : String) : Option Dialect :=
  extensions.lookup (String.ofList (Text.lower (extension (baseName path.toList))))

end FlowAtlas
