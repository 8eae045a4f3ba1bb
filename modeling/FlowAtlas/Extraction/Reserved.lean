namespace FlowAtlas.Extraction

def controlWords : List String :=
  ["if", "else", "elif", "for", "foreach", "while", "do", "switch", "case", "break", "continue", "return",
   "try", "catch", "except", "finally", "throw", "throws", "raise", "goto", "defer", "go", "match", "loop",
   "when", "select", "yield", "await", "with", "assert", "pass", "synchronized", "fixed", "checked",
   "unchecked"]

def declarationWords : List String :=
  ["new", "delete", "this", "self", "super", "var", "let", "const", "val", "function", "func", "fn", "fun",
   "def", "lambda", "class", "struct", "interface", "enum", "extends", "implements", "import", "export",
   "from", "default", "async", "not", "and", "or", "in", "is", "of", "typeof", "instanceof", "void", "sizeof",
   "using", "namespace", "package", "static", "public", "private", "protected"]

def literalWords : List String :=
  ["true", "false", "null", "undefined", "None", "True", "False", "nil", "console", "log", "document",
   "window", "require", "module", "print", "println", "printf"]

def isReserved (word : String) : Bool :=
  controlWords.contains word || declarationWords.contains word || literalWords.contains word

end FlowAtlas.Extraction
