import FlowAtlas.Pattern.Basic

namespace FlowAtlas.Pattern

/-- Characters beyond ASCII that count as a small letter when case is ignored: the i with and without its dot,
the sign of the kelvin, the long s. -/
def caseVariants : List (Char × List Nat) := [('i', [304, 305]), ('k', [8490]), ('s', [383])]

def letter (c : Char) : Pattern :=
  one fun d => d.toLower == c || ((caseVariants.lookup c).getD []).contains d.toNat

def caseless (s : String) : Pattern := inOrder (s.toList.map letter)

end FlowAtlas.Pattern
