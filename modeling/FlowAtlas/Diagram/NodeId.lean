namespace FlowAtlas.Diagram

/-- The letters of a count, the last one first. Each letter stands for 1 to 26 times its place; no letter
stands for zero. -/
def lettersReversed (count : Nat) : List Char :=
  if count = 0 then []
  else Char.ofNat (65 + (count - 1) % 26) :: lettersReversed ((count - 1) / 26)
termination_by count
decreasing_by omega

def idOfCount (count : Nat) : String := String.ofList (lettersReversed count).reverse

def nodeId (index : Nat) : String := idOfCount (index + 1)

end FlowAtlas.Diagram
