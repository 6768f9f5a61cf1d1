/-! # Names made distinct

Names are taken in their order. A name that has been taken before gets the least number from two on
with which it is new, so no two names of the result are the same.
-/

namespace Dataflow.Text

/-- A name with a number behind it. -/
def numbered (name : String) (n : Nat) : String :=
  name ++ "_" ++ toString n

/-- The name itself if nobody has taken it, else the name with the least number that nobody has.
One number more than there are names taken is enough to find one. -/
def fresh (taken : List String) (name : String) : String :=
  if taken.contains name then
    (((List.range' 2 (taken.length + 1)).map (numbered name)).find? (!taken.contains ·)).getD name
  else name

/-- The names made distinct from those taken before and from each other. -/
def distinctFrom (taken : List String) : List String → List String
  | [] => []
  | name :: names => fresh taken name :: distinctFrom (fresh taken name :: taken) names

/-- The names made distinct. -/
def distinct (names : List String) : List String :=
  distinctFrom [] names

end Dataflow.Text
