/-
Ascending lists of distinct names, the order being that of the code points (which is that of the UTF-8 bytes).
-/
namespace Foreman.Names

/-- a name put in its place; a name that is there already changes nothing -/
def insert (n : String) : List String → List String
  | [] => [n]
  | m :: r => if n < m then n :: m :: r else if n = m then m :: r else m :: insert n r

/-- the distinct names of a list, ascending -/
def ofList (ns : List String) : List String := ns.foldl (fun acc n => insert n acc) []

end Foreman.Names
