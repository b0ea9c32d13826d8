import Miaou.Number.Binary64

/-!
JSON documents with their fields in a fixed order.
-/

namespace Miaou

inductive Json where
  | null
  | bool (value : Bool)
  | int (value : Int)
  | float (value : Binary64)
  | str (value : String)
  | array (items : List Json)
  | object (fields : List (String × Json))
  deriving Repr

end Miaou
