/-!
Texts with a separator between each two.
-/

namespace Miaou.Text

def separated (separator : String) : List String → String
  | [] => ""
  | [text] => text
  | text :: more => text ++ separator ++ separated separator more

end Miaou.Text
