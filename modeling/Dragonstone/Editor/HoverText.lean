/-
# Hover texts without markup

Tooltips show plain text, so the fences around code are left out.
-/

import Dragonstone.Text.DisplayLine

namespace Dragonstone.Editor

def isFence (line : Line) : Bool :=
  "```".toList.isPrefixOf line

def plainHover (contents : Text) : Text :=
  ['\n'].intercalate ((displayLines contents).filter fun line => !isFence line)

end Dragonstone.Editor
