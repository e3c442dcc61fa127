/-!
# Terminal styling

Text between an escape sequence that switches a style on and the one that switches every style
off.  The escape sequences are those that terminals share: `ESC [ 1 m` for bold, `ESC [ 4 m` for
underline and `ESC [ 0 m` to reset.
-/

namespace StackLang.Style

/-- Switches bold on. -/
def startBold : String := "\x1b[1m"

/-- Switches underline on. -/
def startUnderline : String := "\x1b[4m"

/-- Switches every style off. -/
def reset : String := "\x1b[0m"

/-- A text shown in bold. -/
def bold (text : String) : String := startBold ++ text ++ reset

/-- A text shown underlined. -/
def underlined (text : String) : String := startUnderline ++ text ++ reset

end StackLang.Style
