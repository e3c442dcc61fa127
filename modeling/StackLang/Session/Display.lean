import StackLang.Session.Basic
import StackLang.Text.Ending
import StackLang.Text.Style

/-!
# Displaying lines

The text shown for an executed line.  Without styling it is the output of the session.  With
styling a failed line is shown once more with the failing word underlined, and the message of the
error is set in bold.
-/

namespace StackLang

/-- The line with the part in the column underlined, or the line as it is when the column does not
fit it. -/
def Column.underline (column : Column) (line : String) : String :=
  match column.excerpt? line with
  | some parts => parts.before ++ Style.underlined parts.marked ++ parts.after
  | none => line

namespace Diagnostic

/-- The line with the failing word underlined, as a line of its own, if the word has a place. -/
def echo (d : Diagnostic) (line : String) : String :=
  if d.isLocated then d.column.underline line ++ "\n" else ""

/-- The styled text for a line that failed. -/
def display (d : Diagnostic) (line output : String) : String :=
  d.echo line ++ Text.beforeEnding d.message output ++ Style.bold d.message

end Diagnostic

/-- The text to show for a line with the given output, in the light of the session's last error. -/
def Session.display (session : Session) (line output : String) (styled : Bool) : String :=
  match session.lastError? with
  | none => output
  | some d => if styled then d.display line output else output

namespace Session

/-- Without styles the output is displayed as it is. -/
@[simp] theorem display_plain (session : Session) (line output : String) :
    session.display line output false = output := by
  unfold display
  split <;> rfl

/-- A line that did not fail is displayed as it is. -/
theorem display_of_none {session : Session} (h : session.lastError? = none) (line output : String)
    (styled : Bool) : session.display line output styled = output := by
  simp [display, h]

end Session

end StackLang
