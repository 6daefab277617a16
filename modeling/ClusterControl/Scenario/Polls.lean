import ClusterControl.Poll.Run

/-!
# Scripted checks
-/

namespace ClusterControl.Scenario

/-- A check that plays a list of replies in turn. The last one repeats, and without any the check
always goes on. -/
def scriptedCheck {α : Type} (script : List (Reply Failure (Outcome α))) : Poll.Check α :=
  fun attempt _ =>
    match script[attempt - 1]?, script.getLast? with
    | some reply, _ => reply
    | none, some reply => reply
    | none, none => ⟨some 0, .ok .goOn⟩

end ClusterControl.Scenario
